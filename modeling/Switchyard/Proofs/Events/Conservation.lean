import Switchyard.Proofs.Events.Traffic
/-!
No event is lost, doubled or moved past another: at every moment what was added is what has left for good, followed by
the event that a drain holds, followed by the queue. A drain that ends without delivering puts its event back in front.
-/
namespace Switchyard.Events

variable {β : Type}

namespace Traffic

def Mark.added? : Mark β → Option (Posted β)
  | .added e => some e
  | _ => none

def Mark.left? : Mark β → Option (Posted β)
  | .left e => some e
  | _ => none

def added (ms : List (Mark β)) : List (Posted β) := ms.filterMap Mark.added?

def left (ms : List (Mark β)) : List (Posted β) := ms.filterMap Mark.left?

def held (s : Traffic β) : List (Posted β) := s.calls.filterMap Call.held

/-- What is still to be delivered, in the order in which it was added. -/
def pending (s : Traffic β) : List (Posted β) := s.held ++ s.bus.queue

@[simp] theorem added_append (xs ys : List (Mark β)) : added (xs ++ ys) = added xs ++ added ys := by simp [added]
@[simp] theorem left_append (xs ys : List (Mark β)) : left (xs ++ ys) = left xs ++ left ys := by simp [left]

/- What stays the same, and what becomes of the events, when a drain with the events `before` in hand goes on: some are
gone, it has some in hand now, and the others are in the queue. Only the start of the drain is written on those that
stay. -/
structure Accounts (b : Bus (Nat × β)) (before gone now : List (Posted β)) (b' : Bus (Nat × β)) : Prop where
  lock : b'.lock = b.lock
  messaging : b'.messaging = b.messaging
  ignoreMissing : b'.ignoreMissing = b.ignoreMissing
  events : (before ++ b.queue).map Event.core = (gone ++ now ++ b'.queue).map Event.core
  kept : ∀ e ∈ now ++ b'.queue, ∃ e' ∈ before ++ b.queue, e.untaken = e'.untaken

theorem Accounts.gone {b b' : Bus (Nat × β)} {before gone gone' now : List (Posted β)}
    (accounts : Accounts b before gone now b') (same : gone.map Event.core = gone'.map Event.core) :
    Accounts b before gone' now b' :=
  { accounts with events := by simpa [same] using accounts.events }

def inHand : Bus.Next (Nat × β) → List (Posted β)
  | .notify e | .send e _ => [e]
  | _ => []

theorem held_ofNext (d : Bus.Drain) (next : Bus.Next (Nat × β)) : (Call.ofNext d next).held.toList = inHand next := by
  cases next <;> rfl

theorem added_departing (e : Option (Posted β)) (next : Bus.Next (Nat × β)) : added (departing e next) = [] := by
  cases next <;> cases e <;> rfl

theorem left_departing {e e' : Posted β} (same : e'.core = e.core) (next : Bus.Next (Nat × β)) :
    (left (departing (some e') next)).map Event.core = (left (departing (some e) next)).map Event.core := by
  cases next <;> simp [departing, left, Mark.left?, same]

/-- The answers that complete the delivery in process. -/
def Completes (ignoreMissing : Bool) : Except Error Unit → Prop
  | .ok () => True
  | .error err => err.kind = .handlerNotFound ∧ ignoreMissing = true

def Delivered (ignoreMissing : Bool) (ms : List (Mark β)) (n : Nat) : Prop :=
  ∃ r, Completes ignoreMissing r ∧ Mark.answered n r ∈ ms

/- The event in hand as the answers in `ms` leave it. -/
structure Written (ignoreMissing : Bool) (ms : List (Mark β)) (held before : Option (Posted β)) : Prop where
  core : before.map Event.core = held.map Event.core
  flag : ∀ e ∈ held, ∀ e' ∈ before,
    (e'.metadata.published = true ↔ e.metadata.published = true ∨ Delivered ignoreMissing ms e.number)
  answers : ∀ n r, Mark.answered n r ∈ ms → ∃ e ∈ held, e.number = n

theorem Written.untouched {ignoreMissing : Bool} {ms : List (Mark β)} (held : Option (Posted β))
    (silent : ∀ n r, Mark.answered n r ∉ ms) : Written ignoreMissing ms held held where
  core := rfl
  flag := by
    intro e he e' he'
    obtain rfl := Option.mem_unique he he'
    exact ⟨.inl, fun h => h.elim id fun ⟨r, _, hr⟩ => absurd hr (silent _ r)⟩
  answers := fun n r hr => absurd hr (silent n r)

theorem departing_silent (e : Option (Posted β)) (next : Bus.Next (Nat × β)) (n : Nat) (r : Except Error Unit) :
    Mark.answered n r ∉ departing e next := by
  cases next <;> cases e <;> simp [departing]

section Standing

variable {b : Bus (Nat × β)} {d : Bus.Drain} {e : Posted β} {now : Stamp} {lines : List Log.Line}
  {stand : Bus.Stand (Nat × β)}

theorem stopAccounts {err : Error} (stands : b.stop d e err lines = stand) :
    Accounts b [e] (left (departing (some e) stand.next)) (inHand stand.next) stand.bus := by
  subst stands
  exact ⟨rfl, rfl, rfl, rfl, fun e' he => ⟨e', he, rfl⟩⟩

theorem dischargeAccounts (stands : b.discharge d lines = stand) :
    Accounts b [e] (left (departing (some e) stand.next)) (inHand stand.next) stand.bus := by
  subst stands
  exact ⟨rfl, rfl, rfl, rfl, fun e' he => ⟨e', List.mem_cons_of_mem _ he, rfl⟩⟩

theorem outwardAccounts (stands : b.outward d e now lines = stand) :
    Accounts b [e] (left (departing (some e) stand.next)) (inHand stand.next) stand.bus := by
  unfold Bus.outward at stands
  split at stands
  · split at stands
    · split at stands
      · subst stands
        exact ⟨rfl, rfl, rfl, rfl, fun e' he => ⟨e', he, rfl⟩⟩
      · exact stopAccounts stands
    · exact dischargeAccounts stands
  · exact dischargeAccounts stands

/-- The answer of the publication in process is written on the event if it completes the delivery. -/
theorem notifiedAccounts {r : Except Error Unit} (stands : b.notified d e r now = stand) :
    ∃ e', e'.core = e.core ∧
      (e'.metadata.published = true ↔ e.metadata.published = true ∨ Completes b.ignoreMissing r) ∧
      Accounts b [e'] (left (departing (some e) stand.next)) (inHand stand.next) stand.bus := by
  unfold Bus.notified at stands
  split at stands
  · exact ⟨e.delivered, rfl, by simp [Completes], (outwardAccounts stands).gone (left_departing e.core_delivered _)⟩
  · split at stands
    · rename_i ignored
      exact ⟨e.delivered, rfl, by simp [Completes, ignored.1, ignored.2],
        (outwardAccounts stands).gone (left_departing e.core_delivered _)⟩
    · rename_i kept
      refine ⟨e, rfl, ⟨.inl, fun h => h.elim id fun completes => absurd completes kept⟩, stopAccounts stands⟩

theorem notifiedWritten {r : Except Error Unit} {e' : Posted β} {ignoreMissing : Bool} {after : List (Mark β)}
    (before : List (Mark β)) (same : e'.core = e.core)
    (flag : e'.metadata.published = true ↔ e.metadata.published = true ∨ Completes ignoreMissing r)
    (silent : ∀ n r, Mark.answered n r ∉ before ++ after) :
    Written ignoreMissing (before ++ .answered e.number r :: after) (some e) (some e') where
  core := by simp [same]
  flag := by
    intro x hx x' hx'
    cases hx
    cases hx'
    rw [flag]
    refine or_congr Iff.rfl ⟨fun completes => ⟨r, completes, by simp⟩, ?_⟩
    rintro ⟨r', completes, hr⟩
    have out := silent e.number r'
    simp only [List.mem_append, not_or] at out
    simp only [List.mem_append, List.mem_cons, Mark.answered.injEq, true_and, out.1, out.2, false_or, or_false] at hr
    exact hr ▸ completes
  answers := by
    intro n r' hr
    have out := silent n r'
    simp only [List.mem_append, not_or] at out
    simp only [List.mem_append, List.mem_cons, Mark.answered.injEq, out.1, out.2, false_or, or_false] at hr
    exact ⟨e, rfl, hr.1.symm⟩

theorem sentAccounts {r : Except Error Unit} (stands : b.sent d e r = stand) :
    Accounts b [e] (left (departing (some e) stand.next)) (inHand stand.next) stand.bus := by
  unfold Bus.sent at stands
  split at stands
  · exact dischargeAccounts stands
  · exact stopAccounts stands

theorem advanceAccounts {check : Except Error Unit} (stands : b.advance d check now = stand) :
    Accounts b [] (left (departing b.queue.head? stand.next)) (inHand stand.next) stand.bus := by
  unfold Bus.advance at stands
  split at stands
  · subst stands
    exact ⟨rfl, rfl, rfl, rfl, fun e' he => ⟨e', he, rfl⟩⟩
  · split at stands
    · subst stands
      exact ⟨rfl, rfl, rfl, rfl, fun e' he => ⟨e', he, rfl⟩⟩
    · rename_i e rest queue
      simp only [] at stands
      -- what the drain does with the first event it does to the event with its start written on it
      have taken : ∀ e' : Posted β, e' ∈ e.takenUp d.started :: rest → ∃ x ∈ b.queue, e'.untaken = x.untaken := by
        intro e' he
        rw [queue]
        rcases List.mem_cons.mp he with rfl | he
        · exact ⟨e, by simp, rfl⟩
        · exact ⟨e', List.mem_cons_of_mem _ he, rfl⟩
      split at stands
      · have keeps := outwardAccounts stands
        refine ⟨keeps.lock, keeps.messaging, keeps.ignoreMissing, ?_, ?_⟩
        · have events := keeps.events
          rw [queue]
          cases h : stand.next <;> simpa [h, departing, left, Mark.left?] using events
        · intro e' he
          obtain ⟨x, hx, same⟩ := keeps.kept e' he
          obtain ⟨y, hy, same'⟩ := taken x hx
          exact ⟨y, hy, same.trans same'⟩
      · subst stands
        exact ⟨rfl, rfl, rfl, by simp [departing, left, inHand, queue], taken⟩

end Standing

theorem movesAdd {b b' : Bus (Nat × β)} {c c' : Call β} {ms : List (Mark β)} (moves : Moves b c ms b' c') :
    added ms = [] := by
  cases moves with
  | turnedAway | begins | invokes | offers | restores => rfl
  | advances | refused | handled | withheld | replied | interrupted => exact added_departing _ _

theorem movesAccount {b b' : Bus (Nat × β)} {c c' : Call β} {ms : List (Mark β)} (moves : Moves b c ms b' c') :
    ∃ before, Written b.ignoreMissing ms c.held before ∧ Accounts b before.toList (left ms) c'.held.toList b' := by
  cases moves with
  | turnedAway | begins =>
    exact ⟨none, .untouched _ (by simp), rfl, rfl, rfl, rfl, fun e he => ⟨e, he, rfl⟩⟩
  | advances d check now stands =>
    rw [held_ofNext]
    exact ⟨none, .untouched _ (departing_silent _ _), advanceAccounts stands⟩
  | refused d e err now stands =>
    rw [held_ofNext]
    obtain ⟨e', same, flag, accounts⟩ := notifiedAccounts stands
    exact ⟨some e', notifiedWritten [] same flag (departing_silent _ _), accounts⟩
  | handled d e o now stands =>
    rw [held_ofNext]
    obtain ⟨e', same, flag, accounts⟩ := notifiedAccounts stands
    exact ⟨some e', notifiedWritten [.handled e.number o] same flag
      (by simpa using departing_silent _ _), accounts⟩
  | invokes d e | offers d e =>
    exact ⟨some e, .untouched _ (by simp), rfl, rfl, rfl, rfl, fun e he => ⟨e, he, rfl⟩⟩
  | withheld d e m err stands | interrupted d e m err stands =>
    rw [held_ofNext]
    exact ⟨some e, .untouched _ (departing_silent _ _), sentAccounts stands⟩
  | replied d e m o stands =>
    rw [held_ofNext]
    exact ⟨some e, .untouched _ (by simpa using departing_silent _ _), sentAccounts stands⟩
  | @restores _ e holds =>
    have nothing : (Call.leaving : Call β).held = none := rfl
    rw [holds]
    exact ⟨some e, .untouched _ (by simp), rfl, rfl, rfl, by simp [nothing, left, Bus.restore],
      fun e he => ⟨e, he, rfl⟩⟩

theorem ofNext_plain (d : Bus.Drain) (next : Bus.Next (Nat × β)) : (Call.ofNext d next).ticket = none := by
  cases next <;> rfl

theorem movesPlain {b b' : Bus (Nat × β)} {c c' : Call β} {ms : List (Mark β)} (moves : Moves b c ms b' c') :
    c.ticket = none ∧ c'.ticket = none := by
  cases moves with
  | turnedAway | begins | invokes | offers => exact ⟨rfl, rfl⟩
  | advances | refused | handled | withheld | replied | interrupted => exact ⟨rfl, ofNext_plain _ _⟩
  | restores holds =>
    refine ⟨?_, rfl⟩
    cases c <;> first | rfl | cases holds

theorem owns_of_plain {c : Call β} (lock : Lock) (plain : c.ticket = none) : c.owns lock = true := by
  cases c <;> first | rfl | cases plain

/-- The others hold nothing while one call has the lock. -/
theorem Sound.emptyHands {lock : Lock} {rest : List (Call β)} {c : Call β} (sound : Sound lock (c :: rest))
    (owner : c.owns lock = true) : rest.filterMap Call.held = [] := by
  have none := (sound.others owner).2
  rw [List.countP_eq_zero] at none
  rw [List.filterMap_eq_nil_iff]
  intro d hd
  obtain ⟨k, rfl, -⟩ := waiting_of_not_owns (by simpa using none d hd)
  rfl

theorem held_at {lock : Lock} {before after : List (Call β)} {c c' : Call β}
    (sound : Sound lock (before ++ c :: after)) (owner : c.owns lock = true) :
    (before ++ c' :: after).filterMap Call.held = c'.held.toList := by
  have nothing := sound.front.emptyHands owner
  simp only [List.filterMap_append, List.append_eq_nil_iff] at nothing
  cases h : c'.held <;> simp [nothing.1, nothing.2, h]

theorem stepSound {s s' : Traffic β} {ms : List (Mark β)} (step : Step s ms s') (sound : Sound s.bus.lock s.calls) :
    Sound s'.bus.lock s'.calls := by
  cases step with
  | add => exact sound
  | ask free => exact sound.take free
  | line k taken fresh => exact sound.join taken fresh
  | @granted before after k stands given =>
    rw [stands] at sound
    exact (sound.front.replace (by simpa [Call.owns] using given) rfl rfl).back
  | leave stands inLine =>
    rw [stands] at sound
    exact sound.front.leave inLine
  | move stands moves =>
    rw [stands] at sound
    obtain ⟨plain, plain'⟩ := movesPlain moves
    obtain ⟨before, -, accounts⟩ := movesAccount moves
    simp only [accounts.lock]
    exact (sound.front.replace (owns_of_plain _ plain) plain' (owns_of_plain _ plain')).back
  | finish stands owner free =>
    rw [stands] at sound
    exact sound.front.release owner

theorem stepAccounts {s s' : Traffic β} {ms : List (Mark β)} (step : Step s ms s') (sound : Sound s.bus.lock s.calls) :
    (s.pending ++ added ms).map Event.core = (left ms ++ s'.pending).map Event.core := by
  cases step with
  | add e id now stamped =>
    simp [pending, held, added, left, Mark.added?, Mark.left?, Bus.add]
  | ask | line => simp [pending, held, relock, added, left, Call.held]
  | granted stands given => simp [pending, held, relock, added, left, List.filterMap_cons, Call.held, stands]
  | leave stands inLine => simp [pending, held, relock, added, left, List.filterMap_cons, Call.held, stands]
  | @move _ _ c _ _ _ stands moves =>
    obtain ⟨before, written, accounts⟩ := movesAccount moves
    rw [stands] at sound
    have owner := owns_of_plain s.bus.lock (movesPlain moves).1
    rw [pending, pending, held, held, stands, held_at sound owner, held_at sound owner, movesAdd moves]
    have same : before.toList.map Event.core = c.held.toList.map Event.core := by
      have core := written.core
      cases before <;> cases h : c.held <;> simp_all
    simpa [same] using accounts.events
  | finish stands owner free => simp [pending, held, relock, added, left, stands, free]

theorem runSound {init s : Traffic β} {ms : List (Mark β)} (run : Run init ms s)
    (sound : Sound init.bus.lock init.calls) : Sound s.bus.lock s.calls := by
  induction run with
  | nil => exact sound
  | next earlier step ih => exact stepSound step ih

theorem startSound (ignoreMissing messaging : Bool) (logger : Log.Logger) :
    Sound (start (β := β) ignoreMissing messaging logger).bus.lock
      (start (β := β) ignoreMissing messaging logger).calls :=
  ⟨List.nodup_nil, by simp [start, Bus.make, Lock.free], List.nodup_nil, fun _ => rfl, rfl⟩

theorem runAccounts {init s : Traffic β} {ms : List (Mark β)} (run : Run init ms s)
    (sound : Sound init.bus.lock init.calls) :
    (init.pending ++ added ms).map Event.core = (left ms ++ s.pending).map Event.core := by
  induction run with
  | nil => simp [added, left]
  | @next ms s new s' earlier step ih =>
    have now := stepAccounts step (runSound earlier sound)
    simp only [List.map_append] at ih now
    calc (init.pending ++ added (ms ++ new)).map Event.core
      _ = (init.pending.map Event.core ++ (added ms).map Event.core) ++ (added new).map Event.core := by simp
      _ = (left ms).map Event.core ++ (s.pending.map Event.core ++ (added new).map Event.core) := by
        rw [ih, List.append_assoc]
      _ = (left (ms ++ new) ++ s'.pending).map Event.core := by rw [now]; simp

theorem heldOnce {lock : Lock} {calls : List (Call β)} (sound : Sound lock calls) :
    (calls.filterMap Call.held).length ≤ 1 := by
  by_cases owned : ∃ c ∈ calls, c.owns lock = true
  · obtain ⟨c, hc, owner⟩ := owned
    obtain ⟨before, after, rfl⟩ := List.append_of_mem hc
    have hands : (before ++ c :: after).filterMap Call.held = c.held.toList := held_at sound owner
    rw [hands]
    cases c.held <;> simp
  · have nothing : calls.filterMap Call.held = [] := by
      rw [List.filterMap_eq_nil_iff]
      intro c hc
      obtain ⟨k, rfl, -⟩ := Sound.waiting_of_not_owns (by simpa using fun h => owned ⟨c, hc, h⟩)
      rfl
    simp [nothing]

/-! ### A greeting, taken up by the only drain -/

theorem Step.alone {s : Traffic β} {c c' : Call β} {ms : List (Mark β)} {bus : Bus (Nat × β)} (stands : s.calls = [c])
    (moves : Moves s.bus c ms bus c') : Step s ms { s with bus, calls := [c'] } :=
  @Step.move _ _ [] [] _ _ _ _ stands moves

def greeting : Posted Unit :=
  ((⟨.ofType "Greeting", .newExternal "greetings", "Greeting", .ok .null, ()⟩ : Event Unit).stamp .nil
    (.reading 0)).numbered 0

def greetingMessage : Message := ⟨.nil, "greetings", .reading 0, some (.reading 1), .null⟩

def greetingDrain : Bus.Drain := ⟨⟨[0], none, .nil⟩, .reading 1, 0⟩

def greetingBus : Bus (Nat × Unit) := { Bus.make false true .plain with lock := ⟨true, []⟩ }

theorem greetingHandled :
    Run (start false true .plain) [.added greeting, .invoked 0]
      ⟨greetingBus, [.handling greetingDrain (greeting.takenUp (.reading 1))], 1⟩ := by
  have posted : Run (start false true .plain) [.added greeting] ⟨(Bus.make false true .plain).add greeting, [], 1⟩ :=
    .next .nil (.add _ _ _ rfl)
  have asked : Run (start false true .plain) [.added greeting] ⟨greetingBus.add greeting, [.admitted], 1⟩ :=
    .next posted (.ask rfl)
  have begun : Run (start false true .plain) [.added greeting]
      ⟨greetingBus.add greeting, [.draining greetingDrain], 1⟩ :=
    .next asked (.alone rfl (.begins _ _ (List.cons_ne_nil _ _)))
  have advanced : Run (start false true .plain) [.added greeting]
      ⟨greetingBus, [.notifying greetingDrain (greeting.takenUp (.reading 1))], 1⟩ :=
    .next begun (.alone rfl (.advances _ (.ok ()) (.reading 2) rfl))
  exact .next advanced (.alone rfl (.invokes _ _))

end Traffic
end Switchyard.Events
