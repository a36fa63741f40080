import Switchyard.Proofs.Events.Conservation
import Mathlib.Data.List.Nodup
/-!
The order in which an event reaches its two sinks, over all drains that take it up: the handler is not called again
once it has succeeded, the messaging side is called after the delivery in process is complete, the event leaves when
both are done, and nothing is done for a later event before that.
-/
namespace Switchyard.Events

variable {β : Type}

namespace Traffic

def Gone (ms : List (Mark β)) (n : Nat) : Prop := ∃ e, Mark.left e ∈ ms ∧ e.number = n

/-- The event was published in process before it was added. -/
def Foregone (ms : List (Mark β)) (n : Nat) : Prop :=
  ∃ e, Mark.added e ∈ ms ∧ e.number = n ∧ e.metadata.published = true

/-- The delivery in process is complete or was before the event was added. -/
def Told (ignoreMissing : Bool) (ms : List (Mark β)) (n : Nat) : Prop :=
  Foregone ms n ∨ Delivered ignoreMissing ms n

def Rule (ignoreMissing messaging : Bool) (past : List (Mark β)) : Mark β → Prop
  | .invoked n => ¬ Told ignoreMissing past n ∧ Mark.handled n (.value ()) ∉ past ∧ ∀ k < n, Gone past k
  | .offered n _ => Told ignoreMissing past n ∧ ∀ k < n, Gone past k
  | .left e => Told ignoreMissing past e.number ∧
      (e.metadata.external = true → messaging = true → Mark.replied e.number (.value ()) ∈ past)
  | _ => True

/-- A handler is called for events not yet published in process, the messaging side for the others. -/
def Call.Fits : Call β → Prop
  | notifying _ e | handling _ e => e.metadata.published = false
  | sending _ e _ | transmitting _ e _ => e.metadata.published = true
  | _ => True

/-- What a drain that has `e` in hand does next, when the delivery in process of `e` is complete. -/
structure Onward (messaging : Bool) (e : Posted β) (next : Bus.Next (Nat × β)) : Prop where
  notify : ∀ e', next ≠ .notify e'
  send : ∀ e' m, next = .send e' m → e' = e
  again : ∀ d, next = .again d → ¬ (e.metadata.external = true ∧ messaging = true)

section Standing

variable {b : Bus (Nat × β)} {d : Bus.Drain} {e : Posted β} {now : Stamp} {lines : List Log.Line}
  {stand : Bus.Stand (Nat × β)}

theorem outwardNext (stands : b.outward d e now lines = stand) : Onward b.messaging e stand.next := by
  unfold Bus.outward at stands
  split at stands
  · split at stands
    · split at stands <;> subst stands <;> exact ⟨by simp [Bus.stop], by simp [Bus.stop], by simp [Bus.stop]⟩
    · rename_i none
      subst stands
      exact ⟨by simp [Bus.discharge], by simp [Bus.discharge], fun _ _ both => none both.2⟩
  · rename_i inside
    subst stands
    exact ⟨by simp [Bus.discharge], by simp [Bus.discharge], fun _ _ both => inside both.1⟩

theorem notifiedNext {r : Except Error Unit} (stands : b.notified d e r now = stand) :
    (Completes b.ignoreMissing r ∧ Onward b.messaging e.delivered stand.next) ∨
    ∃ err, stand.next = .finish (.error err) := by
  unfold Bus.notified at stands
  split at stands
  · exact .inl ⟨trivial, outwardNext stands⟩
  · split at stands
    · rename_i ignored
      exact .inl ⟨ignored, outwardNext stands⟩
    · subst stands
      exact .inr ⟨_, rfl⟩

theorem sentNext {r : Except Error Unit} (stands : b.sent d e r = stand) :
    (r = .ok () ∧ ∃ d', stand.next = .again d') ∨ ∃ err, stand.next = .finish (.error err) := by
  unfold Bus.sent at stands
  split at stands
  · subst stands
    exact .inl ⟨rfl, _, rfl⟩
  · subst stands
    exact .inr ⟨_, rfl⟩

theorem advanceNext {check : Except Error Unit} (stands : b.advance d check now = stand) :
    (∃ e rest, b.queue = e :: rest ∧
      ((e.metadata.published = true ∧ Onward b.messaging (e.takenUp d.started) stand.next) ∨
       (e.metadata.published = false ∧ stand.next = .notify (e.takenUp d.started)))) ∨
    ∃ r, stand.next = .finish r := by
  unfold Bus.advance at stands
  split at stands
  · subst stands
    exact .inr ⟨_, rfl⟩
  · split at stands
    · subst stands
      exact .inr ⟨_, rfl⟩
    · rename_i e rest queue
      simp only [] at stands
      refine .inl ⟨e, rest, queue, ?_⟩
      split at stands
      · rename_i published
        exact .inl ⟨published, outwardNext (b := { b with queue := rest }) stands⟩
      · rename_i unpublished
        subst stands
        exact .inr ⟨by simpa using unpublished, rfl⟩

end Standing

theorem Onward.fits {messaging : Bool} {e : Posted β} {next : Bus.Next (Nat × β)} (onward : Onward messaging e next)
    (published : e.metadata.published = true) (d : Bus.Drain) : (Call.ofNext d next).Fits := by
  cases h : next with
  | notify e' => exact absurd h (onward.notify e')
  | send e' m =>
    rw [Call.ofNext, Call.Fits, onward.send e' m h]
    exact published
  | again | finish => trivial

theorem movesFit {b b' : Bus (Nat × β)} {c c' : Call β} {ms : List (Mark β)} (moves : Moves b c ms b' c')
    (fits : c.Fits) : c'.Fits := by
  cases moves with
  | turnedAway | begins | restores => trivial
  | advances d check now stands =>
    obtain ⟨e, rest, -, ⟨published, onward⟩ | ⟨unpublished, next⟩⟩ | ⟨r, next⟩ := advanceNext stands
    · exact onward.fits published d
    · rw [next]
      exact unpublished
    · rw [next]
      trivial
  | refused d e err now stands | handled d e o now stands =>
    obtain ⟨-, onward⟩ | ⟨err, next⟩ := notifiedNext stands
    · exact onward.fits rfl d
    · rw [next]
      trivial
  | invokes | offers => exact fits
  | withheld d e m err stands | replied d e m o stands | interrupted d e m err stands =>
    obtain ⟨-, d', next⟩ | ⟨err, next⟩ := sentNext stands <;> rw [next] <;> trivial

/-! ### What has happened so far, and the events that are still to be delivered -/

theorem Delivered.append {ignoreMissing : Bool} {xs ys : List (Mark β)} {n : Nat} :
    Delivered ignoreMissing (xs ++ ys) n ↔ Delivered ignoreMissing xs n ∨ Delivered ignoreMissing ys n := by
  simp only [Delivered, List.mem_append, and_or_left, exists_or]

theorem Foregone.append {xs ys : List (Mark β)} {n : Nat} :
    Foregone (xs ++ ys) n ↔ Foregone xs n ∨ Foregone ys n := by
  simp only [Foregone, List.mem_append, or_and_right, exists_or]

theorem Told.mono {ignoreMissing : Bool} {xs ys : List (Mark β)} {n : Nat} (told : Told ignoreMissing xs n) :
    Told ignoreMissing (xs ++ ys) n :=
  told.imp (fun h => Foregone.append.mpr (.inl h)) (fun h => Delivered.append.mpr (.inl h))

theorem gone_iff {ms : List (Mark β)} {n : Nat} : Gone ms n ↔ n ∈ (left ms).map Event.number := by
  simp only [Gone, left, List.mem_map, List.mem_filterMap]
  constructor
  · rintro ⟨e, he, same⟩
    exact ⟨e, ⟨_, he, rfl⟩, same⟩
  · rintro ⟨e, ⟨m, hm, found⟩, same⟩
    cases m <;> cases found
    exact ⟨_, hm, same⟩

structure Informed (ignoreMissing : Bool) (ms : List (Mark β)) (b : Bus (Nat × β)) (c : Call β) : Prop where
  flags : ∀ e ∈ c.held.toList ++ b.queue, (e.metadata.published = true ↔ Told ignoreMissing ms e.number)
  earlier : ∀ e ∈ c.held, ∀ k < e.number, Gone ms k
  succeeded : ∀ n, Mark.handled n (.value ()) ∈ ms → Told ignoreMissing ms n
  fits : c.Fits

theorem Completes.told {ignoreMissing : Bool} {ms : List (Mark β)} {n : Nat} {r : Except Error Unit}
    (completes : Completes ignoreMissing r) (answered : Mark.answered n r ∈ ms) : Told ignoreMissing ms n :=
  .inr ⟨r, completes, answered⟩

theorem departingLawful {ignoreMissing messaging : Bool} {past : List (Mark β)} {e : Option (Posted β)}
    {next : Bus.Next (Nat × β)}
    (allowed : ∀ d, next = .again d → ∀ e' ∈ e, Rule ignoreMissing messaging past (.left e')) :
    Lawful (Rule ignoreMissing messaging) past (departing e next) := by
  cases next with
  | again d =>
    cases e with
    | none => trivial
    | some e => exact ⟨allowed d rfl e rfl, trivial⟩
  | notify | send | finish => trivial

theorem movesLawful {b b' : Bus (Nat × β)} {c c' : Call β} {ms new : List (Mark β)} (moves : Moves b c new b' c')
    (informed : Informed b.ignoreMissing ms b c) : Lawful (Rule b.ignoreMissing b.messaging) ms new := by
  obtain ⟨flags, earlier, succeeded, fits⟩ := informed
  cases moves with
  | turnedAway | begins | restores => trivial
  | advances d check now stands =>
    refine departingLawful fun d' again e he => ?_
    obtain ⟨e', rest, queue, ⟨published, onward⟩ | ⟨-, next⟩⟩ | ⟨r, next⟩ := advanceNext stands
    · rw [queue, List.head?_cons, Option.mem_some_iff] at he
      subst he
      refine ⟨(flags e' (by simp [queue])).mp published, fun external messaging => ?_⟩
      exact absurd ⟨external, messaging⟩ (onward.again d' again)
    · rw [next] at again
      cases again
    · rw [next] at again
      cases again
  | refused d e err now stands =>
    refine ⟨trivial, departingLawful fun d' again e' he => ?_⟩
    cases he
    obtain ⟨completes, onward⟩ | ⟨err, next⟩ := notifiedNext stands
    · exact ⟨completes.told (by simp), fun external messaging =>
        absurd ⟨external, messaging⟩ (onward.again d' again)⟩
    · rw [next] at again
      cases again
  | invokes d e =>
    have unpublished : e.metadata.published = false := fits
    have untold : ¬ Told b.ignoreMissing ms e.number := by
      rw [← flags e (by simp [Call.held]), unpublished]
      exact Bool.false_ne_true
    exact ⟨⟨untold, fun ok => untold (succeeded _ ok), earlier e rfl⟩, trivial⟩
  | handled d e o now stands =>
    refine ⟨trivial, trivial, departingLawful fun d' again e' he => ?_⟩
    cases he
    obtain ⟨completes, onward⟩ | ⟨err, next⟩ := notifiedNext stands
    · exact ⟨completes.told (by simp), fun external messaging =>
        absurd ⟨external, messaging⟩ (onward.again d' again)⟩
    · rw [next] at again
      cases again
  | withheld d e m err stands | interrupted d e m err stands =>
    refine departingLawful fun d' again e' he => ?_
    obtain ⟨same, -⟩ | ⟨err, next⟩ := sentNext stands
    · cases same
    · rw [next] at again
      cases again
  | offers d e m =>
    have published : e.metadata.published = true := fits
    exact ⟨⟨(flags e (by simp [Call.held])).mp published, earlier e rfl⟩, trivial⟩
  | replied d e m o stands =>
    refine ⟨trivial, departingLawful fun d' again e' he => ?_⟩
    cases he
    obtain ⟨same, -⟩ | ⟨err, next⟩ := sentNext stands
    · have ok : o = .value () := by cases o <;> cases same; rfl
      have published : e.metadata.published = true := fits
      exact ⟨((flags e (by simp [Call.held])).mp published).mono, fun _ _ => by simp [ok]⟩
    · rw [next] at again
      cases again

theorem movesSucceed {b b' : Bus (Nat × β)} {c c' : Call β} {ms : List (Mark β)} {n : Nat} (moves : Moves b c ms b' c')
    (ok : Mark.handled n (.value ()) ∈ ms) : Delivered b.ignoreMissing ms n := by
  have quiet : ∀ (e : Option (Posted β)) next, Mark.handled n (.value ()) ∉ departing e next := by
    intro e next
    cases next <;> cases e <;> simp [departing]
  cases moves with
  | handled d e o now stands =>
    simp only [List.mem_cons, Mark.handled.injEq, reduceCtorEq, quiet, or_false] at ok
    obtain ⟨rfl, rfl⟩ := ok
    exact ⟨.ok (), trivial, by simp [Outcome.caught]⟩
  | turnedAway | begins | invokes | offers | restores => simp at ok
  | advances | withheld | interrupted => exact absurd ok (quiet _ _)
  | refused | replied => simp [quiet] at ok

/-! ### What holds between the steps -/

/-- The events still to be delivered are the last of those added, and what is written on each is what has happened. -/
structure Faithful (ignoreMissing messaging : Bool) (ms : List (Mark β)) (s : Traffic β) : Prop where
  sound : Sound s.bus.lock s.calls
  ignores : s.bus.ignoreMissing = ignoreMissing
  connected : s.bus.messaging = messaging
  numbers : (left ms).map Event.number ++ s.pending.map Event.number = List.range s.total
  flags : ∀ e ∈ s.pending, (e.metadata.published = true ↔ Told ignoreMissing ms e.number)
  known : ∀ n, Told ignoreMissing ms n → n < s.total
  succeeded : ∀ n, Mark.handled n (.value ()) ∈ ms → Told ignoreMissing ms n
  fits : ∀ c ∈ s.calls, c.Fits

theorem numbers_of_cores {xs ys : List (Posted β)} (same : xs.map Event.core = ys.map Event.core) :
    xs.map Event.number = ys.map Event.number := by
  have numbers := congrArg (List.map Event.number) same
  simpa only [List.map_map, Function.comp_def, Event.number_core] using numbers

theorem told_append {ignoreMissing : Bool} {ms new : List (Mark β)} {n : Nat} (quiet : added new = []) :
    Told ignoreMissing (ms ++ new) n ↔ Told ignoreMissing ms n ∨ Delivered ignoreMissing new n := by
  have none : ¬ Foregone new n := by
    rintro ⟨e, he, -⟩
    have mem : e ∈ added new := List.mem_filterMap.mpr ⟨_, he, rfl⟩
    rw [quiet] at mem
    cases mem
  simp only [Told, Foregone.append, Delivered.append, none, or_false, or_assoc]

namespace Faithful

variable {ignoreMissing messaging : Bool} {ms new : List (Mark β)} {s : Traffic β} {before after : List (Call β)}
  {c : Call β}

theorem below (faithful : Faithful ignoreMissing messaging ms s) {e : Posted β} (he : e ∈ s.pending) :
    e.number < s.total := by
  have mem : e.number ∈ List.range s.total := by
    rw [← faithful.numbers]
    exact List.mem_append_right _ (List.mem_map_of_mem he)
  exact List.mem_range.mp mem

theorem apart (faithful : Faithful ignoreMissing messaging ms s) : (s.pending.map Event.number).Nodup := by
  have nodup : (List.range s.total).Nodup := List.nodup_range
  rw [← faithful.numbers] at nodup
  exact (List.nodup_append.mp nodup).2.1

theorem pendingAt (faithful : Faithful ignoreMissing messaging ms s) (stands : s.calls = before ++ c :: after)
    (owner : c.owns s.bus.lock = true) : s.pending = c.held.toList ++ s.bus.queue := by
  have sound := faithful.sound
  rw [stands] at sound
  rw [pending, held, stands, held_at sound owner]

/- All that were added before the event in hand are gone, for it comes first of those that are left. -/
theorem earlier (faithful : Faithful ignoreMissing messaging ms s) {e : Posted β} {rest : List (Posted β)}
    (first : s.pending = e :: rest) : ∀ k < e.number, Gone ms k := by
  intro k hk
  have numbers := faithful.numbers
  rw [first, List.map_cons] at numbers
  have lt := faithful.below (e := e) (by simp [first])
  have place : ((left ms).map Event.number).length = e.number := by
    have at' : (List.range s.total)[((left ms).map Event.number).length]? = some e.number := by
      rw [← numbers]
      simp
    obtain ⟨inside, same⟩ := List.getElem?_eq_some_iff.mp at'
    simpa using same
  have mem : (List.range s.total)[k]? = some k := List.getElem?_range (Nat.lt_trans hk lt)
  rw [← numbers, List.getElem?_append_left (place ▸ hk)] at mem
  exact gone_iff.mpr (List.mem_of_getElem? mem)

theorem informed (faithful : Faithful ignoreMissing messaging ms s) (stands : s.calls = before ++ c :: after)
    (owner : c.owns s.bus.lock = true) : Informed s.bus.ignoreMissing ms s.bus c := by
  have all := faithful.pendingAt stands owner
  rw [faithful.ignores]
  refine ⟨all ▸ faithful.flags, fun e he => ?_, faithful.succeeded, faithful.fits c (by simp [stands])⟩
  have first : s.pending = e :: s.bus.queue := by
    rw [all, show c.held = some e from he]
    rfl
  exact faithful.earlier first

/-- A step that says nothing of events and keeps those that are still to be delivered. -/
theorem aside (faithful : Faithful ignoreMissing messaging ms s) {lock : Lock} {calls : List (Call β)}
    (sound : Sound lock calls) (same : (s.relock lock calls).held = s.held) (fits : ∀ c ∈ calls, c.Fits) :
    Faithful ignoreMissing messaging (ms ++ []) (s.relock lock calls) := by
  have all : (s.relock lock calls).pending = s.pending := by rw [pending, pending, same]; rfl
  rw [List.append_nil]
  exact ⟨sound, faithful.ignores, faithful.connected, all ▸ faithful.numbers, all ▸ faithful.flags, faithful.known,
    faithful.succeeded, fits⟩

theorem add (faithful : Faithful ignoreMissing messaging ms s) {e : Posted β} (next : e.number = s.total) :
    Faithful ignoreMissing messaging (ms ++ [.added e]) { s with bus := s.bus.add e, total := s.total + 1 } := by
  have told : ∀ n, Told ignoreMissing (ms ++ [.added e]) n ↔
      Told ignoreMissing ms n ∨ (e.number = n ∧ e.metadata.published = true) := by
    intro n
    have silent : ¬ Delivered ignoreMissing [Mark.added e] n := by
      rintro ⟨r, -, hr⟩
      simp at hr
    have alone : Foregone [Mark.added e] n ↔ e.number = n ∧ e.metadata.published = true := by simp [Foregone]
    simp only [Told, Foregone.append, Delivered.append, silent, or_false, alone]
    exact or_right_comm
  have all : pending { s with bus := s.bus.add e, total := s.total + 1 } = s.pending ++ [e] := by
    simp [pending, held, Bus.add]
  refine ⟨faithful.sound, faithful.ignores, faithful.connected, ?_, ?_, ?_, ?_, faithful.fits⟩
  · rw [all, List.range_succ, ← faithful.numbers]
    simp [left, Mark.left?, next]
  · rw [all]
    intro x hx
    rw [told]
    rcases List.mem_append.mp hx with hx | hx
    · have lt := faithful.below hx
      have other : e.number ≠ x.number := by omega
      rw [faithful.flags x hx]
      exact ⟨.inl, fun h => h.resolve_right fun both => other both.1⟩
    · obtain rfl : x = e := by simpa using hx
      refine ⟨fun published => .inr ⟨rfl, published⟩, fun h => h.elim (fun old => ?_) And.right⟩
      have lt := faithful.known _ old
      omega
  · intro n h
    rcases (told n).mp h with old | ⟨same, -⟩
    · exact Nat.lt_succ_of_lt (faithful.known n old)
    · show n < s.total + 1
      omega
  · intro n ok
    exact (faithful.succeeded n (by simpa using ok)).mono

/- The answers of a move are written on the event in hand, and nothing is said about the others. -/
theorem moveFlags (faithful : Faithful ignoreMissing messaging ms s) {bus : Bus (Nat × β)} {c' : Call β}
    (stands : s.calls = before ++ c :: after) (moves : Moves s.bus c new bus c') :
    ∀ e ∈ c'.held.toList ++ bus.queue,
      (e.metadata.published = true ↔ Told ignoreMissing (ms ++ new) e.number) := by
  have all := faithful.pendingAt stands (owns_of_plain s.bus.lock (movesPlain moves).1)
  obtain ⟨was, written, accounts⟩ := movesAccount moves
  rw [faithful.ignores] at written
  intro e he
  obtain ⟨e', he', same⟩ := accounts.kept e he
  have flag : e.metadata.published = e'.metadata.published := by
    rw [← e.published_untaken, same, e'.published_untaken]
  have number : e.number = e'.number := by
    rw [← e.number_untaken, same, e'.number_untaken]
  rw [flag, number, told_append (movesAdd moves)]
  rcases List.mem_append.mp he' with inHand | queued
  · obtain rfl : was = some e' := by simpa using inHand
    obtain ⟨x, holds, core⟩ : ∃ x, c.held = some x ∧ e'.core = x.core := by
      have core := written.core
      cases h : c.held with
      | none => simp [h] at core
      | some x => exact ⟨x, rfl, by simpa [h] using core⟩
    have same : e'.number = x.number := by rw [← e'.number_core, core, x.number_core]
    rw [written.flag x holds e' rfl, faithful.flags x (by simp [all, holds]), same]
  · rw [faithful.flags e' (by simp [all, queued])]
    refine ⟨.inl, fun h => h.resolve_right fun delivered => ?_⟩
    obtain ⟨r, -, hr⟩ := delivered
    obtain ⟨x, holds, same⟩ := written.answers _ _ hr
    have apart := faithful.apart
    rw [all, show c.held = some x from holds] at apart
    exact absurd (same ▸ List.mem_map_of_mem queued) (List.nodup_cons.mp apart).1

theorem move (faithful : Faithful ignoreMissing messaging ms s) {bus : Bus (Nat × β)} {c' : Call β}
    (stands : s.calls = before ++ c :: after) (moves : Moves s.bus c new bus c') :
    Faithful ignoreMissing messaging (ms ++ new) { s with bus, calls := before ++ c' :: after } := by
  have step : Step s new { s with bus, calls := before ++ c' :: after } := .move stands moves
  have all := faithful.pendingAt stands (owns_of_plain s.bus.lock (movesPlain moves).1)
  have quiet := movesAdd moves
  have sound := stepSound step faithful.sound
  have all' : pending { s with bus, calls := before ++ c' :: after } = c'.held.toList ++ bus.queue := by
    rw [pending, held, held_at sound (owns_of_plain _ (movesPlain moves).2)]
  obtain ⟨was, written, accounts⟩ := movesAccount moves
  refine ⟨sound, accounts.ignoreMissing.trans faithful.ignores, accounts.messaging.trans faithful.connected,
    ?_, all' ▸ faithful.moveFlags stands moves, ?_, ?_, ?_⟩
  · have numbers := numbers_of_cores (stepAccounts step faithful.sound)
    rw [quiet, List.append_nil] at numbers
    rw [left_append, List.map_append, List.append_assoc, ← List.map_append, ← numbers]
    exact faithful.numbers
  · intro n h
    rcases (told_append quiet).mp h with old | ⟨r, -, hr⟩
    · exact faithful.known n old
    · obtain ⟨x, holds, rfl⟩ := written.answers _ _ hr
      exact faithful.below (by simp [all, show c.held = some x from holds])
  · intro n ok
    rw [told_append quiet]
    rcases List.mem_append.mp ok with old | ok
    · exact .inl (faithful.succeeded n old)
    · exact .inr (faithful.ignores ▸ movesSucceed moves ok)
  · have fits := faithful.fits
    rw [stands, List.forall_mem_append, List.forall_mem_cons] at fits
    exact List.forall_mem_append.mpr ⟨fits.1, List.forall_mem_cons.mpr ⟨movesFit moves fits.2.1, fits.2.2⟩⟩

end Faithful

theorem stepFaithful {ignoreMissing messaging : Bool} {ms new : List (Mark β)} {s s' : Traffic β} (step : Step s new s')
    (faithful : Faithful ignoreMissing messaging ms s) :
    Faithful ignoreMissing messaging (ms ++ new) s' ∧ Lawful (Rule ignoreMissing messaging) ms new := by
  have sound := stepSound step faithful.sound
  have fits := faithful.fits
  cases step with
  | add e id now stamped =>
    subst stamped
    exact ⟨faithful.add rfl, trivial, trivial⟩
  | ask | line =>
    refine ⟨faithful.aside sound (by simp [held, relock, Call.held]) ?_, trivial⟩
    exact List.forall_mem_append.mpr ⟨fits, List.forall_mem_singleton.mpr trivial⟩
  | granted stands given =>
    rw [stands, List.forall_mem_append, List.forall_mem_cons] at fits
    refine ⟨faithful.aside sound (by simp [held, relock, List.filterMap_cons, Call.held, stands]) ?_, trivial⟩
    exact List.forall_mem_append.mpr ⟨fits.1, List.forall_mem_cons.mpr ⟨trivial, fits.2.2⟩⟩
  | leave stands inLine =>
    rw [stands, List.forall_mem_append, List.forall_mem_cons] at fits
    refine ⟨faithful.aside sound (by simp [held, relock, List.filterMap_cons, Call.held, stands]) ?_, trivial⟩
    exact List.forall_mem_append.mpr ⟨fits.1, fits.2.2⟩
  | finish stands owner free =>
    rw [stands, List.forall_mem_append, List.forall_mem_cons] at fits
    refine ⟨faithful.aside sound (by simp [held, relock, stands, free]) ?_, trivial⟩
    exact List.forall_mem_append.mpr ⟨fits.1, fits.2.2⟩
  | move stands moves =>
    refine ⟨faithful.move stands moves, ?_⟩
    have lawful := movesLawful moves (faithful.informed stands (owns_of_plain _ (movesPlain moves).1))
    rwa [faithful.ignores, faithful.connected] at lawful

theorem runFaithful {ignoreMissing messaging : Bool} {logger : Log.Logger} {ms : List (Mark β)} {s : Traffic β}
    (run : Run (start ignoreMissing messaging logger) ms s) :
    Faithful ignoreMissing messaging ms s ∧ Lawful (Rule ignoreMissing messaging) [] ms := by
  induction run with
  | nil =>
    refine ⟨⟨startSound _ _ _, rfl, rfl, rfl, by simp [pending, held, start, Bus.make], ?_, by simp,
      by simp [start]⟩, trivial⟩
    rintro n (⟨e, he, -⟩ | ⟨r, -, hr⟩)
    · cases he
    · cases hr
  | next earlier step ih =>
    obtain ⟨faithful, lawful⟩ := ih
    obtain ⟨faithful', new⟩ := stepFaithful step faithful
    exact ⟨faithful', Lawful.append.mpr ⟨lawful, by simpa using new⟩⟩

/-- Both sinks are done with an event, as far as it has them. -/
def Served (ignoreMissing messaging : Bool) (ms : List (Mark β)) (e : Posted β) : Prop :=
  Told ignoreMissing ms e.number ∧
    (e.metadata.external = true → messaging = true → .replied e.number (.value ()) ∈ ms)

theorem served_of_left {ignoreMissing messaging : Bool} {ms : List (Mark β)} {e : Posted β}
    (lawful : Lawful (Rule ignoreMissing messaging) [] ms) (gone : .left e ∈ ms) : Served ignoreMissing messaging ms e := by
  obtain ⟨before, after, rfl⟩ := List.append_of_mem gone
  have rule : Rule ignoreMissing messaging before (.left e) := lawful.split
  exact ⟨rule.1.mono, fun external connected => List.mem_append_left _ (rule.2 external connected)⟩

theorem mem_left {ms : List (Mark β)} {e : Posted β} : e ∈ left ms ↔ .left e ∈ ms := by
  refine mem_project fun m e => ?_
  cases m <;> simp [Mark.left?]

/-- Whatever handlers, the messaging side, contexts, the breaker and dropped calls do, what was added is what has left,
then what a drain holds, then the queue, each event in its place; what has left was delivered to both sinks; and an
event that a drain lets go of without delivering it is first in the queue again, before all that were behind it. -/
theorem everyEventAccountedFor {ignoreMissing messaging : Bool} {logger : Log.Logger} {s : Traffic β}
    {ms : List (Mark β)} (run : Run (start ignoreMissing messaging logger) ms s) :
    (added ms).map Event.core = (left ms ++ s.held ++ s.bus.queue).map Event.core ∧ s.held.length ≤ 1 ∧
    (∀ e ∈ left ms, Served ignoreMissing messaging ms e) ∧
    ∀ new s' e, Step s new s' → s.held = [e] → s'.held = [] → left new = [] →
      s'.bus.queue.map Event.core = (e :: s.bus.queue).map Event.core := by
  have begun := startSound (β := β) ignoreMissing messaging logger
  have sound := runSound run begun
  refine ⟨?_, heldOnce sound, fun e gone => served_of_left (runFaithful run).2 (mem_left.mp gone), ?_⟩
  · have accounts := runAccounts run begun
    simpa [pending, held, start, Bus.make] using accounts
  · intro new s' e step holds released kept
    have accounts := stepAccounts step sound
    have quiet : added new = [] := by
      cases step with
      | add =>
        have still : s.held = [] := released
        rw [still] at holds
        cases holds
      | move stands moves => exact movesAdd moves
      | _ => rfl
    simpa [pending, holds, released, kept, quiet] using accounts.symm

/-- The greeting is in hand while it is handled, and first in the queue when that is dropped. -/
theorem greetingAccountedFor :
    (added [Mark.added greeting, .invoked 0]).map Event.core = [greeting.takenUp (.reading 1)].map Event.core ∧
      (greetingBus.restore (greeting.takenUp (.reading 1))).queue.map Event.core = [greeting.core] := by
  obtain ⟨all, -, -, released⟩ := everyEventAccountedFor greetingHandled
  exact ⟨all, released [] _ (greeting.takenUp (.reading 1)) (.alone rfl (.restores rfl)) rfl rfl rfl⟩

theorem addedNumbers {ignoreMissing messaging : Bool} {logger : Log.Logger} {ms : List (Mark β)} {s : Traffic β}
    (run : Run (start ignoreMissing messaging logger) ms s) :
    (added ms).map Event.number = List.range s.total := by
  have numbers := (runFaithful run).1.numbers
  have accounts := numbers_of_cores (runAccounts run (startSound _ _ _))
  rw [← numbers, ← List.map_append, ← accounts]
  simp [pending, held, start, Bus.make]

theorem added_unique {ignoreMissing messaging : Bool} {logger : Log.Logger} {ms : List (Mark β)} {s : Traffic β}
    {x y : Posted β} (run : Run (start ignoreMissing messaging logger) ms s) (hx : Mark.added x ∈ ms)
    (hy : Mark.added y ∈ ms) (same : x.number = y.number) : x = y := by
  have nodup : ((added ms).map Event.number).Nodup := by
    rw [addedNumbers run]
    exact List.nodup_range
  have memX : x ∈ added ms := List.mem_filterMap.mpr ⟨_, hx, rfl⟩
  have memY : y ∈ added ms := List.mem_filterMap.mpr ⟨_, hy, rfl⟩
  exact List.inj_on_of_nodup_map nodup memX memY same

/-- An event leaves as it was added, but for what delivery has written on it. -/
theorem core_of_left {ignoreMissing messaging : Bool} {logger : Log.Logger} {ms : List (Mark β)} {s : Traffic β}
    {e e' : Posted β} (run : Run (start ignoreMissing messaging logger) ms s) (posted : Mark.added e ∈ ms)
    (gone : Mark.left e' ∈ ms) (same : e'.number = e.number) : e'.core = e.core := by
  have accounts := runAccounts run (startSound _ _ _)
  have mem : e'.core ∈ (left ms ++ s.pending).map Event.core :=
    List.mem_map_of_mem (List.mem_append_left _ (List.mem_filterMap.mpr ⟨_, gone, rfl⟩))
  rw [← accounts] at mem
  simp only [pending, held, start, Bus.make, List.filterMap_nil, List.nil_append] at mem
  obtain ⟨x, hx, core⟩ := List.mem_map.mp mem
  obtain ⟨m, hm, found⟩ := List.mem_filterMap.mp hx
  cases m <;> cases found
  have number : x.number = e.number := by rw [← same, ← x.number_core, core, e'.number_core]
  rw [← added_unique run hm posted number, core]

/-- Whatever the drains run into, for an event that was not published in process before it was added: its handler is
not called again once it has succeeded; the messaging side is called for it only after the delivery in process is
complete; it leaves for good only when that is so and, if it is to go outside and there is a messaging side, that has
taken it; and nothing is started for a later event before it has left. -/
theorem eachSinkInTurn {ignoreMissing messaging : Bool} {logger : Log.Logger} {before after : List (Mark β)}
    {m : Mark β} {s : Traffic β} {e : Posted β}
    (run : Run (start ignoreMissing messaging logger) (before ++ m :: after) s)
    (posted : .added e ∈ before ++ m :: after) (fresh : e.metadata.published = false) :
    (m = .invoked e.number → .handled e.number (.value ()) ∉ before) ∧
    (∀ message, m = .offered e.number message → Delivered ignoreMissing before e.number) ∧
    (∀ e', m = .left e' → e'.number = e.number → Delivered ignoreMissing before e.number ∧
      (e.metadata.external = true → messaging = true → .replied e.number (.value ()) ∈ before)) ∧
    (∀ n, e.number < n → m = .invoked n ∨ (∃ message, m = .offered n message) → Gone before e.number) := by
  have rule : Rule ignoreMissing messaging before m := by simpa using (runFaithful run).2.split
  have delivered : Told ignoreMissing before e.number → Delivered ignoreMissing before e.number := by
    rintro (⟨x, hx, same, published⟩ | delivered)
    · rw [added_unique run (List.mem_append_left _ hx) posted same, fresh] at published
      cases published
    · exact delivered
  refine ⟨?_, ?_, ?_, ?_⟩
  · rintro rfl
    exact rule.2.1
  · rintro message rfl
    exact delivered rule.1
  · rintro e' rfl same
    have core := core_of_left run posted (by simp) same
    have external : e'.metadata.external = e.metadata.external := by
      rw [← e'.external_core, core, e.external_core]
    obtain ⟨told, taken⟩ := rule
    rw [same] at told taken
    rw [external] at taken
    exact ⟨delivered told, taken⟩
  · rintro n later (rfl | ⟨message, rfl⟩)
    · exact rule.2.2 _ later
    · exact rule.2 _ later

theorem greetingDelivered :
    Run (start false true .plain)
      ([.added greeting, .invoked 0, .handled 0 (.value ()), .answered 0 (.ok ()), .offered 0 greetingMessage,
        .replied 0 (.value ())] ++ [.left (greeting.takenUp (.reading 1)).delivered])
      ⟨greetingBus, [.draining { greetingDrain with delivered := 1 }], 1⟩ := by
  have handled : Run (start false true .plain)
      [.added greeting, .invoked 0, .handled 0 (.value ()), .answered 0 (.ok ())]
      ⟨greetingBus, [.sending greetingDrain (greeting.takenUp (.reading 1)).delivered greetingMessage], 1⟩ :=
    .next greetingHandled (.alone rfl (.handled _ _ (.value ()) (.reading 3) rfl))
  have offered : Run (start false true .plain)
      [.added greeting, .invoked 0, .handled 0 (.value ()), .answered 0 (.ok ()), .offered 0 greetingMessage]
      ⟨greetingBus, [.transmitting greetingDrain (greeting.takenUp (.reading 1)).delivered greetingMessage], 1⟩ :=
    .next handled (.alone rfl (.offers _ _ _))
  have left : Run (start false true .plain)
      [.added greeting, .invoked 0, .handled 0 (.value ()), .answered 0 (.ok ()), .offered 0 greetingMessage,
        .replied 0 (.value ()), .left (greeting.takenUp (.reading 1)).delivered]
      ⟨greetingBus, [.draining { greetingDrain with delivered := 1 }], 1⟩ :=
    .next offered (.alone rfl (.replied _ _ _ (.value ()) rfl))
  exact left

theorem greetingInTurn :
    Mark.added greeting ∈ [Mark.added greeting, .invoked 0, .handled 0 (.value ()), .answered 0 (.ok ()),
      .offered 0 greetingMessage, .replied 0 (.value ())] ∧ greeting.metadata.published = false ∧
    Delivered false [Mark.added greeting, .invoked 0, .handled 0 (.value ()), .answered 0 (.ok ()),
      .offered 0 greetingMessage, .replied 0 (.value ())] 0 ∧
    Mark.replied 0 (.value ()) ∈ [Mark.added greeting, .invoked 0, .handled 0 (.value ()), .answered 0 (.ok ()),
      .offered 0 greetingMessage, .replied 0 (.value ())] := by
  obtain ⟨-, -, leaves, -⟩ := eachSinkInTurn greetingDelivered List.mem_cons_self rfl
  obtain ⟨delivered, taken⟩ := leaves _ rfl rfl
  exact ⟨List.mem_cons_self, rfl, delivered, taken rfl rfl⟩

end Traffic
end Switchyard.Events
