import Switchyard.Proofs.Events.Delivery
/-!
Sends through a chain with a stage that drains the bus after the rest of the chain, among other drains. Sends begin at
any moment, also out of a handler that a running drain has called, and the rest of a chain may answer with anything.
Calls run on threads of their own and share no more than the queue and the lock: between the answer of the rest of a
chain and the stage's try at the lock, and between the answer of a drain and its giving up the lock, others go on. What
is pending while a drain has the lock and has not answered yet is delivered by it, unless it fails.
-/
namespace Switchyard.Events

variable {β α : Type}

namespace Bus

def unlock (b : Bus β) : Bus β := { b with lock := b.lock.release.1 }

end Bus

namespace Traffic

/-! ### The end of a drain -/

/-- Where a drain stands once what it waits for has come. -/
inductive Stands (b : Bus (Nat × β)) : Call β → List (Mark β) → Bus.Stand (Nat × β) → Prop where
  | advances (d : Bus.Drain) (check : Except Error Unit) (now : Stamp) :
      Stands b (.draining d) [] (b.advance d check now)
  | refused (d : Bus.Drain) (e : Posted β) (err : Error) (now : Stamp) :
      Stands b (.notifying d e) [.answered e.number (.error err)] (b.notified d e (.error err) now)
  | handled (d : Bus.Drain) (e : Posted β) (o : Outcome Unit) (now : Stamp) :
      Stands b (.handling d e) [.handled e.number o, .answered e.number o.caught] (b.notified d e o.caught now)
  | withheld (d : Bus.Drain) (e : Posted β) (m : Message) (err : Error) :
      Stands b (.sending d e m) [] (b.sent d e (.error err))
  | replied (d : Bus.Drain) (e : Posted β) (m : Message) (o : Outcome Unit) :
      Stands b (.transmitting d e m) [.replied e.number o] (b.sent d e o.caught)
  | interrupted (d : Bus.Drain) (e : Posted β) (m : Message) (err : Error) :
      Stands b (.transmitting d e m) [] (b.sent d e (.error err))

/-- A drain ends by itself and answers. -/
inductive Closes (b : Bus (Nat × β)) : Call β → List (Mark β) → Bus (Nat × β) → Except Error Unit → Prop where
  | idle (empty : b.queue = []) : Closes b .admitted [] b (.ok ())
  /-- The breaker says no. -/
  | rejected (err : Error) (filled : b.queue ≠ []) : Closes b .admitted [] b (.error err)
  | ends {c ms r} {stand : Bus.Stand (Nat × β)} (stands : Stands b c ms stand) (last : stand.next = .finish r) :
      Closes b c ms stand.bus r

variable {b b' : Bus (Nat × β)} {c : Call β} {ms : List (Mark β)} {d : Bus.Drain} {e : Posted β} {now : Stamp}
  {r : Except Error Unit}

theorem Stands.moves {stand : Bus.Stand (Nat × β)} (stands : Stands b c ms stand) (last : stand.next = .finish r) :
    Moves b c ms stand.bus .leaving := by
  have nothing (e : Option (Posted β)) : departing e stand.next = [] := by rw [last]; rfl
  have leaves (d : Bus.Drain) : Call.ofNext d stand.next = .leaving := by rw [last]; rfl
  cases stands with
  | advances d check now => simpa only [nothing, leaves] using Moves.advances (b := b) d check now rfl
  | refused d e err now => simpa only [nothing, leaves] using Moves.refused (b := b) d e err now rfl
  | handled d e o now => simpa only [nothing, leaves] using Moves.handled (b := b) d e o now rfl
  | withheld d e m err => simpa only [nothing, leaves] using Moves.withheld (b := b) d e m err rfl
  | replied d e m o => simpa only [nothing, leaves] using Moves.replied (b := b) d e m o rfl
  | interrupted d e m err => simpa only [nothing, leaves] using Moves.interrupted (b := b) d e m err rfl

theorem Closes.moves (closes : Closes b c ms b' r) : Moves b c ms b' .leaving := by
  cases closes with
  | idle | rejected => exact .turnedAway
  | ends stands last => exact stands.moves last

theorem outwardFails {lines : List Log.Line} (last : (b.outward d e now lines).next = .finish r) :
    ∃ err, r = .error err := by
  unfold Bus.outward at last
  split at last
  · split at last
    · split at last <;> cases last
      exact ⟨_, rfl⟩
    · cases last
  · cases last

theorem notifiedFails {r' : Except Error Unit} (last : (b.notified d e r' now).next = .finish r) :
    ∃ err, r = .error err := by
  unfold Bus.notified at last
  split at last
  · exact outwardFails last
  · split at last
    · exact outwardFails last
    · cases last
      exact ⟨_, rfl⟩

theorem sentFails {r' : Except Error Unit} (last : (b.sent d e r').next = .finish r) : ∃ err, r = .error err := by
  cases r' <;> cases last
  exact ⟨_, rfl⟩

theorem advanceEmptied {check : Except Error Unit} (last : (b.advance d check now).next = .finish (.ok ())) :
    b.queue = [] ∧ (b.advance d check now).bus = b := by
  unfold Bus.advance at last ⊢
  split at last
  · cases last
  · split at last
    · rename_i empty
      simp only [empty, and_self]
    · simp only [] at last
      split at last
      · obtain ⟨err, impossible⟩ := outwardFails last
        cases impossible
      · cases last

/-- Only a look at the empty queue ends a drain well. -/
theorem Closes.emptied (closes : Closes b c ms b' (.ok ())) : b' = b ∧ b.queue = [] ∧ c.held = none ∧ ms = [] := by
  cases closes with
  | idle empty => exact ⟨rfl, empty, rfl, rfl⟩
  | ends stands last =>
    cases stands with
    | advances d check now =>
      obtain ⟨empty, same⟩ := advanceEmptied last
      exact ⟨same, empty, rfl, rfl⟩
    | refused | handled =>
      obtain ⟨err, impossible⟩ := notifiedFails last
      cases impossible
    | withheld | replied | interrupted =>
      obtain ⟨err, impossible⟩ := sentFails last
      cases impossible

end Traffic

namespace Sending

inductive Role (α : Type) where
  | plain
  /-- The drain is that of a stage, and the rest of its chain has answered `inner`. -/
  | stage (key : String) (inner : Except Error α)
  /-- It has answered, and has the lock still. -/
  | drained (key : String) (inner : Except Error α) (drain : Except Error Bool)

structure Caller (β α : Type) where
  number : Nat
  role : Role α
  call : Traffic.Call β

inductive Mark (β α : Type) where
  | added (e : Posted β)
  /-- The rest of the chain has answered. -/
  | reached (n : Nat) (inner : Except Error α)
  | did (n : Nat) (m : Traffic.Mark β)
  | ended (n : Nat) (r : Except Error Unit)
  | returned (n : Nat) (r : Except Error α)

namespace Role

def answered (r : Except Error Unit) : Role α → Role α
  | stage key inner => drained key inner (r.map fun _ => true)
  | role => role

/-- What comes of a call once it has given up the lock. -/
def report (n : Nat) : Role α → List (Mark β α)
  | drained key inner r => [.returned n (afterDrain key inner r).1]
  | _ => []

end Role

end Sending

open Sending in
structure Sending (β α : Type) where
  bus : Bus (Nat × β)
  callers : List (Caller β α)
  /-- Sends that have not tried the lock, with the keys of the requests and what the rest of the chain has answered. -/
  within : List (Nat × String × Option (Except Error α))
  events : Nat
  numbers : Nat

namespace Sending

def start (ignoreMissing messaging : Bool) (logger : Log.Logger) : Sending β α :=
  ⟨.make ignoreMissing messaging logger, [], [], 0, 0⟩

def calls (s : Sending β α) : List (Traffic.Call β) := s.callers.map Caller.call

inductive Step (s : Sending β α) : List (Mark β α) → Sending β α → Prop where
  | add (e : Event β) (id : Ident) (now : Stamp) {posted : Posted β}
      (stamped : (e.stamp id now).numbered s.events = posted) :
      Step s [.added posted] { s with bus := s.bus.add posted, events := s.events + 1 }
  | enter (key : String) :
      Step s [] { s with within := s.within ++ [(s.numbers, key, none)], numbers := s.numbers + 1 }
  /-- Dropped, or ended by a panic, short of the stage. -/
  | quit {before after n key} (stands : s.within = before ++ (n, key, none) :: after) :
      Step s [] { s with within := before ++ after }
  | reach {before after n key} (inner : Except Error α) (stands : s.within = before ++ (n, key, none) :: after) :
      Step s [.reached n inner] { s with within := before ++ (n, key, some inner) :: after }
  /-- The lock is free. -/
  | take {before after n key inner lock} (stands : s.within = before ++ (n, key, some inner) :: after)
      (free : s.bus.lock.take? = some lock) :
      Step s [] { s with
        bus := { s.bus with lock }, within := before ++ after,
        callers := s.callers ++ [⟨n, .stage key inner, .admitted⟩] }
  /-- It is taken. -/
  | skip {before after n key inner} (stands : s.within = before ++ (n, key, some inner) :: after)
      (taken : s.bus.lock.take? = none) :
      Step s [.returned n (afterDrain key inner (.ok false)).1] { s with within := before ++ after }
  | ask {lock} (free : s.bus.lock.take? = some lock) :
      Step s [] { s with
        bus := { s.bus with lock }, callers := s.callers ++ [⟨s.numbers, .plain, .admitted⟩],
        numbers := s.numbers + 1 }
  | line (k : Nat) (taken : s.bus.lock.take? = none) (fresh : k ∉ Traffic.tickets s.calls) :
      Step s [] { s with
        bus := { s.bus with lock := s.bus.lock.join k }, callers := s.callers ++ [⟨s.numbers, .plain, .waiting k⟩],
        numbers := s.numbers + 1 }
  | granted {before after n role k} (stands : s.callers = before ++ ⟨n, role, .waiting k⟩ :: after)
      (given : k ∉ s.bus.lock.waiting) : Step s [] { s with callers := before ++ ⟨n, role, .admitted⟩ :: after }
  /-- Dropped, or its context cancelled, while in line. -/
  | leave {before after n role k} (stands : s.callers = before ++ ⟨n, role, .waiting k⟩ :: after)
      (inLine : k ∈ s.bus.lock.waiting) :
      Step s [] { s with bus := { s.bus with lock := s.bus.lock.leave k }, callers := before ++ after }
  | move {before after n role c ms bus c'} (stands : s.callers = before ++ ⟨n, role, c⟩ :: after)
      (moves : Traffic.Moves s.bus c ms bus c') (goesOn : c' ≠ .leaving) :
      Step s (ms.map (.did n)) { s with bus, callers := before ++ ⟨n, role, c'⟩ :: after }
  /-- The drain has answered. -/
  | close {before after n role c ms bus r} (stands : s.callers = before ++ ⟨n, role, c⟩ :: after)
      (closes : Traffic.Closes s.bus c ms bus r) :
      Step s (ms.map (.did n) ++ [.ended n r])
        { s with bus, callers := before ++ ⟨n, role.answered r, .leaving⟩ :: after }
  /-- Dropped, or ended by a panic, with an event in hand. -/
  | restore {before after n role c e} (stands : s.callers = before ++ ⟨n, role, c⟩ :: after)
      (holds : c.held = some e) :
      Step s [] { s with bus := s.bus.restore e, callers := before ++ ⟨n, role, .leaving⟩ :: after }
  /-- Gives up the lock after its drain has answered, or dropped, or ended by a panic. -/
  | letGo {before after n role c} (stands : s.callers = before ++ ⟨n, role, c⟩ :: after)
      (owner : c.owns s.bus.lock = true) (free : c.held = none) :
      Step s (role.report n) { s with bus := s.bus.unlock, callers := before ++ after }

abbrev Run (init : Sending β α) : List (Mark β α) → Sending β α → Prop := Runs Step init

variable {init s s' t : Sending β α} {ms new xs : List (Mark β α)} {n : Nat}

/-! ### What the bus sees of it -/

def traffic (s : Sending β α) : Traffic β := ⟨s.bus, s.calls, s.events⟩

@[simp] def Mark.seen? : Mark β α → Option (Traffic.Mark β)
  | .added e => some (.added e)
  | .did _ m => some m
  | _ => none

def seen (ms : List (Mark β α)) : List (Traffic.Mark β) := ms.filterMap Mark.seen?

@[simp] theorem seen_nil : seen ([] : List (Mark β α)) = [] := rfl
@[simp] theorem seen_cons (m : Mark β α) (ms : List (Mark β α)) : seen (m :: ms) = m.seen?.toList ++ seen ms := by
  cases m <;> rfl
@[simp] theorem seen_append (xs ys : List (Mark β α)) : seen (xs ++ ys) = seen xs ++ seen ys := by simp [seen]
@[simp] theorem seen_did (n : Nat) (ms : List (Traffic.Mark β)) : seen (ms.map (Mark.did (α := α) n)) = ms := by
  simp [seen, Function.comp_def]
@[simp] theorem seen_report (n : Nat) (role : Role α) : seen (role.report n : List (Mark β α)) = [] := by
  cases role <;> rfl

theorem mem_report {role : Role α} {m : Mark β α} (mem : m ∈ role.report n) : ∃ r, m = .returned n r := by
  cases role with
  | drained => exact ⟨_, List.mem_singleton.mp mem⟩
  | _ => cases mem

theorem calls_at {before after : List (Caller β α)} {c : Caller β α} (stands : s.callers = before ++ c :: after) :
    s.calls = before.map Caller.call ++ c.call :: after.map Caller.call := by
  simp [calls, stands]

theorem stepTraffic (step : Step s new s') : Traffic.Run s.traffic (seen new) s'.traffic := by
  have once {ms t} (step : Traffic.Step s.traffic ms t) : Traffic.Run s.traffic ms t := .next .nil step
  cases step with
  | add e id now stamped => exact once (.add e id now stamped)
  | enter | quit | reach | skip => exact .nil
  | take stands free => simpa [traffic, Traffic.relock, calls] using once (.ask free)
  | ask free => simpa [traffic, Traffic.relock, calls] using once (.ask free)
  | line k taken fresh => simpa [traffic, Traffic.relock, calls] using once (.line k taken fresh)
  | granted stands given => simpa [traffic, Traffic.relock, calls] using once (.granted (calls_at stands) given)
  | leave stands inLine => simpa [traffic, Traffic.relock, calls] using once (.leave (calls_at stands) inLine)
  | move stands moves goesOn => simpa [traffic, calls] using once (.move (calls_at stands) moves)
  | close stands closes => simpa [traffic, calls] using once (.move (calls_at stands) closes.moves)
  | restore stands holds => simpa [traffic, calls] using once (.move (calls_at stands) (.restores holds))
  | letGo stands owner free =>
    simpa [traffic, Traffic.relock, calls, Bus.unlock] using once (.finish (calls_at stands) owner free)

theorem runTraffic (run : Run init ms s) : Traffic.Run init.traffic (seen ms) s.traffic := by
  induction run with
  | nil => exact .nil
  | next earlier step ih =>
    rw [seen_append]
    exact ih.trans (stepTraffic step)

/-! ### Every call has a number of its own -/

def names (s : Sending β α) : List Nat := s.callers.map Caller.number ++ s.within.map Prod.fst

structure Named (s : Sending β α) : Prop where
  once : ∀ n, s.names.count n ≤ 1
  known : ∀ n ∈ s.names, n < s.numbers

theorem stepNames (step : Step s new s') : s.numbers ≤ s'.numbers ∧ ∀ n, s'.names.count n ≤
    s.names.count n + if s.numbers = n ∧ n < s'.numbers then 1 else 0 := by
  cases step with
  | add => exact ⟨Nat.le_refl _, fun n => Nat.le_add_right _ _⟩
  | enter | ask | line =>
    refine ⟨Nat.le_succ _, fun n => ?_⟩
    simp only [names, List.map_append, List.map_cons, List.map_nil, List.count_append, List.count_singleton, beq_iff_eq]
    split <;> split <;> omega
  | quit stands | reach _ stands | take stands | skip stands | granted stands | leave stands | move stands
  | close stands | restore stands | letGo stands =>
    refine ⟨Nat.le_refl _, fun n => ?_⟩
    simp only [names, stands, List.map_append, List.map_cons, List.map_nil, List.count_append, List.count_cons,
      List.count_nil]
    omega

theorem stepNamed (step : Step s new s') (named : Named s) : Named s' := by
  obtain ⟨grows, names⟩ := stepNames step
  have unborn : ∀ n, s.numbers ≤ n → s.names.count n = 0 := fun n le =>
    List.count_eq_zero.mpr fun mem => absurd (named.known n mem) (by omega)
  constructor
  · intro n
    have now := names n
    have before := named.once n
    split at now
    · rename_i fresh
      have absent := unborn n (by omega)
      omega
    · omega
  · intro n mem
    have now := names n
    have present := List.count_pos_iff.mpr mem
    split at now
    · omega
    · have known := named.known n (List.count_pos_iff.mp (by omega))
      omega

/-! ### Who has the lock keeps it until its drain is over -/

abbrev Locked (s : Sending β α) : Prop := Traffic.Sound s.bus.lock s.calls

def Owner (s : Sending β α) (n : Nat) : Prop := ∃ c ∈ s.callers, c.number = n ∧ c.call.owns s.bus.lock = true

def Over (s : Sending β α) (n : Nat) : Prop := n < s.numbers ∧ n ∉ s.names

theorem stepOver (step : Step s new s') (gone : Over s n) : Over s' n := by
  obtain ⟨known, absent⟩ := gone
  obtain ⟨grows, names⟩ := stepNames step
  have none := List.count_eq_zero.mpr absent
  have now := names n
  rw [if_neg (by omega)] at now
  exact ⟨by omega, List.count_eq_zero.mp (by omega)⟩

section Standing

variable {before after : List (Caller β α)} {c : Caller β α}

theorem mem_among {x : Caller β α} (stands : s.callers = before ++ x :: after) (mem : c ∈ s.callers) :
    c = x ∨ c ∈ before ++ after := by
  rw [stands] at mem
  exact List.mem_cons.mp (List.perm_middle.mem_iff.mp mem)

theorem mem_beside (x : Caller β α) (mem : c ∈ before ++ after) : c ∈ before ++ x :: after :=
  (sublist_without before after x).mem mem

theorem owner_at (locked : Locked s) (stands : s.callers = before ++ c :: after)
    (owns : c.call.owns s.bus.lock = true) (owner : Owner s n) : c.number = n := by
  obtain ⟨c', mem, rfl, owns'⟩ := owner
  rw [Locked, calls_at stands] at locked
  have none := (locked.front.others owns).2
  rw [List.countP_eq_zero, ← List.map_append] at none
  rw [stands] at mem
  rcases List.mem_cons.mp (List.perm_middle.mem_iff.mp mem) with same | other
  · rw [same]
  · exact absurd owns' (none _ (List.mem_map_of_mem other))

theorem over_at (named : Named s) (stands : s.callers = before ++ c :: after) (bus : Bus (Nat × β)) :
    Over { s with bus, callers := before ++ after } c.number := by
  have once := named.once c.number
  have known := named.known c.number (by simp [names, stands])
  refine ⟨known, List.count_eq_zero.mp ?_⟩
  simp only [names, stands, List.map_append, List.map_cons, List.count_append, List.count_cons_self] at once ⊢
  omega

end Standing

theorem Named.alone {c c' : Caller β α} (named : Named s) (mem : c ∈ s.callers) (mem' : c' ∈ s.callers)
    (same : c.number = c'.number) : c = c' := by
  have nodup : s.names.Nodup := List.nodup_iff_count_le_one.mpr named.once
  exact List.inj_on_of_nodup_map (List.nodup_append.mp nodup).1 mem mem' same

/-- A call stays as it is, or learns that the lock was handed to it, or has its turn. -/
def Comes (b b' : Bus (Nat × β)) (c c' : Traffic.Call β) : Prop :=
  c' = c ∨ (∃ k, c = .waiting k ∧ c' = .admitted) ∨ ∃ moved, Traffic.Moves b c moved b' c'

theorem comes_at {before after : List (Caller β α)} {c x x' : Caller β α} {bus : Bus (Nat × β)}
    (stands : s.callers = before ++ x :: after) (mem : c ∈ s.callers) (number : x'.number = x.number)
    (comes : Comes s.bus bus x.call x'.call) :
    ∃ c' ∈ before ++ x' :: after, c'.number = c.number ∧ Comes s.bus bus c.call c'.call := by
  rcases mem_among stands mem with rfl | mem
  · exact ⟨x', List.mem_append_right _ List.mem_cons_self, number, comes⟩
  · exact ⟨c, mem_beside _ mem, rfl, .inl rfl⟩

theorem stepCall {c : Caller β α} (named : Named s) (step : Step s new s') (mem : c ∈ s.callers) :
    Over s' c.number ∨ ∃ c' ∈ s'.callers, c'.number = c.number ∧ Comes s.bus s'.bus c.call c'.call := by
  cases step with
  | add | enter | quit | reach | skip => exact .inr ⟨c, mem, rfl, .inl rfl⟩
  | take | ask | line => exact .inr ⟨c, List.mem_append_left _ mem, rfl, .inl rfl⟩
  | granted stands => exact .inr (comes_at stands mem rfl (.inr (.inl ⟨_, rfl, rfl⟩)))
  | move stands moves => exact .inr (comes_at stands mem rfl (.inr (.inr ⟨_, moves⟩)))
  | close stands closes => exact .inr (comes_at stands mem rfl (.inr (.inr ⟨_, closes.moves⟩)))
  | restore stands holds => exact .inr (comes_at stands mem rfl (.inr (.inr ⟨_, .restores holds⟩)))
  | leave stands | letGo stands =>
    rcases mem_among stands mem with rfl | mem
    · exact .inl (over_at named stands _)
    · exact .inr ⟨c, mem, rfl, .inl rfl⟩

theorem Locked.taken (locked : Locked s) (owner : Owner s n) : s.bus.lock.take? = none := by
  obtain ⟨c, mem, -, owns⟩ := owner
  obtain ⟨before, after, stands⟩ := List.append_of_mem mem
  rw [Locked, calls_at stands] at locked
  simp [Lock.take?, (locked.front.others owns).1]

/-- Who has the lock keeps it or is over, and no other drain does anything. -/
theorem stepOwner (named : Named s) (locked : Locked s) (owner : Owner s n) (step : Step s new s') :
    (Owner s' n ∨ Over s' n) ∧ ∀ k m, Mark.did k m ∈ new → k = n := by
  have taken := locked.taken owner
  obtain ⟨c, mem, number, owns⟩ := owner
  have owner : Owner s n := ⟨c, mem, number, owns⟩
  cases step with
  | add | enter | quit | reach | skip => exact ⟨.inl owner, by simp⟩
  | take _ free | ask free =>
    rw [taken] at free
    cases free
  | line k _ fresh =>
    refine ⟨.inl ⟨c, List.mem_append_left _ mem, number, ?_⟩, by simp⟩
    rw [Traffic.Sound.owns_join (Traffic.Sound.ticket_of_fresh fresh (List.mem_map_of_mem mem)), owns]
  | granted stands given =>
    rw [stands] at mem
    refine ⟨.inl ?_, by simp⟩
    rcases List.mem_cons.mp (List.perm_middle.mem_iff.mp mem) with rfl | other
    · exact ⟨_, List.mem_append_right _ List.mem_cons_self, number, rfl⟩
    · exact ⟨c, List.perm_middle.mem_iff.mpr (List.mem_cons_of_mem _ other), number, owns⟩
  | @leave before after n' role k stands inLine =>
    rw [stands] at mem
    refine ⟨.inl ?_, by simp⟩
    rcases List.mem_cons.mp (List.perm_middle.mem_iff.mp mem) with rfl | other
    · simp [Traffic.Call.owns, inLine] at owns
    · refine ⟨c, other, number, ?_⟩
      have apart : c.call.ticket ≠ some k := fun same => Traffic.Sound.ticket_of_owns owns same inLine
      rw [Traffic.Sound.owns_leave apart, owns]
  | move stands moves =>
    obtain ⟨plain, plain'⟩ := Traffic.movesPlain moves
    have same := owner_at locked stands (Traffic.owns_of_plain _ plain) owner
    refine ⟨.inl ⟨_, List.mem_append_right _ List.mem_cons_self, same, Traffic.owns_of_plain _ plain'⟩, ?_⟩
    rintro k m did
    simp only [List.mem_map, Mark.did.injEq] at did
    obtain ⟨_, -, rfl, -⟩ := did
    exact same
  | close stands closes =>
    obtain ⟨plain, plain'⟩ := Traffic.movesPlain closes.moves
    have same := owner_at locked stands (Traffic.owns_of_plain _ plain) owner
    refine ⟨.inl ⟨_, List.mem_append_right _ List.mem_cons_self, same, Traffic.owns_of_plain _ plain'⟩, ?_⟩
    rintro k m did
    simp only [List.mem_append, List.mem_map, Mark.did.injEq, List.mem_singleton, reduceCtorEq, or_false] at did
    obtain ⟨_, -, rfl, -⟩ := did
    exact same
  | restore stands holds =>
    obtain ⟨plain, plain'⟩ := Traffic.movesPlain (Traffic.Moves.restores (b := s.bus) holds)
    have same := owner_at locked stands (Traffic.owns_of_plain _ plain) owner
    exact ⟨.inl ⟨_, List.mem_append_right _ List.mem_cons_self, same, Traffic.owns_of_plain _ plain'⟩, by simp⟩
  | @letGo before after n' role c' stands owner' free =>
    have same : n' = n := owner_at locked stands owner' owner
    refine ⟨.inr (same ▸ over_at named stands _), fun k m did => ?_⟩
    obtain ⟨r, impossible⟩ := mem_report did
    cases impossible

theorem runNamed (run : Run init ms s) (named : Named init) : Named s := by
  induction run with
  | nil => exact named
  | next earlier step ih => exact stepNamed step ih

theorem runLocked (run : Run init ms s) (locked : Locked init) : Locked s :=
  Traffic.runSound (runTraffic run) locked

theorem runOwner (named : Named s) (locked : Locked s) (owner : Owner s n) (run : Run s xs t) :
    Over t n ∨ (Owner t n ∧ ∀ k m, Mark.did k m ∈ xs → k = n) := by
  induction run with
  | nil => exact .inr ⟨owner, by simp⟩
  | next earlier step ih =>
    rcases ih with gone | ⟨owner', alone⟩
    · exact .inl (stepOver step gone)
    · obtain ⟨stays, alone'⟩ := stepOwner (runNamed earlier named) (runLocked earlier locked) owner' step
      refine stays.symm.imp_right fun owner'' => ⟨owner'', fun k m did => ?_⟩
      exact (List.mem_append.mp did).elim (alone k m) (alone' k m)

theorem startNamed (ignoreMissing messaging : Bool) (logger : Log.Logger) :
    Named (start (β := β) (α := α) ignoreMissing messaging logger) :=
  ⟨by simp [names, start], by simp [names, start]⟩

theorem startLocked (ignoreMissing messaging : Bool) (logger : Log.Logger) :
    Locked (start (β := β) (α := α) ignoreMissing messaging logger) :=
  Traffic.startSound _ _ _

/-! ### What the owner of the lock delivers -/

def Mark.by? (n : Nat) : Mark β α → Option (Traffic.Mark β)
  | .did k m => if k = n then some m else none
  | _ => none

/-- The events that have left through the drain of a call. -/
def leftBy (n : Nat) (ms : List (Mark β α)) : List (Posted β) := Traffic.left (ms.filterMap (Mark.by? n))

def posted (ms : List (Mark β α)) : List (Posted β) := Traffic.added (seen ms)

/-- A call has the lock and its drain has not found the queue empty so far, and if it ends well, it has delivered all that
is pending now and all that is added until then, one after the other as they were added. -/
structure Covers (ignoreMissing messaging : Bool) (past : List (Mark β α)) (s : Sending β α) (n : Nat) : Prop where
  active : Owner s n
  unended : .ended n (.ok ()) ∉ past
  delivers : ∀ xs t new t', Run s xs t → Step t new t' → .ended n (.ok ()) ∈ new →
    (leftBy n xs).map Event.core = (s.traffic.pending ++ posted xs).map Event.core ∧
    ((leftBy n xs).map Event.number).Pairwise (· < ·) ∧
    ∀ e ∈ leftBy n xs, Traffic.Served ignoreMissing messaging (seen (past ++ xs)) e

theorem left_seen (alone : ∀ k m, Mark.did k m ∈ ms → k = n) : Traffic.left (seen ms) = leftBy n ms := by
  induction ms with
  | nil => rfl
  | cons m rest ih =>
    have rest' := ih fun k m did => alone k m (List.mem_cons_of_mem _ did)
    cases m with
    | did k m =>
      obtain rfl := alone k m List.mem_cons_self
      rw [seen_cons, Traffic.left_append, rest', leftBy, leftBy, ← Traffic.left_append]
      simp [Mark.by?]
    | _ => exact rest'

theorem ended_well (step : Step t new s') (ended : .ended n (.ok ()) ∈ new) :
    n ∈ t.names ∧ (Locked t → t.traffic.pending = []) := by
  cases step with
  | move => simp at ended
  | letGo =>
    obtain ⟨r, impossible⟩ := mem_report ended
    cases impossible
  | @close before after n' role c ms bus r stands closes =>
    obtain ⟨rfl, rfl⟩ : n' = n ∧ r = .ok () := by simpa [eq_comm] using ended
    obtain ⟨-, empty, free, -⟩ := closes.emptied
    refine ⟨by simp [names, stands], fun locked => ?_⟩
    rw [Locked, calls_at stands] at locked
    have owns := Traffic.owns_of_plain t.bus.lock (Traffic.movesPlain closes.moves).1
    have nothing : t.traffic.held = [] := by
      rw [Traffic.held, traffic, calls_at stands, Traffic.held_at locked owns, free]
      rfl
    rw [Traffic.pending, nothing]
    exact empty
  | _ => simp at ended

section Started

variable {ignoreMissing messaging : Bool} {logger : Log.Logger}

theorem ownerCovers (run : Run (start ignoreMissing messaging logger) ms s) (owner : Owner s n)
    (unended : .ended n (.ok ()) ∉ ms) : Covers ignoreMissing messaging ms s n := by
  have named := runNamed run (startNamed _ _ _)
  have locked := runLocked run (startLocked _ _ _)
  refine ⟨owner, unended, fun xs t new t' later step ended => ?_⟩
  obtain ⟨present, rests⟩ := ended_well step ended
  have settled := rests (runLocked later locked)
  -- the call that ends well is the one that had the lock, so no other drain has done anything since
  have alone : ∀ k m, Mark.did k m ∈ xs → k = n :=
    ((runOwner named locked owner later).resolve_left fun gone => gone.2 present).2
  have through : Traffic.Run (Traffic.start ignoreMissing messaging logger) (seen (ms ++ xs)) t.traffic :=
    runTraffic (run.trans later)
  obtain ⟨faithful, lawful⟩ := Traffic.runFaithful through
  have gone : Traffic.left (seen xs) = leftBy n xs := left_seen alone
  refine ⟨?_, ?_, fun e he => Traffic.served_of_left lawful ?_⟩
  · have accounts := Traffic.runAccounts (runTraffic later) locked
    rw [settled, List.append_nil, gone] at accounts
    exact accounts.symm
  · have numbers := faithful.numbers
    rw [settled, List.map_nil, List.append_nil, seen_append, Traffic.left_append, gone, List.map_append] at numbers
    have increasing := List.pairwise_lt_range (n := t.traffic.total)
    rw [← numbers] at increasing
    exact (List.pairwise_append.mp increasing).2.1
  · rw [← gone] at he
    rw [seen_append]
    exact List.mem_append_right _ (Traffic.mem_left.mp he)

end Started

end Sending
end Switchyard.Events
