import Switchyard.Events.Bus
import Switchyard.Outcome
import Switchyard.Proofs.History
/-!
The bus among its callers. Events are added while calls drain the queue, in any order of their steps; a handler or the
messaging side may answer with anything or panic, a context may be cancelled at any moment, the breaker may turn a
drain away, and a call may be dropped wherever it waits. What a call does to the bus is what the functions of the bus
do; what the others answer is left open. What happens is written down as marks, and the lock is shown to have one
owner at most.
-/
namespace Switchyard.Events

variable {β : Type}

/-- An event with its place among all that were ever added. -/
abbrev Posted (β : Type) := Event (Nat × β)

namespace Event

def numbered (e : Event β) (n : Nat) : Posted β := ⟨e.shape, e.metadata, e.label, e.payload, (n, e.body)⟩

def number (e : Posted β) : Nat := e.body.1

/-- An event without the start of the drain that took it up. -/
def untaken (e : Event β) : Event β := { e with metadata := { e.metadata with publishedAt := none } }

/-- An event without anything that delivery writes on it. -/
def core (e : Event β) : Event β :=
  { e with metadata := { e.metadata with publishedAt := none, published := false } }

@[simp] theorem published_takenUp (e : Event β) (started : Stamp) :
    (e.takenUp started).metadata.published = e.metadata.published := rfl
@[simp] theorem published_untaken (e : Event β) : e.untaken.metadata.published = e.metadata.published := rfl
@[simp] theorem published_delivered (e : Event β) : e.delivered.metadata.published = true := rfl
@[simp] theorem core_takenUp (e : Event β) (started : Stamp) : (e.takenUp started).core = e.core := rfl
@[simp] theorem core_delivered (e : Event β) : e.delivered.core = e.core := rfl
@[simp] theorem number_untaken (e : Posted β) : e.untaken.number = e.number := rfl
@[simp] theorem shape_core (e : Event β) : e.core.shape = e.shape := rfl
@[simp] theorem number_core (e : Posted β) : e.core.number = e.number := rfl
@[simp] theorem external_core (e : Event β) : e.core.metadata.external = e.metadata.external := rfl

end Event

namespace Traffic

inductive Call (β : Type) where
  /-- In line for the lock, or handed it and not yet aware of it. -/
  | waiting (ticket : Nat)
  | admitted
  | draining (d : Bus.Drain)
  /-- Publishing in process, short of the handler. -/
  | notifying (d : Bus.Drain) (e : Posted β)
  | handling (d : Bus.Drain) (e : Posted β)
  /-- Publishing to the messaging side, short of it. -/
  | sending (d : Bus.Drain) (e : Posted β) (m : Message)
  | transmitting (d : Bus.Drain) (e : Posted β) (m : Message)
  | leaving

inductive Mark (β : Type) where
  | added (e : Posted β)
  | invoked (n : Nat)
  | handled (n : Nat) (o : Outcome Unit)
  | answered (n : Nat) (r : Except Error Unit)
  | offered (n : Nat) (m : Message)
  | replied (n : Nat) (o : Outcome Unit)
  | left (e : Posted β)

namespace Call

def held : Call β → Option (Posted β)
  | notifying _ e | handling _ e | sending _ e _ | transmitting _ e _ => some e
  | _ => none

def ticket : Call β → Option Nat
  | waiting k => some k
  | _ => none

/-- A call in line has the lock once its ticket is out of the line. -/
def owns (l : Lock) : Call β → Bool
  | waiting k => !l.waiting.contains k
  | _ => true

def ofNext (d : Bus.Drain) : Bus.Next (Nat × β) → Call β
  | .notify e => notifying d e
  | .send e m => sending d e m
  | .again d => draining d
  | .finish _ => leaving

end Call

/-- A drain goes on to the next event only when it is done with the one it held. -/
def departing (e : Option (Posted β)) : Bus.Next (Nat × β) → List (Mark β)
  | .again _ => (e.map .left).toList
  | _ => []

inductive Moves (b : Bus (Nat × β)) : Call β → List (Mark β) → Bus (Nat × β) → Call β → Prop where
  /-- The queue is empty, or the breaker says no. -/
  | turnedAway : Moves b .admitted [] b .leaving
  | begins (ctx : Context) (started : Stamp) (filled : b.queue ≠ []) :
      Moves b .admitted [] b (.draining ⟨ctx, started, 0⟩)
  | advances (d : Bus.Drain) (check : Except Error Unit) (now : Stamp) {stand}
      (stands : b.advance d check now = stand) :
      Moves b (.draining d) (departing b.queue.head? stand.next) stand.bus (.ofNext d stand.next)
  /-- There is no handler, or the context is cancelled. -/
  | refused (d : Bus.Drain) (e : Posted β) (err : Error) (now : Stamp) {stand}
      (stands : b.notified d e (.error err) now = stand) :
      Moves b (.notifying d e) (.answered e.number (.error err) :: departing (some e) stand.next) stand.bus
        (.ofNext d stand.next)
  | invokes (d : Bus.Drain) (e : Posted β) : Moves b (.notifying d e) [.invoked e.number] b (.handling d e)
  | handled (d : Bus.Drain) (e : Posted β) (o : Outcome Unit) (now : Stamp) {stand}
      (stands : b.notified d e o.caught now = stand) :
      Moves b (.handling d e)
        (.handled e.number o :: .answered e.number o.caught :: departing (some e) stand.next) stand.bus
        (.ofNext d stand.next)
  /-- The context is cancelled before the messaging side is reached. -/
  | withheld (d : Bus.Drain) (e : Posted β) (m : Message) (err : Error) {stand}
      (stands : b.sent d e (.error err) = stand) :
      Moves b (.sending d e m) (departing (some e) stand.next) stand.bus (.ofNext d stand.next)
  | offers (d : Bus.Drain) (e : Posted β) (m : Message) :
      Moves b (.sending d e m) [.offered e.number m] b (.transmitting d e m)
  | replied (d : Bus.Drain) (e : Posted β) (m : Message) (o : Outcome Unit) {stand}
      (stands : b.sent d e o.caught = stand) :
      Moves b (.transmitting d e m) (.replied e.number o :: departing (some e) stand.next) stand.bus
        (.ofNext d stand.next)
  /-- The context is cancelled before the messaging side has answered. -/
  | interrupted (d : Bus.Drain) (e : Posted β) (m : Message) (err : Error) {stand}
      (stands : b.sent d e (.error err) = stand) :
      Moves b (.transmitting d e m) (departing (some e) stand.next) stand.bus (.ofNext d stand.next)
  /-- Dropped, or ended by a panic, with an event in hand. -/
  | restores {c : Call β} {e : Posted β} (holds : c.held = some e) : Moves b c [] (b.restore e) .leaving

end Traffic

open Traffic in
structure Traffic (β : Type) where
  bus : Bus (Nat × β)
  calls : List (Call β)
  total : Nat

namespace Traffic

def tickets (calls : List (Call β)) : List Nat := calls.filterMap Call.ticket

def start (ignoreMissing messaging : Bool) (logger : Log.Logger) : Traffic β :=
  ⟨.make ignoreMissing messaging logger, [], 0⟩

def relock (s : Traffic β) (lock : Lock) (calls : List (Call β)) : Traffic β :=
  { s with bus := { s.bus with lock }, calls }

inductive Step (s : Traffic β) : List (Mark β) → Traffic β → Prop where
  | add (e : Event β) (id : Ident) (now : Stamp) {posted : Posted β}
      (stamped : (e.stamp id now).numbered s.total = posted) :
      Step s [.added posted] { s with bus := s.bus.add posted, total := s.total + 1 }
  | ask {lock} (free : s.bus.lock.take? = some lock) : Step s [] (s.relock lock (s.calls ++ [.admitted]))
  | line (k : Nat) (taken : s.bus.lock.take? = none) (fresh : k ∉ tickets s.calls) :
      Step s [] (s.relock (s.bus.lock.join k) (s.calls ++ [.waiting k]))
  | granted {before after k} (stands : s.calls = before ++ .waiting k :: after)
      (given : k ∉ s.bus.lock.waiting) : Step s [] (s.relock s.bus.lock (before ++ .admitted :: after))
  /-- Dropped, or its context cancelled, while in line. -/
  | leave {before after k} (stands : s.calls = before ++ .waiting k :: after)
      (inLine : k ∈ s.bus.lock.waiting) : Step s [] (s.relock (s.bus.lock.leave k) (before ++ after))
  | move {before after c ms bus c'} (stands : s.calls = before ++ c :: after) (moves : Moves s.bus c ms bus c') :
      Step s ms { s with bus, calls := before ++ c' :: after }
  /-- Ends with the lock and without an event: by itself, by a panic, or dropped. -/
  | finish {before after c} (stands : s.calls = before ++ c :: after) (owner : c.owns s.bus.lock = true)
      (free : c.held = none) : Step s [] (s.relock s.bus.lock.release.1 (before ++ after))

abbrev Run (init : Traffic β) : List (Mark β) → Traffic β → Prop := Runs Step init

/-! ### The lock has one owner at most -/

/-- The line holds tickets of calls under way, each once, and a taken lock has exactly one owner. -/
structure Sound (lock : Lock) (calls : List (Call β)) : Prop where
  apart : (tickets calls).Nodup
  known : ∀ k ∈ lock.waiting, k ∈ tickets calls
  line : lock.waiting.Nodup
  idle : lock.held = false → lock.waiting = []
  single : calls.countP (Call.owns lock) = if lock.held then 1 else 0

namespace Sound

variable {lock : Lock} {calls rest before after : List (Call β)} {c c' : Call β} {k : Nat}

theorem perm (sound : Sound lock calls) (same : calls.Perm rest) : Sound lock rest where
  apart := (same.filterMap _).nodup_iff.mp sound.apart
  known := fun k hk => (same.filterMap _).mem_iff.mp (sound.known k hk)
  line := sound.line
  idle := sound.idle
  single := by rw [← same.countP_eq, sound.single]

theorem front (sound : Sound lock (before ++ c :: after)) : Sound lock (c :: (before ++ after)) :=
  sound.perm List.perm_middle

theorem back (sound : Sound lock (c :: (before ++ after))) : Sound lock (before ++ c :: after) :=
  sound.perm List.perm_middle.symm

/- An owner stands alone: the others are in line. -/
theorem others (sound : Sound lock (c :: rest)) (owner : c.owns lock = true) :
    lock.held = true ∧ rest.countP (Call.owns lock) = 0 := by
  have single := sound.single
  rw [List.countP_cons_of_pos owner] at single
  cases h : lock.held <;> simp only [h] at single
  · simp at single
  · exact ⟨rfl, by simpa using single⟩

theorem waiting_of_not_owns (notOwner : c.owns lock = false) : ∃ k, c = .waiting k ∧ k ∈ lock.waiting := by
  cases c with
  | waiting k => exact ⟨k, rfl, by simpa [Call.owns] using notOwner⟩
  | _ => simp [Call.owns] at notOwner

theorem ticket_of_owns (owner : c.owns lock = true) (same : c.ticket = some k) : k ∉ lock.waiting := by
  cases c with
  | waiting j =>
    cases same
    simpa [Call.owns] using owner
  | _ => simp [Call.ticket] at same

theorem ticket_of_fresh (fresh : k ∉ tickets calls) (mem : c ∈ calls) : c.ticket ≠ some k := fun same =>
  fresh (List.mem_filterMap.mpr ⟨c, mem, same⟩)

theorem owns_join (other : c.ticket ≠ some k) : c.owns (lock.join k) = c.owns lock := by
  cases c with
  | waiting j =>
    have ne : j ≠ k := by simpa [Call.ticket] using other
    simp [Call.owns, Lock.join, ne]
  | _ => rfl

theorem owns_leave (other : c.ticket ≠ some k) : c.owns (lock.leave k) = c.owns lock := by
  cases c with
  | waiting j =>
    have ne : j ≠ k := by simpa [Call.ticket] using other
    simp [Call.owns, Lock.leave, ne]
  | _ => rfl

theorem apartOthers (sound : Sound lock (c :: rest)) : (tickets rest).Nodup := by
  have apart := sound.apart
  cases h : c.ticket <;> simp_all [tickets]

theorem knownOthers (sound : Sound lock (c :: rest)) (owner : c.owns lock = true) :
    ∀ k ∈ lock.waiting, k ∈ tickets rest := by
  intro k hk
  have known := sound.known k hk
  cases h : c.ticket with
  | none => simpa [tickets, h] using known
  | some j =>
    have ne : k ≠ j := fun same => ticket_of_owns owner h (same ▸ hk)
    simpa [tickets, h, ne] using known

theorem nobody (empty : lock.waiting = []) (none : calls.countP (Call.owns lock) = 0) : calls = [] := by
  rw [List.countP_eq_zero] at none
  cases calls with
  | nil => rfl
  | cons c rest =>
    obtain ⟨k, -, hk⟩ := waiting_of_not_owns (by simpa using none c (by simp))
    rw [empty] at hk
    cases hk

theorem replace (sound : Sound lock (c :: rest)) (owner : c.owns lock = true)
    (plain : c'.ticket = none) (owner' : c'.owns lock = true) : Sound lock (c' :: rest) where
  apart := by simpa [tickets, plain] using sound.apartOthers
  known := by simpa [tickets, plain] using sound.knownOthers owner
  line := sound.line
  idle := sound.idle
  single := by rw [← sound.single, List.countP_cons_of_pos owner, List.countP_cons_of_pos owner']

theorem take (sound : Sound lock calls) {lock'} (free : lock.take? = some lock') :
    Sound lock' (calls ++ [.admitted]) := by
  have notHeld : lock.held = false := by
    cases h : lock.held
    · rfl
    · simp [Lock.take?, h] at free
  have empty := sound.idle notHeld
  have taken : lock' = ⟨true, []⟩ := by
    simp only [Lock.take?, notHeld, empty, Bool.false_eq_true, if_false, Option.some.injEq] at free
    exact free.symm
  have single := sound.single
  rw [notHeld] at single
  -- with nobody in line every call would own the free lock
  have none := nobody empty single
  subst none taken
  exact ⟨List.nodup_nil, by simp, by simp, by simp, by simp [Call.owns]⟩

theorem join (sound : Sound lock calls) (taken : lock.take? = none) (fresh : k ∉ tickets calls) :
    Sound (lock.join k) (calls ++ [.waiting k]) where
  apart := by
    have apart := sound.apart
    simp only [tickets, List.filterMap_append] at apart fresh ⊢
    exact List.nodup_append.mpr ⟨apart, by simp [Call.ticket], by
      intro a ha b hb same
      simp only [List.filterMap_cons, Call.ticket, List.filterMap_nil, List.mem_singleton] at hb
      exact fresh (hb ▸ same ▸ ha)⟩
  known := by
    intro j hj
    simp only [Lock.join, List.mem_append, List.mem_singleton] at hj
    simp only [tickets, List.filterMap_append, List.mem_append]
    rcases hj with hj | rfl
    · exact .inl (sound.known j hj)
    · exact .inr (by simp [Call.ticket])
  line := by
    have out : k ∉ lock.waiting := fun hk => fresh (sound.known k hk)
    simp only [Lock.join]
    exact List.nodup_append.mpr ⟨sound.line, by simp, by
      intro a ha b hb same
      simp only [List.mem_singleton] at hb
      exact out (hb ▸ same ▸ ha)⟩
  idle := by
    intro notHeld
    simp [Lock.take?, show lock.held = false from notHeld] at taken
  single := by
    have same : ∀ c ∈ calls, Call.owns (lock.join k) c = Call.owns lock c := fun c hc =>
      owns_join (ticket_of_fresh fresh hc)
    have last : Call.owns (lock.join k) (.waiting k : Call β) = false := by simp [Call.owns, Lock.join]
    rw [List.countP_append, List.countP_congr (fun c hc => by rw [same c hc]), sound.single, List.countP_singleton,
      last]
    rfl

theorem leave (sound : Sound lock (.waiting k :: rest)) (inLine : k ∈ lock.waiting) :
    Sound (lock.leave k) rest where
  apart := sound.apartOthers
  known := by
    intro j hj
    simp only [Lock.leave, List.mem_filter, decide_eq_true_eq] at hj
    have known := sound.known j hj.1
    simpa [tickets, Call.ticket, hj.2] using known
  line := sound.line.filter _
  idle := by
    intro notHeld
    simp [Lock.leave, sound.idle notHeld]
  single := by
    have fresh : k ∉ tickets rest := by
      have apart := sound.apart
      simp only [tickets, List.filterMap_cons, Call.ticket] at apart
      exact (List.nodup_cons.mp apart).1
    have same : ∀ c ∈ rest, Call.owns (lock.leave k) c = Call.owns lock c := fun c hc =>
      owns_leave (ticket_of_fresh fresh hc)
    have single := sound.single
    rw [List.countP_cons_of_neg (by simpa [Call.owns] using inLine)] at single
    rw [List.countP_congr (fun c hc => by rw [same c hc]), single]
    rfl

theorem release (sound : Sound lock (c :: rest)) (owner : c.owns lock = true) :
    Sound lock.release.1 rest := by
  obtain ⟨held, none⟩ := sound.others owner
  have apart := sound.apartOthers
  have known := sound.knownOthers owner
  obtain ⟨_, waiting⟩ := lock
  cases waiting with
  | nil =>
    rw [nobody rfl none]
    exact ⟨by simp [tickets], by simp [Lock.release], by simp [Lock.release], by simp [Lock.release],
      by simp [Lock.release]⟩
  | cons t line =>
    obtain ⟨tOut, lineNodup⟩ := List.nodup_cons.mp sound.line
    refine ⟨apart, fun k hk => known k (List.mem_cons_of_mem _ hk), lineNodup, by simp [Lock.release], ?_⟩
    rw [List.countP_eq_zero] at none
    have chosen : ∀ d ∈ rest, (Call.owns ⟨true, line⟩ d = true ↔ (d.ticket == some t) = true) := by
      intro d hd
      obtain ⟨k, rfl, hk⟩ := waiting_of_not_owns (by simpa using none d hd)
      simp only [Call.owns, Call.ticket, Bool.not_eq_true', List.contains_eq_mem, decide_eq_false_iff_not,
        beq_iff_eq, Option.some.injEq]
      rcases List.mem_cons.mp hk with rfl | hk
      · exact ⟨fun _ => rfl, fun _ => tOut⟩
      · exact ⟨fun out => absurd hk out, fun same => same ▸ tOut⟩
    simp only [Lock.release, if_true]
    rw [List.countP_congr chosen]
    have once := apart.count (a := t)
    rw [if_pos (known t (by simp)), tickets, List.count_filterMap] at once
    exact once

end Sound

end Traffic
end Switchyard.Events
