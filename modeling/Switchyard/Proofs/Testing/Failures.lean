import Switchyard.Testing.Broker
import Switchyard.Testing.Store
/-!
Failures put into a test double for a number of calls. Whatever happens to the double meanwhile, so many of the calls that
reach it fail and leave it as it was, and all later ones do what they do without a failure. A number of zero counts as
one.
-/
namespace Switchyard.Testing

open State
open Events (Message)

namespace Failure

variable {n calls : Nat} {e : Error}

/-- What is left of a failure for a number of calls after some of them. -/
def left (n : Nat) (e : Error) (calls : Nat) : Option Failure :=
  if calls < max n 1 then some (.times (n - calls) e) else none

theorem left_zero : left n e 0 = some (.times n e) := if_pos (Nat.lt_of_lt_of_le Nat.zero_lt_one (Nat.le_max_right n 1))

theorem take_early (early : calls < max n 1) : take (left n e calls) = (left n e (calls + 1), some e) := by
  unfold left
  rw [if_pos early]
  by_cases more : calls + 1 < max n 1
  · have several : 1 < n - calls := by omega
    rw [if_pos more, take, if_pos several, Nat.sub_sub]
  · have last : ¬ 1 < n - calls := by omega
    rw [if_neg more, take, if_neg last]

theorem left_late (late : max n 1 ≤ calls) : left n e calls = none := if_neg (Nat.not_lt.mpr late)

theorem take_left : (take (left n e calls)).1 = left n e (calls + 1) := by
  by_cases early : calls < max n 1
  · rw [take_early early]
  · have late := Nat.not_lt.mp early
    rw [left_late late, left_late (Nat.le_succ_of_le late)]
    rfl

/-- Where some of what happens to a double takes of its failure and the rest leaves it alone, the failure is used up by
their number. -/
theorem left_after {σ η : Type} (failure : σ → Option Failure) (after : σ → η → σ) (reaches : η → Bool)
    (takes : ∀ s h, reaches h = true → failure (after s h) = (take (failure s)).1)
    (spares : ∀ s h, reaches h = false → failure (after s h) = failure s)
    (s : σ) (put : failure s = left n e calls) (hs : List η) :
    failure (hs.foldl after s) = left n e (calls + hs.countP reaches) := by
  induction hs generalizing s calls with
  | nil => exact put
  | cons h rest ih =>
    rw [List.foldl_cons, List.countP_cons]
    cases reached : reaches h with
    | true =>
      have taken : failure (after s h) = left n e (calls + 1) := by rw [takes s h reached, put, take_left]
      rw [ih _ taken, if_pos rfl, Nat.add_right_comm, Nat.add_assoc]
    | false =>
      have spared : failure (after s h) = left n e calls := (spares s h reached).trans put
      rw [ih _ spared, if_neg Bool.false_ne_true]
      rfl

end Failure

namespace Store

variable {s : Store} {op : Op} {e : Error}

/-- What can happen to a store but that its failure is changed by hand. -/
inductive Happening where
  /-- A call begins and has its latency before it. -/
  | begins (op : Op)
  /-- A call reaches the point where it may fail. -/
  | arrives (op : Op)
  | seeds (key : String) (value : Json)
  | slows (latency : Span)

def Happening.reaches : Happening → Bool
  | arrives _ => true
  | _ => false

def after (s : Store) : Happening → Store
  | .begins op => s.record op
  | .arrives op => (s.perform op).1
  | .seeds key value => s.seed key value
  | .slows latency => { s with latency := some latency }

theorem apply_failure (s : Store) (op : Op) : (s.apply op).1.failure = s.failure := by
  cases op with
  | has | get | set | batchSet => rfl
  | delete key =>
    unfold apply
    cases held : s.value? key <;> simp only [held]

theorem perform_failure (s : Store) (op : Op) : (s.perform op).1.failure = (Failure.take s.failure).1 := by
  unfold perform
  split
  · rename_i taken
    rw [taken]
  · rename_i taken
    rw [apply_failure, taken]

theorem perform_fails {left : Option Failure} (taken : Failure.take s.failure = (left, some e)) :
    s.perform op = ({ s with failure := left }, .error e) := by
  rw [perform, taken]

theorem perform_healthy (healthy : s.failure = none) : s.perform op = s.apply op := by
  obtain ⟨⟩ := s
  cases healthy
  rfl

theorem takes (s : Store) (h : Happening) (reached : h.reaches = true) :
    (after s h).failure = (Failure.take s.failure).1 := by
  cases h with
  | arrives op => exact perform_failure s op
  | begins | seeds | slows => cases reached

theorem spares (s : Store) (h : Happening) (aside : h.reaches = false) : (after s h).failure = s.failure := by
  cases h with
  | arrives => cases aside
  | begins | seeds | slows => rfl

theorem left_after (s : Store) (n : Nat) (e : Error) (hs : List Happening) :
    (hs.foldl after { s with failure := some (.times n e) }).failure = Failure.left n e (hs.countP Happening.reaches) := by
  have counted := Failure.left_after failure after Happening.reaches takes spares
    { s with failure := some (.times n e) } Failure.left_zero.symm hs
  rwa [Nat.zero_add] at counted

end Store

namespace Broker

variable {η : Type} {b : Broker η} {m : Message} {e : Error}

/-- What can happen to a messaging side but that its failure is changed by hand. -/
inductive Happening (η : Type) where
  | publishes (m : Message)
  | subscribes (topic : String) (handler : η)
  | unsubscribes (topic : String)

def Happening.reaches : Happening η → Bool
  | publishes _ => true
  | _ => false

def after (b : Broker η) : Happening η → Broker η
  | .publishes m => (b.publish m).1
  | .subscribes topic handler => b.subscribe topic handler
  | .unsubscribes topic => b.unsubscribe topic

def recorded (b : Broker η) (m : Message) : Calls := b.calls ++ [("publish", [m.topic, m.id.text])]

theorem publish_fails {left : Option Failure} (taken : Failure.take b.failure = (left, some e)) :
    b.publish m = ({ b with failure := left, calls := b.recorded m }, .error e) := by
  simp only [publish, taken]
  rfl

theorem publish_takes {left : Option Failure} (taken : Failure.take b.failure = (left, none)) :
    b.publish m = ({ b with failure := left, calls := b.recorded m, published := b.published ++ [m] },
      .ok (b.subscribers.lookup m.topic)) := by
  simp only [publish, taken]
  rfl

theorem publish_healthy (healthy : b.failure = none) : b.publish m =
    ({ b with calls := b.recorded m, published := b.published ++ [m] }, .ok (b.subscribers.lookup m.topic)) := by
  have taken : Failure.take b.failure = (b.failure, none) := by rw [healthy]; rfl
  rw [publish_takes taken]

theorem publish_failure (b : Broker η) (m : Message) : (b.publish m).1.failure = (Failure.take b.failure).1 := by
  obtain ⟨left, met, taken⟩ : ∃ left met, Failure.take b.failure = (left, met) := ⟨_, _, rfl⟩
  rw [taken]
  cases met with
  | none => rw [publish_takes taken]
  | some e => rw [publish_fails taken]

theorem takes (b : Broker η) (h : Happening η) (reached : h.reaches = true) :
    (after b h).failure = (Failure.take b.failure).1 := by
  cases h with
  | publishes m => exact publish_failure b m
  | subscribes | unsubscribes => cases reached

theorem spares (b : Broker η) (h : Happening η) (aside : h.reaches = false) : (after b h).failure = b.failure := by
  cases h with
  | publishes => cases aside
  | subscribes | unsubscribes => rfl

theorem left_after (b : Broker η) (n : Nat) (e : Error) (hs : List (Happening η)) :
    (hs.foldl after { b with failure := some (.times n e) }).failure = Failure.left n e (hs.countP Happening.reaches) := by
  have counted := Failure.left_after failure after Happening.reaches takes spares
    { b with failure := some (.times n e) } Failure.left_zero.symm hs
  rwa [Nat.zero_add] at counted

end Broker

/-- After a failure was put in for a number of calls, so many of the calls that reach the double, and at least one, meet
with it and change nothing but what is left of it. Every later one finds no failure and does what it does on a healthy
double. -/
theorem failsSoManyCalls (n : Nat) (e : Error) :
    (∀ (s : Store) (before : List Store.Happening) (op : Op),
      let reached := before.foldl Store.after { s with failure := some (.times n e) }
      let earlier := before.countP Store.Happening.reaches
      (earlier < max n 1 → ∃ left, reached.perform op = ({ reached with failure := left }, .error e)) ∧
      (max n 1 ≤ earlier → reached.failure = none ∧ reached.perform op = reached.apply op)) ∧
    ∀ {η : Type} (b : Broker η) (before : List (Broker.Happening η)) (m : Message),
      let reached := before.foldl Broker.after { b with failure := some (.times n e) }
      let earlier := before.countP Broker.Happening.reaches
      (earlier < max n 1 →
        ∃ left, reached.publish m = ({ reached with failure := left, calls := reached.recorded m }, .error e)) ∧
      (max n 1 ≤ earlier → reached.failure = none ∧ reached.publish m =
        ({ reached with calls := reached.recorded m, published := reached.published ++ [m] },
          .ok (reached.subscribers.lookup m.topic))) := by
  refine ⟨fun s before op => ?_, fun b before m => ?_⟩
  · have counted := Store.left_after s n e before
    refine ⟨fun early => ?_, fun late => ?_⟩
    · exact ⟨_, Store.perform_fails (counted ▸ Failure.take_early early)⟩
    · have healthy := counted.trans (Failure.left_late late)
      exact ⟨healthy, Store.perform_healthy healthy⟩
  · have counted := Broker.left_after b n e before
    refine ⟨fun early => ?_, fun late => ?_⟩
    · exact ⟨_, Broker.publish_fails (counted ▸ Failure.take_early early)⟩
    · have healthy := counted.trans (Failure.left_late late)
      exact ⟨healthy, Broker.publish_healthy healthy⟩

/-! A failure for two calls, met by two reads and a publication before a third call comes. -/

def refused : Error := .internal "connection refused" none

def twiceRead : List Store.Happening := [.arrives (.has "k"), .begins (.get "k"), .arrives (.set "k" (.int 1))]

def greeting : Message := ⟨.nil, "greetings", .given default, none, .null⟩

theorem recoversAfterTwo :
    (∃ left, ({ Store.empty with failure := some (.times 2 refused) }.perform (.has "k")) =
      ({ Store.empty with failure := left }, .error refused)) ∧
    ((twiceRead.foldl Store.after { Store.empty with failure := some (.times 2 refused) }).perform (.get "k")).2 =
      .error (.notFound "k") := by
  have counts := (failsSoManyCalls 2 refused).1 Store.empty
  refine ⟨(counts [] (.has "k")).1 (by decide), ?_⟩
  obtain ⟨-, answered⟩ := (counts twiceRead (.get "k")).2 (by decide)
  rw [answered]
  rfl

/-- A failure put in for no call still meets the next one. -/
theorem failsOnceForNone :
    ({ Store.empty with failure := some (.times 0 refused) }.perform (.has "k")).2 = .error refused ∧
    (Store.empty.perform (.has "k")).2 = .ok (.flag false) ∧
    ({ (Broker.empty : Broker Unit) with failure := some (.times 0 refused) }.publish greeting).2 = .error refused ∧
    ((Broker.empty : Broker Unit).publish greeting).2 = .ok none :=
  ⟨rfl, rfl, rfl, rfl⟩

end Switchyard.Testing
