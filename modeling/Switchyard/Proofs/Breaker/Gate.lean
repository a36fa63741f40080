import Switchyard.Breaker
import Switchyard.Proofs.History
/-!
A breaker among its callers. Calls are let in or turned away, end in any way or are dropped, and the breaker is read,
reset and forced open while time passes, all in any order. What is done to the breaker is what its own operations do;
what happens is written down as marks. Whoever is told of a change returns here; `Turnstile` has a call in its pieces,
and a listener that panics between them.
-/
namespace Switchyard.Breaker

variable {b b' : Breaker} {now : Instant} {changes : List Transition} {tag : Nat} {success : Bool}

/-! ### What the operations can do -/

inductive Refreshes (b : Breaker) (now : Instant) : Breaker → List Transition → Prop where
  | early (early : b.isDue now = false) : Refreshes b now b []
  | renewed (closed : b.phase = .closed) (due : b.isDue now = true) : Refreshes b now (b.renew now) []
  | probes (opened : b.phase = .opened) (due : b.isDue now = true) :
      Refreshes b now (({ b with phase := .halfOpen }).renew now) [(.opened, .halfOpen)]
  | overdue (half : b.phase = .halfOpen) (due : b.isDue now = true) (out : 0 < b.counts.inFlight) :
      Refreshes b now (({ b with phase := .opened }).renew now) [(.halfOpen, .opened)]
  | extended (half : b.phase = .halfOpen) (due : b.isDue now = true) (idle : b.counts.inFlight = 0) :
      Refreshes b now { b with expiry := some (now + b.config.breakFor) } []

theorem enter_other {phase : Phase} (other : b.phase ≠ phase) :
    b.enter phase now = (({ b with phase }).renew now, [(b.phase, phase)]) := if_neg other

theorem refreshes (refreshed : b.refresh now = (b', changes)) : Refreshes b now b' changes := by
  unfold refresh at refreshed
  split at refreshed
  · rename_i due
    split at refreshed
    · rename_i closed
      cases refreshed
      exact .renewed closed due
    · rename_i opened
      rw [enter_other (by simp [opened]), opened] at refreshed
      cases refreshed
      exact .probes opened due
    · rename_i half
      split at refreshed
      · rename_i out
        rw [enter_other (by simp [half]), half] at refreshed
        cases refreshed
        exact .overdue half due out
      · rename_i idle
        cases refreshed
        exact .extended half due (Nat.eq_zero_of_not_pos idle)
  · rename_i early
    cases refreshed
    exact .early (by simpa using early)

theorem Refreshes.determined (refreshed : Refreshes b now b' changes) : b.refresh now = (b', changes) := by
  unfold refresh
  cases refreshed with
  | early early => simp [early]
  | renewed closed due => simp [closed, due]
  | probes opened due => simp [opened, due, enter]
  | overdue half due out => simp [half, due, out, enter]
  | extended half due idle => simp [half, due, idle]

theorem refresh_totals (totals : Totals) :
    ({ b with totals }).refresh now = ({ (b.refresh now).1 with totals }, (b.refresh now).2) := by
  obtain ⟨config, phase, generation, counts, expiry, totals'⟩ := b
  unfold refresh
  simp only [isDue]
  split
  · cases phase with
    | closed | opened => rfl
    | halfOpen =>
      by_cases out : 0 < counts.inFlight
      · simp only [if_pos out]
        rfl
      · simp only [if_neg out]
  · rfl

theorem Refreshes.totals {totals : Totals} (refreshed : Refreshes { b with totals } now b' changes) :
    ∃ b₁, Refreshes b now b₁ changes ∧ b' = { b₁ with totals } := by
  have same : ({ b with totals }).refresh now = (b', changes) := refreshed.determined
  rw [refresh_totals] at same
  cases same
  exact ⟨_, refreshes rfl, rfl⟩

/-- A call is let in where there is room, and turned away where there is none. -/
theorem admits {r : Except Error Nat} (decided : b.beforeCall now = (b', changes, r)) :
    ∃ b₁, Refreshes b now b₁ changes ∧
      ((b₁.hasRoom = true ∧ r = .ok b₁.generation ∧ b' = { b₁ with counts := b₁.counts.acquire }) ∨
       (b₁.hasRoom = false ∧ r = .error (.circuitOpen b₁.config.name) ∧ b' = b₁)) := by
  obtain ⟨b₁, ts, first⟩ : ∃ b₁ ts, b.refresh now = (b₁, ts) := ⟨_, _, rfl⟩
  simp only [beforeCall, first] at decided
  split at decided <;> cases decided
  · exact ⟨_, refreshes first, .inl ⟨‹_›, rfl, rfl⟩⟩
  · exact ⟨_, refreshes first, .inr ⟨eq_false_of_ne_true ‹_›, rfl, rfl⟩⟩

theorem acquires {r : Except Error Nat} (asked : b.acquire now = (b', changes, r)) :
    ∃ b₁ totals, Refreshes b now b₁ changes ∧
      ((b₁.hasRoom = true ∧ r = .ok b₁.generation ∧ b' = { b₁ with totals, counts := b₁.counts.acquire }) ∨
       (b₁.hasRoom = false ∧ r = .error (.circuitOpen b₁.config.name) ∧ b' = { b₁ with totals })) := by
  obtain ⟨b₁, ts, r₁, first⟩ :
    ∃ b₁ ts r₁, ({ b with totals := b.totals.ask }).beforeCall now = (b₁, ts, r₁) := ⟨_, _, _, rfl⟩
  obtain ⟨_, counted, decided⟩ := admits first
  obtain ⟨b₂, refreshed, rfl⟩ := counted.totals
  simp only [acquire, first] at asked
  rcases decided with ⟨room, rfl, rfl⟩ | ⟨full, rfl, rfl⟩ <;> cases asked
  · exact ⟨b₂, _, refreshed, .inl ⟨room, rfl, rfl⟩⟩
  · exact ⟨b₂, _, refreshed, .inr ⟨full, rfl, rfl⟩⟩

/-- An outcome in the generation of its call. -/
inductive Records (b : Breaker) (now : Instant) : Bool → Breaker → List Transition → Prop where
  | ignored (success : Bool) (opened : b.phase = .opened) : Records b now success b []
  | succeeded (closed : b.phase = .closed) : Records b now true { b with counts := b.counts.succeed } []
  | failed (closed : b.phase = .closed) (holds : b.config.trips b.counts.fail = false) :
      Records b now false { b with counts := b.counts.fail } []
  | tripped (closed : b.phase = .closed) (trips : b.config.trips b.counts.fail = true) :
      Records b now false (({ b with phase := .opened }).renew now) [(.closed, .opened)]
  | advanced (half : b.phase = .halfOpen) (short : b.counts.succeed.consecutiveSuccesses < b.config.limit) :
      Records b now true { b with counts := b.counts.succeed } []
  | closes (half : b.phase = .halfOpen) (enough : b.config.limit ≤ b.counts.succeed.consecutiveSuccesses) :
      Records b now true (({ b with phase := .closed }).renew now) [(.halfOpen, .closed)]
  | reopens (half : b.phase = .halfOpen) :
      Records b now false (({ b with phase := .opened }).renew now) [(.halfOpen, .opened)]

theorem succeeds (done : b.succeed now = (b', changes)) : Records b now true b' changes := by
  unfold succeed at done
  split at done
  · cases done
    exact .succeeded ‹_›
  · rename_i half
    simp only [] at done
    split at done
    · rename_i enough
      rw [enter_other (by simp [half]), half] at done
      cases done
      exact .closes half enough
    · rename_i short
      cases done
      exact .advanced half (Nat.lt_of_not_le short)
  · cases done
    exact .ignored _ ‹_›

theorem fails (done : b.fail now = (b', changes)) : Records b now false b' changes := by
  unfold fail at done
  split at done
  · rename_i closed
    simp only [] at done
    split at done
    · rename_i trips
      rw [enter_other (by simp [closed]), closed] at done
      cases done
      exact .tripped closed trips
    · rename_i holds
      cases done
      exact .failed closed (by simpa using holds)
  · rename_i half
    rw [enter_other (by simp [half]), half] at done
    cases done
    exact .reopens half
  · cases done
    exact .ignored _ ‹_›

/-- An outcome counts only in the generation in which its call was let in. -/
theorem records (recorded : b.record tag success now = (b', changes)) :
    ∃ b₁ first, Refreshes b now b₁ first ∧
      ((b₁.generation ≠ tag ∧ b' = b₁ ∧ changes = first) ∨
       (b₁.generation = tag ∧ ∃ more, Records b₁ now success b' more ∧ changes = first ++ more)) := by
  obtain ⟨b₁, ts, first⟩ : ∃ b₁ ts, b.refresh now = (b₁, ts) := ⟨_, _, rfl⟩
  refine ⟨b₁, ts, refreshes first, ?_⟩
  simp only [record, first] at recorded
  split at recorded
  · rename_i same
    cases recorded
    refine .inr ⟨same, _, ?_, rfl⟩
    cases success
    · exact fails rfl
    · exact succeeds rfl
  · rename_i other
    cases recorded
    exact .inl ⟨other, rfl, rfl⟩

theorem settles (settled : b.settle tag success now = (b', changes)) :
    ∃ b₁ first totals, Refreshes b now b₁ first ∧
      ((b₁.generation ≠ tag ∧ b' = { b₁ with totals } ∧ changes = first) ∨
       (b₁.generation = tag ∧ ∃ more, Records { b₁ with totals } now success b' more ∧ changes = first ++ more)) := by
  obtain ⟨_, first, counted, outcome⟩ := records settled
  obtain ⟨b₁, refreshed, rfl⟩ := counted.totals
  exact ⟨b₁, first, _, refreshed, outcome⟩

theorem abandons (abandoned : b.abandon tag now = (b', changes)) :
    ∃ b₁, Refreshes b now b₁ changes ∧
      b' = if b₁.generation = tag then { b₁ with counts := b₁.counts.release } else b₁ := by
  cases abandoned
  exact ⟨_, refreshes rfl, rfl⟩

theorem forces {phase : Phase} (forced : b.force phase now = (b', changes)) :
    b' = ({ b with phase }).renew now ∧ changes = if b.phase = phase then [] else [(b.phase, phase)] := by
  unfold force at forced
  split at forced
  · rename_i same
    subst same
    cases forced
    exact ⟨rfl, (if_pos rfl).symm⟩
  · rename_i other
    rw [enter_other other] at forced
    cases forced
    exact ⟨rfl, (if_neg other).symm⟩

theorem Refreshes.keepsConfig {b₁ : Breaker} (refreshed : Refreshes b now b₁ changes) : b₁.config = b.config := by
  cases refreshed <;> rfl

theorem Records.keepsConfig {b₁ : Breaker} (recorded : Records b now success b₁ changes) : b₁.config = b.config := by
  cases recorded <;> rfl

/-- Nothing was due that would have begun a generation. -/
theorem Refreshes.current {b₁ : Breaker} (refreshed : Refreshes b now b₁ changes)
    (same : b₁.generation ≤ b.generation) :
    changes = [] ∧ ∃ expiry, b₁ = { b with expiry } := by
  cases refreshed with
  | early => exact ⟨rfl, _, rfl⟩
  | extended => exact ⟨rfl, _, rfl⟩
  | renewed | probes | overdue => exact absurd same (Nat.not_succ_le_self _)

/-! ### The calls -/

namespace Gate

structure Call where
  number : Nat
  /-- The generation in which it was let in. -/
  tag : Nat
  deriving DecidableEq, Repr

inductive Mark where
  /-- Let in under a tag, to be run, or turned away with an error and not run. -/
  | asked (n : Nat) (r : Except Error Nat) (time : Instant)
  | ended (n tag : Nat) (o : Outcome Unit) (time : Instant)
  | dropped (n tag : Nat) (time : Instant)
  | forced (phase : Phase) (time : Instant)
  | moved (change : Transition) (time : Instant)

def moves (changes : List Transition) (time : Instant) : List Mark := changes.map (.moved · time)

theorem forall_moves {p : Mark → Prop} (each : ∀ change, p (.moved change now)) : ∀ m ∈ moves changes now, p m :=
  List.forall_mem_map.mpr fun change _ => each change

end Gate

open Gate in
structure Gate where
  breaker : Breaker
  now : Instant
  calls : List Call
  total : Nat

namespace Gate

def start (config : Config) (now : Instant) : Gate := ⟨.make config now, now, [], 0⟩

inductive Step (s : Gate) : List Mark → Gate → Prop where
  | letIn {breaker changes tag} (asked : s.breaker.acquire s.now = (breaker, changes, .ok tag)) :
      Step s (moves changes s.now ++ [.asked s.total (.ok tag) s.now])
        { s with breaker, calls := s.calls ++ [⟨s.total, tag⟩], total := s.total + 1 }
  | turnAway {breaker changes e} (asked : s.breaker.acquire s.now = (breaker, changes, .error e)) :
      Step s (moves changes s.now ++ [.asked s.total (.error e) s.now]) { s with breaker, total := s.total + 1 }
  | settle {before after c breaker changes} (o : Outcome Unit) (stands : s.calls = before ++ c :: after)
      (settled : s.breaker.settle c.tag (s.breaker.config.succeeds o) s.now = (breaker, changes)) :
      Step s (.ended c.number c.tag o s.now :: moves changes s.now) { s with breaker, calls := before ++ after }
  | abandon {before after c breaker changes} (stands : s.calls = before ++ c :: after)
      (abandoned : s.breaker.abandon c.tag s.now = (breaker, changes)) :
      Step s (.dropped c.number c.tag s.now :: moves changes s.now) { s with breaker, calls := before ++ after }
  /-- The state or the counts are read. -/
  | look {breaker changes} (refreshed : s.breaker.refresh s.now = (breaker, changes)) :
      Step s (moves changes s.now) { s with breaker }
  | reset {breaker changes} (forced : s.breaker.reset s.now = (breaker, changes)) :
      Step s (.forced .closed s.now :: moves changes s.now) { s with breaker }
  | forceOpen {breaker changes} (forced : s.breaker.forceOpen s.now = (breaker, changes)) :
      Step s (.forced .opened s.now :: moves changes s.now) { s with breaker }
  | pass (now : Instant) (later : s.now ≤ now) : Step s [] { s with now }

abbrev Run (init : Gate) : List Mark → Gate → Prop := Runs Step init

theorem stepConfig {s s' : Gate} {ms : List Mark} (step : Step s ms s') : s'.breaker.config = s.breaker.config := by
  cases step with
  | letIn asked | turnAway asked =>
    obtain ⟨b₁, totals, refreshed, ⟨-, -, rfl⟩ | ⟨-, -, rfl⟩⟩ := acquires asked <;> exact refreshed.keepsConfig
  | settle o stands settled =>
    obtain ⟨b₁, first, totals, refreshed, ⟨-, rfl, -⟩ | ⟨-, more, recorded, -⟩⟩ := settles settled
    · exact refreshed.keepsConfig
    · exact recorded.keepsConfig.trans refreshed.keepsConfig
  | abandon stands abandoned =>
    obtain ⟨b₁, refreshed, rfl⟩ := abandons abandoned
    split <;> exact refreshed.keepsConfig
  | look refreshed => exact (refreshes refreshed).keepsConfig
  | reset forced | forceOpen forced =>
    obtain ⟨rfl, -⟩ := forces forced
    rfl
  | pass => rfl

theorem runConfig {config : Config} {began : Instant} {ms : List Mark} {s : Gate} (run : Run (start config began) ms s) :
    s.breaker.config = config := by
  induction run with
  | nil => rfl
  | next earlier last ih => exact (stepConfig last).trans ih

end Gate
end Switchyard.Breaker
