import Mathlib.Logic.Relation
import Switchyard.Proofs.Breaker.Slots
/-!
A breaker and the pieces of its calls, any of which may come between those of other calls. A call is counted, then
decided on; then the changes that came with the decision are told, by a listener that may panic; only then is the call
run, or its refusal counted. Its outcome is counted first in the totals and then, under the lock, in its generation. A
listener that panics later than that changes nothing. A call that a panic of its own listener ends before it is run
keeps its place, since nobody is left to give it back; this befalls only the call that ends a break.
-/
namespace Switchyard.Breaker

namespace Turnstile

inductive Standing where
  | entered
  | decided (r : Except Error Nat) (changes : List Transition)
  | out (tag : Nat)
  /-- Its outcome is in the totals. -/
  | totaled (tag : Nat) (o : Outcome Unit)
  | turnedAway
  | ended (tag : Nat) (o : Outcome Unit)
  /-- Dropped, or ended by a panic of the predicate that judges its error. -/
  | dropped (tag : Nat)
  /-- Ended by a panic of who was told what came with the decision. -/
  | startled (r : Except Error Nat)

namespace Standing

/-- The tag under which it was let in. -/
def tag? : Standing → Option Nat
  | decided (.ok tag) _ | out tag | totaled tag _ | ended tag _ | dropped tag | startled (.ok tag) => some tag
  | entered | decided (.error _) _ | turnedAway | startled (.error _) => none

/-- Let in, and neither settled nor given up. -/
def out? : Standing → Option Nat
  | decided (.ok tag) _ | out tag | totaled tag _ => some tag
  | _ => none

/-- A call that was startled still has the place it was given. -/
def place? : Standing → Option Nat
  | decided (.ok tag) _ | out tag | totaled tag _ | startled (.ok tag) => some tag
  | _ => none

/-- Let in with a change, which is told now or was told in vain. -/
def tells? : Standing → Option Nat
  | decided (.ok tag) (_ :: _) | startled (.ok tag) => some tag
  | _ => none

end Standing

/-- How many of the calls stand so under a tag. -/
def under (f : Standing → Option Nat) (calls : List Standing) (tag : Nat) : Nat := calls.countP (f · = some tag)

end Turnstile

open Turnstile in
structure Turnstile where
  breaker : Breaker
  now : Instant
  /-- All calls that were ever asked for, in the order in which they were. -/
  calls : List Standing

namespace Turnstile

def start (config : Config) (now : Instant) : Turnstile := ⟨.make config now, now, []⟩

inductive Step (s : Turnstile) : Turnstile → Prop where
  | enter :
      Step s { s with breaker := { s.breaker with totals := s.breaker.totals.ask }, calls := s.calls ++ [.entered] }
  | decide {before after breaker changes r} (stands : s.calls = before ++ .entered :: after)
      (decided : s.breaker.beforeCall s.now = (breaker, changes, r)) :
      Step s { s with breaker, calls := before ++ .decided r changes :: after }
  | letIn {before after tag changes} (stands : s.calls = before ++ .decided (.ok tag) changes :: after) :
      Step s { s with calls := before ++ .out tag :: after }
  | turnAway {before after e changes} (stands : s.calls = before ++ .decided (.error e) changes :: after) :
      Step s { s with
        breaker := { s.breaker with totals := s.breaker.totals.reject }, calls := before ++ .turnedAway :: after }
  /-- Who is told of a change panics. -/
  | startle {before after r changes} (stands : s.calls = before ++ .decided r changes :: after)
      (told : changes ≠ []) : Step s { s with calls := before ++ .startled r :: after }
  | total {before after tag} (o : Outcome Unit) (stands : s.calls = before ++ .out tag :: after) :
      Step s { s with
        breaker := { s.breaker with totals := s.breaker.totals.settle (s.breaker.config.succeeds o) }
        calls := before ++ .totaled tag o :: after }
  | record {before after tag o breaker changes} (stands : s.calls = before ++ .totaled tag o :: after)
      (recorded : s.breaker.record tag (s.breaker.config.succeeds o) s.now = (breaker, changes)) :
      Step s { s with breaker, calls := before ++ .ended tag o :: after }
  | abandon {before after tag breaker changes} (stands : s.calls = before ++ .out tag :: after)
      (abandoned : s.breaker.abandon tag s.now = (breaker, changes)) :
      Step s { s with breaker, calls := before ++ .dropped tag :: after }
  /-- The state or the counts are read. -/
  | look {breaker changes} (refreshed : s.breaker.refresh s.now = (breaker, changes)) : Step s { s with breaker }
  | reset {breaker changes} (forced : s.breaker.reset s.now = (breaker, changes)) : Step s { s with breaker }
  | forceOpen {breaker changes} (forced : s.breaker.forceOpen s.now = (breaker, changes)) : Step s { s with breaker }
  | pass (now : Instant) (later : s.now ≤ now) : Step s { s with now }

abbrev Run : Turnstile → Turnstile → Prop := Relation.ReflTransGen Step

variable {s s' : Turnstile} {config : Config} {began : Instant}

theorem stepConfig (step : Step s s') : s'.breaker.config = s.breaker.config := by
  cases step with
  | decide stands decided =>
    obtain ⟨b₁, refreshed, ⟨-, -, rfl⟩ | ⟨-, -, rfl⟩⟩ := admits decided <;> exact refreshed.keepsConfig
  | record stands recorded =>
    obtain ⟨b₁, first, refreshed, ⟨-, rfl, -⟩ | ⟨-, more, recorded, -⟩⟩ := records recorded
    · exact refreshed.keepsConfig
    · exact recorded.keepsConfig.trans refreshed.keepsConfig
  | abandon stands abandoned =>
    obtain ⟨b₁, refreshed, rfl⟩ := abandons abandoned
    split <;> exact refreshed.keepsConfig
  | look refreshed => exact (refreshes refreshed).keepsConfig
  | reset forced | forceOpen forced =>
    obtain ⟨rfl, -⟩ := forces forced
    rfl
  | enter | letIn | turnAway | startle | total | pass => rfl

theorem runConfig (run : Run (start config began) s) : s.breaker.config = config := by
  induction run with
  | refl => rfl
  | tail earlier last ih => exact (stepConfig last).trans ih

/-! ### Calls whose pieces follow one another -/

section Undivided

variable {breaker : Breaker} {changes : List Transition} {before after : List Standing} {tag : Nat}

theorem asks (s : Turnstile) : ∃ breaker changes r,
    Run s { s with breaker, calls := s.calls ++ [.decided r changes] } ∧
    s.breaker.acquire s.now = match r with
      | .ok tag => (breaker, changes, .ok tag)
      | .error e => ({ breaker with totals := breaker.totals.reject }, changes, .error e) := by
  obtain ⟨b, changes, r, decided⟩ :
    ∃ b ts r, ({ s.breaker with totals := s.breaker.totals.ask }).beforeCall s.now = (b, ts, r) := ⟨_, _, _, rfl⟩
  have entered : Run s _ := .single .enter
  refine ⟨b, changes, r, entered.tail (.decide rfl decided), ?_⟩
  simp only [acquire, decided]
  cases r <;> rfl

theorem asksIn (asked : s.breaker.acquire s.now = (breaker, changes, .ok tag)) :
    Run s { s with breaker, calls := s.calls ++ [.out tag] } := by
  obtain ⟨b, ts, r, run, answer⟩ := asks s
  rw [answer] at asked
  cases r <;> cases asked
  exact run.tail (.letIn rfl)

theorem asksInVain {e : Error} (asked : s.breaker.acquire s.now = (breaker, changes, .error e)) :
    Run s { s with breaker, calls := s.calls ++ [.turnedAway] } := by
  obtain ⟨b, ts, r, run, answer⟩ := asks s
  rw [answer] at asked
  cases r <;> cases asked
  exact run.tail (.turnAway rfl)

theorem ends {o : Outcome Unit} (stands : s.calls = before ++ .out tag :: after)
    (settled : s.breaker.settle tag (s.breaker.config.succeeds o) s.now = (breaker, changes)) :
    Run s { s with breaker, calls := before ++ .ended tag o :: after } := by
  have totaled : Run s _ := .single (.total o stands)
  exact totaled.tail (.record rfl settled)

end Undivided

/-! ### Who has a place -/

section Standing

variable {f : Standing → Option Nat} {before after : List Standing} {c c' : Standing} {tag : Nat}

theorem under_at (f : Standing → Option Nat) (before after : List Standing) (c : Standing) (g : Nat) :
    under f (before ++ c :: after) g = under f (before ++ after) g + if f c = some g then 1 else 0 := by
  simp only [under, List.countP_append, List.countP_cons, decide_eq_true_eq]
  omega

theorem under_same (same : f c' = f c) : under f (before ++ c' :: after) = under f (before ++ c :: after) := by
  funext g
  rw [under_at, under_at, same]

theorem under_gains (none : f c = none) (gains : f c' = some tag) :
    under f (before ++ c' :: after) = bump (under f (before ++ c :: after)) tag := by
  funext g
  simp [under_at, none, gains, bump, eq_comm (a := g)]

theorem under_enters (none : f c = none) (calls : List Standing) : under f (calls ++ [c]) = under f calls := by
  funext g
  simp [under, List.countP_append, none]

end Standing

theorem tells_let_in (calls : List Standing) (g : Nat) :
    under Standing.tells? calls g ≤ under Standing.tag? calls g := by
  refine List.countP_mono_left fun c _ tells => ?_
  simp only [decide_eq_true_eq] at tells ⊢
  unfold Standing.tells? at tells
  split at tells <;> first | exact tells | cases tells

theorem placed_out {c : Standing} {tag : Nat} (place : c.place? = some tag) :
    c.out? = some tag ∨ c = .startled (.ok tag) := by
  unfold Standing.place? at place
  split at place <;> cases place
  · exact .inl rfl
  · exact .inl rfl
  · exact .inl rfl
  · exact .inr rfl

/-- The books of the breaker, where a call that was startled keeps its place; and of each generation one call at most
has brought a change about when it was let in. -/
structure Fair (s : Turnstile) : Prop where
  balanced : Balanced s.breaker s.now (under Standing.place? s.calls) (under Standing.tag? s.calls)
  once : ∀ g, under Standing.tells? s.calls g ≤ 1

namespace Fair

variable {before after : List Standing} {c c' : Standing} {tag : Nat} {breaker : Breaker}

theorem moves (fair : Fair s) (stands : s.calls = before ++ c :: after) (totals : Totals) (tags : c'.tag? = c.tag?)
    (places : c'.place? = c.place?) (tells : c'.tells? = c.tells? ∨ c'.tells? = none) :
    Fair { s with breaker := { s.breaker with totals }, calls := before ++ c' :: after } := by
  obtain ⟨balanced, once⟩ := fair
  rw [stands] at balanced once
  refine ⟨?_, fun g => ?_⟩
  · rw [under_same places, under_same tags]
    exact balanced.totals totals
  · refine Nat.le_trans ?_ (once g)
    rcases tells with same | none
    · exact Nat.le_of_eq (congrFun (under_same same) g)
    · rw [under_at, under_at]
      simp [none]

theorem leaves (fair : Fair s) (stands : s.calls = before ++ c :: after) (place : c.place? = some tag)
    (none : c'.place? = none) (tags : c'.tag? = c.tag?) (silent : c'.tells? = c.tells?)
    (balanced : ∀ out, Balanced s.breaker s.now (bump out tag) (under Standing.tag? s.calls) →
      Balanced breaker s.now out (under Standing.tag? s.calls)) :
    Fair { s with breaker, calls := before ++ c' :: after } := by
  obtain ⟨balanced', once⟩ := fair
  rw [stands, under_gains none place, ← stands] at balanced'
  refine ⟨?_, fun g => ?_⟩
  · rw [under_same tags, ← stands]
    exact balanced _ balanced'
  · rw [under_same silent, ← stands]
    exact once g

theorem decides (fair : Fair s) (stands : s.calls = before ++ .entered :: after) {changes : List Transition}
    {r : Except Error Nat} (decided : s.breaker.beforeCall s.now = (breaker, changes, r)) :
    Fair { s with breaker, calls := before ++ .decided r changes :: after } := by
  obtain ⟨balanced, once⟩ := fair
  obtain ⟨b₁, refreshed, ⟨room, rfl, rfl⟩ | ⟨full, rfl, rfl⟩⟩ := admits decided
  · have fresh : changes ≠ [] → under Standing.tag? s.calls b₁.generation = 0 := fun told => by
      refine (balanced.later _ (Nat.lt_of_not_le fun same => told ?_)).2
      exact (refreshed.current same).1
    have places : under Standing.place? (before ++ .decided (.ok b₁.generation) changes :: after) =
        bump (under Standing.place? s.calls) b₁.generation := stands ▸ under_gains rfl rfl
    have tags : under Standing.tag? (before ++ .decided (.ok b₁.generation) changes :: after) =
        bump (under Standing.tag? s.calls) b₁.generation := stands ▸ under_gains rfl rfl
    refine ⟨places ▸ tags ▸ (balanced.refreshed refreshed).letIn room, fun g => ?_⟩
    cases changes with
    | nil =>
      have tells : under Standing.tells? (before ++ .decided (.ok b₁.generation) [] :: after) =
          under Standing.tells? s.calls := stands ▸ under_same rfl
      exact tells ▸ once g
    | cons change rest =>
      have tells : under Standing.tells? (before ++ .decided (.ok b₁.generation) (change :: rest) :: after) =
          bump (under Standing.tells? s.calls) b₁.generation := stands ▸ under_gains rfl rfl
      have none := tells_let_in s.calls b₁.generation
      rw [fresh (List.cons_ne_nil _ _)] at none
      show under Standing.tells? (before ++ .decided (.ok b₁.generation) (change :: rest) :: after) g ≤ 1
      rw [tells]
      by_cases same : g = b₁.generation
      · rw [same, bump_same]
        omega
      · rw [bump_other _ same]
        exact once g
  · have same (f : Standing → Option Nat) (none : ∀ e, f (.decided (.error e) changes) = f .entered) :
        under f (before ++ .decided (.error (.circuitOpen breaker.config.name)) changes :: after) = under f s.calls :=
      stands ▸ under_same (none _)
    refine ⟨same Standing.place? (fun _ => rfl) ▸ same Standing.tag? (fun _ => rfl) ▸ balanced.refreshed refreshed,
      fun g => ?_⟩
    exact same Standing.tells? (fun _ => by cases changes <;> rfl) ▸ once g

end Fair

theorem stepFair (step : Step s s') (fair : Fair s) : Fair s' := by
  cases step with
  | enter =>
    refine ⟨?_, fun g => ?_⟩
    · rw [under_enters rfl, under_enters rfl]
      exact fair.balanced.totals _
    · rw [under_enters rfl]
      exact fair.once g
  | decide stands decided => exact fair.decides stands decided
  | letIn stands => exact fair.moves stands _ rfl rfl (.inr rfl)
  | turnAway stands => exact fair.moves stands _ rfl rfl (.inr rfl)
  | @startle before after r changes stands told =>
    obtain ⟨change, rest, rfl⟩ := List.exists_cons_of_ne_nil told
    cases r <;> exact fair.moves stands _ rfl rfl (.inl rfl)
  | total o stands => exact fair.moves stands _ rfl rfl (.inr rfl)
  | record stands recorded =>
    refine fair.leaves stands rfl rfl rfl rfl fun out balanced => ?_
    obtain ⟨b₁, first, refreshed, ⟨stale, rfl, -⟩ | ⟨rfl, more, recorded, -⟩⟩ := records recorded
    · exact (balanced.refreshed refreshed).leave stale
    · exact (balanced.refreshed refreshed).recorded recorded
  | abandon stands abandoned =>
    refine fair.leaves stands rfl rfl rfl rfl fun out balanced => ?_
    obtain ⟨b₁, refreshed, rfl⟩ := abandons abandoned
    split
    · rename_i same
      exact (same ▸ balanced.refreshed refreshed).released
    · rename_i stale
      exact (balanced.refreshed refreshed).leave stale
  | look refreshed => exact { fair with balanced := fair.balanced.refreshed (refreshes refreshed) }
  | reset forced | forceOpen forced =>
    obtain ⟨rfl, -⟩ := forces forced
    exact { fair with balanced := .renewed fair.balanced.later _ }
  | pass now later => exact { fair with balanced := fair.balanced.wait later }

theorem runFair (run : Run (start config began) s) : Fair s := by
  induction run with
  | refl => exact ⟨.of_make config began, fun _ => Nat.zero_le _⟩
  | tail earlier last ih => exact stepFair last ih

/-- A call that is let in brings a change about only by ending a break. -/
theorem letInTells {b b' : Breaker} {now : Instant} {changes : List Transition} {tag : Nat}
    (decided : b.beforeCall now = (b', changes, .ok tag)) :
    changes = [] ∨ (b.phase = .opened ∧ changes = [(.opened, .halfOpen)]) := by
  obtain ⟨b₁, refreshed, ⟨room, -, -⟩ | ⟨-, impossible, -⟩⟩ := admits decided
  · cases refreshed with
    | early | renewed | extended => exact .inl rfl
    | probes opened => exact .inr ⟨opened, rfl⟩
    | overdue => cases room
  · cases impossible

/-- No call of the present generation was startled when it was let in. -/
def Undisturbed (s : Turnstile) : Prop := ∀ c ∈ s.calls, c ≠ .startled (.ok s.breaker.generation)

def soloConfig : Config := { breakFor := 60 }

def soloProbed (calls : List Standing) (requests : Nat) : Turnstile :=
  ⟨⟨soloConfig, .halfOpen, 2, ⟨requests, 0, 0, 0, 0⟩, some 120, ⟨1, 0, 0, 0⟩⟩, 60, calls⟩

theorem soloDecided : Run (start soloConfig 0) (soloProbed [.decided (.ok 2) [(.opened, .halfOpen)]] 1) := by
  have forced : Run (start soloConfig 0) ⟨⟨soloConfig, .opened, 1, .zero, some 60, ⟨0, 0, 0, 0⟩⟩, 0, []⟩ :=
    .tail .refl (.forceOpen rfl)
  have entered := (forced.tail (.pass 60 (Nat.zero_le _))).tail .enter
  exact entered.tail (@Step.decide _ [] [] _ _ _ rfl rfl)

theorem soloDropped : Run (start soloConfig 0) (soloProbed [.dropped 2] 0) :=
  (soloDecided.tail (@Step.letIn _ [] [] _ _ rfl)).tail (@Step.abandon _ [] [] _ _ [] rfl rfl)

theorem soloStartled : Run (start soloConfig 0) (soloProbed [.startled (.ok 2)] 1) :=
  soloDecided.tail (@Step.startle _ [] [] _ _ rfl (List.cons_ne_nil _ _))

end Turnstile
end Switchyard.Breaker
