import Switchyard.Proofs.Breaker.Trials
/-!
A breaker among its callers as it answers to what is done to it. What comes of a deed is computed, and the runs of a gate
are what comes of deeds and of time. A plan is followed twice: by a run in which the breaker is also glanced at, and by
one in which it is not.
-/
namespace Switchyard.Breaker.Gate

variable {config : Config} {began : Instant} {s s' : Gate} {ms : List Mark} {n : Nat} {c : Call}

inductive Deed where
  | ask
  /-- A call ends. Nothing comes of it where the call was turned away or is over. -/
  | finish (n : Nat) (o : Outcome Unit)
  | drop (n : Nat)
  /-- The state or the counts are read. -/
  | look
  | reset
  | forceOpen

def asking (s : Gate) : Breaker × List Transition × Except Error Nat → List Mark × Gate
  | (breaker, changes, .ok tag) =>
    (moves changes s.now ++ [.asked s.total (.ok tag) s.now],
      { s with breaker, calls := s.calls ++ [⟨s.total, tag⟩], total := s.total + 1 })
  | (breaker, changes, .error e) =>
    (moves changes s.now ++ [.asked s.total (.error e) s.now], { s with breaker, total := s.total + 1 })

/-- Lets a call go, if it is out. -/
def leaving (s : Gate) (n : Nat) (f : Call → Mark × Breaker × List Transition) : List Mark × Gate :=
  match s.calls.find? (·.number = n) with
  | none => ([], s)
  | some c =>
    let (m, breaker, changes) := f c
    (m :: moves changes s.now, { s with breaker, calls := s.calls.eraseP (·.number = n) })

def forcing (s : Gate) (phase : Phase) : List Mark × Gate :=
  let (breaker, changes) := s.breaker.force phase s.now
  (.forced phase s.now :: moves changes s.now, { s with breaker })

def play (s : Gate) : Deed → List Mark × Gate
  | .ask => s.asking (s.breaker.acquire s.now)
  | .finish n o => s.leaving n fun c =>
    (.ended c.number c.tag o s.now, s.breaker.settle c.tag (s.breaker.config.succeeds o) s.now)
  | .drop n => s.leaving n fun c => (.dropped c.number c.tag s.now, s.breaker.abandon c.tag s.now)
  | .look =>
    let (breaker, changes) := s.breaker.refresh s.now
    (moves changes s.now, { s with breaker })
  | .reset => s.forcing .closed
  | .forceOpen => s.forcing .opened

theorem standsFirst {before after : List Call} (others : ∀ x ∈ before, x.number ≠ c.number) :
    (before ++ c :: after).find? (·.number = c.number) = some c ∧
      (before ++ c :: after).eraseP (·.number = c.number) = before ++ after := by
  refine ⟨List.find?_eq_some_iff_append.mpr ⟨by simp, before, after, rfl, fun x mem => by simpa using others x mem⟩, ?_⟩
  rw [List.eraseP_append_right _ fun x mem => by simpa using others x mem, List.eraseP_cons_of_pos (by simp)]

theorem leaves (found : s.calls.find? (·.number = n) = some c) : ∃ before after, s.calls = before ++ c :: after ∧
    s.calls.eraseP (·.number = n) = before ++ after ∧ c.number = n := by
  obtain ⟨here, before, after, stands, others⟩ := List.find?_eq_some_iff_append.mp found
  obtain rfl : c.number = n := by simpa using here
  exact ⟨before, after, stands, stands ▸ (standsFirst fun x mem => by simpa using others x mem).2, rfl⟩

/-- What comes of a deed is a step, or nothing. -/
theorem playSteps (s : Gate) (deed : Deed) : s.play deed = ([], s) ∨ Step s (s.play deed).1 (s.play deed).2 := by
  cases deed with
  | ask =>
    obtain ⟨breaker, changes, r, asked⟩ : ∃ breaker changes r, s.breaker.acquire s.now = (breaker, changes, r) :=
      ⟨_, _, _, rfl⟩
    simp only [play, asked]
    cases r with
    | ok tag => exact .inr (.letIn asked)
    | error e => exact .inr (.turnAway asked)
  | finish n o =>
    simp only [play, leaving]
    split
    · exact .inl rfl
    · rename_i c found
      obtain ⟨before, after, stands, left, -⟩ := leaves found
      rw [left]
      exact .inr (.settle o stands rfl)
  | drop n =>
    simp only [play, leaving]
    split
    · exact .inl rfl
    · rename_i c found
      obtain ⟨before, after, stands, left, -⟩ := leaves found
      rw [left]
      exact .inr (.abandon stands rfl)
  | look => exact .inr (.look rfl)
  | reset => exact .inr (.reset rfl)
  | forceOpen => exact .inr (.forceOpen rfl)

/-- A step is what comes of a deed, or time passes. -/
theorem stepPlays (step : Step s ms s') (distinct : (s.calls.map (·.number)).Nodup) :
    (∃ deed, s.play deed = (ms, s')) ∨ ms = [] ∧ ∃ span, s' = { s with now := s.now + span } := by
  have alone {before after : List Call} {c : Call} (stands : s.calls = before ++ c :: after) :
      s.calls.find? (·.number = c.number) = some c ∧ s.calls.eraseP (·.number = c.number) = before ++ after := by
    rw [stands] at distinct ⊢
    refine standsFirst fun x mem same => ?_
    rw [List.map_append, List.map_cons] at distinct
    exact (List.nodup_append.mp distinct).2.2 _ (List.mem_map_of_mem mem) _ List.mem_cons_self same
  cases step with
  | letIn asked | turnAway asked => exact .inl ⟨.ask, by rw [play, asked]; rfl⟩
  | @settle before after c breaker changes o stands settled =>
    obtain ⟨found, left⟩ := alone stands
    exact .inl ⟨.finish c.number o, by simp only [play, leaving, found, left, settled]⟩
  | @abandon before after c breaker changes stands abandoned =>
    obtain ⟨found, left⟩ := alone stands
    exact .inl ⟨.drop c.number, by simp only [play, leaving, found, left, abandoned]⟩
  | look refreshed => exact .inl ⟨.look, by simp only [play, refreshed]⟩
  | reset forced =>
    rw [Breaker.reset] at forced
    exact .inl ⟨.reset, by simp only [play, forcing, forced]⟩
  | forceOpen forced =>
    rw [Breaker.forceOpen] at forced
    exact .inl ⟨.forceOpen, by simp only [play, forcing, forced]⟩
  | pass now later => exact .inr ⟨rfl, now - s.now, by rw [Nat.add_sub_cancel' later]⟩

/-! ### Plans -/

inductive Beat where
  | pass (span : Span)
  /-- The state or the counts are read, in the run that glances. -/
  | glance
  | both (deed : Deed)

def beat (glances : Bool) (s : Gate) : Beat → List Mark × Gate
  | .pass span => ([], { s with now := s.now + span })
  | .glance => if glances then s.play .look else ([], s)
  | .both deed => s.play deed

def follow (glances : Bool) (s : Gate) : List Beat → List Mark × Gate
  | [] => ([], s)
  | b :: rest =>
    let (ms, s) := s.beat glances b
    let (more, s) := s.follow glances rest
    (ms ++ more, s)

theorem beatRuns (glances : Bool) (s : Gate) (b : Beat) : Run s (s.beat glances b).1 (s.beat glances b).2 := by
  have plays (deed : Deed) : Run s (s.play deed).1 (s.play deed).2 := by
    rcases playSteps s deed with nothing | step
    · rw [nothing]
      exact .nil
    · exact .next .nil step
  cases b with
  | pass span => exact .next .nil (.pass _ (Nat.le_add_right _ _))
  | glance =>
    cases glances with
    | false => exact .nil
    | true => exact plays .look
  | both deed => exact plays deed

theorem followRuns (glances : Bool) (s : Gate) (plan : List Beat) :
    Run s (s.follow glances plan).1 (s.follow glances plan).2 := by
  induction plan generalizing s with
  | nil => exact .nil
  | cons b rest ih => exact (beatRuns glances s b).trans (ih _)

theorem follow_append (glances : Bool) (s : Gate) (xs ys : List Beat) :
    s.follow glances (xs ++ ys) =
      ((s.follow glances xs).1 ++ ((s.follow glances xs).2.follow glances ys).1,
        ((s.follow glances xs).2.follow glances ys).2) := by
  induction xs generalizing s with
  | nil => rfl
  | cons b rest ih => simp only [List.cons_append, follow, ih, List.append_assoc]

/-- Every run follows a plan, in which nobody glances. -/
theorem runFollows (run : Run (start config began) ms s) :
    ∃ plan, ∀ glances, (start config began).follow glances plan = (ms, s) := by
  induction run with
  | nil => exact ⟨[], fun _ => rfl⟩
  | next earlier last ih =>
    obtain ⟨plan, follows⟩ := ih
    rcases stepPlays last (runTally earlier).2.distinct with ⟨deed, plays⟩ | ⟨rfl, span, rfl⟩
    · refine ⟨plan ++ [.both deed], fun glances => ?_⟩
      rw [follow_append, follows]
      simp only [follow, beat, plays, List.append_nil]
    · refine ⟨plan ++ [.pass span], fun glances => ?_⟩
      rw [follow_append, follows]
      rfl

end Switchyard.Breaker.Gate
