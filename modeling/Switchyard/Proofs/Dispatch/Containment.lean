import Switchyard.Proofs.Dispatch.Stages
/-!
The first stage of a chain sees everything that comes of the rest of it. When that stage traps panics, no panic gets
past it: it becomes an error, of which the stage tells once.
-/
namespace Switchyard.Dispatch

variable {σ η θ ρ τ α ν : Type}

namespace Passage

def Apart (s : σ) (ms : List (Mark σ η ρ α ν)) : Prop := ∀ m ∈ ms, m.stage? ≠ some s

def Mark.back (s : σ) : Option (Outcome α) → Mark σ η ρ α ν
  | some o => .told s o
  | none => .dropped s

def called (s : σ) (ctx : Context) (request : ρ) (passedCtx : Context) (passed : ρ) (check : Except Error Unit)
    (inner : List (Mark σ η ρ α ν)) (a : Option (Outcome α)) : List (Mark σ η ρ α ν) :=
  .entered s ctx request :: (.called s passedCtx passed check :: inner ++ [.back s a])

/-- Where a request stands, as the first stage of its chain sees it. -/
inductive First (b : Behaviour ρ α ν) (s : σ) (ctx : Context) (request : ρ) :
    List (Mark σ η ρ α ν) → Passage σ η ρ α → Prop where
  | refused (e : Error) : First b s ctx request [] (.ended (.failure e))
  | entered {rest} : First b s ctx request [.entered s ctx request] (.entered ⟨s, ctx, request⟩ rest [])
  | early {notes o} (may : b.early ctx request notes o) :
      First b s ctx request [.entered s ctx request, .left s notes o] (.ended o)
  | within {passedCtx passed check inner p} (may : b.call ctx request passedCtx passed) (apart : Apart s inner)
      (going : p.outcome? = none) :
      First b s ctx request (.entered s ctx request :: .called s passedCtx passed check :: inner) p
  | resumed {passedCtx passed check inner a} (may : b.call ctx request passedCtx passed) (apart : Apart s inner) :
      First b s ctx request (called s ctx request passedCtx passed check inner a)
        (.resumed ⟨⟨s, ctx, request⟩, passedCtx, passed⟩ a [])
  | late {passedCtx passed check inner a notes o} (may : b.call ctx request passedCtx passed) (apart : Apart s inner)
      (ends : b.late ctx request passedCtx passed a notes o) :
      First b s ctx request (called s ctx request passedCtx passed check inner a ++ [.left s notes o]) (.ended o)

variable {k : Conduct σ η ρ α ν} {h : η} {stages rest : List σ} {s : σ} {ctx : Context} {request : ρ}
  {check : Except Error Unit} {ms : List (Mark σ η ρ α ν)} {p : Passage σ η ρ α}

theorem Calls.ended {inner : Process σ η ρ α ν} {giveUp : Prop} {a : Option (Outcome α)}
    (made : Calls s inner giveUp ctx request ms (some a)) :
    ∃ check ms' o, ms = .called s ctx request check :: ms' ++ [.back s a] ∧ guarded check inner ctx request ms' o := by
  cases made with
  | answered _ _ rest => exact ⟨_, _, _, rfl, rest⟩
  | givenUp _ _ _ rest => exact ⟨_, _, _, rfl, rest⟩

theorem apart_rest {o : Option (Outcome α)} (once : s ∉ rest)
    (comes : guarded check (composed k rest h) ctx request ms o) : Apart s ms := by
  refine composed_marks check (fun x mem m named same => ?_) (fun _ _ _ => nofun) (fun _ => nofun) comes
  cases named.symm.trans same
  exact once mem

theorem Stands.first (stands : Stands k h check ctx request (s :: rest) ms p) (once : s ∉ rest) :
    First (k.stage s) s ctx request ms p := by
  cases going : p.outcome? with
  | some o =>
    cases stands with
    | @ended _ o comes =>
      cases check with
      | error e =>
        obtain ⟨rfl, same⟩ := comes
        cases same
        exact .refused e
      | ok =>
        cases comes with
        | early may => exact .early may
        | late may made ends =>
          obtain ⟨_, _, _, rfl, rest⟩ := made.ended
          exact .late may (apart_rest once rest) ends
    | _ => cases going
  | none =>
    rcases List.eq_nil_or_concat p.below with outermost | ⟨above, w, stack⟩
    · cases stands with
      | entered descent =>
        cases outermost
        cases descent
        exact .entered
      | resumed descent may made =>
        cases outermost
        cases descent
        obtain ⟨_, _, _, rfl, rest⟩ := made.ended
        exact .resumed may (apart_rest once rest)
      | handling descent =>
        cases outermost
        cases descent
      | ended => cases going
    · obtain ⟨ms', inner, _, _, _, _, descent, comes, rfl⟩ := stands.underWay going
      rw [stack, List.concat_eq_append] at descent
      obtain ⟨_, _, _, _, _, _, call, comes', same⟩ := descent.outwards h comes
      rw [same]
      cases call with
      | deeper outermost may scopes now =>
        cases outermost
        exact .within may (apart_rest once comes') going

end Passage

/-! ### A stage that traps panics -/

/-- Passes everything on. A panic of the rest of the chain becomes an error, and whoever wants to know of it is told the
key of the request and the text of the panic. -/
def Behaviour.recovery (key : ρ → String) (onPanic : Option (String → String → ν)) : Behaviour ρ α ν where
  early _ _ _ _ := False
  call ctx request passedCtx passed := passedCtx = ctx ∧ passed = request
  giveUp _ _ _ _ := False
  late _ request _ _ a notes o :=
    match a with
    | some (.panic message) =>
      notes = (onPanic.map fun tell => tell (key request) message).toList ∧ o = .failure (Outcome.panicError message)
    | some other => notes = [] ∧ o = other
    | none => False

/-- The stages of a mediator that was made with one that traps panics. -/
inductive Installed (σ : Type) where
  | recovery
  | further (s : σ)

def trap : Installed σ × Nat := (.recovery, 0)

def Terms.recovering (T : Terms σ η θ ρ τ ν) (onPanic : Option (String → String → ν)) :
    Terms (Installed σ) η θ ρ τ ν :=
  { T with
    stage := fun
      | .recovery => .recovery T.key onPanic
      | .further s => T.stage s }

def Passage.Mark.report : Passage.Mark (Installed σ × Nat) η ρ α ν → List ν
  | .left (.recovery, 0) notes _ => notes
  | _ => []

def Passage.reports (ms : List (Passage.Mark (Installed σ × Nat) η ρ α ν)) : List ν := ms.flatMap Mark.report

namespace Passage

variable {key : ρ → String} {onPanic : Option (String → String → ν)} {ctx : Context} {request : ρ} {message : String}
  {ms inner : List (Mark (Installed σ × Nat) η ρ α ν)} {p : Passage (Installed σ × Nat) η ρ α}

theorem reports_apart (apart : Apart trap ms) : reports ms = [] := by
  refine List.flatMap_eq_nil_iff.mpr fun m mem => ?_
  have other := apart m mem
  unfold Mark.report
  split
  · exact absurd rfl other
  · rfl

variable {passedCtx : Context} {passed : ρ} {check : Except Error Unit} {a : Option (Outcome α)} {o : Outcome α}

theorem told_called (apart : Apart trap inner)
    (told : .told trap o ∈ called trap ctx request passedCtx passed check inner a) : a = some o := by
  simp only [called, List.cons_append, List.mem_cons, List.mem_append, reduceCtorEq, false_or, List.not_mem_nil,
    or_false] at told
  rcases told with inside | back
  · exact absurd rfl (apart _ inside)
  · cases a with
    | none => cases back
    | some other =>
      cases back
      rfl

theorem reports_append (xs ys : List (Mark (Installed σ × Nat) η ρ α ν)) :
    reports (xs ++ ys) = reports xs ++ reports ys :=
  List.flatMap_append

theorem reports_called (apart : Apart trap inner) :
    reports (called trap ctx request passedCtx passed check inner a) = [] := by
  have back : reports [(Mark.back trap a : Mark (Installed σ × Nat) η ρ α ν)] = [] := by cases a <;> rfl
  calc
    reports (called trap ctx request passedCtx passed check inner a) = reports (inner ++ [.back trap a]) := rfl
    _ = [] := by rw [reports_append, reports_apart apart, back, List.append_nil]

theorem First.unpanicked (first : First (.recovery key onPanic) trap ctx request ms p) : p ≠ .ended (.panic message) := by
  rintro rfl
  cases first with
  | early may => exact may
  | within _ _ going => cases going
  | @late _ _ _ _ a _ _ _ _ ends =>
    cases a with
    | none => exact ends
    | some o =>
      cases o with
      | panic => cases ends.2
      | _ => cases ends.2

/-- A panic that reaches the stage is told once and becomes an error. -/
theorem First.trapped (first : First (.recovery key onPanic) trap ctx request ms p)
    (told : .told trap (.panic message) ∈ ms) :
    (p = .resumed ⟨⟨trap, ctx, request⟩, ctx, request⟩ (some (.panic message)) [] ∧ reports ms = []) ∨
      (p = .ended (.failure (Outcome.panicError message)) ∧
        reports ms = (onPanic.map fun tell => tell (key request) message).toList) := by
  cases first with
  | refused => cases told
  | entered => simp at told
  | early may => exact may.elim
  | within may apart =>
    simp only [List.mem_cons, reduceCtorEq, false_or] at told
    exact absurd rfl (apart _ told)
  | resumed may apart =>
    obtain ⟨rfl, rfl⟩ := may
    cases told_called apart told
    exact .inl ⟨rfl, reports_called apart⟩
  | late may apart ends =>
    cases told_called apart (by simpa using told)
    obtain ⟨rfl, rfl⟩ := ends
    refine .inr ⟨rfl, ?_⟩
    rw [reports_append, reports_called apart]
    exact List.append_nil _

theorem First.untold (first : First (.recovery key onPanic) trap ctx request ms p)
    (free : ∀ message, .told trap (.panic message) ∉ ms) : reports ms = [] := by
  cases first with
  | refused | entered => rfl
  | early may => exact may.elim
  | within may apart =>
    have inside := reports_apart apart
    exact inside
  | resumed may apart => exact reports_called apart
  | @late _ _ _ _ a notes _ may apart ends =>
    have quiet : notes = [] := by
      cases a with
      | none => exact ends.elim
      | some o =>
        cases o with
        | panic message => exact absurd (by simp [called, Mark.back]) (free message)
        | _ => exact ends.1
    rw [reports_append, reports_called apart, quiet]
    rfl

end Passage

namespace Exchange

/-- A mediator that was made with a stage that traps panics, and further stages. -/
def built (further : List σ) : Exchange (Installed σ) η θ ρ τ :=
  ⟨.recovery :: further.map .further, .empty, .empty, [], []⟩

variable {T : Terms σ η θ ρ τ ν}

theorem stepStages {σ : Type} {T : Terms σ η θ ρ τ ν} {s s' : Exchange σ η θ ρ τ} {ms : List (Mark σ η θ ρ τ ν)}
    (step : Step T s ms s') : s.stages <+: s'.stages := by
  cases step with
  | stage => exact List.prefix_append _ _
  | _ => exact List.prefix_rfl

theorem runStages {σ : Type} {T : Terms σ η θ ρ τ ν} {s s' : Exchange σ η θ ρ τ} {ms : List (Mark σ η θ ρ τ ν)}
    (run : Run T s ms s') : s.stages <+: s'.stages := by
  induction run with
  | nil => exact List.prefix_rfl
  | next earlier last ih => exact ih.trans (stepStages last)

section Recovering

variable {onPanic : Option (String → String → ν)} {further : List σ} {n : Nat} {ctx : Context} {request : ρ}
  {check : Except Error Unit} {s₁ s₂ s₃ : Exchange (Installed σ) η θ ρ τ}
  {before new ms : List (Mark (Installed σ) η θ ρ τ ν)} {d : Sending (Installed σ) η ρ} {h : Shape × η}

theorem firstTraps (earlier : Run (T.recovering onPanic) (built further) before s₁)
    (follows : Follows (T.recovering onPanic) n ⟨check, ctx, request, numbered s₁.stages h⟩ ms d) :
    Passage.First (.recovery T.key onPanic) trap ctx request (doings n ms) d.passage := by
  obtain ⟨more, stages⟩ := runStages earlier
  have dispatched := follows.dispatched
  rw [← stages] at dispatched
  have once : trap ∉ (further.map Installed.further ++ more).zipIdx 1 := by
    intro mem
    have place := (List.mem_zipIdx mem).1
    cases place
  exact (Passage.runStands dispatched).first once

end Recovering

/-! ### A handler panics -/

def crashing : Terms String Unit Unit Shape Shape (String × String) where
  request := id
  response _ := .unit
  notification := id
  stage _ := .relay
  handler _ _ _ o := o = .panic "boom"
  listener _ _ _ o := o = .panic "boom"

def relay : Installed String × Nat := (.further "relay", 1)

def trapping (sends : List (Sending (Installed String) Unit Shape)) :
    Exchange (Installed String) Unit Unit Shape Shape :=
  ⟨[.recovery, .further "relay"], ⟨[(letter, ())]⟩, .empty, sends, []⟩

def trapped (passage : Passage (Installed String × Nat) (Shape × Unit) Shape Response) (closed : Bool) :
    Sending (Installed String) Unit Shape :=
  ⟨⟨.ok (), reader, letter, ⟨[trap, relay], (letter, ())⟩⟩, passage, closed⟩

def atStage (stage : Installed String × Nat) : Waiting (Installed String × Nat) Shape :=
  ⟨⟨stage, reader, letter⟩, reader, letter⟩

theorem crashInstalled : Run (crashing.recovering (some .mk)) (built ["relay"]) [.installed letter () (.ok ())]
    (trapping []) :=
  .next .nil (.install letter () rfl)

theorem crashSent : Step (crashing.recovering (some .mk)) (trapping [])
    [.sent 0 reader letter (.ok ()), .did 0 (.entered trap reader letter)]
    (trapping [trapped (.entered ⟨trap, reader, letter⟩ ⟨[relay], (letter, ())⟩ []) false]) :=
  .send reader letter .empty 0 rfl rfl

theorem crashPassed : Runs (Passage.Step (crashing.recovering (some .mk)).conduct)
    (.entered ⟨trap, reader, letter⟩ ⟨[relay], (letter, ())⟩ [])
    [.called trap reader letter (.ok ()), .entered relay reader letter,
      .called relay reader letter (.ok ()), .invoked (letter, ()) reader letter,
      .handled (letter, ()) (.panic "boom"), .told relay (.panic "boom"),
      .left relay [] (.panic "boom"), .told trap (.panic "boom"),
      .left trap [("letter", "boom")] (.failure (Outcome.panicError "boom"))]
    (.ended (.failure (Outcome.panicError "boom"))) := by
  have called : Passage.Step (crashing.recovering (some .mk)).conduct
      (.entered ⟨trap, reader, letter⟩ ⟨[relay], (letter, ())⟩ [])
      [.called trap reader letter (.ok ()), .entered relay reader letter]
      (.entered ⟨relay, reader, letter⟩ ⟨[], (letter, ())⟩ [atStage trap]) := .calls .empty 0 ⟨rfl, rfl⟩ rfl
  have invoked : Passage.Step (crashing.recovering (some .mk)).conduct
      (.entered ⟨relay, reader, letter⟩ ⟨[], (letter, ())⟩ [atStage trap])
      [.called relay reader letter (.ok ()), .invoked (letter, ()) reader letter]
      (.handling (letter, ()) reader letter [atStage relay, atStage trap]) := .calls .empty 0 ⟨rfl, rfl⟩ rfl
  have crashed : Passage.Step (crashing.recovering (some .mk)).conduct
      (.handling (letter, ()) reader letter [atStage relay, atStage trap])
      [.handled (letter, ()) (.panic "boom"), .told relay (.panic "boom")]
      (.resumed (atStage relay) (some (.panic "boom")) [atStage trap]) := .handles rfl rfl
  have past : Passage.Step (crashing.recovering (some .mk)).conduct
      (.resumed (atStage relay) (some (.panic "boom")) [atStage trap])
      [.left relay [] (.panic "boom"), .told trap (.panic "boom")]
      (.resumed (atStage trap) (some (.panic "boom")) []) := .endsLate ⟨rfl, rfl⟩ rfl
  have caught : Passage.Step (crashing.recovering (some .mk)).conduct
      (.resumed (atStage trap) (some (.panic "boom")) [])
      [.left trap [("letter", "boom")] (.failure (Outcome.panicError "boom"))]
      (.ended (.failure (Outcome.panicError "boom"))) := .endsLate ⟨rfl, rfl⟩ rfl
  exact .next (.next (.next (.next (.next .nil called) invoked) crashed) past) caught

def crashed : List (Mark (Installed String) Unit Unit Shape Shape (String × String)) :=
  [.did 0 (.called trap reader letter (.ok ())), .did 0 (.entered relay reader letter),
    .did 0 (.called relay reader letter (.ok ())), .did 0 (.invoked (letter, ()) reader letter),
    .did 0 (.handled (letter, ()) (.panic "boom")), .did 0 (.told relay (.panic "boom")),
    .did 0 (.left relay [] (.panic "boom")), .did 0 (.told trap (.panic "boom")),
    .did 0 (.left trap [("letter", "boom")] (.failure (Outcome.panicError "boom"))),
    .returned 0 (.ok ()) (.error (Outcome.panicError "boom"))]

theorem crashReturned : Run (crashing.recovering (some .mk))
    (trapping [trapped (.entered ⟨trap, reader, letter⟩ ⟨[relay], (letter, ())⟩ []) false]) crashed
    (trapping [trapped (.ended (.failure (Outcome.panicError "boom"))) true]) := by
  have passed := goesOn (T := crashing.recovering (some .mk)) (n := 0) (s := trapping [trapped _ false]) rfl rfl
    crashPassed
  have answered : Step (crashing.recovering (some .mk))
      (trapping [trapped (.ended (.failure (Outcome.panicError "boom"))) false])
      [.returned 0 (.ok ()) (.error (Outcome.panicError "boom"))]
      (trapping [trapped (.ended (.failure (Outcome.panicError "boom"))) true]) :=
    .returns (n := 0) (d := trapped (.ended (.failure (Outcome.panicError "boom"))) false)
      (r := .error (Outcome.panicError "boom")) .empty 0 rfl rfl rfl
  exact .next passed answered

end Exchange
end Switchyard.Dispatch
