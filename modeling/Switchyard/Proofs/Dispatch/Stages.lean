import Switchyard.Proofs.Dispatch.Exchange
import Switchyard.Proofs.Dispatch.Turns
/-!
Requests go through the stages that a mediator had when they were sent, each of these around those registered after it.
-/
namespace Switchyard.Dispatch.Exchange

open Passage (composed guarded Orderly)

variable {σ η θ ρ τ ν : Type}

theorem Follows.outcome {T : Terms σ η θ ρ τ ν} {n : Nat} {sent : Sent σ η ρ} {ms : List (Mark σ η θ ρ τ ν)}
    {d : Sending σ η ρ} (follows : Follows T n sent ms d) :
    ((∃ check r, .returned n check r ∈ ms) ∨ ∃ message, .panicked n message ∈ ms) →
      d.passage.outcome?.isSome := by
  rintro (⟨check, r, mem⟩ | ⟨message, mem⟩)
  · obtain ⟨-, -, r', ended, -⟩ := follows.returned check r mem
    rw [ended]
    rfl
  · rw [(follows.panicked message mem).2]
    rfl

/-- What can come of a chain of stages is what can come of them nested in one another, with the handler innermost and a
look at the context at every call. So it is for a request that is sent: it goes through the stages registered by then,
which are entered in the order of their registration and exit against it, and none registered later takes part. -/
theorem stagesNest (T : Terms σ η θ ρ τ ν) :
    (∀ stages h check ctx request ms o,
      (∃ p, Passage.Dispatched T.conduct ⟨stages, h⟩ check ctx request ms p ∧ p.outcome? = o) ↔
        guarded check (composed T.conduct stages h) ctx request ms o) ∧
    ∀ (s₁ s₂ s₃ : Exchange σ η θ ρ τ) n ctx request check new ms,
      Step T s₁ (.sent n ctx request check :: new) s₂ → Run T s₂ ms s₃ →
      ∃ h o, s₁.handlers.lookup (T.key request) = .ok h ∧
        guarded check (composed T.conduct s₁.stages.zipIdx h) ctx request (doings n (new ++ ms)) o ∧
        Orderly s₁.stages.zipIdx s₁.stages.zipIdx h (doings n (new ++ ms)) o.isSome ∧
        ((∃ check r, .returned n check r ∈ ms) ∨ (∃ message, .panicked n message ∈ ms) → o.isSome) := by
  refine ⟨fun stages h check ctx request ms o => Passage.comes_composed, ?_⟩
  intro s₁ s₂ s₃ n ctx request check new ms sends later
  obtain ⟨h, d, found, -, follows⟩ := sentFollows sends later
  have comes := Passage.comes_composed.mp ⟨d.passage, follows.dispatched, rfl⟩
  refine ⟨h, d.passage.outcome?, found, comes, Passage.orderly_composed check comes, fun settled => follows.outcome ?_⟩
  rcases settled with ⟨check, r, mem⟩ | ⟨message, mem⟩
  · exact .inl ⟨check, r, List.mem_append_right _ mem⟩
  · exact .inr ⟨message, List.mem_append_right _ mem⟩

/-! ### A stage is registered while a request is on its way -/

/-- All stages pass everything on, and all handlers answer. -/
def relaying : Terms String Unit Unit Shape Shape Unit where
  request := id
  response _ := .unit
  notification := id
  stage _ := .relay
  handler _ _ _ o := o = .value .unit
  listener _ _ _ o := o = .value ()

def letter : Shape := ⟨"Letter", "letter"⟩

def reader : Context := ⟨[], none, .nil⟩

def outer : String × Nat := ("outer", 0)
def inner : String × Nat := ("inner", 1)

def office (stages : List String) (sends : List (Sending String Unit Shape)) : Exchange String Unit Unit Shape Shape :=
  ⟨stages, ⟨[(letter, ())]⟩, .empty, sends, []⟩

def posted (passage : Passage (String × Nat) (Shape × Unit) Shape Response) (closed : Bool) :
    Sending String Unit Shape :=
  ⟨⟨.ok (), reader, letter, ⟨[outer, inner], (letter, ())⟩⟩, passage, closed⟩

def waiting (stage : String × Nat) : Waiting (String × Nat) Shape := ⟨⟨stage, reader, letter⟩, reader, letter⟩

theorem letterSent : Step relaying (office ["outer", "inner"] [])
    [.sent 0 reader letter (.ok ()), .did 0 (.entered outer reader letter)]
    (office ["outer", "inner"] [posted (.entered ⟨outer, reader, letter⟩ ⟨[inner], (letter, ())⟩ []) false]) :=
  .send reader letter .empty 0 rfl rfl

theorem letterPassed : Runs (Passage.Step relaying.conduct) (.entered ⟨outer, reader, letter⟩ ⟨[inner], (letter, ())⟩ [])
    [.called outer reader letter (.ok ()), .entered inner reader letter,
      .called inner reader letter (.ok ()), .invoked (letter, ()) reader letter,
      .handled (letter, ()) (.value .unit), .told inner (.value .unit),
      .left inner [] (.value .unit), .told outer (.value .unit),
      .left outer [] (.value .unit)]
    (.ended (.value .unit)) := by
  have called : Passage.Step relaying.conduct (.entered ⟨outer, reader, letter⟩ ⟨[inner], (letter, ())⟩ [])
      [.called outer reader letter (.ok ()), .entered inner reader letter]
      (.entered ⟨inner, reader, letter⟩ ⟨[], (letter, ())⟩ [waiting outer]) := .calls .empty 0 ⟨rfl, rfl⟩ rfl
  have invoked : Passage.Step relaying.conduct (.entered ⟨inner, reader, letter⟩ ⟨[], (letter, ())⟩ [waiting outer])
      [.called inner reader letter (.ok ()), .invoked (letter, ()) reader letter]
      (.handling (letter, ()) reader letter [waiting inner, waiting outer]) := .calls .empty 0 ⟨rfl, rfl⟩ rfl
  have handled : Passage.Step relaying.conduct (.handling (letter, ()) reader letter [waiting inner, waiting outer])
      [.handled (letter, ()) (.value .unit), .told inner (.value .unit)]
      (.resumed (waiting inner) (some (.value .unit)) [waiting outer]) := .handles rfl rfl
  have inside : Passage.Step relaying.conduct (.resumed (waiting inner) (some (.value .unit)) [waiting outer])
      [.left inner [] (.value .unit), .told outer (.value .unit)]
      (.resumed (waiting outer) (some (.value .unit)) []) := .endsLate ⟨rfl, rfl⟩ rfl
  have outside : Passage.Step relaying.conduct (.resumed (waiting outer) (some (.value .unit)) [])
      [.left outer [] (.value .unit)] (.ended (.value .unit)) := .endsLate ⟨rfl, rfl⟩ rfl
  exact .next (.next (.next (.next (.next .nil called) invoked) handled) inside) outside

theorem letterReturned : Run relaying
    (office ["outer", "inner"] [posted (.entered ⟨outer, reader, letter⟩ ⟨[inner], (letter, ())⟩ []) false])
    [.staged "late",
      .did 0 (.called outer reader letter (.ok ())), .did 0 (.entered inner reader letter),
      .did 0 (.called inner reader letter (.ok ())), .did 0 (.invoked (letter, ()) reader letter),
      .did 0 (.handled (letter, ()) (.value .unit)), .did 0 (.told inner (.value .unit)),
      .did 0 (.left inner [] (.value .unit)), .did 0 (.told outer (.value .unit)),
      .did 0 (.left outer [] (.value .unit)),
      .returned 0 (.ok ()) (.ok .unit)]
    (office ["outer", "inner", "late"] [posted (.ended (.value .unit)) true]) := by
  have registered : Step relaying
      (office ["outer", "inner"] [posted (.entered ⟨outer, reader, letter⟩ ⟨[inner], (letter, ())⟩ []) false])
      [.staged "late"]
      (office ["outer", "inner", "late"]
        [posted (.entered ⟨outer, reader, letter⟩ ⟨[inner], (letter, ())⟩ []) false]) := .stage "late"
  have passed := goesOn (T := relaying) (n := 0) (s := office ["outer", "inner", "late"] [posted _ false]) rfl rfl
    letterPassed
  have answered : Step relaying (office ["outer", "inner", "late"] [posted (.ended (.value .unit)) false])
      [.returned 0 (.ok ()) (.ok .unit)]
      (office ["outer", "inner", "late"] [posted (.ended (.value .unit)) true]) :=
    .returns (n := 0) (d := posted (.ended (.value .unit)) false) (r := .ok .unit) .empty 0 rfl rfl rfl
  exact (Runs.nil.next registered).trans (.next passed answered)

theorem letterNests : ∃ way o,
    guarded (.ok ()) (composed relaying.conduct [outer, inner] (letter, ())) reader letter way (some o) ∧
      Orderly [outer, inner] [outer, inner] (letter, ()) way true ∧
      Passage.turns way = [.enter outer, .enter inner, .exit inner, .exit outer] := by
  obtain ⟨h, o, found, nests, orderly, ended⟩ := (stagesNest relaying).2 _ _ _ _ _ _ _ _ _ letterSent letterReturned
  cases Except.ok.inj (found.symm.trans rfl : Except.ok h = Except.ok (letter, ()))
  obtain ⟨o, rfl⟩ := Option.isSome_iff_exists.mp (ended (.inl ⟨_, _, List.mem_of_getElem? (i := 10) rfl⟩))
  exact ⟨_, o, nests, orderly, rfl⟩

end Switchyard.Dispatch.Exchange
