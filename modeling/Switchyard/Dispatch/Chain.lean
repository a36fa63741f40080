import Switchyard.Error
/-!
Chains of stages. What is left of a chain is called as a whole: the call goes to the first stage that is left, or to
what comes last.
-/
namespace Switchyard.Dispatch

/-- The stages that a request has still to go through, and what comes after them. -/
structure Chain (σ η : Type) where
  stages : List σ
  last : η
  deriving Inhabited

namespace Chain

variable {σ η ρ : Type}

inductive Place (σ η : Type) where
  | stage (s : σ) (rest : Chain σ η)
  | last (h : η)

/-- Where a call with a request goes. Within a cancelled context it goes nowhere, and what comes last need not take
every request. -/
def proceed (takes : η → ρ → Except Error Unit) (c : Chain σ η) (check : Except Error Unit) (request : ρ) :
    Except Error (Place σ η) :=
  match check with
  | .error e => .error e
  | .ok () =>
    match c.stages with
    | s :: rest => .ok (.stage s ⟨rest, c.last⟩)
    | [] =>
      match takes c.last request with
      | .error e => .error e
      | .ok () => .ok (.last c.last)

end Chain
end Switchyard.Dispatch
