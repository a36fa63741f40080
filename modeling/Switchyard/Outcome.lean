import Switchyard.Error
/-!
The ways in which a computation ends.
-/
namespace Switchyard

inductive Outcome (α : Type) where
  | value (a : α)
  | failure (e : Error)
  | panic (message : String)
  deriving DecidableEq, Repr, Inhabited

namespace Outcome

variable {α : Type}

def error? : Outcome α → Option Error
  | failure e => some e
  | _ => none

/-- What a panic is turned into where it is caught. -/
def panicError (message : String) : Error := .internal ("panic: " ++ message) none

/-- A panic becomes an internal error. -/
def caught : Outcome α → Except Error α
  | value a => .ok a
  | failure e => .error e
  | panic m => .error (panicError m)

/-- Text of a panic that carries neither a string nor a literal. -/
def unknownPanic : String := "unknown panic"

end Outcome
end Switchyard
