import Switchyard.Error
/-!
Failures put into a test double: on every call, or on a number of calls to come.
-/
namespace Switchyard.Testing

inductive Failure where
  | always (e : Error)
  /-- The error meets the next call and those after it while the number is above one. -/
  | times (n : Nat) (e : Error)
  deriving DecidableEq, Repr, Inhabited

/-- The error that meets a call, and what is left for later calls. -/
def Failure.take : Option Failure → Option Failure × Option Error
  | none => (none, none)
  | some (.always e) => (some (.always e), some e)
  | some (.times n e) => (if 1 < n then some (.times (n - 1) e) else none, some e)

end Switchyard.Testing
