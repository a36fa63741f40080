import Switchyard.Text.Record
/-!
Recorded method calls. Several recorders may share one log of calls.
-/
namespace Switchyard.Testing

abbrev Calls := List (String × List String)

namespace Calls

def count (c : Calls) (method : String) : Nat := (c.filter (·.1 = method)).length
def called (c : Calls) (method : String) : Bool := 0 < c.count method
def methods (c : Calls) : List String := c.map (·.1)
def debug (c : Calls) : String := Text.record "CallRecorder" [("calls", toString c.length)] false

end Calls

/-- Recorders by position, each naming the log it writes to. -/
structure Recorders where
  logs : List Calls
  recorders : List Nat
  deriving DecidableEq, Repr

namespace Recorders

def initial : Recorders := ⟨[[]], [0]⟩

/-- The log of a recorder; a position past the end stands for the last recorder. -/
def log (r : Recorders) (on : Nat) : Nat := r.recorders.getD (min on (r.recorders.length - 1)) 0

def calls (r : Recorders) (log : Nat) : Calls := r.logs.getD log []

def add (r : Recorders) : Recorders := ⟨r.logs ++ [[]], r.recorders ++ [r.logs.length]⟩

def clone (r : Recorders) (on : Nat) : Recorders := { r with recorders := r.recorders ++ [r.log on] }

def record (r : Recorders) (on : Nat) (method : String) (args : List String) : Recorders :=
  { r with logs := r.logs.modify (r.log on) (· ++ [(method, args)]) }

def clear (r : Recorders) (on : Nat) : Recorders := { r with logs := r.logs.set (r.log on) [] }

end Recorders
end Switchyard.Testing
