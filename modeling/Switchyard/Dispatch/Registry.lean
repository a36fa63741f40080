import Switchyard.Dispatch.Request
import Switchyard.Log
/-!
Handlers by dispatch key. The first registration for a key stays.
-/
namespace Switchyard.Dispatch

/-- Registered handlers, each with the shape it was registered for. -/
structure Registry (η : Type) where
  entries : List (Shape × η)
  deriving Repr

namespace Registry

variable {η : Type}

def empty : Registry η := ⟨[]⟩

def find? (r : Registry η) (key : String) : Option (Shape × η) := r.entries.find? (·.1.key = key)

def register (r : Registry η) (shape : Shape) (handler : η) : Except Error (Registry η) :=
  match r.find? shape.key with
  | some _ => .error (.alreadyRegistered shape.key)
  | none => .ok ⟨r.entries ++ [(shape, handler)]⟩

def size (r : Registry η) : Nat := r.entries.length

def lookup (r : Registry η) (key : String) : Except Error (Shape × η) :=
  match r.find? key with
  | some h => .ok h
  | none => .error (.handlerNotFound key)

theorem find?_register {r r' : Registry η} {shape : Shape} {handler : η} (key : String) {h : Shape × η}
    (done : r.register shape handler = .ok r') (found : r.find? key = some h) : r'.find? key = some h := by
  unfold register at done
  split at done
  · cases done
  · cases done
    unfold find? at found ⊢
    rw [List.find?_append, found]
    rfl

end Registry
end Switchyard.Dispatch
