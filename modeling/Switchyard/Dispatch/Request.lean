import Switchyard.Error
import Switchyard.Json
/-!
Shapes of requests and notifications, their responses, and validation of requests.
-/
namespace Switchyard.Dispatch

/-- A type of requests or notifications with the key it is dispatched by. Types may share a key. -/
structure Shape where
  type : String
  key : String
  deriving DecidableEq, Repr, Inhabited

def Shape.ofType (type : String) : Shape := ⟨type, type⟩

structure ValidationError where
  field : String
  message : String
  constraint : String := "custom"
  deriving DecidableEq, Repr, Inhabited

namespace ValidationError

def text (e : ValidationError) : String := e.field ++ ": " ++ e.message

def debug (e : ValidationError) : String :=
  Text.record "ValidationError"
    [("field", Text.quote e.field), ("message", Text.quote e.message), ("constraint", Text.quote e.constraint)] false

end ValidationError

inductive Response where
  | json (value : Json)
  | int (value : Int)
  | unit
  | byte (value : Nat)
  | word (value : Nat)
  deriving Repr, Inhabited

inductive ResponseType where
  | json | int | unit | byte | word
  deriving DecidableEq, Repr, Inhabited

def Response.type : Response → ResponseType
  | json _ => .json
  | int _ => .int
  | unit => .unit
  | byte _ => .byte
  | word _ => .word

def opaqueDebug (key : String) : String := Text.tagged "AnyRequest" (Text.tagged "TypeKey" (Text.quote key))

end Switchyard.Dispatch
