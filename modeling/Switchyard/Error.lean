import Switchyard.Text.Record
/-!
The errors that operations end with, their kinds and their wording.
-/
namespace Switchyard

inductive ErrorKind where
  | notFound | conflict | badRequest | forbidden | internal | cancelled
  | circuitOpen | handlerNotFound | alreadyRegistered | middlewareBlocked
  deriving DecidableEq, Repr, Inhabited

namespace ErrorKind

def all : List ErrorKind :=
  [notFound, conflict, badRequest, forbidden, internal, cancelled, circuitOpen, handlerNotFound,
   alreadyRegistered, middlewareBlocked]

def text : ErrorKind → String
  | notFound => "not_found"
  | conflict => "conflict"
  | badRequest => "bad_request"
  | forbidden => "forbidden"
  | internal => "internal"
  | cancelled => "cancelled"
  | circuitOpen => "circuit_open"
  | handlerNotFound => "handler_not_found"
  | alreadyRegistered => "already_registered"
  | middlewareBlocked => "middleware_blocked"

def debug : ErrorKind → String
  | notFound => "NotFound"
  | conflict => "Conflict"
  | badRequest => "BadRequest"
  | forbidden => "Forbidden"
  | internal => "Internal"
  | cancelled => "Cancelled"
  | circuitOpen => "CircuitOpen"
  | handlerNotFound => "HandlerNotFound"
  | alreadyRegistered => "AlreadyRegistered"
  | middlewareBlocked => "MiddlewareBlocked"

def parse? (s : String) : Option ErrorKind := all.find? (·.text = s)

end ErrorKind

inductive Cause where
  | io (text : String)
  | other (text : String)
  deriving DecidableEq, Repr, Inhabited

def Cause.text : Cause → String
  | io t => t
  | other t => t

def Cause.debug : Cause → String
  | io t => Text.record "Custom" [("kind", "Other"), ("error", Text.quote t)] false
  | other t => Text.quote t

inductive Error where
  | notFound (what : String)
  | conflict (what : String)
  | badRequest (what : String)
  | forbidden (what : String)
  | internal (what : String) (cause : Option Cause)
  | cancelled (what : String)
  | circuitOpen (breaker : String)
  | handlerNotFound (key : String)
  | alreadyRegistered (key : String)
  | middlewareBlocked (what : String)
  deriving DecidableEq, Repr, Inhabited

namespace Error

def kind : Error → ErrorKind
  | notFound _ => .notFound
  | conflict _ => .conflict
  | badRequest _ => .badRequest
  | forbidden _ => .forbidden
  | internal _ _ => .internal
  | cancelled _ => .cancelled
  | circuitOpen _ => .circuitOpen
  | handlerNotFound _ => .handlerNotFound
  | alreadyRegistered _ => .alreadyRegistered
  | middlewareBlocked _ => .middlewareBlocked

def message : Error → String
  | notFound s => "Not found: " ++ s
  | conflict s => "Conflict: " ++ s
  | badRequest s => "Bad request: " ++ s
  | forbidden s => "Forbidden: " ++ s
  | internal s _ => "Internal error: " ++ s
  | cancelled s => "Cancelled: " ++ s
  | circuitOpen s => "Circuit breaker '" ++ s ++ "' is open"
  | handlerNotFound s => "Handler not found for " ++ s
  | alreadyRegistered s => "Handler already registered for " ++ s
  | middlewareBlocked s => "Blocked by middleware: " ++ s

def detail : Error → String
  | notFound s | conflict s | badRequest s | forbidden s | internal s _ | cancelled s
  | circuitOpen s | handlerNotFound s | alreadyRegistered s | middlewareBlocked s => s

def cause : Error → Option Cause
  | internal _ c => c
  | _ => none

def debug : Error → String
  | internal s c =>
    Text.record "Internal" [("message", Text.quote s), ("source", Text.optional (c.map Cause.debug))] false
  | e => Text.tagged e.kind.debug (Text.quote e.detail)

/-- The error of a kind with a text, without a cause. -/
def ofKind (k : ErrorKind) (s : String) : Error :=
  match k with
  | .notFound => notFound s
  | .conflict => conflict s
  | .badRequest => badRequest s
  | .forbidden => forbidden s
  | .internal => internal s none
  | .cancelled => cancelled s
  | .circuitOpen => circuitOpen s
  | .handlerNotFound => handlerNotFound s
  | .alreadyRegistered => alreadyRegistered s
  | .middlewareBlocked => middlewareBlocked s

/-- An internal error over a foreign one, with the foreign text. -/
def wrap (c : Cause) : Error := internal c.text (some c)

def isCancelled (e : Error) : Bool := e.kind = .cancelled
def isNotFound (e : Error) : Bool := e.kind = .notFound

/-- The error for a value that could not be encoded or decoded. -/
def serialization (text : String) : Error :=
  internal ("Serialization error: " ++ text) (some (.other text))

end Error
end Switchyard
