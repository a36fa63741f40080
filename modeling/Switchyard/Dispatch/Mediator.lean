import Switchyard.Dispatch.Registry
import Switchyard.Context
import Switchyard.Outcome
/-!
Rules of dispatch that do not depend on what stages and handlers do: which response is accepted, which error
wins, and what is written to the log.
-/
namespace Switchyard.Dispatch

structure Config where
  slow : Span := .ofMillis 500
  logger : Log.Logger := .plain
  deriving DecidableEq, Repr

def Config.debug (c : Config) : String :=
  Text.record "MediatorConfig" [("slow_request_threshold", c.slow.text), ("logger", c.logger.debug)] false

namespace Mediator

def registeredHandler (key : String) : Log.Line := ⟨.debug, "Registered handler for " ++ key⟩
def registeredNotification (key : String) : Log.Line := ⟨.debug, "Registered notification handler for " ++ key⟩
def registeredStage (name : String) : Log.Line := ⟨.debug, "Registered middleware " ++ name⟩

def requestMismatch (key : String) : Error := .internal ("request type mismatch for " ++ key) none
def responseMismatch (key : String) : Error := .internal ("response type mismatch for " ++ key) none
def notificationMismatch (key : String) : Error := .internal ("notification type mismatch for " ++ key) none

/-- A handler receives only what is of the type it was registered for. -/
def receives (mismatch : Error) (registered given : Shape) : Except Error Unit :=
  if given = registered then .ok () else .error mismatch

/-- The handler that a notification goes to. A cancelled one goes to none. -/
def addressee {η : Type} (r : Registry η) (key : String) (check : Except Error Unit) : Except Error (Shape × η) :=
  match r.lookup key with
  | .error e => .error e
  | .ok found =>
    match check with
    | .error e => .error e
    | .ok () => .ok found

def notificationFailed (key : String) (e : Error) : Log.Line :=
  ⟨.debug, "Notification " ++ key ++ " failed: " ++ e.message⟩

def slowText (key : String) (elapsed threshold : Span) : String :=
  "Slow request " ++ key ++ ": " ++ elapsed.text ++ " (threshold " ++ threshold.text ++ ")"

def slow (c : Config) (key : String) (elapsed : Span) : List Log.Line :=
  if c.slow < elapsed then [⟨.warn, slowText key elapsed c.slow⟩] else []

/-- The answer to the sender. `cancelled` is the cancellation of the sender's context, if it has come by now:
it takes the place of any other error. -/
def conclude (key : String) (expected : ResponseType) (cancelled : Option Error) (r : Except Error Response) :
    Except Error Response :=
  match r with
  | .error e =>
    match cancelled with
    | some c => if e.isCancelled then .error e else .error c
    | none => .error e
  | .ok response => if response.type = expected then .ok response else .error (responseMismatch key)

def stageNames (names : List String) : String := Text.listed (names.map Text.quote)

def debug (handlers notificationHandlers : Nat) (stages : List String) : String :=
  Text.record "Mediator"
    [("handlers", toString handlers), ("notification_handlers", toString notificationHandlers),
     ("middleware", stageNames stages)] false

end Mediator

/-! ### Built-in stages -/

namespace Validation

def joined (errors : List ValidationError) : String := "; ".intercalate (errors.map (·.text))

def failed (key : String) (errors : List ValidationError) : Log.Line :=
  ⟨.debug, "Validation failed for " ++ key ++ ": " ++ joined errors⟩

end Validation

namespace Guard

def refusal (name key : String) : Error := .middlewareBlocked (name ++ " rejected " ++ key)

end Guard

namespace Logging

def handling (key : String) (correlation : Ident) : Log.Line :=
  ⟨.debug, "Handling " ++ key ++ " (correlation " ++ correlation.text ++ ")"⟩

def handled (key : String) : Option Error → Log.Line
  | none => ⟨.debug, "Handled " ++ key⟩
  | some e => ⟨.warn, "Request " ++ key ++ " failed [" ++ e.kind.text ++ "]: " ++ e.message⟩

end Logging

namespace Performance

def standard : Span := .ofMillis 500

def report (key : String) (elapsed threshold : Span) : Log.Line :=
  if threshold < elapsed then ⟨.warn, Mediator.slowText key elapsed threshold⟩
  else ⟨.trace, "Request " ++ key ++ " took " ++ elapsed.text⟩

end Performance

namespace Recovery

def recovered (key message : String) : Log.Line :=
  ⟨.error, "Recovered from panic while handling " ++ key ++ ": " ++ message⟩

end Recovery

end Switchyard.Dispatch
