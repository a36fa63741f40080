import Switchyard.Dispatch.Mediator
import Switchyard.Events.Metadata
import Switchyard.Breaker
/-!
The queue of pending events and the drain that publishes them in order, first in process and then to the
messaging side. A drain is described between its waits: `advance` takes up the next event, and `notified` and
`sent` go on with the answer to a publication. The event taken up is held by the drain; when the drain ends
early it goes back to the front of the queue.
-/
namespace Switchyard.Events

open Dispatch (Shape)

structure Event (β : Type) where
  shape : Shape
  metadata : Metadata
  label : String
  payload : Except String Json
  body : β

namespace Event

variable {β : Type}

def id (e : Event β) : Ident := e.metadata.id.getD .nil

def stamp (e : Event β) (id : Ident) (now : Stamp) : Event β := { e with metadata := e.metadata.stamp id now }

def takenUp (e : Event β) (started : Stamp) : Event β :=
  { e with metadata := { e.metadata with publishedAt := some started } }

def delivered (e : Event β) : Event β := { e with metadata := { e.metadata with published := true } }

def message (e : Event β) (now : Stamp) : Except Error Message :=
  match e.payload with
  | .ok payload => .ok ⟨e.id, e.metadata.topic, e.metadata.createdAt.getD now, e.metadata.publishedAt, payload⟩
  | .error reason => .error (.serialization reason)

end Event

/-- A lock that is handed on in the order in which it was asked for. -/
structure Lock where
  held : Bool
  waiting : List Nat
  deriving DecidableEq, Repr, Inhabited

namespace Lock

def free : Lock := ⟨false, []⟩

def take? (l : Lock) : Option Lock := if l.held then none else some { l with held := true }

def join (l : Lock) (ticket : Nat) : Lock := { l with waiting := l.waiting ++ [ticket] }

/-- Gives the lock up; the first who waits holds it from then on. -/
def release (l : Lock) : Lock × Option Nat :=
  match l.waiting with
  | [] => (⟨false, []⟩, none)
  | t :: rest => (⟨true, rest⟩, some t)

def leave (l : Lock) (ticket : Nat) : Lock := { l with waiting := l.waiting.filter (· ≠ ticket) }

end Lock

structure Bus (β : Type) where
  queue : List (Event β)
  lock : Lock
  ignoreMissing : Bool
  messaging : Bool
  logger : Log.Logger

namespace Bus

variable {β : Type}

def make (ignoreMissing messaging : Bool) (logger : Log.Logger) : Bus β :=
  ⟨[], .free, ignoreMissing, messaging, logger⟩

def add (b : Bus β) (e : Event β) : Bus β := { b with queue := b.queue ++ [e] }

/-- Puts the held event of a drain back to the front. -/
def restore (b : Bus β) (e : Event β) : Bus β := { b with queue := e :: b.queue }

def pending (b : Bus β) : Nat := b.queue.length

def queued (e : Event β) : Log.Line :=
  ⟨.trace, "Queued event " ++ e.id.text ++ " on '" ++ e.metadata.topic ++ "'"⟩

def inFlight : Log.Line := ⟨.trace, "Drain already in flight"⟩

def noAdapter : Error := .internal "no messaging adapter configured" none

structure Drain where
  ctx : Context
  started : Stamp
  delivered : Nat
  deriving DecidableEq, Repr

inductive Next (β : Type) where
  | notify (e : Event β)
  | send (e : Event β) (m : Message)
  | again (d : Drain)
  | finish (r : Except Error Unit)

/-- Where a drain stands after a step, and what it wrote. -/
structure Stand (β : Type) where
  bus : Bus β
  lines : List Log.Line
  next : Next β

def drained (n : Nat) : Log.Line := ⟨.debug, "Drained " ++ toString n ++ " domain events"⟩

def failed (e : Event β) (n : Nat) (err : Error) : Log.Line :=
  ⟨.warn, "Publishing " ++ e.label ++ " failed after " ++ toString n ++ " events: " ++ err.message⟩

def noHandler (e : Event β) : Log.Line := ⟨.debug, "No handler for event on '" ++ e.metadata.topic ++ "'"⟩

def staysInside (e : Event β) : Log.Line :=
  ⟨.debug, "No messaging adapter, '" ++ e.metadata.topic ++ "' stays in-process"⟩

/-- Ends a drain with an error; the event goes back. -/
def stop (b : Bus β) (d : Drain) (e : Event β) (err : Error) (lines : List Log.Line) : Stand β :=
  ⟨b.restore e, lines ++ [failed e d.delivered err], .finish (.error err)⟩

def discharge (b : Bus β) (d : Drain) (lines : List Log.Line) : Stand β :=
  ⟨b, lines, .again { d with delivered := d.delivered + 1 }⟩

/-- Goes on with an event whose in-process delivery is complete. -/
def outward (b : Bus β) (d : Drain) (e : Event β) (now : Stamp) (lines : List Log.Line) : Stand β :=
  if e.metadata.external then
    if b.messaging then
      match e.message now with
      | .ok m => ⟨b, lines, .send e m⟩
      | .error err => b.stop d e err lines
    else b.discharge d (lines ++ [staysInside e])
  else b.discharge d lines

/-- Takes up the first event of the queue, unless the drain is cancelled. -/
def advance (b : Bus β) (d : Drain) (check : Except Error Unit) (now : Stamp) : Stand β :=
  match check with
  | .error err => ⟨b, [], .finish (.error err)⟩
  | .ok () =>
    match b.queue with
    | [] => ⟨b, [drained d.delivered], .finish (.ok ())⟩
    | e :: rest =>
      let e := e.takenUp d.started
      let b := { b with queue := rest }
      if e.metadata.published then b.outward d e now [] else ⟨b, [], .notify e⟩

/-- Goes on with the answer to the in-process publication of the held event. -/
def notified (b : Bus β) (d : Drain) (e : Event β) (r : Except Error Unit) (now : Stamp) : Stand β :=
  match r with
  | .ok () => b.outward d e.delivered now []
  | .error err =>
    if err.kind = .handlerNotFound ∧ b.ignoreMissing then b.outward d e.delivered now [noHandler e]
    else b.stop d e err []

def sent (b : Bus β) (d : Drain) (e : Event β) (r : Except Error Unit) : Stand β :=
  match r with
  | .ok () => b.discharge d []
  | .error err => b.stop d e err []

def debug (b : Bus β) (breaker : String) : String :=
  Text.record "EventBus"
    [("pending", toString b.pending), ("external", Text.truth b.messaging), ("breaker", breaker)] false

end Bus

structure Config where
  breaker : Breaker.Config := .named "events"
  ignoreMissing : Bool := false
  logger : Log.Logger := .plain

def Config.debug (c : Config) : String :=
  Text.record "EventBusConfig"
    [("breaker", c.breaker.debug), ("ignore_missing_handlers", Text.truth c.ignoreMissing),
     ("logger", c.logger.debug)] false

/-! ### The stage that drains the bus after the rest of a chain -/

def busDropped : Log.Line := ⟨.debug, "Event bus dropped, skipping publish"⟩

def alsoFailed (key : String) (e : Error) : Log.Line :=
  ⟨.error, "Publishing events after failed " ++ key ++ " also failed: " ++ e.message⟩

/-- An error of the inner chain stays; otherwise an error of the drain replaces the result. -/
def afterDrain {α : Type} (key : String) (inner : Except Error α) (drain : Except Error Bool) :
    Except Error α × List Log.Line :=
  match inner, drain with
  | inner, .ok _ => (inner, [])
  | .ok _, .error e => (.error e, [])
  | .error err, .error e => (.error err, [alsoFailed key e])

end Switchyard.Events
