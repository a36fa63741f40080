import Switchyard.Dispatch.Mediator
import Switchyard.Events.Bus
import Switchyard.State.Service
import Switchyard.Testing.Store
import Switchyard.Testing.Broker
/-!
The scripts of a rehearsal: what handlers do when they run, the stages of a chain, and the steps that are
carried out on the components.
-/
namespace Switchyard.Rehearsal

open Dispatch (Shape ValidationError)

/-- The types of requests. `a` and `c` share a key; `d` and `e` go by the names of their types. -/
inductive RequestType where
  | a | b | c | d | e
  deriving DecidableEq, Repr, Inhabited

namespace RequestType

def all : List RequestType := [a, b, c, d, e]

def letter : RequestType → String
  | a => "A" | b => "B" | c => "C" | d => "D" | e => "E"

def shape : RequestType → Shape
  | a => ⟨"A", "req.a"⟩
  | b => ⟨"B", "req.b"⟩
  | c => ⟨"C", "req.a"⟩
  | d => .ofType "driver::ReqD"
  | e => .ofType "driver::ReqE"

def response : RequestType → Dispatch.ResponseType
  | a => .json | b => .int | c => .json | d => .unit | e => .byte

end RequestType

structure RequestOf (τ : Type) where
  type : RequestType
  x : Int
  /-- The outcome of its own validation: the errors, if it is not valid. -/
  errors : Option (List ValidationError)
  task : τ
  deriving Repr, Inhabited

/-- The types of events. `e1` and `e3` share a key; `bad` cannot be encoded. -/
inductive EventType where
  | e1 | e2 | e3 | bad
  deriving DecidableEq, Repr, Inhabited

namespace EventType

def all : List EventType := [e1, e2, e3, bad]

def name : EventType → String
  | e1 => "E1" | e2 => "E2" | e3 => "E3" | bad => "EBad"

def shape : EventType → Shape
  | e1 => ⟨"E1", "evt.1"⟩
  | e2 => ⟨"E2", "evt.2"⟩
  | e3 => ⟨"E3", "evt.1"⟩
  | bad => .ofType "driver::EBad"

end EventType

structure EventOf (τ : Type) where
  type : EventType
  metadata : Events.Metadata
  seq : Int
  body : Json
  task : τ
  deriving Repr, Inhabited

structure GuardRule where
  name : String
  denyAll : Bool
  denyTypes : List String
  minX : Option Int
  denyCancelled : Bool
  deriving DecidableEq, Repr, Inhabited

inductive StageOf (τ : Type) where
  | validation
  | logging
  | performance (threshold : Span)
  /-- Traps panics; `traced` if it tells the trace of them. -/
  | recovery ( traced : Bool)
  | guard (rule : GuardRule)
  | publishEvents
  /-- Tells the trace of each entry and exit. -/
  | trace (label : String)
  | cancel
  | cancelAfter
  | fail (e : Error)
  | answer (v : Json)
  | replace (v : Json)
  | fallback (v : Json)
  | mapError (e : Error)
  | wrongType
  | panic (message : String)
  | panicAfter (message : String)
  | sleep (span : Span)
  | swap (request : RequestOf τ)
  | timeout (span : Span)
  | cancelledChild
  | race
  | catchPanic
  /-- Passes everything on, under a name. -/
  | passThrough (name : String)
  deriving Repr, Inhabited

/-- A stage with the name it is registered under and the logger it writes through. -/
structure NamedStageOf (τ : Type) where
  name : String
  stage : StageOf τ
  logger : Log.Logger
  deriving Repr, Inhabited

inductive Layer where
  | adapter | cache | service
  deriving DecidableEq, Repr, Inhabited

inductive BreakerId where
  | bare | bus | service
  deriving DecidableEq, Repr, Inhabited

inductive ValueType where
  | u32 | i64 | u8 | string | bool | profile | vecU32 | optString | unit | pair | mapU32 | char | value
  deriving DecidableEq, Repr, Inhabited

/-- A value to be stored: plain JSON, or one that cannot be encoded, with the reason. -/
inductive Writable where
  | json (v : Json)
  | refused (reason : String)
  deriving Repr, Inhabited

inductive ContextRef where
  | fresh
  | current
  | named (name : String)
  deriving DecidableEq, Repr, Inhabited

inductive Derivation where
  | child | clone
  | timeout (span : Span)
  | deadline (time : Instant)
  deriving DecidableEq, Repr, Inhabited

mutual
inductive Action where
  | trace (v : Json)
  | sleep (span : Span)
  | yield
  | cancelCurrent
  | cancelNamed (name : String)
  | pending
  | done (v : Json)
  | fail (e : Error)
  | panic (message : String)
  /-- Carries a step out under a name and tells the trace of its reply. -/
  | perform (name : String) (step : Step)

inductive Step where
  | bad (name : String)
  /-- Carries a step out with a limit on its time. -/
  | limited (limit : Span) (step : Step)
  | advance (span : Span)
  | start (name : String) (step : Step)
  | abort (name : String)
  | context (name : String) (base : Option ContextRef) (how : Derivation) (correlation : Option Ident)
  | cancel (ctx : ContextRef)
  | contextInfo (ctx : ContextRef)
  | contextRun (ctx : ContextRef) (task : List Action)
  | contextCancelled (ctx : ContextRef)
  | call (on : BreakerId) (ctx : ContextRef) (task : List Action) (eagerPanic : Option String)
      (countInvocation : Bool)
  | state (on : BreakerId)
  | counts (on : BreakerId)
  | stats (on : BreakerId)
  | reset (on : BreakerId)
  | forceOpen (on : BreakerId)
  | breakerDebug (on : BreakerId)
  | breakerName (on : BreakerId)
  | store (on : Layer) (ctx : ContextRef) (op : State.Op)
  | getTyped (ctx : ContextRef) (key : String) (type : ValueType)
  | getInto (ctx : ContextRef) (key : String) (type : ValueType) (initial : Json)
  | getRaw (ctx : ContextRef) (key : String)
  | set (ctx : ContextRef) (key : String) (value : Writable)
  | serviceShutdown
  | serviceDebug
  | cacheInfo (keys : Option (List String))
  | purge
  | cacheConfig
  | cacheDebug
  | cacheShutdown
  | cacheDrop
  | storeFailure (failure : Option Testing.Failure)
  | latency (span : Span)
  | seed (key : String) (value : Json)
  | panicKeys (keys : List String)
  | adapterInfo (keys : List String)
  | adapterCalls (clear : Bool)
  | adapterDebug
  | brokerFailure (failure : Option Testing.Failure)
  | brokerLatency (span : Span)
  | panicTopics (topics : List String)
  | brokerInfo (topics : List String)
  | brokerPublish (ctx : ContextRef) (message : Events.Message)
  | subscribe (direct : Bool) (ctx : ContextRef) (topic : String) (task : List Action)
  | unsubscribe (direct : Bool) (ctx : ContextRef) (topic : String)
  | register (type : RequestType) (tag : String)
  | registerNotification (type : EventType) (tag : String)
  | middleware (stage : NamedStageOf (List Action))
  | mediatorInfo
  | send (ctx : ContextRef) (request : RequestOf (List Action))
  | appSend (ctx : ContextRef) (request : RequestOf (List Action))
  | notify (ctx : ContextRef) (event : EventOf (List Action))
  | runStage (ctx : ContextRef) (stage : NamedStageOf (List Action)) (request : RequestOf (List Action))
      (task : List Action)
  | add (event : EventOf (List Action))
  | drain (ctx : ContextRef)
  | tryDrain (ctx : ContextRef)
  | pending
  | busDebug
  | busDrop
  | appShutdown
  | appDebug
  | appLogger
  | logQuery (needle : String)
  | setLevel (level : Log.Level)
end

instance : Inhabited Action := ⟨.yield⟩
instance : Inhabited Step := ⟨.pending⟩

abbrev Script := List Action
abbrev Request := RequestOf Script
abbrev Event := EventOf Script
abbrev Stage := StageOf Script
abbrev NamedStage := NamedStageOf Script

end Switchyard.Rehearsal
