import Switchyard.Rehearsal.Script
/-!
What a rehearsal shows: the reply to each step, the notes that scripts, handlers and stages leave, and the
records of what happened meanwhile.
-/
namespace Switchyard.Rehearsal

/-- A time as it is shown. Starts of drains are numbered in the order in which they are first shown. -/
inductive ShownTime where
  | given (time : Moment)
  | drain (n : Nat)
  /-- A reading of the clock that has no number. -/
  | present
  deriving DecidableEq, Repr, Inhabited

structure ShownMessage where
  id : Ident
  topic : String
  createdAt : ShownTime
  publishedAt : Option ShownTime
  payload : Json
  deriving Repr, Inhabited

structure ContextView where
  cancelled : Bool
  check : Except Error Unit
  cancellation : Error
  deadline : Option Instant
  correlation : Ident

structure BreakerView where
  name : String
  phase : Breaker.Phase
  totals : Breaker.Totals
  counts : Breaker.Counts
  deriving Repr, Inhabited

structure CacheView where
  size : Nat
  /-- For each key whether a fresh entry was there, and the size afterwards. -/
  looked : Option (List (String × Bool) × Nat)
  deriving Repr, Inhabited

structure StoreView where
  size : Nat
  values : List (String × Option Json)
  calls : Testing.Calls
  batches : List (List State.KeyValue)
  deriving Repr, Inhabited

structure BrokerView where
  published : List ShownMessage
  topics : List String
  calls : Testing.Calls
  subscribed : List (String × Bool)
  deriving Repr, Inhabited

structure MediatorView where
  handlers : Nat
  notificationHandlers : Nat
  stages : Nat
  slow : Span
  handles : List (RequestType × Bool)
  notifies : List (EventType × Bool)
  debug : String
  deriving Repr, Inhabited

inductive Reply where
  | null
  | ok (value : Json)
  | error (e : Error)
  /-- A panic that nothing trapped. -/
  | panic (message : String)
  /-- The step was given up at its limit, or a handle was given up; false if there was none. -/
  | dropped (was : Bool)
  | missing (what : String)
  | badStep (name : String)
  | text (s : String)
  | number (n : Nat)
  | ident (id : Ident)
  | wasFinished (b : Bool)
  | context (v : ContextView)
  | counts (c : Breaker.Counts)
  | stats (v : BreakerView)
  /-- The result of a read into a destination, and the destination afterwards. -/
  | into (r : Except Error Bool) (destination : Json)
  | cache (v : CacheView)
  | store (v : StoreView)
  | storeCalls (calls : Testing.Calls)
  | broker (v : BrokerView)
  | mediator (v : MediatorView)
  | pending (events handlers : Nat)
  | logged (warnings : List String) (mentioned : Bool)

inductive Note where
  | value (v : Json)
  | did (name : String) (r : Reply)
  | invoked
  | handle (tag : String) (type : RequestType) (x : Int)
  | notify (tag : String) (type : EventType) (seq : Int) (topic : String) (id : Option Ident) (published : Bool)
      (publishedAt : Option ShownTime)
  | received (topic : String) (id : Ident) (payload : Json)
  | enter (label key : String) (cancelled : Bool)
  | exit (label : String) (error : Option Error)
  | fallback (e : Error)
  | trapped (key message : String)
  | next (key : String)

inductive Report where
  | moved (name : String) (change : Breaker.Transition)
  /-- What the breaker answered when it was asked from inside the callback. -/
  | queried (phase : Breaker.Phase) (requests : Nat)
  deriving Repr, Inhabited

structure Ending where
  name : String
  time : Instant
  reply : Reply

structure Scene where
  time : Instant
  reply : Reply
  reports : List Report
  notes : List Note
  logs : List Log.Record
  /-- In the order of their times, and of their names at one time. -/
  endings : List Ending

end Switchyard.Rehearsal
