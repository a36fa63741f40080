import Switchyard.Rehearsal.Reply
import Switchyard.Dispatch.Chain
import Switchyard.State.Batch
import Switchyard.Outcome
/-!
Computations under way. A task is a stack of frames, innermost first, over what it does at present; each frame
says how to go on when the computation above it ends. All of it is data, so a task can be given up at any wait.
-/
namespace Switchyard.Rehearsal

open Dispatch (Response Shape)

inductive Value where
  | unit
  | flag (b : Bool)
  /-- The end of a script, with a value if it ended with one. -/
  | result (v : Option Json)
  | answer (a : State.Answer)
  | response (r : Response)
  | reply (r : Reply)

abbrev Ended := Outcome Value

structure Raised where
  type : EventType
  seq : Int
  task : Script
  deriving Inhabited

abbrev QueuedEvent := Events.Event Raised

namespace EventOf

def payload (e : Event) : Except String Json :=
  match e.type with
  | .bad => .error "body refuses"
  | _ => .ok (.ofFields [("body", e.body), ("seq", .int e.seq)])

def queued (e : Event) : QueuedEvent :=
  ⟨e.type.shape, e.metadata, e.type.name ++ "#" ++ toString e.seq, e.payload, ⟨e.type, e.seq, e.task⟩⟩

end EventOf

abbrev Tag := String

inductive Last where
  /-- The handler that was registered for a shape. -/
  | handler (shape : Shape) (tag : Tag)
  /-- A script in place of the rest of the chain. -/
  | script (task : Script)
  deriving Inhabited

abbrev Chain := Dispatch.Chain NamedStage Last

/-- Parts of a rehearsal that steps can hold on to. -/
inductive Part where
  | breaker | cache | service | mediator | bus | app
  deriving DecidableEq, Repr, Inhabited

namespace Part

def name : Part → String
  | breaker => "breaker"
  | cache => "cache"
  | service => "service"
  | mediator => "mediator"
  | bus => "bus"
  | app => "app"

end Part

def BreakerId.part : BreakerId → Part
  | bare => .breaker
  | bus => .bus
  | service => .service

/-- What a task waits for. Tickets tell who came first. -/
inductive Wait where
  | time (due : Instant) (ticket : Nat)
  /-- Until the others have had their turn. -/
  | turn
  | forever
  | cancellation (ctx : Context) (ticket : Nat)
  | lock (ticket : Nat)
  | place (ticket : Nat)
  | ending (task : Nat)
  /-- The next sweep of a cache, or its shutdown. -/
  | sweep (due : Instant) (ticket : Nat)
  /-- An item for the batch writer, the end of its window, or the shutdown. -/
  | items (writer : State.Writer)
  deriving Repr

inductive AfterFlush where
  | again
  /-- Takes what is left and stops. -/
  | close
  | stop
  deriving DecidableEq, Repr, Inhabited

inductive Call where
  | await (w : Wait)
  | sleep (span : Span)
  | script (ctx : Context) (task : Script)
  | step (ctx : Option Context) (s : Step)
  /-- The inner computation, unless the context is cancelled first. -/
  | within (ctx : Context) (inner : Call)
  /-- The inner computation as a call through a breaker. -/
  | guarded (on : BreakerId) (inner : Call)
  /-- What a call through a breaker runs: a script, or a panic before it. -/
  | invoked (ctx : Context) (task : Script) (eagerPanic : Option String) (countInvocation : Bool)
  | send (ctx : Context) (request : Request)
  | chain (ctx : Context) (chain : Chain) (request : Request)
  | stage (ctx : Context) (stage : NamedStage) (chain : Chain) (request : Request)
  | notify (ctx : Context) (event : QueuedEvent)
  | handleEvent (ctx : Context) (shape : Shape) (tag : Tag) (event : QueuedEvent)
  | lock
  | locked (ctx : Context)
  | drain (ctx : Context)
  | tryDrain (ctx : Context)
  | drainQueue (d : Events.Bus.Drain)
  /-- A publication by the bus, on its way to the messaging side. -/
  | transmit (m : Events.Message)
  | publish (m : Events.Message)
  | subscribe (topic : String) (task : Script)
  | unsubscribe (topic : String)
  | ask (op : State.Op)
  | cached (op : State.Op)
  | serve (ctx : Context) (op : State.Op)
  | stopCache
  | stopService
  | join (tasks : List Nat)
  | sweeper
  | sweepAt (due : Instant)
  | writer (w : State.Writer)
  | flush (items : List State.KeyValue) (after : AfterFlush)
  | closeWriter
  /-- The last word of a batch writer. -/
  | endWriter (logger : Log.Logger)

inductive Frame where
  | script (ctx : Context) (rest : Script)
  | performed (ctx : Context) (rest : Script) (name : String)
  | limited (due : Instant) (ticket : Nat)
  | within (ctx : Context) (ticket : Nat)
  | admitted (on : BreakerId) (generation : Nat)
  | caught
  | replied
  | replyFound
  | replyTyped (type : ValueType)
  | replyInto (type : ValueType) (initial : Json)
  /-- The reply is why the context was cancelled. -/
  | replyCancellation (ctx : Context)
  /-- The reply, whatever the computation gave. -/
  | replyWith (r : Reply)
  /-- The unit, whatever the computation gave. -/
  | discard
  /-- Whatever the computation gave, the flag is up. -/
  | flagged
  /-- A missing key is as good as a deleted one. -/
  | deleted
  | holding (part : Part)
  | keeping (ctx : Context)
  | sent (ctx : Context) (request : RequestType) (start : Instant)
  | inStage (stage : NamedStage) (ctx : Context) (request : RequestType) (start : Instant)
  | next (ctx : Context) (chain : Chain) (request : Request)
  /-- The result of a chain, while the bus is drained after it. -/
  | drainedAfter (logger : Log.Logger) (request : RequestType) (inner : Except Error Response)
  | handled (request : RequestType) (x : Int)
  /-- The value of a script becomes a response, null if there is none. -/
  | responded
  | notified (key : String)
  | locking (ctx : Context)
  | lockHeld
  | notifying (d : Events.Bus.Drain) (e : QueuedEvent)
  | sending (d : Events.Bus.Drain) (e : QueuedEvent)
  | transmitting (m : Events.Message)
  | asked (op : State.Op)
  | cached (p : State.Pending)
  | placed (item : State.KeyValue) (p : State.Pending) (ticket : Nat)
  | joining (task : Nat) (rest : List Nat)
  | serviceStopped
  | appStopped
  | sweeping (due : Instant)
  | writing (w : State.Writer)
  | flushed (count : Nat) (after : AfterFlush)

/-! ### Contexts held -/

def Wait.contexts : Wait → List Context
  | .cancellation ctx _ => [ctx]
  | _ => []

def Call.contexts : Call → List Context
  | .await w => w.contexts
  | .script ctx _ | .invoked ctx _ _ _ | .send ctx _ | .chain ctx _ _ | .stage ctx _ _ _ | .notify ctx _
  | .handleEvent ctx _ _ _ | .locked ctx | .drain ctx | .tryDrain ctx | .serve ctx _ => [ctx]
  | .step current _ => current.toList
  | .within ctx inner => ctx :: inner.contexts
  | .guarded _ inner => inner.contexts
  | .drainQueue d => [d.ctx]
  | .sleep _ | .lock | .transmit _ | .publish _ | .subscribe _ _ | .unsubscribe _ | .ask _ | .cached _
  | .stopCache | .stopService | .join _ | .sweeper | .sweepAt _ | .writer _ | .flush _ _ | .closeWriter
  | .endWriter _ => []

def Frame.contexts : Frame → List Context
  | .script ctx _ | .performed ctx _ _ | .within ctx _ | .replyCancellation ctx | .keeping ctx | .sent ctx _ _
  | .inStage _ ctx _ _ | .next ctx _ _ | .locking ctx => [ctx]
  | .notifying d _ | .sending d _ => [d.ctx]
  | _ => []

inductive Move where
  /-- The innermost computation has ended. -/
  | give (o : Ended)
  /-- Starts a computation above further frames, innermost first. -/
  | go (frames : List Frame) (c : Call)
  | park (w : Wait)

namespace Move

def value (v : Value) : Move := give (.value v)
def reply (r : Reply) : Move := give (.value (.reply r))
def fail (e : Error) : Move := give (.failure e)
def become (c : Call) : Move := go [] c

def contexts : Move → List Context
  | give _ => []
  | go frames c => frames.flatMap Frame.contexts ++ c.contexts
  | park w => w.contexts

end Move

inductive Role where
  | foreground
  | started (name : String)
  | background
  deriving DecidableEq, Repr, Inhabited

inductive Mode where
  | moving (m : Move)
  | parked (w : Wait)
  | ended (o : Ended)
  /-- Given up, without an outcome. -/
  | gone

structure Task where
  role : Role
  stack : List Frame
  mode : Mode
  /-- To be given up when it next has a turn, or comes to a wait. -/
  doomed : Bool

namespace Task

def fresh (role : Role) (c : Call) : Task := ⟨role, [], .moving (.become c), false⟩

def outcome? (t : Task) : Option Ended :=
  match t.mode with
  | .ended o => some o
  | _ => none

def contexts (t : Task) : List Context :=
  t.stack.flatMap Frame.contexts ++
    match t.mode with
    | .moving m => m.contexts
    | .parked w => w.contexts
    | .ended _ | .gone => []

end Task

end Switchyard.Rehearsal
