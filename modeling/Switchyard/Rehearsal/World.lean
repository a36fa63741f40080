import Switchyard.Rehearsal.Frame
import Switchyard.Breaker
/-!
The state of a rehearsal: the components, the contexts, the tasks with their place in the queue, and what has
been told since the last step.
-/
namespace Switchyard.Rehearsal

inductive Callback where
  | none
  | record
  /-- Records the change and asks the breaker for its state and its counts. -/
  | query
  deriving DecidableEq, Repr, Inhabited

structure Circuit where
  breaker : Breaker
  callback : Callback

structure Cache where
  config : State.CacheConfig
  memory : State.Memory
  channel : State.Channel
  stopping : Bool
  orphaned : Bool
  tasks : List Nat

structure Service where
  cached : Bool
  logger : Log.Logger

structure Mediation where
  config : Dispatch.Config
  handlers : Dispatch.Registry Tag
  notificationHandlers : Dispatch.Registry Tag
  stages : List NamedStage

structure World where
  now : Instant
  tickets : Nat
  drawn : Nat
  readings : Nat
  /-- Drain starts in the order in which they were first shown. -/
  shown : List Nat
  filter : Log.Filter
  written : List Log.Record
  scopes : Scopes
  contexts : List (String × Context)
  circuits : List (BreakerId × Circuit)
  store : Testing.Store
  broker : Testing.Broker Script
  cache : Option Cache
  service : Option Service
  mediator : Option Mediation
  bus : Option (Events.Bus Raised)
  app : Option Log.Logger
  handles : List Part
  /-- By number; the first is the foreground. -/
  tasks : List Task
  started : List (String × Nat)
  /-- Tasks that have something to do, in the order in which they learnt of it. -/
  ready : List Nat
  /-- Tasks that let the others go first. -/
  deferred : List Nat
  current : Option Nat
  /-- The task that has its turn has something more to do afterwards. -/
  again : Bool
  /-- The others have come to rest since the foreground had its last turn. -/
  rested : Bool
  reports : List Report
  notes : List Note
  logs : List Log.Record
  endings : List Ending

namespace World

def foreground : Nat := 0

def empty (filter : Log.Filter) : World where
  now := 0
  tickets := 0
  drawn := 0
  readings := 0
  shown := []
  filter := filter
  written := []
  scopes := .empty
  contexts := []
  circuits := []
  store := .empty
  broker := .empty
  cache := none
  service := none
  mediator := none
  bus := none
  app := none
  handles := []
  tasks := [⟨.foreground, [], .ended (.value .unit), false⟩]
  started := []
  ready := []
  deferred := []
  current := none
  again := false
  rested := true
  reports := []
  notes := []
  logs := []
  endings := []

def has (w : World) (p : Part) : Bool := w.handles.contains p

def circuit? (w : World) (id : BreakerId) : Option Circuit := w.circuits.lookup id

def task? (w : World) (id : Nat) : Option Task := w.tasks[id]?

def outcome? (w : World) (id : Nat) : Option Ended := (w.task? id).bind (·.outcome?)

def isHolding (p : Part) : Frame → Bool
  | .holding q => q = p
  | _ => false

/-- A step or a computation under way can still reach the part. -/
def reaches (w : World) (p : Part) : Bool :=
  w.has p || w.tasks.any fun t => t.stack.any (isHolding p)

/-- Scopes of the contexts that have a name or that a task holds. -/
def held (w : World) : List Nat :=
  (w.contexts.map (·.2) ++ w.tasks.flatMap Task.contexts).filterMap (·.lineage.head?)

/-- Takes the scopes that nobody holds any more out of the tree, those derived last first. -/
def prune (w : World) : World :=
  let held := w.held
  let free := (w.scopes.tree.map (·.number)).filter (!held.contains ·)
  { w with scopes := free.reverse.foldl Scopes.release w.scopes }

/-- Whether the bus has not gone. The application keeps its bus. -/
def busLives (w : World) : Bool := w.reaches .bus || w.reaches .app

/-- Whether the cache has not gone. A service keeps its cache, and the application its service. -/
def cacheLives (w : World) : Bool := w.reaches .cache || w.reaches .service || w.reaches .app

end World

end Switchyard.Rehearsal
