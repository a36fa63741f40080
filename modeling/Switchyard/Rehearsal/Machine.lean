import Switchyard.Rehearsal.Steps
import Switchyard.Rehearsal.Dispatching
import Switchyard.Rehearsal.Publishing
/-!
The machine that runs tasks: how each computation starts, how each frame goes on, what is undone when a task is
given up, and who has the next turn. Time passes only when nobody has anything to do.
-/
namespace Switchyard.Rehearsal

def Value.shown : Value → Json
  | .unit => .null
  | .flag b => .bool b
  | .result v => v.getD .null
  | .answer (.flag b) => .bool b
  | .answer (.value v) => v
  | .answer .done => .null
  | .response (.json v) => v
  | .response (.int n) => .int n
  | .response .unit => .null
  | .response (.byte n) => .nat n
  | .response (.word _) => .str "opaque"
  | .reply _ => .null

def shownOption : Option Json → Json
  | none => .str "none"
  | some v => .ofFields [("some", v)]

namespace Reply

def ofResult : Except Error Json → Reply
  | .ok v => ok v
  | .error e => error e

def ofEnded : Ended → Reply
  | .value (.reply r) => r
  | .value v => ok v.shown
  | .failure e => error e
  | .panic m => panic m

end Reply

namespace Machine

open Act

/-! ### Starting -/

def script (ctx : Context) : Script → Act Move
  | [] => return .value (.result none)
  | action :: rest =>
    let goOn : Call := .script ctx rest
    match action with
    | .trace v => do
      note (.value v)
      return .become goOn
    | .sleep span => return .go [.script ctx rest] (.sleep span)
    | .yield => return .go [.script ctx rest] (.await .turn)
    | .cancelCurrent => do
      cancel ctx
      return .become goOn
    | .cancelNamed name => do
      if let some other := (← get).contexts.lookup name then cancel other
      return .become goOn
    | .pending => return .go [.script ctx rest] (.await .forever)
    | .done v => return .value (.result (some v))
    | .fail e => return .fail e
    | .panic m => return .give (.panic m)
    | .perform name s => return .go [.performed ctx rest name] (.step (some ctx) s)

def await (wait : Wait) : Act Move := do
  match wait with
  | .turn | .sweep _ _ | .items _ => return .park wait
  | _ => if ← isOver wait then return .value .unit else return .park wait

def within (ctx : Context) (inner : Call) : Act Move := do
  match ← check ctx with
  | .error e => return .fail e
  | .ok () => return .go [.within ctx (← ticket)] inner

def guarded (on : BreakerId) (inner : Call) : Act Move := do
  match ← acquire on with
  | .error e => return .fail e
  | .ok generation => return .go [.admitted on generation] inner

def invoked (ctx : Context) (task : Script) (eagerPanic : Option String) (countInvocation : Bool) : Act Move := do
  match eagerPanic with
  | some m => return .give (.panic m)
  | none =>
    if countInvocation then note .invoked
    return .become (.script ctx task)

def start : Call → Act Move
  | .await wait => await wait
  | .sleep span => do return .become (.await (.time ((← time) + span) (← ticket)))
  | .script ctx task => script ctx task
  | .step current s => Steps.carryOut current s
  | .within ctx inner => within ctx inner
  | .guarded on inner => guarded on inner
  | .invoked ctx task eagerPanic countInvocation => invoked ctx task eagerPanic countInvocation
  | .send ctx request => Dispatching.send ctx request
  | .chain ctx c request => Dispatching.chain ctx c request
  | .stage ctx s c request => Dispatching.enter ctx s c request
  | .notify ctx event => Dispatching.notify ctx event
  | .handleEvent ctx shape tag event => Dispatching.handleEvent ctx shape tag event
  | .lock => Publishing.lock
  | .locked ctx => Publishing.locked ctx
  | .drain ctx => Publishing.drain ctx
  | .tryDrain ctx => Publishing.tryDrain ctx
  | .drainQueue d => Publishing.drainQueue d
  | .transmit m => Publishing.transmit m
  | .publish m => Publishing.publish m
  | .subscribe topic task => Publishing.subscribe topic task
  | .unsubscribe topic => Publishing.unsubscribe topic
  | .ask op => Storage.ask op
  | .cached op => Storage.cached op
  | .serve ctx op => Storage.serve ctx op
  | .stopCache => Storage.stopCache
  | .stopService => Storage.stopService
  | .join tasks => Storage.join tasks
  | .sweeper => Storage.sweeper
  | .sweepAt due => Storage.sweepAt due
  | .writer w => Storage.writer w
  | .flush items after => Storage.flush items after
  | .closeWriter => Storage.closeWriter
  | .endWriter logger => Storage.endWriter logger

/-! ### Giving up -/

/-- What a frame undoes when the computation above it will have no outcome. -/
def undo : Frame → Act Unit
  | .admitted on generation => abandon on generation
  | .lockHeld => releaseLock
  | .notifying _ e | .sending _ e => Publishing.restore e
  | .writing _ | .flushed _ _ => closeChannel
  | _ => return

/-- Gives up what a task waits for and the frames below, innermost first. -/
def unwind (wait : Option Wait) (frames : List Frame) : Act Unit := do
  if let some wait := wait then giveUp wait
  frames.forM undo

/-! ### Going on -/

/-- A panic passes through; otherwise the frame goes on with the result. -/
def onResult (o : Ended) (f : Except Error Value → Act Move) : Act Move :=
  match o with
  | .value v => f (.ok v)
  | .failure e => f (.error e)
  | .panic m => return .give (.panic m)

/-- A panic or an error passes through. -/
def onValue (o : Ended) (f : Value → Act Move) : Act Move :=
  match o with
  | .value v => f v
  | o => return .give o

def plainly : Except Error Value → Except Error Unit
  | .ok _ => .ok ()
  | .error e => .error e

def resume (f : Frame) (o : Ended) : Act Move :=
  match f with
  | .script ctx rest => onValue o fun _ => return .become (.script ctx rest)
  | .performed ctx rest name => onResult o fun _ => do
    note (.did name (Reply.ofEnded o))
    return .become (.script ctx rest)
  | .limited _ _ => onResult o fun _ => return .reply (Reply.ofEnded o)
  | .within _ _ | .holding _ | .keeping _ => return .give o
  | .admitted on generation => do
    settle on generation o
    return .give o
  | .caught => return .give (match Outcome.caught o with
    | .ok v => .value v
    | .error e => .failure e)
  | .replied => onResult o fun r => return .reply (Reply.ofResult (r.map Value.shown))
  | .replyFound => onResult o fun r =>
    return .reply (Reply.ofResult ((State.Service.found (r.map Value.answered)).map shownOption))
  | .replyTyped type => onResult o fun r =>
    return .reply (Reply.ofResult ((Storage.typed type (r.map Value.answered)).map shownOption))
  | .replyInto type initial => onResult o fun r =>
    return .reply (match Storage.typed type (r.map Value.answered) with
      | .ok (some v) => .into (.ok true) v
      | .ok none => .into (.ok false) initial
      | .error e => .into (.error e) initial)
  | .replyCancellation ctx => onValue o fun _ => do return .reply (.text (← cancellation ctx).message)
  | .replyWith r => onValue o fun _ => return .reply r
  | .discard => onValue o fun _ => return .value .unit
  | .flagged => onValue o fun _ => return .value (.flag true)
  | .deleted => onResult o fun r => return .ofAnswer (State.Service.deleted (r.map Value.answered))
  | .sent ctx type start => onResult o fun r => Dispatching.sent ctx type start (r.map Value.responded)
  | .inStage s ctx type start => Dispatching.leave s ctx type start o
  | .next ctx c request => onValue o fun _ => return .become (.chain ctx c request)
  | .drainedAfter logger type inner => onResult o fun r => do
    let (r, lines) := Events.afterDrain type.shape.key inner (r.map fun _ => true)
    log logger lines
    return .ofResponse r
  | .handled type x => onValue o fun v => return .respond (Dispatching.answer type x v.ended)
  | .responded => onValue o fun v => return .respond (.json (v.ended.getD .null))
  | .notified key => Dispatching.notified key o
  | .locking ctx => onValue o fun _ => return .go [.lockHeld] (.locked ctx)
  | .lockHeld => do
    releaseLock
    return .give o
  | .notifying d e =>
    match o with
    | .panic _ => do
      Publishing.restore e
      return .give o
    | _ => onResult o fun r => Publishing.notified d e (plainly r)
  | .sending d e =>
    match o with
    | .panic _ => do
      Publishing.restore e
      return .give o
    | _ => onResult o fun r => Publishing.sent d e (plainly r)
  | .transmitting m => onValue o fun _ => Publishing.arrive m
  | .asked op => onValue o fun _ => Storage.perform op
  | .cached p => onResult o fun r => Storage.finish p (r.map Value.answered)
  | .placed item p k => onValue o fun _ => Storage.placed item p k
  | .joining task rest => onValue o fun _ => Storage.joined task rest
  | .serviceStopped => onValue o fun _ => Storage.serviceStopped
  | .appStopped => onValue o fun _ => Steps.appStopped
  | .sweeping due => onValue o fun _ => Storage.sweep due
  | .writing w => onValue o fun _ => return .become (.writer w)
  | .flushed count after => Storage.flushed count after o

/-! ### Turns -/

/-- The first frame from the outside that is a cancelled context, with the frames above it and below. -/
def cutShort (w : World) : List Frame → Option (List Frame × Context × List Frame)
  | [] => none
  | f :: rest =>
    match cutShort w rest, f with
    | some (above, ctx, below), _ => some (f :: above, ctx, below)
    | none, .within ctx _ => if ctx.isCancelled w.scopes w.now then some ([], ctx, rest) else none
    | none, _ => none

/-- The first frame from the inside that is a limit whose time is up, with the frames above it. -/
def overdue (w : World) : List Frame → Option (List Frame × List Frame)
  | [] => none
  | f :: rest =>
    match f with
    | .limited due k =>
      if due ≤ w.now then some ([], .limited due k :: rest)
      else (overdue w rest).map fun (above, below) => (f :: above, below)
    | _ => (overdue w rest).map fun (above, below) => (f :: above, below)

def finish (id : Nat) (t : Task) (o : Ended) : Act Unit := do
  setTask id { t with stack := [], mode := .ended o }
  match t.role with
  | .started name => modify fun w => { w with endings := w.endings ++ [⟨name, w.now, Reply.ofEnded o⟩] }
  | _ => pure ()
  wakeParked fun | .ending i => i = id | _ => false

def yieldTurn (id : Nat) : Act Unit := do
  let w ← get
  set { w with current := none, again := false,
               ready := if w.again ∧ !w.ready.contains id then w.ready ++ [id] else w.ready }
  Storage.release

def giveTaskUp (id : Nat) (t : Task) (wait : Option Wait) : Act Unit := do
  unwind wait t.stack
  setTask id { t with stack := [], mode := .gone }
  yieldTurn id

/-- A task has come to a wait. A limit whose time is up ends the step it stands for. -/
def rest (id : Nat) (t : Task) (wait : Wait) : Act Unit := do
  let w ← get
  match overdue w t.stack with
  | some (above, below) =>
    unwind (some wait) above
    setTask id { t with stack := below, mode := .moving (.reply (.dropped true)) }
  | none =>
    if t.doomed then giveTaskUp id t (some wait)
    else
      setTask id { t with mode := .parked wait }
      if let .turn := wait then modify fun w => { w with deferred := w.deferred ++ [id] }
      yieldTurn id

def move (id : Nat) (t : Task) (m : Move) : Act Unit := do
  match m with
  | .give o =>
    match t.stack with
    | [] =>
      finish id t o
      yieldTurn id
    | f :: stack =>
      modifyTask id ({ · with stack })
      let m ← resume f o
      modifyTask id ({ · with mode := .moving m })
  | .go frames c =>
    modifyTask id ({ · with stack := frames ++ t.stack })
    let m ← start c
    modifyTask id ({ · with mode := .moving m })
  | .park wait => rest id t wait

/-- Gives a task its turn. A cancelled context ends what runs within it before anything else happens. -/
def beginTurn (id : Nat) : Act Unit := do
  let w ← get
  match w.task? id with
  | none => return
  | some t =>
    match t.mode with
    | .ended _ | .gone => return
    | .moving _ =>
      set { w with current := some id }
      if t.doomed then giveTaskUp id t none
    | .parked wait =>
      set { w with current := some id }
      if t.doomed then giveTaskUp id t (some wait)
      else
        match cutShort w t.stack with
        | some (above, ctx, below) =>
          unwind (some wait) above
          setTask id { t with stack := below, mode := .moving (.fail (← cancellation ctx)) }
        | none =>
          if ← isOver wait then setTask id { t with mode := .moving (.value .unit) }
          else rest id t wait

def takeUp (id : Nat) : Act Unit :=
  modify fun w => { w with ready := w.ready.filter (· ≠ id), rested := false }

/-- The task that is next in the queue. The foreground goes first once the others have come to rest, and waits
otherwise. -/
def nextUp (w : World) : Option Nat :=
  if w.rested ∧ w.ready.contains World.foreground then some World.foreground
  else w.ready.find? (· ≠ World.foreground)

/-- Chooses who has the next turn. Those who let the others go first come after all others. -/
def choose : Act (Option Nat) := do
  if (nextUp (← get)).isNone then
    let deferred := (← get).deferred
    modify fun w => { w with deferred := [], rested := true }
    wakeAll deferred
  let chosen := nextUp (← get)
  chosen.forM takeUp
  return chosen

/-- Times for which a task waits, with their tickets. -/
def timers (t : Task) : List (Instant × Nat) :=
  let here : List (Instant × Nat) :=
    match t.mode with
    | .parked (.time due k) | .parked (.sweep due k) => [(due, k)]
    | .parked (.items (.window _ due k)) => [(due, k)]
    | .parked (.cancellation ctx k) => ctx.deadline.toList.map (·, k)
    | _ => []
  match t.mode with
  | .parked _ => here ++ t.stack.flatMap fun
    | .limited due k => [(due, k)]
    | .within ctx k => ctx.deadline.toList.map (·, k)
    | _ => []
  | _ => []

/-- Lets time pass to the next due time; those who wait for it learn of it. -/
def passTime : Act Bool := do
  let w ← get
  match (w.tasks.flatMap fun t => (timers t).map (·.1)).min? with
  | none => return false
  | some due =>
    let now := max w.now due
    set { w with now }
    wakeAll (inOrder w fun t => (timers t).filterMap fun (d, k) => if d ≤ now then some k else none)
    return true

def isDone (w : World) : Bool := (w.outcome? World.foreground).isSome

/-- One step of the machine; false when there is nothing left to do. -/
def advance : Act Bool := do
  modify World.prune
  let w ← get
  match w.current with
  | some id =>
    match w.task? id with
    | some t =>
      match t.mode with
      | .moving m => move id t m
      | _ => yieldTurn id
      return true
    | none => return false
  | none =>
    match ← choose with
    | some id =>
      beginTurn id
      return true
    | none => if isDone w then return false else passTime

/-- Runs until the foreground has ended and all others have come to rest. -/
def run : Nat → Act Unit
  | 0 => return
  | fuel + 1 => do if ← advance then run fuel

end Machine
end Switchyard.Rehearsal
