import Switchyard.Rehearsal.Storage
import Switchyard.App
/-!
The steps of a rehearsal: each is answered at once, or starts computations whose outcome becomes the reply.
-/
namespace Switchyard.Rehearsal.Steps

open Act

def needing (p : Part) (f : Act Move) : Act Move := do
  if (← get).has p then f else return .reply (.missing p.name)

def through (p : Part) (c : Call) : Act Move := needing p (return .go [.replied, .holding p] c)

def replyNull (f : World → World) : Act Move := do
  modify f
  return .reply .null

def withBreaker (on : BreakerId) (f : Act Reply) : Act Move := do
  if (← get).has (on.part) then return .reply (← f) else return .reply (.missing Part.breaker.name)

def breakerDebug (on : BreakerId) : Act String :=
  return ((← get).circuit? on).elim "" fun c => Breaker.debug c.breaker

/-! ### Contexts -/

def makeContext (current : Option Context) (name : String) (base : Option ContextRef) (how : Derivation)
    (correlation : Option Ident) : Act Move := do
  let base ← match base with
    | some ref => resolve current ref
    | none => background
  let now ← time
  let ctx ← match how with
    | .child => derive base.child
    | .clone => pure base
    | .timeout span => derive fun s => base.withTimeout s now span
    | .deadline time => derive fun s => base.withDeadline s time
  let ctx := match correlation with
    | some id => ctx.withCorrelation id
    | none => ctx
  replyNull fun w => { w with contexts := (name, ctx) :: w.contexts.filter (·.1 ≠ name) }

def contextView (ctx : Context) : Act ContextView := do
  return ⟨← isCancelled ctx, ← check ctx, ← cancellation ctx, ctx.deadline, ctx.correlation⟩

/-! ### The cache -/

/-- Looks keys up one after another; expired entries are dropped on the way. -/
def lookUp (memory : State.Memory) (now : Instant) : List String → State.Memory × List (String × Bool)
  | [] => (memory, [])
  | key :: rest =>
    let (memory, found) := memory.look key now
    let (memory, others) := lookUp memory now rest
    (memory, (key, found.isSome) :: others)

def withCache (f : Cache → Act Reply) : Act Move := do
  match (← get).cache, (← get).has .cache with
  | some c, true => return .reply (← f c)
  | _, _ => return .reply (.missing Part.cache.name)

def cacheView (c : Cache) (keys : Option (List String)) : Act Reply := do
  match keys with
  | none => return .cache ⟨c.memory.size, none⟩
  | some keys =>
    let (memory, found) := lookUp c.memory (← time) keys
    Storage.setMemory memory
    return .cache ⟨c.memory.size, some (found, memory.size)⟩

def cacheText (c : Cache) : String := State.cacheDebug c.memory.size c.config.batch

/-! ### The service -/

def serviceText : Act String := do
  let w ← get
  let cache := if w.service.any (·.cached) then w.cache.map cacheText else none
  return State.serviceDebug cache (← breakerDebug .service)

def set (ctx : Context) (key : String) : Writable → Act Move
  | .json v => through .service (.serve ctx (.set key v))
  | .refused reason => needing .service (return .reply (.error (.serialization reason)))

/-! ### The mediator -/

def withMediator (f : Mediation → Act Reply) : Act Move := do
  match (← get).mediator with
  | some m => return .reply (← f m)
  | none => return .reply (.missing Part.mediator.name)

def setMediator (m : Mediation) : Act Unit := modify fun w => { w with mediator := some m }

def register (type : RequestType) (tag : Tag) (m : Mediation) : Act Reply := do
  match m.handlers.register type.shape tag with
  | .error e => return .error e
  | .ok handlers =>
    log m.config.logger [Dispatch.Mediator.registeredHandler type.shape.key]
    setMediator { m with handlers }
    return .ok .null

def registerNotification (type : EventType) (tag : Tag) (m : Mediation) : Act Reply := do
  match m.notificationHandlers.register type.shape tag with
  | .error e => return .error e
  | .ok notificationHandlers =>
    log m.config.logger [Dispatch.Mediator.registeredNotification type.shape.key]
    setMediator { m with notificationHandlers }
    return .ok .null

/-- The name under which a stage goes that has none of its own. -/
def unnamed : String := "driver::Unnamed"

/-- Without a bus there is nothing to publish, and a stage that publishes lets everything pass. -/
def settled (stage : NamedStage) : Act NamedStage := do
  match stage.stage with
  | .publishEvents =>
    return if (← get).has .bus then stage else { stage with name := unnamed, stage := .passThrough unnamed }
  | _ => return stage

def addStage (stage : NamedStage) (m : Mediation) : Act Nat := do
  log m.config.logger [Dispatch.Mediator.registeredStage stage.name]
  setMediator { m with stages := m.stages ++ [stage] }
  return m.stages.length + 1

def mediatorText (m : Mediation) : String :=
  Dispatch.Mediator.debug m.handlers.size m.notificationHandlers.size (m.stages.map (·.name))

def mediatorView (m : Mediation) : MediatorView where
  handlers := m.handlers.size
  notificationHandlers := m.notificationHandlers.size
  stages := m.stages.length
  slow := m.config.slow
  handles := RequestType.all.map fun t => (t, (m.handlers.find? t.shape.key).isSome)
  notifies := EventType.all.map fun t => (t, (m.notificationHandlers.find? t.shape.key).isSome)
  debug := mediatorText m

/-! ### The bus -/

def withBus (f : Events.Bus Raised → Act Reply) : Act Move := do
  match (← get).bus, (← get).has .bus with
  | some b, true => return .reply (← f b)
  | _, _ => return .reply (.missing Part.bus.name)

/-- Stamps an event where it has no stamp yet, and appends it. -/
def add (event : Event) (bus : Events.Bus Raised) : Act Reply := do
  let e := event.queued
  let id ← match e.metadata.id with
    | some id => pure id
    | none => draw
  let now ← match e.metadata.createdAt with
    | some t => pure t
    | none => reading
  let e := e.stamp id now
  log bus.logger [Events.Bus.queued e]
  modify fun w => { w with bus := some (bus.add e) }
  return .ident e.id

def busText (bus : Events.Bus Raised) : Act String := return bus.debug (← breakerDebug .bus)

def outward (ctx : Context) (c : Call) : Act Move := do
  match (← get).bus, (← get).has .bus with
  | some b, true =>
    if b.messaging then return .go [.replied, .holding .bus] (.guarded .bus (.within ctx c))
    else return .reply (.error Events.Bus.noAdapter)
  | _, _ => return .reply (.missing Part.bus.name)

/-! ### The doubles -/

def storeView (keys : List String) : Act Reply := do
  let s := (← get).store
  return .store ⟨s.size, keys.map fun k => (k, s.value? k), s.calls, s.batches⟩

def brokerView (topics : List String) : Act Reply := do
  let b := (← get).broker
  let published ← b.published.mapM showMessage
  return .broker ⟨published, b.topics, b.calls, topics.map fun t => (t, b.isSubscribed t)⟩

def storeCalls (clear : Bool) : Act Move := do
  let calls := (← get).store.calls
  if clear then modify fun w => { w with store := { w.store with calls := [] } }
  return .reply (.storeCalls calls)

/-! ### The application -/

def appText : Act String := do
  let w ← get
  return App.debug (w.mediator.elim "" mediatorText) (w.bus.elim 0 (·.pending)) (← serviceText)

def appStopped : Act Move := do
  let w ← get
  if let some logger := w.app then log logger (App.stopped (w.bus.elim 0 (·.pending)))
  return .reply .null

/-! ### Tasks -/

def start (current : Option Context) (name : String) (s : Step) : Act Move := do
  let id ← spawn (.started name) (.step current s)
  replyNull fun w => { w with started := (name, id) :: w.started.filter (·.1 ≠ name) }

/-- Gives a started task up when it next has a turn, or comes to a wait. -/
def abort (name : String) : Act Move := do
  let w ← get
  match w.started.lookup name with
  | none => return .reply (.missing "task")
  | some id =>
    modify fun w => { w with started := w.started.filter (·.1 ≠ name) }
    if (w.outcome? id).isSome then return .reply (.wasFinished true)
    else
      modifyTask id fun t => { t with doomed := true }
      wake id
      return .reply (.wasFinished false)

/-- Carries a step out. `current` is the context of the task it stands in. -/
def carryOut (current : Option Context) : Step → Act Move
  | .bad name => return .reply (.badStep name)
  | .limited span s => do
    let now ← time
    return .go [.limited (now + span) (← ticket)] (.step current s)
  | .advance span => return .go [.replyWith .null] (.sleep span)
  | .start name s => start current name s
  | .abort name => abort name
  | .context name base how correlation => makeContext current name base how correlation
  | .cancel ref => do
    cancel (← resolve current ref)
    return .reply .null
  | .contextInfo ref => do return .reply (.context (← contextView (← resolve current ref)))
  | .contextRun ref task => do
    let ctx ← resolve current ref
    return .go [.replied] (.within ctx (.script ctx task))
  | .contextCancelled ref => do
    let ctx ← resolve current ref
    return .go [.replyCancellation ctx] (.await (.cancellation ctx (← ticket)))
  | .call on ref task eagerPanic countInvocation => do
    if (← get).has on.part then
      let ctx ← resolve current ref
      return .go [.replied] (.guarded on (.invoked ctx task eagerPanic countInvocation))
    else return .reply (.missing Part.breaker.name)
  | .state on => withBreaker on do return .text (← phaseOf on).text
  | .counts on => withBreaker on do return .counts (← countsOf on)
  | .stats on => withBreaker on do return .stats (← statsOf on)
  | .reset on => withBreaker on do
    operate on Breaker.reset
    return .null
  | .forceOpen on => withBreaker on do
    operate on Breaker.forceOpen
    return .null
  | .breakerDebug on => withBreaker on do return .text (← breakerDebug on)
  | .breakerName on => withBreaker on do
    return .text (((← get).circuit? on).elim "" (·.breaker.config.name))
  | .store .adapter _ op => return .go [.replied] (.ask op)
  | .store .cache _ op => through .cache (.cached op)
  | .store .service ref op => do through .service (.serve (← resolve current ref) op)
  | .getTyped ref key type => needing .service do
    return .go [.replyTyped type, .holding .service] (.serve (← resolve current ref) (.get key))
  | .getInto ref key type initial => needing .service do
    match Storage.read type initial with
    | .error _ => return .reply (.badStep "into")
    | .ok initial =>
      return .go [.replyInto type initial, .holding .service] (.serve (← resolve current ref) (.get key))
  | .getRaw ref key => needing .service do
    return .go [.replyFound, .holding .service] (.serve (← resolve current ref) (.get key))
  | .set ref key value => do set (← resolve current ref) key value
  | .serviceShutdown => needing .service (return .go [.replyWith .null, .holding .service] .stopService)
  | .serviceDebug => needing .service do return .reply (.text (← serviceText))
  | .cacheInfo keys => withCache fun c => cacheView c keys
  | .purge => withCache fun c => do
    let (memory, removed) := c.memory.purge (← time)
    Storage.setMemory memory
    return .number removed
  | .cacheConfig => withCache fun c => return .text c.config.debug
  | .cacheDebug => withCache fun c => return .text (cacheText c)
  | .cacheShutdown => needing .cache (return .go [.replyWith .null, .holding .cache] .stopCache)
  | .cacheDrop => do
    let had := (← get).has .cache
    modify fun w => { w with handles := w.handles.filter fun p => p ≠ .cache ∧ p ≠ .service }
    return .reply (.dropped had)
  | .storeFailure failure => replyNull fun w => { w with store := { w.store with failure } }
  | .latency span => replyNull fun w => { w with store := { w.store with latency := some span } }
  | .seed key value => replyNull fun w => { w with store := w.store.seed key value }
  | .panicKeys panicKeys => replyNull fun w => { w with store := { w.store with panicKeys } }
  | .adapterInfo keys => do return .reply (← storeView keys)
  | .adapterCalls clear => storeCalls clear
  | .adapterDebug => do
    let w ← get
    return .reply (.text (w.store.debug ++ " " ++ w.broker.debug))
  | .brokerFailure failure => replyNull fun w => { w with broker := { w.broker with failure } }
  | .brokerLatency span => replyNull fun w => { w with broker := { w.broker with latency := some span } }
  | .panicTopics panicTopics => replyNull fun w => { w with broker := { w.broker with panicTopics } }
  | .brokerInfo topics => do return .reply (← brokerView topics)
  | .brokerPublish _ m => return .go [.replied] (.publish m)
  | .subscribe true _ topic task => return .go [.replied] (.subscribe topic task)
  | .subscribe false ref topic task => do outward (← resolve current ref) (.subscribe topic task)
  | .unsubscribe true _ topic => return .go [.replied] (.unsubscribe topic)
  | .unsubscribe false ref topic => do outward (← resolve current ref) (.unsubscribe topic)
  | .register type tag => withMediator (register type tag)
  | .registerNotification type tag => withMediator (registerNotification type tag)
  | .middleware stage => withMediator fun m => do return .number (← addStage (← settled stage) m)
  | .mediatorInfo => withMediator fun m => return .mediator (mediatorView m)
  | .send ref request => do through .mediator (.send (← resolve current ref) request)
  | .appSend ref request => do through .app (.send (← resolve current ref) request)
  | .notify ref event => do through .mediator (.notify (← resolve current ref) (event.queued))
  | .runStage ref stage request task => do
    let ctx ← resolve current ref
    return .go [.replied, .keeping ctx] (.stage ctx (← settled stage) ⟨[], .script task⟩ request)
  | .add event => withBus (add event)
  | .drain ref => do through .bus (.drain (← resolve current ref))
  | .tryDrain ref => do through .bus (.tryDrain (← resolve current ref))
  | .pending => withBus fun b => do
    return .pending b.pending ((← get).mediator.elim 0 (·.notificationHandlers.size))
  | .busDebug => withBus fun b => do return .text (← busText b)
  | .busDrop => do
    let had := (← get).has .bus
    modify fun w => { w with handles := w.handles.filter fun p => p ≠ .bus ∧ p ≠ .app }
    return .reply (.dropped had)
  | .appShutdown => needing .app (return .go [.appStopped, .holding .app] .stopService)
  | .appDebug => needing .app do return .reply (.text (← appText))
  | .appLogger => needing .app do
    return .reply (((← get).app.bind (·.target)).elim .null .text)
  | .logQuery needle => do
    let records := (← get).written
    return .reply (.logged (Log.messagesAt .warn records) (Log.mentions needle records))
  | .setLevel level => replyNull fun w => { w with filter := w.filter.setLevel level }

end Switchyard.Rehearsal.Steps
