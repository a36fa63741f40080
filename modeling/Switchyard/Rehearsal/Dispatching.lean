import Switchyard.Rehearsal.Act
/-!
Requests on their way through the stages to a handler, and notifications on their way to theirs.
-/
namespace Switchyard.Rehearsal

open Dispatch (Response Shape)

namespace RequestOf

variable {τ : Type}

def shape (r : RequestOf τ) : Shape := r.type.shape
def key (r : RequestOf τ) : String := r.type.shape.key

end RequestOf

def Value.ended : Value → Option Json
  | .result v => v
  | _ => none

def Value.responded : Value → Response
  | .response r => r
  | _ => .unit

namespace Move

def respond (r : Response) : Move := value (.response r)

def ofResponse : Except Error Response → Move
  | .ok r => respond r
  | .error e => fail e

end Move

namespace Dispatching

open Act

def fits (n : Int) : Bool := -9223372036854775808 ≤ n && n ≤ 9223372036854775807

/-- What a handler answers with when its script has ended: the script's value, or else `x`. -/
def answer (type : RequestType) (x : Int) (v : Option Json) : Response :=
  match type with
  | .a | .c => .json (v.getD (.int x))
  | .b =>
    match v with
    | none => .int x
    | some (.num (.int n)) => .int (if fits n then n else 0)
    | some _ => .int 0
  | .d => .unit
  | .e => .byte 7

/-- What comes last in a chain receives a request, or fails with the error for one of another type. -/
def takes : Last → Request → Except Error Unit
  | .handler shape _, request =>
    Dispatch.Mediator.receives (Dispatch.Mediator.requestMismatch request.key) shape request.shape
  | .script _, _ => .ok ()

def handle (ctx : Context) (request : Request) : Last → Act Move
  | .handler _ tag => do
    note (.handle tag request.type request.x)
    return .go [.handled request.type request.x] (.script ctx request.task)
  | .script task => do
    note (.next request.key)
    return .go [.responded] (.script ctx task)

/-- The rest of a chain, unless the context is cancelled. -/
def chain (ctx : Context) (c : Chain) (request : Request) : Act Move := do
  match c.proceed takes (← check ctx) request with
  | .error e => return .fail e
  | .ok (.stage s rest) => return .become (.stage ctx s rest request)
  | .ok (.last last) => handle ctx request last

def GuardRule.denies (g : GuardRule) (request : Request) (cancelled : Bool) : Bool :=
  g.denyAll || g.denyTypes.contains request.type.letter || g.minX.any (request.x < ·) ||
  (g.denyCancelled && cancelled)

/-- A stage up to the point where it runs the rest of the chain. -/
def enter (ctx : Context) (s : NamedStage) (c : Chain) (request : Request) : Act Move := do
  let now ← time
  let key := request.key
  let next : Call := .chain ctx c request
  let around : Move := .go [.inStage s ctx request.type now] next
  match s.stage with
  | .validation =>
    match request.errors with
    | some errors =>
      log s.logger [Dispatch.Validation.failed key errors]
      return .fail (.badRequest (Dispatch.Validation.joined errors))
    | none => return .become next
  | .logging =>
    log s.logger [Dispatch.Logging.handling key ctx.correlation]
    return around
  | .guard rule =>
    if GuardRule.denies rule request (← isCancelled ctx) then return .fail (Dispatch.Guard.refusal rule.name key)
    else return .become next
  | .trace label =>
    note (.enter label key (← isCancelled ctx))
    return around
  | .cancel =>
    cancel ctx
    return .become next
  | .fail e => return .fail e
  | .answer v => return .respond (.json v)
  | .panic m => return .give (.panic m)
  | .sleep span => return .go [.next ctx c request] (.sleep span)
  | .swap other => return .become (.chain ctx c other)
  | .timeout span =>
    let child ← derive fun scopes => ctx.withTimeout scopes now span
    return .become (.chain child c request)
  | .cancelledChild =>
    let child ← derive ctx.child
    cancel child
    return .become (.chain child c request)
  | .race => return .become (.within ctx next)
  | .catchPanic => return .go [.caught] next
  | .passThrough _ => return .become next
  | .performance _ | .recovery _ | .publishEvents | .cancelAfter | .replace _ | .fallback _ | .mapError _
  | .wrongType | .panicAfter _ => return around

/-- The stage that drains the bus, after the rest of the chain. -/
def publishAfter (s : NamedStage) (ctx : Context) (type : RequestType) (inner : Except Error Response) :
    Act Move := do
  if (← get).busLives then
    return .go [.holding .bus, .drainedAfter s.logger type inner] (.tryDrain ctx)
  else
    log s.logger [Events.busDropped]
    return .ofResponse inner

/-- A stage from the point where the rest of the chain has ended. -/
def leave (s : NamedStage) (ctx : Context) (type : RequestType) (start : Instant) (o : Ended) : Act Move := do
  let key := type.shape.key
  match o with
  | .panic m =>
    match s.stage with
    | .recovery traced =>
      log s.logger [Dispatch.Recovery.recovered key m]
      if traced then note (.trapped key m)
      return .fail (Outcome.panicError m)
    | _ => return .give o
  | .value _ | .failure _ =>
    match s.stage with
    | .logging =>
      log s.logger [Dispatch.Logging.handled key o.error?]
      return .give o
    | .performance threshold =>
      log s.logger [Dispatch.Performance.report key ((← time) - start) threshold]
      return .give o
    | .publishEvents =>
      publishAfter s ctx type (match o with
        | .value v => .ok v.responded
        | .failure e => .error e
        | .panic m => .error (Outcome.panicError m))
    | .trace label =>
      note (.exit label o.error?)
      return .give o
    | .cancelAfter =>
      cancel ctx
      return .give o
    | .replace v => return if o.error?.isSome then .give o else .respond (.json v)
    | .fallback v =>
      match o.error? with
      | some e =>
        note (.fallback e)
        return .respond (.json v)
      | none => return .give o
    | .mapError e => return if o.error?.isSome then .fail e else .give o
    | .wrongType => return if o.error?.isSome then .give o else .respond (.word 0)
    | .panicAfter m => return .give (.panic m)
    | _ => return .give o

/-! ### Requests -/

def send (ctx : Context) (request : Request) : Act Move := do
  let w ← get
  match w.mediator with
  | none => return .fail (.handlerNotFound request.key)
  | some m =>
    match m.handlers.lookup request.key with
    | .error e => return .fail e
    | .ok (shape, tag) =>
      return .go [.sent ctx request.type w.now] (.chain ctx ⟨m.stages, .handler shape tag⟩ request)

def sent (ctx : Context) (type : RequestType) (start : Instant) (r : Except Error Response) : Act Move := do
  let w ← get
  let key := type.shape.key
  if let some m := w.mediator then log m.config.logger (Dispatch.Mediator.slow m.config key (w.now - start))
  let cancelled : Option Error ← match ← check ctx with
    | .error e => pure (some e)
    | .ok () => pure none
  return .ofResponse (Dispatch.Mediator.conclude key type.response cancelled r)

/-! ### Notifications -/

def notify (ctx : Context) (event : QueuedEvent) : Act Move := do
  match (← get).mediator with
  | none => return .fail (.handlerNotFound event.shape.key)
  | some m =>
    match Dispatch.Mediator.addressee m.notificationHandlers event.shape.key (← check ctx) with
    | .error e => return .fail e
    | .ok (shape, tag) => return .go [.caught, .notified event.shape.key] (.handleEvent ctx shape tag event)

def handleEvent (ctx : Context) (shape : Shape) (tag : Tag) (event : QueuedEvent) : Act Move := do
  match Dispatch.Mediator.receives (Dispatch.Mediator.notificationMismatch shape.key) shape event.shape with
  | .error e => return .fail e
  | .ok () =>
    let data := event.metadata
    note (.notify tag event.body.type event.body.seq data.topic data.id data.published
      (← showDrain data.publishedAt))
    return .go [.discard] (.script ctx event.body.task)

def notified (key : String) (o : Ended) : Act Move := do
  if let some e := o.error? then
    if let some m := (← get).mediator then log m.config.logger [Dispatch.Mediator.notificationFailed key e]
  return .give o

end Dispatching
end Switchyard.Rehearsal
