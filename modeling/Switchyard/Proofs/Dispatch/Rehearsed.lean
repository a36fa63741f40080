import Switchyard.Proofs.Dispatch.Screening
import Switchyard.Rehearsal.Setup
/-!
A rehearsal does with its mediator what the open exchange may do: where a handler or a stage is added, where a request
is sent, where a chain is called and where its answer comes back, and where a notification is published. No stage calls
the rest of its chain twice, and the one that is put first traps panics.
-/
namespace Switchyard.Dispatch.Exchange

open Rehearsal

variable {ν : Type} {T : Terms NamedStage Tag Tag Request QueuedEvent ν} {w : World} {m : Mediation} {ctx : Context}
  {request : Request} {sends : List (Sending NamedStage Tag Request)}
  {publications : List (Publication Tag QueuedEvent)}

structure Spoken (T : Terms NamedStage Tag Tag Request QueuedEvent ν) : Prop where
  request : ∀ r, T.request r = r.shape
  response : ∀ r, T.response r = r.type.response
  notification : ∀ x, T.notification x = x.shape

def ofMediation (m : Mediation) (sends : List (Sending NamedStage Tag Request))
    (publications : List (Publication Tag QueuedEvent)) : Exchange NamedStage Tag Tag Request QueuedEvent :=
  ⟨m.stages, m.handlers, m.notificationHandlers, sends, publications⟩

def rehearsed (c : Chain (NamedStage × Nat) (Shape × Tag)) : Rehearsal.Chain :=
  ⟨c.stages.map Prod.fst, .handler c.last.1 c.last.2⟩

theorem check_run : (Act.check ctx).run w = pure (ctx.check w.scopes w.now, w) := rfl

/-! ### A call of a chain -/

/-- What the machine does next, where a request stands. -/
inductive Shows : Passage (NamedStage × Nat) (Shape × Tag) Request Response → Move → Prop where
  | entered (v : Visit (NamedStage × Nat) Request) (rest : Chain (NamedStage × Nat) (Shape × Tag))
      (below : List (Waiting (NamedStage × Nat) Request)) :
      Shows (.entered v rest below) (.become (.stage v.ctx v.stage.1 (rehearsed rest) v.request))
  | handling (h : Shape × Tag) (ctx : Context) (request : Request)
      (below : List (Waiting (NamedStage × Nat) Request)) :
      Shows (.handling h ctx request below) (.go [.handled request.type request.x] (.script ctx request.task))
  | refused (e : Error) : Shows (.ended (.failure e)) (.fail e)
  | told (v : Waiting (NamedStage × Nat) Request) (e : Error) (below : List (Waiting (NamedStage × Nat) Request)) :
      Shows (.resumed v (some (.failure e)) below) (.fail e)

theorem spokenTakes (spoken : Spoken T) (h : Shape × Tag) :
    Dispatching.takes (.handler h.1 h.2) request = T.takes h request := by
  simp only [Dispatching.takes, Terms.takes, Terms.key, spoken.request]
  rfl

theorem chain_run (c : Rehearsal.Chain) : Machine.start (.chain ctx c request) w =
    match c.proceed Dispatching.takes (ctx.check w.scopes w.now) request with
    | .error e => (.fail e, w)
    | .ok (.stage s rest) => (.become (.stage ctx s rest request), w)
    | .ok (.last last) => Dispatching.handle ctx request last w := by
  show (match c.proceed Dispatching.takes (ctx.check w.scopes w.now) request with
    | .error e => (pure (Move.fail e) : Act Move)
    | .ok (.stage s rest) => pure (.become (.stage ctx s rest request))
    | .ok (.last last) => Dispatching.handle ctx request last) w = _
  generalize c.proceed Dispatching.takes (ctx.check w.scopes w.now) request = placed
  rcases placed with e | (⟨s, rest⟩ | last) <;> rfl

theorem chainShows (spoken : Spoken T) (c : Chain (NamedStage × Nat) (Shape × Tag))
    (below : List (Waiting (NamedStage × Nat) Request)) :
    Shows (Passage.arrive T.takes c (ctx.check w.scopes w.now) ctx request below :
        List (Passage.Mark (NamedStage × Nat) (Shape × Tag) Request Response ν) × _).2
      (Machine.start (.chain ctx (rehearsed c) request) w).1 := by
  obtain ⟨stages, h⟩ := c
  have refused (e : Error) : Shows (Passage.answer (.failure e) below :
      List (Passage.Mark (NamedStage × Nat) (Shape × Tag) Request Response ν) × _).2 (.fail e) := by
    cases below with
    | nil => exact .refused e
    | cons v below => exact .told v e below
  rw [chain_run]
  cases ctx.check w.scopes w.now with
  | error e => exact refused e
  | ok =>
    cases stages with
    | cons s rest => exact .entered ⟨s, ctx, request⟩ ⟨rest, h⟩ below
    | nil =>
      simp only [rehearsed, Passage.arrive, Chain.proceed, List.map_nil, spokenTakes spoken]
      cases T.takes h request with
      | error e => exact refused e
      | ok => exact .handling h ctx request below

/-! ### Stages -/

/-- Up to the point where it waits or ends, a stage calls the rest of its chain at most once. -/
inductive Enters (ctx : Context) (s : NamedStage) (c : Rehearsal.Chain) (request : Request) : Move → Prop where
  | ends (o : Ended) : Enters ctx s c request (.give o)
  | calls (passedCtx : Context) (passed : Request) : Enters ctx s c request (.become (.chain passedCtx c passed))
  | around (start : Instant) :
      Enters ctx s c request (.go [.inStage s ctx request.type start] (.chain ctx c request))
  | catching : Enters ctx s c request (.go [.caught] (.chain ctx c request))
  | racing : Enters ctx s c request (.become (.within ctx (.chain ctx c request)))
  | waiting (span : Span) : Enters ctx s c request (.go [.next ctx c request] (.sleep span))

/-- Once the rest of its chain has ended, a stage does not call it. -/
inductive Leaves : Move → Prop where
  | ends (o : Ended) : Leaves (.give o)
  | drains (logger : Log.Logger) (type : RequestType) (inner : Except Error Response) (ctx : Context) :
      Leaves (.go [.holding .bus, .drainedAfter logger type inner] (.tryDrain ctx))

theorem stageEnters (s : NamedStage) (c : Rehearsal.Chain) :
    Enters ctx s c request (Machine.start (.stage ctx s c request) w).1 := by
  obtain ⟨name, stage, logger⟩ := s
  cases stage with
  | validation =>
    show Enters ctx _ c request ((Dispatching.enter ctx ⟨name, .validation, logger⟩ c request).run w).1
    cases errors : request.errors with
    | some errors =>
      simp only [Dispatching.enter, errors, StateT.run_bind]
      exact .ends _
    | none =>
      simp only [Dispatching.enter, errors, StateT.run_bind]
      exact .calls _ _
  | guard rule =>
    show Enters ctx _ c request
      ((if Dispatching.GuardRule.denies rule request (ctx.isCancelled w.scopes w.now) then
          (pure (.fail (Dispatch.Guard.refusal rule.name request.key)) : Act Move)
        else pure (.become (.chain ctx c request))) w).1
    split
    · exact .ends _
    · exact .calls _ _
  | fail | answer | panic => exact .ends _
  | cancel | swap | timeout | cancelledChild | passThrough => exact .calls _ _
  | sleep span => exact .waiting _
  | race => exact .racing
  | catchPanic => exact .catching
  | _ => exact .around _

theorem stageLeaves (s : NamedStage) (type : RequestType) (start : Instant) (o : Ended) :
    Leaves (Machine.resume (.inStage s ctx type start) o w).1 := by
  obtain ⟨name, stage, logger⟩ := s
  cases stage with
  | recovery traced => cases o <;> cases traced <;> exact .ends _
  | publishEvents =>
    have leaves (inner : Except Error Response) :
        Leaves (Dispatching.publishAfter ⟨name, .publishEvents, logger⟩ ctx type inner w).1 := by
      show Leaves ((if w.busLives then _ else _ : Act Move) w).1
      split
      · exact .drains ..
      · cases inner <;> exact .ends _
    cases o with
    | panic m => exact .ends _
    | value v => exact leaves _
    | failure e => exact leaves _
  | _ => cases o <;> exact .ends _

theorem waitedEnters (s : NamedStage) (c : Rehearsal.Chain) (o : Ended) :
    Enters ctx s c request (Machine.resume (.next ctx c request) o w).1 := by
  cases o with
  | value v => exact .calls _ _
  | failure e => exact .ends _
  | panic m => exact .ends _

theorem caughtLeaves (o : Ended) : Leaves (Machine.resume .caught o w).1 := by
  cases o <;> exact .ends _

/-! ### The stage that traps panics -/

theorem recoveryEnters (s : NamedStage) (traced : Bool) (traps : s.stage = .recovery traced) (c : Rehearsal.Chain) :
    Machine.start (.stage ctx s c request) w = (.go [.inStage s ctx request.type w.now] (.chain ctx c request), w) := by
  obtain ⟨name, stage, logger⟩ := s
  cases traps
  rfl

theorem recoveryLeaves (s : NamedStage) (traced : Bool) (traps : s.stage = .recovery traced) (start : Instant)
    (o : Ended) (passedCtx : Context) (passed : Request) : ∃ notes o',
    (Behaviour.recovery RequestOf.key (if traced then some Note.trapped else none)).late ctx request passedCtx passed
      (some o) notes o' ∧
    (Machine.resume (.inStage s ctx request.type start) o w).1 = .give o' ∧
    (Machine.resume (.inStage s ctx request.type start) o w).2.notes = w.notes ++ notes := by
  obtain ⟨name, stage, logger⟩ := s
  cases traps
  cases o with
  | panic m =>
    cases traced with
    | true => exact ⟨_, _, ⟨rfl, rfl⟩, rfl, rfl⟩
    | false => exact ⟨_, _, ⟨rfl, rfl⟩, rfl, (List.append_nil _).symm⟩
  | value v => exact ⟨_, _, ⟨rfl, rfl⟩, rfl, (List.append_nil _).symm⟩
  | failure e => exact ⟨_, _, ⟨rfl, rfl⟩, rfl, (List.append_nil _).symm⟩

theorem recoveryFirst (traced : Bool) (slow : Option Span) (logger : Log.Logger) : ∃ m,
    (Setup.buildMediator true traced slow logger w).2.mediator = some m ∧ m.handlers = .empty ∧
    m.notificationHandlers = .empty ∧ m.stages = [⟨"recovery", .recovery traced, logger⟩] :=
  ⟨_, rfl, rfl, rfl, rfl⟩

/-! ### The stages that come with a mediator -/

/-- Within a context that is not cancelled a guard goes by its rule alone. -/
def builtIn? (s : NamedStage) : Option (BuiltIn Request Note) :=
  match s.stage with
  | .recovery traced => some (.recovery (if traced then some Note.trapped else none))
  | .logging => some .logging
  | .performance _ => some .performance
  | .validation => some .validation
  | .guard rule => some (.guard rule.name fun _ request => !Dispatching.GuardRule.denies rule request false)
  | _ => none

theorem builtInEnters {s : NamedStage} {b : BuiltIn Request Note} (is : builtIn? s = some b)
    (alive : ctx.isCancelled w.scopes w.now = false) (c : Rehearsal.Chain) :
    match b.objection RequestOf.key RequestOf.errors ctx request with
    | some e => (Machine.start (.stage ctx s c request) w).1 = .fail e
    | none => (Machine.start (.stage ctx s c request) w).1 = .become (.chain ctx c request) ∨
      (Machine.start (.stage ctx s c request) w).1 =
        .go [.inStage s ctx request.type w.now] (.chain ctx c request) := by
  obtain ⟨name, stage, logger⟩ := s
  cases stage with
  | validation =>
    cases is
    have runs : Machine.start (.stage ctx ⟨name, .validation, logger⟩ c request) w =
        (Dispatching.enter ctx ⟨name, .validation, logger⟩ c request).run w := rfl
    rw [runs]
    cases errors : request.errors with
    | some errors =>
      simp only [BuiltIn.objection, errors, Dispatching.enter, StateT.run_bind]
      rfl
    | none =>
      simp only [BuiltIn.objection, errors, Dispatching.enter, StateT.run_bind]
      exact .inl rfl
  | guard rule =>
    cases is
    have runs : Machine.start (.stage ctx ⟨name, .guard rule, logger⟩ c request) w =
        (if Dispatching.GuardRule.denies rule request (ctx.isCancelled w.scopes w.now) then
          (pure (.fail (Guard.refusal rule.name request.key)) : Act Move)
        else pure (.become (.chain ctx c request))) w := rfl
    rw [alive] at runs
    rw [runs]
    cases denies : Dispatching.GuardRule.denies rule request false with
    | true =>
      simp only [BuiltIn.objection, denies]
      rfl
    | false =>
      simp only [BuiltIn.objection, denies]
      exact .inl rfl
  | logging | performance | recovery =>
    cases is
    exact .inr rfl
  | _ => cases is

theorem builtInLeaves {s : NamedStage} {b : BuiltIn Request Note} (is : builtIn? s = some b) (type : RequestType)
    (start : Instant) {o : Ended} (calm : ∀ message, o ≠ .panic message) :
    (Machine.resume (.inStage s ctx type start) o w).1 = .give o := by
  obtain ⟨name, stage, logger⟩ := s
  cases o with
  | panic message => exact absurd rfl (calm message)
  | _ =>
    cases stage with
    | validation | guard | logging | performance | recovery => rfl
    | _ => cases is

theorem answerTyped (type : RequestType) (x : Int) (v : Option Json) :
    (Dispatching.answer type x v).type = type.response := by
  unfold Dispatching.answer
  split <;> try rfl
  split <;> rfl

/-! ### Registrations -/

theorem registerSteps (type : RequestType) (tag : Tag) (here : w.mediator = some m) : ∃ m',
    (Steps.register type tag m w).2.mediator = some m' ∧
    (Steps.register type tag m w).1 = Reply.ofResult ((m.handlers.register type.shape tag).map fun _ => .null) ∧
    Step T (ofMediation m sends publications)
      [.installed type.shape tag ((m.handlers.register type.shape tag).map fun _ => ())]
      (ofMediation m' sends publications) := by
  have step := Step.install (T := T) (s := ofMediation m sends publications) type.shape tag rfl
  have runs : Steps.register type tag m w = (Steps.register type tag m).run w := rfl
  rw [runs]
  unfold Steps.register
  simp only [ofMediation] at step ⊢
  cases registered : m.handlers.register type.shape tag with
  | error e =>
    rw [registered] at step
    exact ⟨m, here, rfl, step⟩
  | ok handlers =>
    rw [registered] at step
    exact ⟨{ m with handlers }, rfl, rfl, step⟩

theorem listenSteps (type : EventType) (tag : Tag) (here : w.mediator = some m) : ∃ m',
    (Steps.registerNotification type tag m w).2.mediator = some m' ∧
    (Steps.registerNotification type tag m w).1 =
      Reply.ofResult ((m.notificationHandlers.register type.shape tag).map fun _ => .null) ∧
    Step T (ofMediation m sends publications)
      [.listening type.shape tag ((m.notificationHandlers.register type.shape tag).map fun _ => ())]
      (ofMediation m' sends publications) := by
  have step := Step.listen (T := T) (s := ofMediation m sends publications) type.shape tag rfl
  have runs : Steps.registerNotification type tag m w = (Steps.registerNotification type tag m).run w := rfl
  rw [runs]
  unfold Steps.registerNotification
  simp only [ofMediation] at step ⊢
  cases registered : m.notificationHandlers.register type.shape tag with
  | error e =>
    rw [registered] at step
    exact ⟨m, here, rfl, step⟩
  | ok notificationHandlers =>
    rw [registered] at step
    exact ⟨{ m with notificationHandlers }, rfl, rfl, step⟩

theorem stageSteps (s : NamedStage) : ∃ m', (Steps.addStage s m w).2.mediator = some m' ∧
    Step T (ofMediation m sends publications) [.staged s] (ofMediation m' sends publications) :=
  ⟨_, rfl, .stage s⟩

/-! ### Requests that are sent -/

theorem rehearsed_numbered (stages : List NamedStage) (h : Shape × Tag) :
    rehearsed (numbered stages h) = ⟨stages, .handler h.1 h.2⟩ := by
  simp [rehearsed, numbered]

/-- What comes of a request that is sent: a step of the exchange, and what the machine does meanwhile. -/
inductive Sends (T : Terms NamedStage Tag Tag Request QueuedEvent ν)
    (s : Exchange NamedStage Tag Tag Request QueuedEvent) (ctx : Context) (request : Request) (w : World) :
    Prop where
  | refused {e} (step : Step T s [.refused ctx request e] s)
      (runs : Machine.start (.send ctx request) w = (.fail e, w))
  | sent {way : List (Passage.Mark (NamedStage × Nat) (Shape × Tag) Request Response ν)} {s' d c} (step : Step T s
        (.sent s.sends.length ctx request (ctx.check w.scopes w.now) :: way.map (.did s.sends.length)) s')
      (stands : s'.sends = s.sends ++ [d])
      (runs : Machine.start (.send ctx request) w = (.go [.sent ctx request.type w.now] (.chain ctx c request), w))
      (shows : Shows d.passage (Machine.start (.chain ctx c request) w).1)

theorem requestSends (spoken : Spoken T) (here : w.mediator = some m) :
    Sends T (ofMediation m sends publications) ctx request w := by
  have key : T.key request = request.key := congrArg Shape.key (spoken.request request)
  have runs : Machine.start (.send ctx request) w = (Dispatching.send ctx request).run w := rfl
  cases found : m.handlers.lookup request.key with
  | error e =>
    simp only [Dispatching.send, StateT.run_bind, StateT.run_get, pure_bind, here, found] at runs
    have missing : (ofMediation m sends publications).handlers.lookup (T.key request) = .error e := by rwa [key]
    exact .refused (.refuse ctx request missing) runs
  | ok h =>
    simp only [Dispatching.send, StateT.run_bind, StateT.run_get, pure_bind, here, found] at runs
    rw [← rehearsed_numbered] at runs
    have found : (ofMediation m sends publications).handlers.lookup (T.key request) = .ok h := by rwa [key]
    have step := Step.send ctx request w.scopes w.now found rfl
    exact .sent step rfl runs (chainShows spoken _ [])

theorem requestReturns (spoken : Spoken T) (d : Sent NamedStage Tag Request) (start : Instant)
    (r : Except Error Response) :
    (Dispatching.sent d.ctx d.request.type start r w).1 =
      .ofResponse (answered T d (d.ctx.check w.scopes w.now) r) := by
  have key : T.key d.request = d.request.type.shape.key := congrArg Shape.key (spoken.request d.request)
  rw [answered, key, spoken.response]
  show ((Dispatching.sent d.ctx d.request.type start r).run w).1 = _
  unfold Dispatching.sent
  simp only [StateT.run_bind, StateT.run_get, pure_bind]
  cases w.mediator with
  | none =>
    simp only [StateT.run_bind, check_run, pure_bind]
    cases d.ctx.check w.scopes w.now <;> rfl
  | some m =>
    -- The log is written first, and the context does not depend on it.
    simp only [StateT.run_bind, Act.log, StateT.run_modify, check_run, pure_bind]
    cases d.ctx.check w.scopes w.now <;> rfl

/-! ### Notifications -/

/-- What comes of a notification: a step of the exchange, and what the machine does meanwhile. -/
inductive Notifies (T : Terms NamedStage Tag Tag Request QueuedEvent ν)
    (s : Exchange NamedStage Tag Tag Request QueuedEvent) (ctx : Context) (event : QueuedEvent) (w : World) : Prop where
  | refused {e} (step : Step T s [.unheard ctx event (ctx.check w.scopes w.now) e] s)
      (runs : Machine.start (.notify ctx event) w = (.fail e, w))
  | mismatched {shape l e} (step : Step T s [.unheard ctx event (ctx.check w.scopes w.now) e] s)
      (runs : Machine.start (.notify ctx event) w =
        (.go [.caught, .notified event.shape.key] (.handleEvent ctx shape l event), w))
      (ends : Machine.start (.handleEvent ctx shape l event) w = (.fail e, w))
  | heard {shape l s'} (step : Step T s [.heard s.publications.length shape l ctx event] s')
      (stands : s'.publications = s.publications ++ [⟨ctx, event, l, false⟩])
      (runs : Machine.start (.notify ctx event) w =
        (.go [.caught, .notified event.shape.key] (.handleEvent ctx shape l event), w))
      (handles : (Machine.start (.handleEvent ctx shape l event) w).1 = .go [.discard] (.script ctx event.body.task))

theorem notifySteps (spoken : Spoken T) (event : QueuedEvent) (here : w.mediator = some m) :
    Notifies T (ofMediation m sends publications) ctx event w := by
  have key : (T.notification event).key = event.shape.key := congrArg Shape.key (spoken.notification event)
  have runs : Machine.start (.notify ctx event) w = (Dispatching.notify ctx event).run w := rfl
  simp only [Dispatching.notify, StateT.run_bind, StateT.run_get, pure_bind, here, check_run] at runs
  cases found : Mediator.addressee m.notificationHandlers event.shape.key (ctx.check w.scopes w.now) with
  | error e =>
    rw [found] at runs
    rw [← key] at found
    exact .refused (.unaddressed ctx event w.scopes w.now found) runs
  | ok registered =>
    obtain ⟨shape, l⟩ := registered
    rw [found] at runs
    rw [← key] at found
    have handles : Machine.start (.handleEvent ctx shape l event) w =
        (Dispatching.handleEvent ctx shape l event).run w := rfl
    unfold Dispatching.handleEvent at handles
    cases fits : Mediator.receives (Mediator.notificationMismatch shape.key) shape event.shape with
    | error e =>
      rw [fits] at handles
      rw [← spoken.notification event] at fits
      exact .mismatched (.misaddressed ctx event w.scopes w.now found fits) runs handles
    | ok =>
      rw [fits] at handles
      rw [← spoken.notification event] at fits
      exact .heard (.publish ctx event w.scopes w.now found fits) rfl runs (congrArg Prod.fst handles)

end Switchyard.Dispatch.Exchange
