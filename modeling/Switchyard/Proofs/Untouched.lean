import Switchyard.Proofs.State.Precedence
/-!
An operation in a context that is cancelled before it begins. It comes to its end while its task keeps its turn, and on
the way there no stage, no handler and no adapter is started, and nothing is done to what they, the bus and the cache
have. A computation refuses the context if it comes to its end like that, and a frame passes if it does so with the end
it is given; each of them does because those that it leads to do.
-/
namespace Switchyard.Rehearsal

/-- The components have what they had, the queue of the bus and the memory and the channel of the cache among it; nobody
has called the store or the messaging side, and nothing was noted by handlers. What is cancelled stays the same. -/
structure Untouched (w w' : World) : Prop where
  mediator : w'.mediator = w.mediator
  queue : w'.bus.map (·.queue) = w.bus.map (·.queue)
  cache : w'.cache = w.cache
  store : w'.store = w.store
  broker : w'.broker = w.broker
  notes : w'.notes = w.notes
  now : w'.now = w.now
  cancelled : w'.scopes.cancelled = w.scopes.cancelled

namespace Untouched

theorem refl (w : World) : Untouched w w := ⟨rfl, rfl, rfl, rfl, rfl, rfl, rfl, rfl⟩

theorem trans {w w' w'' : World} (first : Untouched w w') (rest : Untouched w' w'') : Untouched w w'' :=
  ⟨rest.mediator.trans first.mediator, rest.queue.trans first.queue, rest.cache.trans first.cache,
    rest.store.trans first.store, rest.broker.trans first.broker, rest.notes.trans first.notes,
    rest.now.trans first.now, rest.cancelled.trans first.cancelled⟩

theorem context {w w' : World} (untouched : Untouched w w') (ctx : Context) :
    ctx.isCancelled w'.scopes w'.now = ctx.isCancelled w.scopes w.now := by
  simp only [Context.isCancelled, Scopes.reaches, untouched.now, untouched.cancelled]

end Untouched

/-- What is started is not a stage, a handler, an adapter or the cache. -/
def Call.inward : Call → Bool
  | .send _ _ | .chain _ _ _ | .notify _ _ | .drain _ | .tryDrain _ | .locked _ | .drainQueue _ | .serve _ _
  | .within _ _ | .guarded _ _ => true
  | _ => false

def Move.inward : Move → Bool
  | .give _ => true
  | .go _ c => c.inward
  | .park _ => false

namespace Machine

open Act

variable {α : Type} {id : Nat} {w w' : World} {t : Task} {ctx : Context} {c inner : Call} {m : Move} {o : Ended}
  {f : Frame} {frames stack below : List Frame} {on : BreakerId} {p : Move → Prop}

def Kept (w w' : World) : Prop := Untouched w w' ∧ w'.current = w.current ∧ w'.tasks = w.tasks

theorem Kept.refl (w : World) : Kept w w := ⟨.refl w, rfl, rfl⟩

theorem Kept.trans {w'' : World} (first : Kept w w') (rest : Kept w' w'') : Kept w w'' :=
  ⟨first.1.trans rest.1, rest.2.1.trans first.2.1, rest.2.2.trans first.2.2⟩

theorem Kept.of_told (told : Told w w') : Kept w w' := by
  obtain ⟨circuits, written, reports, logs, rfl⟩ := told
  exact ⟨⟨rfl, rfl, rfl, rfl, rfl, rfl, rfl, rfl⟩, rfl, rfl⟩

/-- In a world in which the context is cancelled, a computation keeps everything and comes to such a move. -/
def Meets (ctx : Context) (x : Act Move) (p : Move → Prop) : Prop :=
  ∀ w, ctx.isCancelled w.scopes w.now = true → Kept w (x w).2 ∧ p (x w).1

/-- The task comes to an end over the frames, while it keeps its turn. On the way nothing is touched, and nothing is
started that could touch anything. -/
def Spares (id : Nat) (t : Task) (stack : List Frame) (w : World) : Prop :=
  ∃ o k, Turn id { t with stack, mode := .moving (.give o) } (run k w).2 ∧ (∀ i ≤ k, Untouched w (run i w).2) ∧
    ∀ i < k, ∃ t' m, Turn id t' (run i w).2 ∧ t'.mode = .moving m ∧ m.inward = true

namespace Spares

theorem here (turn : Turn id { t with stack, mode := .moving (.give o) } w) : Spares id t stack w := by
  refine ⟨o, 0, turn, fun i first => ?_, nofun⟩
  obtain rfl := Nat.le_zero.mp first
  exact .refl w

theorem step {x : Act Move} (turn : Turn id t w) (moving : t.mode = .moving m) (inward : m.inward = true)
    (goesOn : advance w = (true, (proceed id frames x w.prune).2)) (cancelled : ctx.isCancelled w.scopes w.now = true)
    (meets : Meets ctx x p)
    (rest : ∀ m w', p m → ctx.isCancelled w'.scopes w'.now = true →
      Turn id { t with stack := frames, mode := .moving m } w' → Spares id t stack w') : Spares id t stack w := by
  have ⟨has, stands⟩ := turn
  obtain ⟨tree, pruned⟩ := prune_tree w
  -- the computation finds its frames taken off the stack and the tree of scopes pruned
  let w' : World := { w with tasks := w.tasks.modify id ({ · with stack := frames }), scopes := { w.scopes with tree } }
  obtain ⟨⟨untouched, current, tasks⟩, meets⟩ := meets w' cancelled
  have begins : w' = { w.prune with tasks := w.prune.tasks.modify id ({ · with stack := frames }) } := by rw [pruned]
  have runs : (advance w).2 =
      { (x w').2 with tasks := (x w').2.tasks.modify id ({ · with mode := .moving (x w').1 }) } := by
    rw [goesOn, proceed_snd begins]
  have once : Untouched w (advance w).2 := by
    rw [runs]
    exact ⟨untouched.mediator, untouched.queue, untouched.cache, untouched.store, untouched.broker, untouched.notes,
      untouched.now, untouched.cancelled⟩
  have begun : Turn id { t with stack := frames, mode := .moving (x w').1 } (advance w).2 := by
    have there : w.tasks[id]? = some t := stands
    rw [runs]
    exact ⟨current.trans has, by simp [World.task?, tasks, w', there]⟩
  have later (k : Nat) : run (k + 1) w = run k (advance w).2 := by
    show (if (advance w).1 = true then run k else Pure.pure ()) (advance w).2 = _
    rw [if_pos (congrArg Prod.fst goesOn)]
  obtain ⟨o, k, ends, still, quiet⟩ := rest _ _ meets ((once.context ctx).trans cancelled) begun
  refine ⟨o, k + 1, later k ▸ ends, fun i le => ?_, fun i lt => ?_⟩
  · cases i with
    | zero => exact .refl w
    | succ i => exact later i ▸ once.trans (still i (Nat.le_of_succ_le_succ le))
  · cases i with
    | zero => exact ⟨t, m, turn, moving, inward⟩
    | succ i => exact later i ▸ quiet i (Nat.lt_of_succ_lt_succ lt)

end Spares

/-- Started in the context, the computation comes to its end. -/
def Refuses (ctx : Context) (c : Call) : Prop :=
  ∀ id t frames stack w, Turn id t w → t.mode = .moving (.go frames c) → ctx.isCancelled w.scopes w.now = true →
    (∀ o w', ctx.isCancelled w'.scopes w'.now = true →
      Turn id { t with stack := frames ++ t.stack, mode := .moving (.give o) } w' → Spares id t stack w') →
    Spares id t stack w

/-- Given an end in the context, the frame comes to an end of its own. -/
def Passes (ctx : Context) (f : Frame) : Prop :=
  ∀ id t o below stack w, Turn id t w → t.mode = .moving (.give o) → t.stack = f :: below →
    ctx.isCancelled w.scopes w.now = true →
    (∀ o w', ctx.isCancelled w'.scopes w'.now = true →
      Turn id { t with stack := below, mode := .moving (.give o) } w' → Spares id t stack w') →
    Spares id t stack w

theorem unwinds (passes : ∀ f ∈ frames, Passes ctx f) (cancelled : ctx.isCancelled w.scopes w.now = true)
    (turn : Turn id { t with stack := frames ++ below, mode := .moving (.give o) } w)
    (rest : ∀ o w', ctx.isCancelled w'.scopes w'.now = true →
      Turn id { t with stack := below, mode := .moving (.give o) } w' → Spares id t stack w') : Spares id t stack w := by
  induction frames generalizing o w with
  | nil => exact rest o w cancelled turn
  | cons f frames ih =>
    obtain ⟨first, others⟩ := List.forall_mem_cons.mp passes
    exact first id { t with stack := f :: (frames ++ below), mode := .moving (.give o) } o _ _ w turn rfl rfl cancelled
      fun o w' cancelled turn => ih others cancelled turn

/-- A move that is an end, or leads to one. -/
def Mild (ctx : Context) (m : Move) : Prop :=
  (∃ o, m = .give o) ∨ ∃ frames c, m = .go frames c ∧ Refuses ctx c ∧ ∀ f ∈ frames, Passes ctx f

theorem Mild.spares (mild : Mild ctx m) (cancelled : ctx.isCancelled w.scopes w.now = true)
    (turn : Turn id { t with stack := below, mode := .moving m } w)
    (rest : ∀ o w', ctx.isCancelled w'.scopes w'.now = true →
      Turn id { t with stack := below, mode := .moving (.give o) } w' → Spares id t stack w') : Spares id t stack w := by
  rcases mild with ⟨o, rfl⟩ | ⟨frames, c, rfl, refuses, passes⟩
  · exact rest o w cancelled turn
  · exact refuses id { t with stack := below, mode := .moving (.go frames c) } frames _ w turn rfl cancelled
      fun o w' cancelled turn => unwinds passes cancelled turn rest

theorem refuses (inward : c.inward = true) (meets : Meets ctx (start c) (Mild ctx)) : Refuses ctx c := by
  intro id t frames stack w turn moving cancelled rest
  exact Spares.step turn moving inward (advance_turn turn moving) cancelled meets
    fun m w' mild cancelled turn => mild.spares cancelled turn rest

theorem passes (meets : ∀ o, Meets ctx (resume f o) (Mild ctx)) : Passes ctx f := by
  intro id t o below stack w turn moving stands cancelled rest
  have runs : move id t (.give o) = proceed id below (resume f o) := by
    simp only [move, stands]
    rfl
  exact Spares.step turn moving rfl (runs ▸ advance_turn turn moving) cancelled (meets o)
    fun m w' mild cancelled turn => mild.spares cancelled turn rest

/-! ### Computations in a cancelled context -/

theorem wakeAll_kept (ids : List Nat) : Kept w (wakeAll ids w).2 := by
  obtain ⟨again, ready, roused⟩ := wakeAll_rouses ids w
  rw [roused]
  exact ⟨⟨rfl, rfl, rfl, rfl, rfl, rfl, rfl, rfl⟩, rfl, rfl⟩

theorem releaseLock_kept : Kept w (releaseLock w).2 := by
  cases stands : w.bus with
  | none =>
    have runs : releaseLock.run w = ((), w) := by
      simp only [releaseLock, StateT.run_bind, StateT.run_get, pure_bind, stands]
      rfl
    exact congrArg Prod.snd runs ▸ Kept.refl w
  | some bus =>
    have freed : Kept w { w with bus := some { bus with lock := bus.lock.release.1 } } :=
      ⟨⟨rfl, by simp [stands], rfl, rfl, rfl, rfl, rfl, rfl⟩, rfl, rfl⟩
    show Kept w (releaseLock.run w).2
    simp only [releaseLock, StateT.run_bind, StateT.run_get, pure_bind, stands]
    cases bus.lock.release.2 with
    | none => exact freed
    | some k => exact freed.trans (wakeAll_kept _)

theorem setBus_kept {bus : Events.Bus Raised} (queue : w.bus.map (·.queue) = some bus.queue) :
    Kept w (Publishing.setBus bus w).2 :=
  ⟨⟨rfl, queue.symm, rfl, rfl, rfl, rfl, rfl, rfl⟩, rfl, rfl⟩

theorem check_cancelled (cancelled : ctx.isCancelled w.scopes w.now = true) :
    check ctx w = (.error (ctx.cancellation w.scopes), w) := by
  show (ctx.check w.scopes w.now, w) = _
  rw [Context.check, if_pos cancelled]

theorem meets_run {x : Act Move} (runs : x.run w = (m, w')) (kept : Kept w w') (holds : p m) :
    Kept w (x w).2 ∧ p (x w).1 := by
  have same : x w = (m, w') := runs
  rw [same]
  exact ⟨kept, holds⟩

namespace Meets

variable {x : Act α} {g : α → Act Move}

theorem give (o : Ended) : Meets ctx (Pure.pure (.give o)) (Mild ctx) := fun w _ => ⟨.refl w, .inl ⟨o, rfl⟩⟩

theorem goes (refuses : Refuses ctx c) (passes : ∀ f ∈ frames, Passes ctx f) :
    Meets ctx (Pure.pure (.go frames c)) (Mild ctx) :=
  fun w _ => ⟨.refl w, .inr ⟨frames, c, rfl, refuses, passes⟩⟩

theorem become (refuses : Refuses ctx c) : Meets ctx (Pure.pure (.become c)) (Mild ctx) := goes refuses (List.forall_mem_nil _)

theorem get {g : World → Act Move} (rest : ∀ w, Meets ctx (g w) p) : Meets ctx (MonadStateOf.get >>= g) p :=
  fun w cancelled => rest w w cancelled

theorem bind (keeps : ∀ w, Kept w (x w).2) (rest : ∀ a, Meets ctx (g a) p) : Meets ctx (x >>= g) p := by
  intro w cancelled
  have ⟨kept, meets⟩ := rest (x w).1 (x w).2 (((keeps w).1.context ctx).trans cancelled)
  exact ⟨(keeps w).trans kept, meets⟩

/-- Whoever looks whether the context is cancelled is told that it is. -/
theorem check {g : Except Error Unit → Act Move} (rest : ∀ e, Meets ctx (g (.error e)) p) :
    Meets ctx (Act.check ctx >>= g) p := by
  intro w cancelled
  have told := check_cancelled cancelled
  show Kept w (g (Act.check ctx w).1 (Act.check ctx w).2).2 ∧ p (g (Act.check ctx w).1 (Act.check ctx w).2).1
  rw [told]
  exact rest _ w cancelled

end Meets

theorem log_kept (logger : Log.Logger) (lines : List Log.Line) : Kept w (log logger lines w).2 :=
  ⟨⟨rfl, rfl, rfl, rfl, rfl, rfl, rfl, rfl⟩, rfl, rfl⟩

theorem within_refuses (ctx : Context) (inner : Call) : Refuses ctx (.within ctx inner) := by
  have meets : Meets ctx (within ctx inner) (Mild ctx) := Meets.check fun e => Meets.give (.failure e)
  exact refuses rfl meets

theorem chain_refuses (ctx : Context) (chain : Chain) (request : Request) : Refuses ctx (.chain ctx chain request) := by
  have meets : Meets ctx (Dispatching.chain ctx chain request) (Mild ctx) :=
    Meets.check fun e => Meets.give (.failure e)
  exact refuses rfl meets

theorem ofResponse_meets (r : Except Error Dispatch.Response) :
    Meets ctx (Pure.pure (Move.ofResponse r)) (Mild ctx) := by
  cases r <;> exact Meets.give _

theorem sent_passes (ctx : Context) (type : RequestType) (began : Instant) : Passes ctx (.sent ctx type began) := by
  have concludes (r : Except Error Dispatch.Response) : Meets ctx (Dispatching.sent ctx type began r) (Mild ctx) := by
    refine Meets.get fun w => ?_
    cases w.mediator with
    | none => exact Meets.check fun e => ofResponse_meets _
    | some m => exact Meets.bind (fun w => log_kept _ _) fun _ => Meets.check fun e => ofResponse_meets _
  refine passes fun o => ?_
  cases o with
  | value v => exact concludes _
  | failure e => exact concludes _
  | panic m => exact Meets.give _

theorem send_refuses (ctx : Context) (request : Request) : Refuses ctx (.send ctx request) := by
  have meets : Meets ctx (Dispatching.send ctx request) (Mild ctx) := by
    refine Meets.get fun w => ?_
    cases w.mediator with
    | none => exact Meets.give _
    | some m =>
      dsimp only
      cases m.handlers.lookup request.key with
      | error e => exact Meets.give _
      | ok h => exact Meets.goes (chain_refuses ctx _ _) (List.forall_mem_singleton.mpr (sent_passes ctx _ _))
  exact refuses rfl meets

theorem notify_refuses (ctx : Context) (event : QueuedEvent) : Refuses ctx (.notify ctx event) := by
  have meets : Meets ctx (Dispatching.notify ctx event) (Mild ctx) := by
    refine Meets.get fun w => ?_
    cases w.mediator with
    | none => exact Meets.give _
    | some m =>
      refine Meets.check fun e => ?_
      rw [Dispatch.Mediator.addressee]
      cases m.notificationHandlers.lookup event.shape.key <;> exact Meets.give _
  exact refuses rfl meets

/-! ### The bus -/

theorem admitted_passes (ctx : Context) (on : BreakerId) (generation : Nat) : Passes ctx (.admitted on generation) :=
  passes fun o => Meets.bind (fun w => .of_told (Aside.settle on generation o w)) fun _ => Meets.give _

theorem guarded_refuses (on : BreakerId) (inward : Refuses ctx inner) : Refuses ctx (.guarded on inner) := by
  have meets : Meets ctx (guarded on inner) (Mild ctx) := by
    refine Meets.bind (fun w => .of_told (Aside.acquire on w)) fun r => ?_
    cases r with
    | error e => exact Meets.give _
    | ok generation => exact Meets.goes inward (List.forall_mem_singleton.mpr (admitted_passes ctx on generation))
  exact refuses rfl meets

theorem drainQueue_refuses (d : Events.Bus.Drain) : Refuses d.ctx (.drainQueue d) := by
  have meets : Meets d.ctx (Publishing.drainQueue d) (Mild d.ctx) := by
    intro w cancelled
    cases stands : w.bus with
    | none =>
      have runs : (Publishing.drainQueue d).run w = (.value .unit, w) := by
        simp only [Publishing.drainQueue, StateT.run_bind, StateT.run_get, pure_bind, stands]
        rfl
      exact meets_run runs (.refl w) (.inl ⟨_, rfl⟩)
    | some bus =>
      -- the context is looked at before an event is taken up
      have runs : (Publishing.drainQueue d).run w =
          (.fail (d.ctx.cancellation w.scopes), (log bus.logger [] (Publishing.setBus bus w).2).2) := by
        have told : (check d.ctx).run w = _ := check_cancelled cancelled
        simp only [Publishing.drainQueue, StateT.run_bind, StateT.run_get, pure_bind, stands, told]
        rfl
      have kept : Kept w (Publishing.setBus bus w).2 := setBus_kept (by rw [stands]; rfl)
      exact meets_run runs (kept.trans (log_kept _ _)) (.inl ⟨_, rfl⟩)
  exact refuses rfl meets

theorem locked_refuses (ctx : Context) : Refuses ctx (.locked ctx) := by
  have meets : Meets ctx (Publishing.locked ctx) (Mild ctx) := by
    refine Meets.get fun w => ?_
    cases w.bus with
    | none => exact Meets.give _
    | some bus =>
      dsimp only
      split
      · exact Meets.give _
      · have keeps (w : World) : Kept w (reading w).2 := ⟨⟨rfl, rfl, rfl, rfl, rfl, rfl, rfl, rfl⟩, rfl, rfl⟩
        exact Meets.bind keeps fun started => Meets.become (guarded_refuses .bus (drainQueue_refuses ⟨ctx, started, 0⟩))
  exact refuses rfl meets

theorem lockHeld_passes (ctx : Context) : Passes ctx .lockHeld :=
  passes fun _ => Meets.bind (fun _ => releaseLock_kept) fun _ => Meets.give _

theorem flagged_passes (ctx : Context) : Passes ctx .flagged := by
  refine passes fun o => ?_
  cases o <;> exact Meets.give _

theorem locking_passes (ctx : Context) : Passes ctx (.locking ctx) := by
  refine passes fun o => ?_
  cases o with
  | value v => exact Meets.goes (locked_refuses ctx) (List.forall_mem_singleton.mpr (lockHeld_passes ctx))
  | failure e => exact Meets.give _
  | panic m => exact Meets.give _

theorem drain_refuses (ctx : Context) : Refuses ctx (.drain ctx) := by
  have meets : Meets ctx (Publishing.drain ctx) (Mild ctx) :=
    Meets.goes (within_refuses ctx _) (List.forall_mem_singleton.mpr (locking_passes ctx))
  exact refuses rfl meets

theorem tryDrain_refuses (ctx : Context) : Refuses ctx (.tryDrain ctx) := by
  have meets : Meets ctx (Publishing.tryDrain ctx) (Mild ctx) := by
    intro w cancelled
    have frames : ∀ f ∈ [Frame.lockHeld, .flagged], Passes ctx f :=
      List.forall_mem_cons.mpr ⟨lockHeld_passes ctx, List.forall_mem_singleton.mpr (flagged_passes ctx)⟩
    cases stands : w.bus with
    | none =>
      have runs : (Publishing.tryDrain ctx).run w = (.value (.flag true), w) := by
        simp only [Publishing.tryDrain, StateT.run_bind, StateT.run_get, pure_bind, stands]
        rfl
      exact meets_run runs (.refl w) (.inl ⟨_, rfl⟩)
    | some bus =>
      cases taken : bus.lock.take? with
      | none =>
        have runs : (Publishing.tryDrain ctx).run w =
            (.value (.flag false), (log bus.logger [Events.Bus.inFlight] w).2) := by
          simp only [Publishing.tryDrain, StateT.run_bind, StateT.run_get, pure_bind, stands, taken]
          rfl
        exact meets_run runs (log_kept _ _) (.inl ⟨_, rfl⟩)
      | some lock =>
        have runs : (Publishing.tryDrain ctx).run w =
            (.go [.lockHeld, .flagged] (.locked ctx), (Publishing.setBus { bus with lock } w).2) := by
          simp only [Publishing.tryDrain, StateT.run_bind, StateT.run_get, pure_bind, stands, taken]
          rfl
        exact meets_run runs (setBus_kept (by rw [stands]; rfl)) (.inr ⟨_, _, rfl, locked_refuses ctx, frames⟩)
  exact refuses rfl meets

/-! ### The service -/

theorem deleted_passes (ctx : Context) : Passes ctx .deleted := by
  have ends (r : Except Error State.Answer) : Meets ctx (Pure.pure (Move.ofAnswer r)) (Mild ctx) := by
    cases r <;> exact Meets.give _
  refine passes fun o => ?_
  cases o with
  | value v => exact ends _
  | failure e => exact ends _
  | panic m => exact Meets.give _

theorem serve_refuses (ctx : Context) (op : State.Op) : Refuses ctx (.serve ctx op) := by
  refine refuses rfl fun w cancelled => ?_
  cases busy : State.Service.isIdle op with
  | true =>
    have runs : (Storage.serve ctx op).run w = (.value (.answer .done), w) := by
      simp only [Storage.serve, busy, if_true]
      rfl
    exact meets_run runs (.refl w) (.inl ⟨_, rfl⟩)
  | false =>
    rw [servesGuarded busy]
    refine ⟨.refl w, .inr ⟨_, _, rfl, guarded_refuses .service (within_refuses ctx _), ?_⟩⟩
    cases op with
    | delete key => exact List.forall_mem_singleton.mpr (deleted_passes ctx)
    | has | get | set | batchSet => exact List.forall_mem_nil _

/-- The operations on a mediator, a bus and a service that take a context. -/
inductive Asked (ctx : Context) : Call → Prop where
  | send (request : Request) : Asked ctx (.send ctx request)
  | notify (event : QueuedEvent) : Asked ctx (.notify ctx event)
  | drain : Asked ctx (.drain ctx)
  | tryDrain : Asked ctx (.tryDrain ctx)
  | serve (op : State.Op) : Asked ctx (.serve ctx op)

theorem Asked.refuses (asked : Asked ctx c) : Refuses ctx c := by
  cases asked with
  | send request => exact send_refuses ctx request
  | notify event => exact notify_refuses ctx event
  | drain => exact drain_refuses ctx
  | tryDrain => exact tryDrain_refuses ctx
  | serve op => exact serve_refuses ctx op

/-- Whatever the world is like: an operation in a context that has been cancelled comes to its end without a stage, a
handler or an adapter having been started, and touches neither the queue of the bus nor the cache, at no moment. -/
theorem cancelledSpares (asked : Asked ctx c) (turn : Turn id t w) (begins : t.mode = .moving (.go frames c))
    (cancelled : ctx.isCancelled w.scopes w.now = true) : Spares id t (frames ++ t.stack) w :=
  asked.refuses id t frames _ w turn begins cancelled fun _ _ _ => Spares.here

/-! A foreground that drains the bus after the deadline of its context has passed, while an event waits in the queue. -/

def pastContext : Context := ⟨[0], some 5, .nil⟩

def waitingEvent : QueuedEvent := ⟨.ofType "Greeting", .new "greetings", "Greeting", .ok .null, ⟨.e1, 0, []⟩⟩

def pastDrain : Task := ⟨.foreground, [], .moving (.go [.replied] (.tryDrain pastContext)), false⟩

def pastWorld : World :=
  { World.empty .initial with
    now := 5
    circuits := [(.bus, ⟨.make (.named "events") 0, .none⟩)]
    bus := some ⟨[waitingEvent], .free, false, false, .plain⟩
    tasks := [pastDrain]
    current := some 0 }

theorem pastDrainSpares : pastContext.isCancelled pastWorld.scopes pastWorld.now = true ∧
    Spares 0 pastDrain [.replied] pastWorld := by
  have cancelled : pastContext.isCancelled pastWorld.scopes pastWorld.now = true := by decide
  exact ⟨cancelled, cancelledSpares .tryDrain ⟨rfl, rfl⟩ rfl cancelled⟩

end Machine
end Switchyard.Rehearsal
