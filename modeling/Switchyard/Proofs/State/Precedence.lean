import Switchyard.Proofs.Stepping
/-!
A call of the service in a context that is cancelled before it begins. The breaker is asked first. Where it lets the call
in, what becomes of the call is the cancellation of its context; where it does not, the call is told of the breaker alone.
-/
namespace Switchyard.Rehearsal.Machine

open Act

variable {id : Nat} {w w' : World} {t : Task} {ctx : Context} {op : State.Op} {c : Circuit} {e : Error} {on : BreakerId}
  {inner : Call} {generation : Nat}

theorem Beside.context (beside : Beside w w') (ctx : Context) :
    ctx.isCancelled w'.scopes w'.now = ctx.isCancelled w.scopes w.now ∧
      ctx.cancellation w'.scopes = ctx.cancellation w.scopes := by
  obtain ⟨tasks, tree, circuits, written, reports, logs, rfl⟩ := beside
  exact ⟨rfl, rfl⟩

theorem Tidied.circuit (tidied : Tidied w w') (on : BreakerId) : w'.now = w.now ∧ w'.circuit? on = w.circuit? on := by
  obtain ⟨tasks, tree, rfl⟩ := tidied
  exact ⟨rfl, rfl⟩

theorem guarded_aside : Aside (start (.guarded on inner)) := by
  refine Aside.bind (Aside.acquire on) fun r => ?_
  cases r <;> exact Aside.pure _

/-- What a guarded call does with the answer of its breaker. -/
def afterAsking (on : BreakerId) (inner : Call) : Except Error Nat → Move
  | .error e => .fail e
  | .ok generation => .go [.admitted on generation] inner

theorem guarded_fst (stands : w.circuit? on = some c) :
    (start (.guarded on inner) w).1 = afterAsking on inner (c.breaker.acquire w.now).2.2 := by
  rw [← acquire_fst stands]
  show ((match (acquire on w).1 with
    | .error e => Pure.pure (Move.fail e)
    | .ok generation => Pure.pure (.go [.admitted on generation] inner) : Act Move) (acquire on w).2).1 = _
  cases (acquire on w).1 <;> rfl

theorem admitted_aside (o : Ended) : Aside (resume (.admitted on generation) o) :=
  Aside.bind (Aside.settle on generation o) fun _ => Aside.pure _

/-- A failure that is no missing key is passed on. -/
theorem served_comes (other : e.isNotFound = false)
    (turn : Turn id { t with stack := servingFrames op ++ t.stack, mode := .moving (.fail e) } w) :
    Comes id { t with mode := .moving (.fail e) } w := by
  cases op with
  | has | get | set | batchSet => exact Comes.here turn
  | delete key =>
    have kept (w : World) : resume .deleted (.failure e) w = (.fail e, w) := by
      have deleted : State.Service.deleted (.error e) = .error e := by simp [State.Service.deleted, other]
      show (Move.ofAnswer (State.Service.deleted (.error e)), w) = _
      rw [deleted]
      rfl
    refine Comes.next (advance_give turn rfl rfl fun w' _ => kept w' ▸ Told.refl w') fun w' _ _ goesOn => ?_
    rw [kept] at goesOn
    exact Comes.here goesOn

/-- A call that is let in ends with the cancellation, and that settles it. -/
theorem admitted_comes (cancelled : ctx.isCancelled w.scopes w.now = true)
    (turn : Turn id { t with
      stack := servingFrames op ++ t.stack
      mode := .moving (.go [.admitted on generation] (.within ctx inner)) } w) :
    Comes id { t with mode := .moving (.fail (ctx.cancellation w.scopes)) } w := by
  have cut (w' : World) (tidied : Tidied w w') :
      start (.within ctx inner) w' = (.fail (ctx.cancellation w.scopes), w') := by
    obtain ⟨same, told⟩ := tidied.beside.context ctx
    rw [withinCut (same.trans cancelled), told]
  refine Comes.next (advance_go turn rfl fun w' tidied => cut w' tidied ▸ Told.refl w') fun w₁ tidied _ begun => ?_
  rw [cut w₁ tidied] at begun
  refine Comes.next (advance_give begun rfl rfl fun w' _ => admitted_aside _ w') fun w₂ _ _ ended => ?_
  exact served_comes rfl ended

/-- The error of a guarded call in a cancelled context. -/
def precedence (cancellation : Error) : Except Error Nat → Error
  | .ok _ => cancellation
  | .error e => e

theorem guarded_comes
    (turn : Turn id { t with mode := .moving (.go (servingFrames op) (.guarded on (.within ctx inner))) } w)
    (stands : w.circuit? on = some c) (cancelled : ctx.isCancelled w.scopes w.now = true)
    (refusal : ∀ e, (c.breaker.acquire w.now).2.2 = .error e → e.isNotFound = false) :
    Comes id
      { t with mode := .moving (.fail (precedence (ctx.cancellation w.scopes) (c.breaker.acquire w.now).2.2)) } w := by
  refine Comes.next (advance_go turn rfl fun w' _ => guarded_aside w') fun w₁ tidied last begun => ?_
  obtain ⟨now, same⟩ := tidied.circuit on
  rw [guarded_fst (same.trans stands), now] at begun
  have beside : Beside w (advance w).2 := (tidied.beside.trans (.of_told (guarded_aside w₁))).trans last.beside
  obtain ⟨cut, told⟩ := beside.context ctx
  rw [← told]
  generalize (c.breaker.acquire w.now).2.2 = r at begun refusal
  cases r with
  | ok generation => exact admitted_comes (cut.trans cancelled) begun
  | error e => exact served_comes (refusal e rfl) begun

theorem serve_comes (turn : Turn id t w) (serving : t.mode = .moving (.become (.serve ctx op)))
    (busy : State.Service.isIdle op = false) (stands : w.circuit? .service = some c)
    (cancelled : ctx.isCancelled w.scopes w.now = true)
    (refusal : ∀ e, (c.breaker.acquire w.now).2.2 = .error e → e.isNotFound = false) :
    Comes id
      { t with mode := .moving (.fail (precedence (ctx.cancellation w.scopes) (c.breaker.acquire w.now).2.2)) } w := by
  have served (w : World) : start (.serve ctx op) w = (.go (servingFrames op) (.guarded .service (.within ctx
      (if w.service.any (·.cached) then .cached op else .ask op))), w) := servesGuarded busy
  refine Comes.next (advance_go turn serving fun w' _ => served w' ▸ Told.refl w') fun w₁ tidied last begun => ?_
  rw [served] at begun last
  have whole : Tidied w (advance w).2 := tidied.trans last
  obtain ⟨now, same⟩ := whole.circuit .service
  obtain ⟨cut, told⟩ := whole.beside.context ctx
  rw [← told, ← now]
  exact guarded_comes (t := t) begun (same.trans stands) (cut.trans cancelled) (now.symm ▸ refusal)

/-- A call of the service in a cancelled context comes to the cancellation if the breaker lets it in, and otherwise to the
error of the breaker, and touches nothing else on the way. A read makes nothing else of the cancellation. -/
theorem cancelledOrRefused (turn : Turn id t w) (serving : t.mode = .moving (.become (.serve ctx op)))
    (busy : State.Service.isIdle op = false) (stands : w.circuit? .service = some c)
    (cancelled : ctx.isCancelled w.scopes w.now = true) :
    ((c.breaker.refresh w.now).1.hasRoom = true →
      Comes id { t with mode := .moving (.fail (ctx.cancellation w.scopes)) } w) ∧
    ((c.breaker.refresh w.now).1.hasRoom = false →
      Comes id { t with mode := .moving (.fail (.circuitOpen c.breaker.config.name)) } w) ∧
    State.Service.found (.error (ctx.cancellation w.scopes)) = .error (ctx.cancellation w.scopes) := by
  have comes := serve_comes turn serving busy stands cancelled
  refine ⟨fun room => ?_, fun full => ?_, rfl⟩
  · obtain ⟨tag, asked⟩ := Breaker.letsIn room
    rw [asked] at comes
    exact comes nofun
  · rw [Breaker.turnsAway full] at comes
    refine comes fun e refused => ?_
    cases refused
    rfl

/-! A foreground that asks for a key in a context whose scope has been cancelled. -/

def lateContext : Context := ⟨[0], none, .nil⟩

def lateAsk : Task := ⟨.foreground, [], .moving (.become (.serve lateContext (.has "k"))), false⟩

def lateWorld (b : Breaker) : World :=
  { World.empty .initial with
    scopes := ⟨1, [0], []⟩
    circuits := [(.service, ⟨b, .none⟩)]
    service := some ⟨false, .plain⟩
    tasks := [lateAsk]
    current := some 0 }

def lateBreaker : Breaker := .make (.named "state") 0

theorem lateCancelled :
    Comes 0 { lateAsk with mode := .moving (.fail (.cancelled "context cancelled")) } (lateWorld lateBreaker) := by
  have turn : Turn 0 lateAsk (lateWorld lateBreaker) := ⟨rfl, rfl⟩
  have cancelled : lateContext.isCancelled (lateWorld lateBreaker).scopes (lateWorld lateBreaker).now = true := by decide
  obtain ⟨comes, -⟩ := cancelledOrRefused turn rfl rfl rfl cancelled
  exact comes rfl

/-- With the breaker forced open the same call is not told that its context is cancelled. -/
theorem lateRefused : ∃ w, Turn 0 lateAsk w ∧ lateContext.isCancelled w.scopes w.now = true ∧
    Comes 0 { lateAsk with mode := .moving (.fail (.circuitOpen "state")) } w ∧
    (Error.circuitOpen "state").kind ≠ .cancelled := by
  have turn : Turn 0 lateAsk (lateWorld (lateBreaker.forceOpen 0).1) := ⟨rfl, rfl⟩
  have cancelled : lateContext.isCancelled (lateWorld (lateBreaker.forceOpen 0).1).scopes
      (lateWorld (lateBreaker.forceOpen 0).1).now = true := by decide
  refine ⟨_, turn, cancelled, ?_, by decide⟩
  refine serve_comes turn rfl rfl rfl cancelled fun e refused => ?_
  cases refused
  rfl

end Switchyard.Rehearsal.Machine
