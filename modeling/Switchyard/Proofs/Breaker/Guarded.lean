import Switchyard.Proofs.Breaker.Isolation
import Switchyard.Proofs.Breaker.Trials
import Switchyard.Rehearsal.Machine
/-!
A rehearsal does to its breakers what a gate may do. A guarded call asks, and is run only if it was let in; its end
settles it and its being given up abandons it; and whoever looks at a breaker, or is told of a change and looks then,
does no more than look.
-/
namespace Switchyard.Rehearsal.Act

open Breaker (Gate Transition)

variable {α β : Type} {id : BreakerId} {w : World} {s : Gate} {c : Circuit}

/-- The breaker of a circuit, and the time, are those of a gate. -/
def Holds (id : BreakerId) (s : Gate) (w : World) : Prop :=
  w.now = s.now ∧ ∃ c, w.circuit? id = some c ∧ c.breaker = s.breaker

/-- The gate was at most looked at. -/
def Looks (id : BreakerId) (s : Gate) (w : World) : Prop :=
  ∃ ms breaker, Gate.Run s ms { s with breaker } ∧ (∀ m ∈ ms, m.isMove = true) ∧ Holds id { s with breaker } w

def Watches (id : BreakerId) (x : Act α) : Prop := ∀ s w, Holds id s w → Looks id s (x w).2

/-- What holds of telling and of looking at a breaker holds of all that is made of them. -/
structure Discreet (id : BreakerId) (P : {α : Type} → Act α → Prop) : Prop where
  pure : ∀ {α : Type} (a : α), P (Pure.pure a : Act α)
  bind : ∀ {α β : Type} {x : Act α} {f : α → Act β}, P x → (∀ a, P (f a)) → P (x >>= f)
  get : P (MonadStateOf.get : Act World)
  log : ∀ logger lines, P (log logger lines)
  report : ∀ r, P (report r)
  refreshing : P (applyTo id Breaker.refresh)

namespace Discreet

variable {P : {α : Type} → Act α → Prop}

theorem refreshed (discreet : Discreet id P) (f : Breaker → α) (other : α) : P (refreshed id f other) :=
  discreet.bind discreet.refreshing fun _ => discreet.bind discreet.get fun _ => discreet.pure _

theorem announce (discreet : Discreet id P) (depth : Nat) (changes : List Transition) : P (announce id depth changes) := by
  induction depth generalizing changes with
  | zero => exact discreet.pure ()
  | succ depth ih =>
    cases changes with
    | nil => exact discreet.pure ()
    | cons change rest =>
      refine discreet.bind discreet.get fun w => ?_
      cases w.circuit? id with
      | none => exact discreet.pure ()
      | some c =>
        refine discreet.bind (discreet.log _ _) fun _ => ?_
        by_cases tells : c.callback = .none
        · simpa [tells] using ih rest
        · by_cases queries : c.callback = .query
          · simp only [queries, ne_eq, reduceCtorEq, not_false_eq_true, if_true]
            -- the callback looks at the breaker twice
            refine discreet.bind (discreet.report _) fun _ => ?_
            refine discreet.bind (discreet.refreshed _ _) fun first => discreet.bind (ih first.2) fun _ => ?_
            refine discreet.bind (discreet.refreshed _ _) fun second => discreet.bind (ih second.2) fun _ => ?_
            exact discreet.bind (discreet.report _) fun _ => ih rest
          · simpa [tells, queries] using discreet.bind (discreet.report _) fun _ => ih rest

theorem phaseOf (discreet : Discreet id P) : P (phaseOf id) :=
  discreet.bind (discreet.refreshed _ _) fun seen => discreet.bind (discreet.announce _ seen.2) fun _ => discreet.pure _

theorem countsOf (discreet : Discreet id P) : P (countsOf id) :=
  discreet.bind (discreet.refreshed _ _) fun seen => discreet.bind (discreet.announce _ seen.2) fun _ => discreet.pure _

theorem statsOf (discreet : Discreet id P) : P (statsOf id) :=
  discreet.bind discreet.phaseOf fun _ => discreet.bind discreet.get fun _ => discreet.bind discreet.countsOf fun _ =>
    discreet.pure _

end Discreet

namespace Watches

theorem quiet {x : Act α} (now : ∀ w, (x w).2.now = w.now) (same : ∀ w, (x w).2.circuits = w.circuits) :
    Watches id x := by
  intro s w holds
  obtain ⟨time, c, there, breaker⟩ := holds
  refine ⟨[], s.breaker, .nil, by simp, (now w).trans time, c, ?_, breaker⟩
  rw [World.circuit?, same]
  exact there

theorem pure (a : α) : Watches id (Pure.pure a) := quiet (fun _ => rfl) fun _ => rfl

theorem get : Watches id (MonadStateOf.get : Act World) := quiet (fun _ => rfl) fun _ => rfl

theorem bind {x : Act α} {f : α → Act β} (first : Watches id x) (next : ∀ a, Watches id (f a)) : Watches id (x >>= f) := by
  intro s w holds
  obtain ⟨ms, breaker, run, moved, held⟩ := first s w holds
  obtain ⟨ms', breaker', run', moved', held'⟩ := next (x w).1 _ _ held
  exact ⟨ms ++ ms', breaker', run.trans run', List.forall_mem_append.mpr ⟨moved, moved'⟩, held'⟩

end Watches

theorem lookup_replaced {circuits : List (BreakerId × Circuit)} (found : circuits.lookup id = some c) (c' : Circuit) :
    (circuits.map fun (i, old) => (i, if i = id then c' else old)).lookup id = some c' := by
  induction circuits with
  | nil => cases found
  | cons entry rest ih =>
    obtain ⟨i, old⟩ := entry
    rw [List.lookup_cons] at found
    rw [List.map_cons, List.lookup_cons]
    by_cases same : id = i
    · simp [same]
    · have other : (id == i) = false := beq_false_of_ne same
      rw [other] at found ⊢
      exact ih found

theorem applyTo_run (stands : w.circuit? id = some c) (f : Breaker → Instant → Breaker × List Transition) :
    applyTo id f w = ((f c.breaker w.now).2, { w with circuits := w.circuits.map fun (i, old) =>
      (i, if i = id then { c with breaker := (f c.breaker w.now).1 } else old) }) := by
  show (applyTo id f).run w = _
  simp only [applyTo, StateT.run_modifyGet, stands]
  rfl

/-- What is done to the breaker of a circuit is done to the gate. -/
theorem holds_applyTo (stands : w.circuit? id = some c) (time : w.now = s.now)
    (f : Breaker → Instant → Breaker × List Transition) :
    (applyTo id f w).1 = (f c.breaker w.now).2 ∧ Holds id { s with breaker := (f c.breaker w.now).1 } (applyTo id f w).2 := by
  rw [applyTo_run stands]
  exact ⟨rfl, time, _, lookup_replaced stands _, rfl⟩

theorem Watches.refreshing : Watches id (applyTo id Breaker.refresh) := by
  intro s w ⟨time, c, stands, same⟩
  obtain ⟨-, held⟩ := holds_applyTo stands time Breaker.refresh
  rw [same, time] at held
  exact ⟨_, _, .next .nil (.look rfl), Gate.forall_moves fun _ => rfl, held⟩

theorem Watches.discreet : Discreet id (Watches id) where
  pure := .pure
  bind := .bind
  get := .get
  log _ _ := .quiet (fun _ => rfl) fun _ => rfl
  report _ := .quiet (fun _ => rfl) fun _ => rfl
  refreshing := .refreshing

theorem Watches.announce (depth : Nat) (changes : List Transition) : Watches id (announce id depth changes) :=
  Watches.discreet.announce depth changes

theorem Watches.phaseOf : Watches id (phaseOf id) := Watches.discreet.phaseOf

theorem Watches.countsOf : Watches id (countsOf id) := Watches.discreet.countsOf

theorem Watches.statsOf : Watches id (statsOf id) := Watches.discreet.statsOf

/-- The call is let in, or turned away with an error. -/
inductive Asks (s : Gate) : Except Error Nat → Gate → Prop where
  | letIn {changes s' tag} (joins : s'.calls = s.calls ++ [⟨s.total, tag⟩])
      (step : Gate.Step s (Gate.moves changes s.now ++ [.asked s.total (.ok tag) s.now]) s') : Asks s (.ok tag) s'
  | turnedAway {changes s' e} (stays : s'.calls = s.calls)
      (step : Gate.Step s (Gate.moves changes s.now ++ [.asked s.total (.error e) s.now]) s') : Asks s (.error e) s'

/-- What is told of an admission or a rejection, and the answer. -/
def answering (id : BreakerId) (config : Breaker.Config) (changes : List Transition) (r : Except Error Nat) :
    Act (Except Error Nat) := do
  announce id callbackDepth changes
  if r.toOption.isNone then log config.logger [Breaker.rejected config]
  return r

theorem Discreet.answering {P : {α : Type} → Act α → Prop} (discreet : Discreet id P) (config : Breaker.Config)
    (changes : List Transition) (r : Except Error Nat) : P (answering id config changes r) := by
  refine discreet.bind (discreet.announce _ _) fun _ => ?_
  split
  · exact discreet.bind (discreet.log _ _) fun _ => discreet.pure r
  · exact discreet.pure r

theorem answering_fst (config : Breaker.Config) (changes : List Transition) (r : Except Error Nat) :
    (answering id config changes r w).1 = r := by
  show ((if r.toOption.isNone = true then _ else _ : Act (Except Error Nat)) _).1 = r
  split <;> rfl

theorem acquire_run {b : Breaker} {changes : List Transition} {r : Except Error Nat} (stands : w.circuit? id = some c)
    (asked : c.breaker.acquire w.now = (b, changes, r)) :
    acquire id w = answering id b.config changes r (applyTo id (fun _ _ => (b, [])) w).2 := by
  show (acquire id).run w = _
  simp only [acquire, StateT.run_bind, StateT.run_get, pure_bind, stands, asked]
  rfl

theorem acquire_fst (stands : w.circuit? id = some c) : (acquire id w).1 = (c.breaker.acquire w.now).2.2 := by
  obtain ⟨b, changes, r, asked⟩ : ∃ b changes r, c.breaker.acquire w.now = (b, changes, r) := ⟨_, _, _, rfl⟩
  rw [acquire_run stands asked, answering_fst, asked]

theorem acquireAsks (holds : Holds id s w) : ∃ s', Asks s (acquire id w).1 s' ∧ Looks id s' (acquire id w).2 := by
  obtain ⟨time, c, stands, same⟩ := holds
  obtain ⟨b, changes, r, asked⟩ : ∃ b changes r, c.breaker.acquire w.now = (b, changes, r) := ⟨_, _, _, rfl⟩
  obtain ⟨-, held⟩ := holds_applyTo stands time fun _ _ => (b, [])
  have told : Watches id (answering id b.config changes r) := Watches.discreet.answering b.config changes r
  rw [acquire_run stands asked, answering_fst]
  rw [same, time] at asked
  cases r with
  | ok tag =>
    have step := Gate.Step.letIn asked
    exact ⟨_, .letIn rfl step, told _ _ held⟩
  | error e =>
    have step := Gate.Step.turnAway asked
    exact ⟨{ s with breaker := b, total := s.total + 1 }, .turnedAway rfl step, told _ _ held⟩

theorem operateLooks {s' : Gate} (holds : Holds id s w) (f : Breaker → Instant → Breaker × List Transition)
    (time : s'.now = s.now) (done : s'.breaker = (f s.breaker s.now).1) : Looks id s' (operate id f w).2 := by
  obtain ⟨now, c, stands, same⟩ := holds
  obtain ⟨-, held⟩ := holds_applyTo stands now f
  rw [same, now, ← done, ← time] at held
  exact Watches.announce callbackDepth (applyTo id f w).1 s' _ held

/-- A breaker that is reset or forced open takes that step. -/
theorem operateForces (holds : Holds id s w) :
    (∃ ms s', Gate.Step s (.forced .closed s.now :: ms) s' ∧ Looks id s' (operate id Breaker.reset w).2) ∧
    ∃ ms s', Gate.Step s (.forced .opened s.now :: ms) s' ∧ Looks id s' (operate id Breaker.forceOpen w).2 :=
  ⟨⟨_, _, .reset rfl, operateLooks holds Breaker.reset rfl rfl⟩,
    ⟨_, _, .forceOpen rfl, operateLooks holds Breaker.forceOpen rfl rfl⟩⟩

theorem abandonLooks {s' : Gate} (holds : Holds id s w) (tag : Nat) (time : s'.now = s.now)
    (done : s'.breaker = (s.breaker.abandon tag s.now).1) : Looks id s' (abandon id tag w).2 := by
  obtain ⟨now, c, stands, same⟩ := holds
  obtain ⟨-, held⟩ := holds_applyTo stands now fun b now => b.abandon tag now
  rw [same, now, ← done, ← time] at held
  have telling {f : List Transition → Act Unit} (told : ∀ changes, Watches id (f changes)) :
      Looks id s' ((applyTo id (fun b now => b.abandon tag now) >>= f) w).2 := told _ s' _ held
  refine telling fun changes => .bind .get fun w => ?_
  cases w.circuit? id with
  | none => exact .announce _ _
  | some c => exact .bind (.quiet (fun _ => rfl) fun _ => rfl) fun _ => .announce _ _

end Switchyard.Rehearsal.Act

namespace Switchyard.Rehearsal.Machine

open Act
open Breaker (Gate)

variable {id : BreakerId} {w : World} {s : Gate} {before after : List Gate.Call} {n tag : Nat}

/-- A guarded call is run if it was let in, and otherwise fails with the error with which it was turned away. -/
theorem guardedAsks (holds : Holds id s w) (inner : Call) :
    ∃ s', Looks id s' (start (.guarded id inner) w).2 ∧
      ((∃ tag, Asks s (.ok tag) s' ∧ (start (.guarded id inner) w).1 = .go [.admitted id tag] inner) ∨
       (∃ e, Asks s (.error e) s' ∧ (start (.guarded id inner) w).1 = .fail e)) := by
  obtain ⟨s', asks, looks⟩ := acquireAsks holds
  obtain ⟨r, w', acquired⟩ : ∃ r w', (acquire id).run w = pure (r, w') := ⟨_, _, rfl⟩
  have runs : start (.guarded id inner) w = (guarded id inner).run w := rfl
  have same : acquire id w = (r, w') := acquired
  rw [same] at asks looks
  rw [runs]
  simp only [guarded, StateT.run_bind, acquired, pure_bind]
  cases r with
  | ok tag => exact ⟨s', looks, .inl ⟨tag, asks, rfl⟩⟩
  | error e => exact ⟨s', looks, .inr ⟨e, asks, rfl⟩⟩

/-- While a break lasts, what is guarded is not run, whatever the calls that were let in before have come to. -/
theorem guardedInBreak {config : Breaker.Config} {began t : Instant} {ms : List Gate.Mark}
    (run : Gate.Run (Gate.start config began) ms s) (opened : t ∈ Gate.openings ms)
    (early : s.now < t + config.breakFor) (holds : Holds id s w) (inner : Call) :
    (start (.guarded id inner) w).1 = .fail (.circuitOpen config.name) := by
  have refused {changes : List Breaker.Transition} {r : Except Error Nat} {s' : Gate}
      (step : Gate.Step s (Gate.moves changes s.now ++ [.asked s.total r s.now]) s') :
      r = .error (.circuitOpen config.name) := by
    obtain ⟨lawful, -⟩ := Gate.stepShut step (Gate.runFair run) (Gate.runConfig run) (Gate.runShut run).2
    have law : Gate.Isolates config (ms ++ Gate.moves changes s.now) (.asked s.total r s.now) := lawful.split
    refine law t ?_ early
    rw [Gate.openings_append]
    exact Gate.noted_mem (Gate.forall_moves fun _ => rfl) opened
  obtain ⟨s', -, ⟨tag, asks, -⟩ | ⟨e, asks, fails⟩⟩ := guardedAsks holds inner
  · cases asks with
    | letIn joins step => cases refused step
  · cases asks with
    | turnedAway stays step =>
      cases refused step
      exact fails

def ended : Ended → Outcome Unit
  | .value _ => .value ()
  | .failure e => .failure e
  | .panic m => .panic m

theorem admittedSettles (holds : Holds id s w) (stands : s.calls = before ++ ⟨n, tag⟩ :: after) (o : Ended) :
    ∃ ms s', Gate.Step s (.ended n tag (ended o) s.now :: ms) s' ∧ s'.calls = before ++ after ∧
      Looks id s' (resume (.admitted id tag) o w).2 ∧ (resume (.admitted id tag) o w).1 = .give o := by
  have same : s.breaker.config.succeeds (ended o) = s.breaker.config.succeeds o := by cases o <;> rfl
  have runs : resume (.admitted id tag) o w =
      (.give o, (operate id (fun b now => b.settle tag (s.breaker.config.succeeds o) now) w).2) := by
    obtain ⟨-, c, there, breaker⟩ := holds
    show (resume (.admitted id tag) o).run w = _
    simp only [resume, settle, StateT.run_bind, StateT.run_get, pure_bind, there, breaker]
    rfl
  rw [runs, ← same]
  exact ⟨_, _, .settle (ended o) stands rfl, rfl, operateLooks holds _ rfl rfl, rfl⟩

theorem undoAbandons (holds : Holds id s w) (stands : s.calls = before ++ ⟨n, tag⟩ :: after) :
    ∃ ms s', Gate.Step s (.dropped n tag s.now :: ms) s' ∧ s'.calls = before ++ after ∧
      Looks id s' (undo (.admitted id tag) w).2 :=
  ⟨_, _, .abandon stands rfl, rfl, abandonLooks holds tag rfl rfl⟩

/-! ### The calls of the service -/

variable {ctx : Context} {op : State.Op}

/-- A deletion makes something of the error of a missing key. -/
def servingFrames : State.Op → List Frame
  | .delete _ => [.deleted]
  | _ => []

/-- Whatever the service does with the store or the cache it does inside its breaker, within the context. -/
theorem servesGuarded (busy : State.Service.isIdle op = false) : start (.serve ctx op) w =
    (.go (servingFrames op) (.guarded .service (.within ctx
      (if w.service.any (·.cached) then .cached op else .ask op))), w) := by
  have runs : start (.serve ctx op) w = (Storage.serve ctx op).run w := rfl
  rw [runs]
  simp only [Storage.serve, busy, Bool.false_eq_true, if_false, StateT.run_bind, StateT.run_get, pure_bind]
  cases op <;> rfl

/-- Within a cancelled context nothing is begun. -/
theorem withinCut (cancelled : ctx.isCancelled w.scopes w.now = true) (inner : Call) :
    start (.within ctx inner) w = (.fail (ctx.cancellation w.scopes), w) := by
  have runs : start (.within ctx inner) w = (within ctx inner).run w := rfl
  rw [runs]
  simp only [within, check, Context.check, cancelled, if_true, StateT.run_bind, StateT.run_get, pure_bind]
  rfl

end Switchyard.Rehearsal.Machine
