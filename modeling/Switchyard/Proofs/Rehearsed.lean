import Switchyard.Proofs.Events.Stage
import Switchyard.Proofs.State.Front
import Switchyard.Rehearsal.Machine
/-!
A rehearsal does to its bus and to its cache what the open bus and the open cache may do. Where it adds an event, asks
for the lock or gives it up, where a drain goes on or is given up, and where a stage that drains the bus is reached, the
bus takes a step, but for the numbers of the events; where a call of the cache begins, has waited or is answered, and
where the batch writer stops or the sweeper looks, memory and the channel take one; and a shutdown takes the tasks and
waits for them as one among others does.
-/
namespace Switchyard.Rehearsal.Act

variable {w : World}

theorem wakeAll_apart (ids : List Nat) :
    (wakeAll ids w).2.now = w.now ∧ (wakeAll ids w).2.bus = w.bus ∧ (wakeAll ids w).2.cache = w.cache := by
  obtain ⟨again, ready, roused⟩ := wakeAll_rouses ids w
  rw [roused]
  exact ⟨rfl, rfl, rfl⟩

theorem wakeSenders_apart (tickets : List Nat) : (wakeSenders tickets w).2.cache = w.cache := by
  induction tickets generalizing w with
  | nil => rfl
  | cons k rest ih => exact ih.trans (wakeAll_apart _).2.2

end Switchyard.Rehearsal.Act

namespace Switchyard.Events

variable {β : Type}

def Event.plain (e : Posted β) : Event β := ⟨e.shape, e.metadata, e.label, e.payload, e.body.2⟩

namespace Bus

def plain (b : Bus (Nat × β)) : Bus β :=
  ⟨b.queue.map Event.plain, b.lock, b.ignoreMissing, b.messaging, b.logger⟩

def Next.plain : Next (Nat × β) → Next β
  | .notify e => .notify e.plain
  | .send e m => .send e.plain m
  | .again d => .again d
  | .finish r => .finish r

def Stand.plain (s : Stand (Nat × β)) : Stand β := ⟨s.bus.plain, s.lines, s.next.plain⟩

variable {b : Bus (Nat × β)} {d : Drain} {e : Posted β} {now : Stamp} {lines : List Log.Line}

theorem plain_add (e : Event β) (n : Nat) : (b.add (e.numbered n)).plain = b.plain.add e := by
  simp [add, plain, Event.plain, Event.numbered]

theorem plain_outward : b.plain.outward d e.plain now lines = (b.outward d e now lines).plain := by
  have external : e.plain.metadata.external = e.metadata.external := rfl
  have messaging : b.plain.messaging = b.messaging := rfl
  have message : e.plain.message now = e.message now := rfl
  rw [outward, outward, external, messaging, message]
  split
  · split
    · split <;> rfl
    · rfl
  · rfl

theorem plain_notified (r : Except Error Unit) : b.plain.notified d e.plain r now = (b.notified d e r now).plain := by
  have ignoreMissing : b.plain.ignoreMissing = b.ignoreMissing := rfl
  cases r with
  | ok => exact plain_outward (e := e.delivered)
  | error err =>
    simp only [notified, ignoreMissing]
    split
    · exact plain_outward (e := e.delivered)
    · rfl

theorem plain_sent (r : Except Error Unit) : b.plain.sent d e.plain r = (b.sent d e r).plain := by
  cases r <;> rfl

theorem plain_advance (check : Except Error Unit) : b.plain.advance d check now = (b.advance d check now).plain := by
  cases check with
  | error => rfl
  | ok =>
    obtain ⟨queue, lock, ignoreMissing, messaging, logger⟩ := b
    cases queue with
    | nil => rfl
    | cons e rest =>
      have published : (e.plain.takenUp d.started).metadata.published = (e.takenUp d.started).metadata.published := rfl
      simp only [advance, plain, List.map_cons, published]
      split
      · exact plain_outward (b := ⟨rest, lock, ignoreMissing, messaging, logger⟩) (e := e.takenUp d.started)
      · rfl

end Bus

namespace Traffic

open Rehearsal

def followUp (d : Bus.Drain) : Bus.Next Raised → Move
  | .notify e => .go [.notifying d e] (.notify d.ctx e)
  | .send e m => .go [.caught, .sending d e] (.within d.ctx (.transmit m))
  | .again d => .become (.drainQueue d)
  | .finish (.ok ()) => .value .unit
  | .finish (.error err) => .fail err

/-- What was done with the state of a rehearsal is a move of the call, and what comes next is what the move leads to. -/
def Takes (b : Bus (Nat × Raised)) (c : Call Raised) (done : Move × World) : Prop :=
  ∃ ms b' c', Moves b c ms b' c' ∧ done.2.bus = some b'.plain ∧
    ((∃ d next, c' = .ofNext d next ∧ done.1 = followUp d next.plain) ∨ (c' = .leaving ∧ ∃ o, done.1 = .give o))

variable {w : World} {b : Bus (Nat × Raised)} {d : Bus.Drain} {e : Posted Raised}

theorem proceedTakes {c : Call Raised} {ms : List (Mark Raised)} {stand : Bus.Stand (Nat × Raised)}
    (moves : Moves b c ms stand.bus (.ofNext d stand.next)) (w : World) :
    Takes b c (Publishing.proceed d stand.plain w) := by
  refine ⟨ms, stand.bus, _, moves, ?_⟩
  obtain ⟨bus, lines, next⟩ := stand
  cases next with
  | finish r => cases r <;> exact ⟨rfl, .inl ⟨d, _, rfl, rfl⟩⟩
  | notify | send | again => exact ⟨rfl, .inl ⟨d, _, rfl, rfl⟩⟩

theorem drainQueueTakes (stands : w.bus = some b.plain) : Takes b (.draining d) (Machine.start (.drainQueue d) w) := by
  have runs : Machine.start (.drainQueue d) w =
      Publishing.proceed d (b.plain.advance d (d.ctx.check w.scopes w.now) d.started) w := by
    obtain ⟨⟩ := w
    cases stands
    rfl
  rw [runs, Bus.plain_advance]
  exact proceedTakes (.advances d _ _ rfl) w

theorem restoreTakes {c : Call Raised} (stands : w.bus = some b.plain) (holds : c.held = some e) (m : String) :
    Takes b c (.give (.panic m), (Publishing.restore e.plain w).2) := by
  refine ⟨_, _, _, .restores holds, ?_, .inr ⟨rfl, _, rfl⟩⟩
  obtain ⟨⟩ := w
  cases stands
  rfl

/-- A drain goes on after its event was published in process, whether the handler was reached or not. -/
theorem notifyingTakes (stands : w.bus = some b.plain) (o : Ended) :
    Takes b (.handling d e) (Machine.resume (.notifying d e.plain) o w) ∧
    ((∀ v, o ≠ .value v) → Takes b (.notifying d e) (Machine.resume (.notifying d e.plain) o w)) := by
  have runs (r : Except Error Unit) : Publishing.notified d e.plain r w =
      Publishing.proceed d (b.notified d e r d.started).plain w := by
    rw [← Bus.plain_notified]
    obtain ⟨⟩ := w
    cases stands
    rfl
  cases o with
  | value v =>
    refine ⟨?_, fun other => absurd rfl (other v)⟩
    show Takes b _ (Publishing.notified d e.plain (.ok ()) w)
    rw [runs]
    exact proceedTakes (.handled d e (.value ()) _ rfl) w
  | failure err =>
    show Takes b _ (Publishing.notified d e.plain (.error err) w) ∧
      (_ → Takes b _ (Publishing.notified d e.plain (.error err) w))
    rw [runs]
    exact ⟨proceedTakes (.handled d e (.failure err) _ rfl) w, fun _ => proceedTakes (.refused d e err _ rfl) w⟩
  | panic m => exact ⟨restoreTakes stands rfl m, fun _ => restoreTakes stands rfl m⟩

/-- A drain goes on after the messaging side, whether that was reached or not. -/
theorem sendingTakes (stands : w.bus = some b.plain) (m : Message) (o : Ended) :
    Takes b (.transmitting d e m) (Machine.resume (.sending d e.plain) o w) ∧
    ((∀ v, o ≠ .value v) → Takes b (.sending d e m) (Machine.resume (.sending d e.plain) o w)) := by
  have runs (r : Except Error Unit) : Publishing.sent d e.plain r w =
      Publishing.proceed d (b.sent d e r).plain w := by
    rw [← Bus.plain_sent]
    obtain ⟨⟩ := w
    cases stands
    rfl
  cases o with
  | value v =>
    refine ⟨?_, fun other => absurd rfl (other v)⟩
    show Takes b _ (Publishing.sent d e.plain (.ok ()) w)
    rw [runs]
    exact proceedTakes (.replied d e m (.value ()) rfl) w
  | failure err =>
    show Takes b _ (Publishing.sent d e.plain (.error err) w) ∧
      (_ → Takes b _ (Publishing.sent d e.plain (.error err) w))
    rw [runs]
    exact ⟨proceedTakes (.replied d e m (.failure err) rfl) w, fun _ => proceedTakes (.withheld d e m err rfl) w⟩
  | panic text => exact ⟨restoreTakes stands rfl text, fun _ => restoreTakes stands rfl text⟩

theorem undoTakes {c : Call Raised} {f : Frame} (stands : w.bus = some b.plain) (holds : c.held = some e)
    (frame : f = .notifying d e.plain ∨ f = .sending d e.plain) :
    Moves b c [] (b.restore e) .leaving ∧ (Machine.undo f w).2.bus = some (b.restore e).plain := by
  refine ⟨.restores holds, ?_⟩
  obtain ⟨⟩ := w
  cases stands
  rcases frame with rfl | rfl <;> rfl

/-! ### The lock -/

variable {s : Traffic Raised} {before after : List (Call Raised)} {k : Nat}

theorem lockSteps (stands : w.bus = some s.bus.plain) (fresh : w.tickets ∉ tickets s.calls) :
    ∃ s' c, Step s [] s' ∧ s'.calls = s.calls ++ [c] ∧ (Machine.start .lock w).2.bus = some s'.bus.plain ∧
      ((c = .admitted ∧ (Machine.start .lock w).1 = .value .unit) ∨
       (c = .waiting w.tickets ∧ (Machine.start .lock w).1 = .park (.lock w.tickets))) := by
  have same : s.bus.plain.lock.take? = s.bus.lock.take? := rfl
  cases taken : s.bus.lock.take? with
  | some lock =>
    have runs : Machine.start .lock w = (.value .unit, { w with bus := some { s.bus.plain with lock } }) := by
      show Publishing.lock.run w = _
      simp only [Publishing.lock, Publishing.setBus, bind_pure_comp, StateT.run_bind, StateT.run_get, pure_bind,
        stands, same, taken, StateT.run_map, StateT.run_modify, map_pure]
      rfl
    rw [runs]
    exact ⟨_, _, .ask taken, rfl, rfl, .inl ⟨rfl, rfl⟩⟩
  | none =>
    have runs : Machine.start .lock w = (.park (.lock w.tickets),
        { w with tickets := w.tickets + 1, bus := some { s.bus.plain with lock := s.bus.lock.join w.tickets } }) := by
      show Publishing.lock.run w = _
      simp only [Publishing.lock, Publishing.setBus, bind_pure_comp, Act.ticket, StateT.run_bind, StateT.run_get,
        pure_bind, stands, same, taken, StateT.run_modifyGet, StateT.run_map, StateT.run_modify, map_pure]
      rfl
    rw [runs]
    exact ⟨_, _, .line _ taken fresh, rfl, rfl, .inr ⟨rfl, rfl⟩⟩

theorem releaseLock_bus {b : Bus (Nat × Raised)} (stands : w.bus = some b.plain) :
    (Act.releaseLock w).2.bus = some b.unlock.plain := by
  have same : b.plain.lock.release = b.lock.release := rfl
  show (Act.releaseLock.run w).2.bus = _
  cases next : b.lock.release.2 with
  | none =>
    simp only [Act.releaseLock, StateT.run_bind, StateT.run_get, pure_bind, stands, same, next, bind_pure_comp,
      id_map', StateT.run_set]
    rfl
  | some k =>
    simp only [Act.releaseLock, StateT.run_bind, StateT.run_get, pure_bind, stands, same, next, StateT.run_set]
    exact (Act.wakeAll_apart _).2.1

theorem releaseSteps {c : Call Raised} (stands : w.bus = some s.bus.plain) (calls : s.calls = before ++ c :: after)
    (owner : c.owns s.bus.lock = true) (free : c.held = none) :
    ∃ s', Step s [] s' ∧ s'.calls = before ++ after ∧ (Act.releaseLock w).2.bus = some s'.bus.plain :=
  ⟨_, .finish calls owner free, rfl, releaseLock_bus stands⟩

/-- A call in line that is given up leaves the line, or hands the lock on. -/
theorem giveUpSteps (stands : w.bus = some s.bus.plain) (calls : s.calls = before ++ .waiting k :: after) :
    ∃ s', Step s [] s' ∧ s'.calls = before ++ after ∧ (Act.giveUp (.lock k) w).2.bus = some s'.bus.plain := by
  have same : s.bus.plain.lock = s.bus.lock := rfl
  by_cases inLine : k ∈ s.bus.lock.waiting
  · refine ⟨_, .leave calls inLine, rfl, ?_⟩
    show ((Act.giveUp (.lock k)).run w).2.bus = _
    simp only [Act.giveUp, List.contains_eq_mem, decide_eq_true_eq, StateT.run_bind, StateT.run_get, pure_bind,
      stands, same, inLine, ↓reduceIte, StateT.run_set]
    rfl
  · have runs : Act.giveUp (.lock k) w = Act.releaseLock w := by
      show (Act.giveUp (.lock k)).run w = _
      simp only [Act.giveUp, List.contains_eq_mem, decide_eq_true_eq, StateT.run_bind, StateT.run_get, pure_bind,
        stands, same, inLine, ↓reduceIte]
      rfl
    rw [runs]
    exact releaseSteps stands calls (by simpa [Call.owns] using inLine) rfl

theorem tryDrain_free {b : Bus (Nat × Raised)} {lock : Lock} (stands : w.bus = some b.plain)
    (free : b.lock.take? = some lock) (ctx : Context) : Machine.start (.tryDrain ctx) w =
      (.go [.lockHeld, .flagged] (.locked ctx), { w with bus := some { b.plain with lock } }) := by
  have same : b.plain.lock.take? = b.lock.take? := rfl
  show (Publishing.tryDrain ctx).run w = _
  simp only [Publishing.tryDrain, Publishing.setBus, bind_pure_comp, StateT.run_bind, StateT.run_get, pure_bind,
    stands, same, free, StateT.run_map, StateT.run_modify, map_pure]
  rfl

theorem tryDrain_taken {b : Bus (Nat × Raised)} (stands : w.bus = some b.plain) (taken : b.lock.take? = none)
    (ctx : Context) : (Machine.start (.tryDrain ctx) w).1 = .value (.flag false) ∧
      (Machine.start (.tryDrain ctx) w).2.bus = w.bus := by
  have same : b.plain.lock.take? = b.lock.take? := rfl
  show ((Publishing.tryDrain ctx).run w).1 = _ ∧ ((Publishing.tryDrain ctx).run w).2.bus = w.bus
  simp only [Publishing.tryDrain, bind_pure_comp, StateT.run_bind, StateT.run_get, pure_bind, stands, same, taken,
    StateT.run_map]
  exact ⟨rfl, stands⟩

theorem tryDrainSteps (stands : w.bus = some s.bus.plain) (ctx : Context) :
    (∃ s', Step s [] s' ∧ s'.calls = s.calls ++ [.admitted] ∧
      (Machine.start (.tryDrain ctx) w).2.bus = some s'.bus.plain ∧
      (Machine.start (.tryDrain ctx) w).1 = .go [.lockHeld, .flagged] (.locked ctx)) ∨
    ((Machine.start (.tryDrain ctx) w).2.bus = w.bus ∧
      (Machine.start (.tryDrain ctx) w).1 = .value (.flag false)) := by
  cases taken : s.bus.lock.take? with
  | some lock =>
    rw [tryDrain_free stands taken]
    exact .inl ⟨_, .ask taken, rfl, rfl, rfl⟩
  | none => exact .inr (tryDrain_taken stands taken ctx).symm

/-- An event is added, and the identity that it goes by from now on is the reply. -/
theorem addSteps (event : Rehearsal.Event) (w : World) :
    ∃ posted s', Step s [.added posted] s' ∧ (Steps.add event s.bus.plain w).2.bus = some s'.bus.plain ∧
      (Steps.add event s.bus.plain w).1 = .ident posted.id := by
  have goesOn (id : Ident) (now : Stamp) : ∃ posted s', Step s [.added posted] s' ∧
      some (s.bus.plain.add (event.queued.stamp id now)) = some s'.bus.plain ∧
      Reply.ident (event.queued.stamp id now).id = .ident posted.id :=
    ⟨_, _, .add event.queued id now rfl, by rw [← Bus.plain_add], rfl⟩
  show ∃ posted s', _ ∧ ((Steps.add event s.bus.plain).run w).2.bus = _ ∧ ((Steps.add event s.bus.plain).run w).1 = _
  cases hid : event.queued.metadata.id <;> cases hnow : event.queued.metadata.createdAt <;>
    simp only [Steps.add, hid, hnow, Act.draw, Act.reading, bind_pure_comp, pure_bind, StateT.run_bind,
      StateT.run_modifyGet, StateT.run_map, StateT.run_modify, map_pure] <;>
    exact goesOn _ _

/-- A drain that has the lock and finds events begins at a reading of the clock, once the breaker lets it. -/
theorem lockedBegins (stands : w.bus = some b.plain) (filled : b.queue ≠ []) (ctx : Context) :
    Moves b .admitted [] b (.draining ⟨ctx, (Act.reading w).1, 0⟩) ∧
    (Machine.start (.locked ctx) w).1 = .become (.guarded .bus (.drainQueue ⟨ctx, (Act.reading w).1, 0⟩)) := by
  have unfinished : b.plain.queue.isEmpty = false := by
    cases queue : b.queue with
    | nil => exact absurd queue filled
    | cons e rest => simp [Bus.plain, queue]
  refine ⟨.begins ctx _ filled, ?_⟩
  show ((Publishing.locked ctx).run w).1 = _
  simp only [Publishing.locked, StateT.run_bind, StateT.run_get, pure_bind, stands, unfinished, Bool.false_eq_true,
    if_false]
  rfl

end Traffic

/-! ### The stage that drains the bus -/

namespace Sending

open Rehearsal Dispatch

variable {w : World} {s : Sending Raised Response} {n : Nat} {logger : Log.Logger} {type : RequestType}
  {inner : Except Error Response}

/-- What the stage does with the answer of its drain, and with the news that another drain is under way. -/
theorem drainedAfterReturns (o : Ended) : (Machine.resume (.drainedAfter logger type inner) o w).1 =
    match o with
    | .value _ => .ofResponse (afterDrain type.shape.key inner (.ok true)).1
    | .failure e => .ofResponse (afterDrain type.shape.key inner (.error e)).1
    | .panic m => .give (.panic m) := by
  cases o <;> rfl

/-- A stage whose rest of the chain has answered takes the lock for a drain of its own, or goes on at once. -/
theorem stageSteps {before after : List (Nat × String × Option (Except Error Response))}
    (stands : w.bus = some s.bus.plain) (within : s.within = before ++ (n, type.shape.key, some inner) :: after)
    (ctx : Context) :
    (∃ s', Step s [] s' ∧ (Machine.start (.tryDrain ctx) w).2.bus = some s'.bus.plain ∧
      (Machine.start (.tryDrain ctx) w).1 = .go [.lockHeld, .flagged] (.locked ctx)) ∨
    (∃ s' r, Step s [.returned n r] s' ∧ (Machine.start (.tryDrain ctx) w).2.bus = some s'.bus.plain ∧
      (Machine.start (.tryDrain ctx) w).1 = .value (.flag false) ∧
      ∀ w', (Machine.resume (.drainedAfter logger type inner) (.value (.flag false)) w').1 = .ofResponse r) := by
  cases taken : s.bus.lock.take? with
  | some lock =>
    rw [Traffic.tryDrain_free stands taken]
    exact .inl ⟨_, .take within taken, rfl, rfl⟩
  | none =>
    obtain ⟨goesOn, same⟩ := Traffic.tryDrain_taken stands taken ctx
    exact .inr ⟨_, _, .skip within taken, same.trans stands, goesOn, fun w' => drainedAfterReturns _⟩

/-- After its last look at the queue a drain does not wait any more: the breaker hears of it, and the lock is given
up. -/
theorem closeSteps {before after : List (Caller Raised Response)} {role : Role Response} {c : Traffic.Call Raised}
    {ms : List (Traffic.Mark Raised)} {bus : Bus (Nat × Raised)} {r : Except Error Unit}
    (calls : s.callers = before ++ ⟨n, role, c⟩ :: after) (closes : Traffic.Closes s.bus c ms bus r)
    (stands : w.bus = some bus.plain) (o : Ended) :
    (∃ s', Run s (ms.map (.did n) ++ .ended n r :: (role.answered r).report n) s' ∧
      (Machine.resume .lockHeld o w).2.bus = some s'.bus.plain) ∧
    (Machine.resume .lockHeld o w).1 = .give o ∧
    ∀ on generation, (Machine.resume (.admitted on generation) o w).1 = .give o := by
  have closed := Runs.next .nil (Step.close calls closes)
  have unlocked := closed.next (.letGo rfl rfl rfl)
  rw [List.nil_append, List.append_assoc] at unlocked
  exact ⟨⟨_, unlocked, Traffic.releaseLock_bus stands⟩, rfl, fun _ _ => rfl⟩

end Sending
end Switchyard.Events

namespace Switchyard.State.Front

open Rehearsal

variable {w : World} {c : Cache} {op : Op} {p : Pending} {item : KeyValue}

/-- What comes after a stage, once memory and the channel are as given. -/
def Follows (c : Cache) (now : Instant) (memory : Memory) (channel : Channel) (n : Nat) (op : Op) :
    Stage → Move × World → Prop
  | .asked p, done => done.1 = .go [.cached p] (.ask op) ∧ done.2.cache = some { c with memory, channel }
  | .placing item p, done =>
    done.1 = .go [.placed item p n] (.await (.place n)) ∧ done.2.cache = some { c with memory, channel }
  | .answered p r, done => ∃ memory' r', memory.finish c.config p r now = (memory', r') ∧
    done.1 = .ofAnswer r' ∧ done.2.cache = some { c with memory := memory', channel }

variable {memory : Memory} {channel : Channel}

theorem finishFollows {r : Except Error Answer} (stands : w.cache = some { c with memory, channel }) (n : Nat)
    (op : Op) : Follows c w.now memory channel n op (.answered p r) (Storage.finish p r w) := by
  obtain ⟨⟩ := w
  cases stands
  exact ⟨_, _, rfl, rfl, rfl⟩

theorem pushFollows (stands : w.cache = some { c with memory, channel }) (n : Nat) (op : Op) :
    Follows c w.now memory (channel.push item) n op (.answered p (.ok .done)) (Storage.push item p w) := by
  let pushed : World := { w with cache := some { c with memory, channel := channel.push item } }
  have runs : Storage.push item p w = Storage.finish p (.ok .done) (Act.wakeWriter pushed).2 := by
    obtain ⟨⟩ := w
    cases stands
    rfl
  obtain ⟨now, -, cache⟩ : (Act.wakeWriter pushed).2.now = w.now ∧ (Act.wakeWriter pushed).2.bus = w.bus ∧
    (Act.wakeWriter pushed).2.cache = pushed.cache := Act.wakeAll_apart _
  rw [runs, ← now]
  exact finishFollows cache n op

/-- A call begins: it is served, asks the store, or goes to the batch writer. -/
theorem cachedFollows {begun : Begun} (stands : w.cache = some c)
    (begins : c.memory.begin c.config op w.now = (memory, begun)) :
    ∃ channel stage marks, Enters c.channel w.tickets begun channel stage marks ∧
      Follows c w.now memory channel w.tickets op stage (Machine.start (.cached op) w) := by
  have runs : Machine.start (.cached op) w = (Storage.cached op).run w := rfl
  rw [runs]
  cases begun with
  | served a =>
    refine ⟨_, _, _, .served a, memory, .ok a, rfl, ?_⟩
    simp only [Storage.cached, Storage.setMemory, StateT.run_bind, StateT.run_get, pure_bind, stands, begins,
      bind_pure_comp, StateT.run_map, StateT.run_modify, Option.map_some, map_pure]
    exact ⟨rfl, rfl⟩
  | ask p =>
    refine ⟨_, _, _, .asks p, ?_⟩
    simp only [Storage.cached, Storage.setMemory, StateT.run_bind, StateT.run_get, pure_bind, stands, begins,
      bind_pure_comp, StateT.run_map, StateT.run_modify, Option.map_some, map_pure]
    exact ⟨rfl, rfl⟩
  | queue item p =>
    obtain ⟨channel, admission, given⟩ : ∃ channel admission, c.channel.reserve w.tickets = (channel, admission) :=
      ⟨_, _, rfl⟩
    let after : World := { w with tickets := w.tickets + 1, cache := some { c with memory, channel } }
    simp only [Storage.cached, Storage.setMemory, Act.ticket, Act.setChannel, StateT.run_bind, StateT.run_get,
      pure_bind, stands, begins, StateT.run_modify, Option.map_some, StateT.run_modifyGet, given]
    cases admission with
    | granted =>
      have pushed : Follows c w.now memory (channel.push item) w.tickets op (.answered p (.ok .done))
        (Storage.push item p after) := pushFollows (w := after) rfl w.tickets op
      exact ⟨_, _, _, .accepted item p given, pushed⟩
    | wait => exact ⟨_, _, _, .waits item p given, rfl, rfl⟩
    | refused =>
      have finished : Follows c w.now memory channel w.tickets op (.answered p (.error writerStopped))
        (Storage.finish p (.error writerStopped) after) := finishFollows (w := after) rfl w.tickets op
      exact ⟨_, _, _, .refused item p given, finished⟩

theorem claim_over {k : Nat} {admission : Admission} {c c' : Channel} (claimed : c.claim k = (c', admission))
    (ends : (c.closed || c.granted.contains k) = true) : admission ≠ .wait := by
  rintro rfl
  unfold Channel.claim at claimed
  split at claimed
  · cases claimed
  · split at claimed
    · cases claimed
    · simp_all

/-- A call that waited for a place has it, or is refused. -/
theorem placedFollows {v : Value} {k : Nat} (shelf : Shelf) (queued : List KeyValue) (stands : w.cache = some c)
    (ends : (c.channel.closed || c.channel.granted.contains k) = true) :
    ∃ marks channel r, Moves shelf c.channel queued k op (.placing item p) marks shelf channel (.answered p r) ∧
      Follows c w.now c.memory channel k op (.answered p r) (Machine.resume (.placed item p k) (.value v) w) := by
  have runs : Machine.resume (.placed item p k) (.value v) w = (Storage.placed item p k).run w := rfl
  obtain ⟨channel, admission, claimed⟩ : ∃ channel admission, c.channel.claim k = (channel, admission) := ⟨_, _, rfl⟩
  let after : World := { w with cache := some { c with channel } }
  rw [runs]
  simp only [Storage.placed, Act.setChannel, StateT.run_bind, StateT.run_get, pure_bind, stands, claimed,
    StateT.run_modify, Option.map_some]
  cases admission with
  | granted =>
    have pushed : Follows c w.now c.memory (channel.push item) k op (.answered p (.ok .done))
      (Storage.push item p after) := pushFollows (w := after) rfl k op
    exact ⟨_, _, _, .accepted item p claimed, pushed⟩
  | refused =>
    have finished : Follows c w.now c.memory channel k op (.answered p (.error writerStopped))
      (Storage.finish p (.error writerStopped) after) := finishFollows (w := after) rfl k op
    exact ⟨_, _, _, .refused item p claimed, finished⟩
  | wait => exact absurd rfl (claim_over claimed ends)

/-- The store does what it was asked, or meets with a failure that was put in. -/
theorem performFollows (channel : Channel) (queued : List KeyValue) (n : Nat)
    (honest : ∀ e, (Testing.Failure.take w.store.failure).2 = some e → e.isNotFound = false) :
    ∃ marks r, Moves w.store.value? channel queued n op (.asked p) marks
        (Machine.resume (.asked op) (.value .unit) w).2.store.value? channel (.answered p r) ∧
      (Machine.resume (.asked op) (.value .unit) w).1 = .ofAnswer r := by
  have runs : Machine.resume (.asked op) (.value .unit) w =
    (.ofAnswer (w.store.perform op).2, { w with store := (w.store.perform op).1 }) := rfl
  rw [runs]
  unfold Testing.Store.perform
  split
  · rename_i left e taken
    exact ⟨_, _, .fails p e (honest e (by rw [taken])), rfl⟩
  · rename_i left taken
    let ready : Testing.Store := { w.store with failure := left }
    have data : (ready.apply op).1.value? = Shelf.apply w.store.value? op := (Testing.Store.apply_shelf ready op).1
    have answer : (ready.apply op).2 = Shelf.answer w.store.value? op := (Testing.Store.apply_shelf ready op).2
    have lands : Moves w.store.value? channel queued n op (.asked p) [.landed n op queued] (ready.apply op).1.value?
        channel (.answered p (ready.apply op).2) := by
      rw [data, answer]
      exact .lands p
    exact ⟨_, _, lands, rfl⟩

/-! ### The batch writer and the sweeper -/

/-- A writer that stops refuses further items and takes those that are left. -/
theorem closeWriterFollows (stands : w.cache = some c) :
    (Machine.start .closeWriter w).2.cache = some { c with channel := c.channel.close.1.drain.1 } ∧
      (c.channel.queue ≠ [] → (Machine.start .closeWriter w).1 = .become (.flush c.channel.queue .stop)) := by
  obtain ⟨after, runs, closed⟩ : ∃ after, Act.closeChannel.run w = pure ((), after) ∧
      after.cache = some { c with channel := c.channel.close.1 } := by
    refine ⟨(Act.wakeSenders c.channel.close.2 { w with cache := some { c with channel := c.channel.close.1 } }).2, ?_,
      Act.wakeSenders_apart _⟩
    obtain ⟨⟩ := w
    cases stands
    rfl
  have starts : Machine.start .closeWriter w = Storage.closeWriter.run w := rfl
  rw [starts]
  have left : c.channel.close.1.drain.2 = c.channel.queue := rfl
  simp only [Storage.closeWriter, Act.setChannel, StateT.run_bind, StateT.run_get, StateT.run_modify, pure_bind, runs,
    closed, left, Option.map_some]
  cases c.channel.queue with
  | nil => exact ⟨rfl, fun filled => absurd rfl filled⟩
  | cons item rest => exact ⟨rfl, fun _ => rfl⟩

/-- A flush hands the store each key of its window once. -/
theorem flushFollows (window : List KeyValue) (after : AfterFlush) (w : World) :
    ∃ ctx, (Machine.start (.flush window after) w).1 =
      .go [.flushed (dedupe window).length after] (.within ctx (.ask (.batchSet (dedupe window)))) :=
  ⟨_, rfl⟩

theorem beginStop_runs (stands : w.cache = some c) : ∃ after, Storage.beginStop.run w = pure ((), after) ∧
    after.cache = some { c with stopping := true } := by
  cases stops : c.stopping with
  | true =>
    refine ⟨w, ?_, ?_⟩
    · simp only [Storage.beginStop, StateT.run_bind, StateT.run_get, pure_bind, stands, stops]
      rfl
    · rw [stands, ← stops]
  | false =>
    let stopped : World := { w with cache := some { c with stopping := true } }
    refine ⟨(Act.wakeWriter (Act.wakeSweeper stopped).2).2, ?_, ?_⟩
    · simp only [Storage.beginStop, StateT.run_bind, StateT.run_get, pure_bind, stands, stops]
      rfl
    · exact (Act.wakeAll_apart _).2.2.trans (Act.wakeAll_apart _).2.2

/-- A shutdown tells the tasks to stop, takes their handles, and waits for those that it has taken. -/
theorem stopCacheFollows (stands : w.cache = some c) :
    (Machine.start .stopCache w).1 = .become (.join c.tasks) ∧
      (Machine.start .stopCache w).2.cache = some { c with stopping := true, tasks := [] } := by
  obtain ⟨after, runs, stopped⟩ := beginStop_runs stands
  have starts : Machine.start .stopCache w = Storage.stopCache.run w := rfl
  rw [starts]
  simp only [Storage.stopCache, StateT.run_bind, runs, pure_bind, StateT.run_get, StateT.run_modify, stopped,
    Option.map_some, Option.getD_some]
  exact ⟨rfl, rfl⟩

/-- It waits for one task after the other, and for nothing if there are none. -/
theorem joinFollows (task : Nat) (rest : List Nat) (w : World) :
    Machine.start (.join []) w = (.value .unit, w) ∧
      Machine.start (.join (task :: rest)) w = (.go [.joining task rest] (.await (.ending task)), w) ∧
      ∀ v, (Machine.resume (.joining task rest) (.value v) w).1 = (Machine.start (.join rest) w).1 := by
  refine ⟨rfl, rfl, fun v => ?_⟩
  have starts : ∀ w', ((Storage.join rest).run w').1 = (Machine.start (.join rest) w).1 := by
    intro w'
    cases rest <;> rfl
  show ((Storage.joined task rest).run w).1 = _
  simp only [Storage.joined, StateT.run_bind, StateT.run_get, pure_bind]
  split <;> exact starts _

/-- The sweeper drops what has expired, or leaves the cache alone. -/
theorem sweepFollows (stands : w.cache = some c) (due : Instant) :
    (Storage.sweep due w).2.cache = some c ∨
      (Storage.sweep due w).2.cache = some { c with memory := (c.memory.purge w.now).1 } := by
  show ((Storage.sweep due).run w).2.cache = _ ∨ ((Storage.sweep due).run w).2.cache = _
  unfold Storage.sweep
  rw [StateT.run_bind, StateT.run_get, pure_bind]
  simp only [stands]
  by_cases stops : c.stopping = true
  · rw [if_pos stops]
    exact .inl stands
  · by_cases reached : due ≤ w.now
    · rw [if_neg stops, if_pos reached]
      right
      simp only [Storage.setMemory, StateT.run_bind, StateT.run_modify, pure_bind, stands, Option.map_some]
      by_cases removed : 0 < (c.memory.purge w.now).2
      · rw [if_pos removed]
        rfl
      · rw [if_neg removed]
        rfl
    · rw [if_neg stops, if_neg reached]
      exact .inl stands

end Switchyard.State.Front
