import Switchyard.Proofs.Dispatch.Registration
import Switchyard.Proofs.Events.Answers
import Switchyard.Proofs.Events.Stage
/-!
A bus and the mediator that it publishes through. Handlers are added and requests are sent at any moment, also by a
handler that a drain has called, and what a handler answers is left open. That there is no handler is told from the kind
of the answer alone, so it is also told of a handler that is there and answers with an error of that kind.
-/
namespace Switchyard.Events

open Dispatch (Exchange Registry Shape Terms)

variable {σ η θ ρ τ ν β α μ κ : Type}

/-- The handler that an event is given to. -/
def recipient (listeners : Registry θ) (e : Posted β) (check : Except Error Unit) : Except Error (Shape × θ) :=
  match Dispatch.Mediator.addressee listeners e.shape.key check with
  | .error err => .error err
  | .ok (shape, l) =>
    match Dispatch.Mediator.receives (Dispatch.Mediator.notificationMismatch shape.key) shape e.shape with
    | .error err => .error err
    | .ok () => .ok (shape, l)

theorem recipient_missing {listeners : Registry θ} {e : Posted β} {ctx : Context} {scopes : Scopes} {now : Instant}
    {err : Error} (refused : recipient listeners e (ctx.check scopes now) = .error err)
    (missing : err.kind = .handlerNotFound) : ∃ err', listeners.lookup e.shape.key = .error err' := by
  unfold recipient Dispatch.Mediator.addressee at refused
  cases lookup : listeners.lookup e.shape.key with
  | error err' => exact ⟨err', rfl⟩
  | ok found =>
    cases checked : ctx.check scopes now with
    | error cancelled =>
      simp only [lookup, checked] at refused
      cases refused
      cases missing.symm.trans (Context.check_kind checked)
    | ok =>
      simp only [lookup, checked, Dispatch.Mediator.receives] at refused
      by_cases fits : e.shape = found.1 <;> simp only [fits, if_true, if_false] at refused <;> cases refused
      cases missing

structure Outlet (σ η θ ρ τ β α : Type) where
  mediator : Exchange σ η θ ρ τ
  sending : Sending β α

namespace Outlet

inductive Mark (μ κ : Type) where
  | mediator (m : μ)
  | bus (m : κ)

/-- No handler is called, and whoever answers was called before. -/
def Unasked (ms : List (Sending.Mark β α)) : Prop :=
  (∀ n k, .did n (.invoked k) ∉ ms) ∧ ∀ n k r, .did n (.answered k r) ∈ ms → ∃ o, .did n (.handled k o) ∈ ms

inductive Step (T : Terms σ η θ ρ τ ν) (s : Outlet σ η θ ρ τ β α) :
    List (Mark (Exchange.Mark σ η θ ρ τ ν) (Sending.Mark β α)) → Outlet σ η θ ρ τ β α → Prop where
  | mediator {new m} (step : Exchange.Step T s.mediator new m) : Step T s (new.map .mediator) { s with mediator := m }
  | bus {new t} (step : Sending.Step s.sending new t) (unasked : Unasked new) :
      Step T s (new.map .bus) { s with sending := t }
  | refuse {n role d e err new t} (scopes : Scopes) (now : Instant)
      (stands : ⟨n, role, .notifying d e⟩ ∈ s.sending.callers)
      (refused : recipient s.mediator.listeners e (d.ctx.check scopes now) = .error err)
      (step : Sending.Step s.sending new t) (answered : .did n (.answered e.number (.error err)) ∈ new) :
      Step T s (new.map .bus) { s with sending := t }
  | invoke {n role d e found t} (scopes : Scopes) (now : Instant)
      (stands : ⟨n, role, .notifying d e⟩ ∈ s.sending.callers)
      (finds : recipient s.mediator.listeners e (d.ctx.check scopes now) = .ok found)
      (step : Sending.Step s.sending [.did n (.invoked e.number)] t) :
      Step T s ([.did n (.invoked e.number)].map .bus) { s with sending := t }

abbrev Run (T : Terms σ η θ ρ τ ν) (init : Outlet σ η θ ρ τ β α) :
    List (Mark (Exchange.Mark σ η θ ρ τ ν) (Sending.Mark β α)) → Outlet σ η θ ρ τ β α → Prop :=
  Runs (Step T) init

def start (stages : List σ) (ignoreMissing messaging : Bool) (logger : Log.Logger) : Outlet σ η θ ρ τ β α :=
  ⟨Exchange.fresh stages, Sending.start ignoreMissing messaging logger⟩

/-! ### The mediator and the bus, each on its own -/

def Mark.mediator? : Mark μ κ → Option μ
  | mediator m => some m
  | bus _ => none

def Mark.bus? : Mark μ κ → Option κ
  | mediator _ => none
  | bus m => some m

def atMediator (ms : List (Mark μ κ)) : List μ := ms.filterMap Mark.mediator?

def atBus (ms : List (Mark μ κ)) : List κ := ms.filterMap Mark.bus?

section Projections

variable {ms : List (Mark μ κ)}

theorem atMediator_append (xs ys : List (Mark μ κ)) : atMediator (xs ++ ys) = atMediator xs ++ atMediator ys :=
  List.filterMap_append

theorem atBus_append (xs ys : List (Mark μ κ)) : atBus (xs ++ ys) = atBus xs ++ atBus ys :=
  List.filterMap_append

theorem atMediator_mediator (ms : List μ) : atMediator (ms.map (.mediator : μ → Mark μ κ)) = ms := by
  simp [atMediator, Function.comp_def, Mark.mediator?]

theorem atMediator_bus (ms : List κ) : atMediator (ms.map (.bus : κ → Mark μ κ)) = [] := by
  simp [atMediator, Mark.mediator?]

theorem atBus_mediator (ms : List μ) : atBus (ms.map (.mediator : μ → Mark μ κ)) = [] := by
  simp [atBus, Mark.bus?]

theorem atBus_bus (ms : List κ) : atBus (ms.map (.bus : κ → Mark μ κ)) = ms := by
  simp [atBus, Function.comp_def, Mark.bus?]

theorem mem_atBus {m : κ} : m ∈ atBus ms ↔ .bus m ∈ ms :=
  mem_project fun mark m => by cases mark <;> simp [Mark.bus?]

end Projections

variable {T : Terms σ η θ ρ τ ν} {init s s' : Outlet σ η θ ρ τ β α}
  {ms new : List (Mark (Exchange.Mark σ η θ ρ τ ν) (Sending.Mark β α))} {k n : Nat} {r : Except Error Unit} {err : Error}
  {e : Posted β}

theorem stepParts (step : Step T s new s') :
    Exchange.Run T s.mediator (atMediator new) s'.mediator ∧ Sending.Run s.sending (atBus new) s'.sending := by
  cases step with
  | mediator step =>
    rw [atMediator_mediator, atBus_mediator]
    exact ⟨.next .nil step, .nil⟩
  | bus step | refuse _ _ _ _ step | invoke _ _ _ _ step =>
    rw [atMediator_bus, atBus_bus]
    exact ⟨.nil, .next .nil step⟩

theorem busStep {m : Sending.Mark β α} (step : Step T s new s') (mem : .bus m ∈ new) :
    ∃ told, new = told.map .bus ∧ m ∈ told ∧ Sending.Step s.sending told s'.sending := by
  cases step with
  | mediator => simp at mem
  | bus step | refuse _ _ _ _ step | invoke _ _ _ _ step => exact ⟨_, rfl, by simpa using mem, step⟩

theorem runParts (run : Run T init ms s) :
    Exchange.Run T init.mediator (atMediator ms) s.mediator ∧ Sending.Run init.sending (atBus ms) s.sending := by
  induction run with
  | nil => exact ⟨.nil, .nil⟩
  | next earlier last ih =>
    obtain ⟨mediator, bus⟩ := stepParts last
    rw [atMediator_append, atBus_append]
    exact ⟨ih.1.trans mediator, ih.2.trans bus⟩

def seen (ms : List (Mark (Exchange.Mark σ η θ ρ τ ν) (Sending.Mark β α))) : List (Traffic.Mark β) :=
  Sending.seen (atBus ms)

theorem mem_seen {m : Traffic.Mark β} (mem : .bus (.did n m) ∈ ms) : m ∈ seen ms :=
  Sending.mem_seen.mpr (.inr ⟨n, mem_atBus.mpr mem⟩)

theorem seen_mono {m : Traffic.Mark β} (mem : m ∈ seen ms) : m ∈ seen (ms ++ new) := by
  rw [seen, atBus_append, Sending.seen_append]
  exact List.mem_append_left _ mem

/-! ### Where an answer comes from -/

/-- There was no handler for the key of an event when it was answered. -/
def Missed (ms : List (Mark (Exchange.Mark σ η θ ρ τ ν) (Sending.Mark β α))) (e : Posted β) : Prop :=
  ∃ before n r after, ms = before ++ .bus (.did n (.answered e.number r)) :: after ∧
    ∀ t ∈ Exchange.subscriptions (atMediator before), t.shape.key ≠ e.shape.key

/-- The answer is that of a handler, or says that there is none, or why the event was not given to the one there is. -/
def Answered (ms : List (Mark (Exchange.Mark σ η θ ρ τ ν) (Sending.Mark β α))) (k : Nat) (r : Except Error Unit) : Prop :=
  (∃ o, .handled k o ∈ seen ms ∧ r = o.caught) ∨
    ∃ e err, .added e ∈ seen ms ∧ e.number = k ∧ r = .error err ∧ (err.kind = .handlerNotFound → Missed ms e)

theorem Answered.mono (answered : Answered ms k r) : Answered (ms ++ new) k r := by
  rcases answered with ⟨o, handled, same⟩ | ⟨e, err, added, number, same, missed⟩
  · exact .inl ⟨o, seen_mono handled, same⟩
  · refine .inr ⟨e, err, seen_mono added, number, same, fun missing => ?_⟩
    obtain ⟨before, n, r, after, split, free⟩ := missed missing
    exact ⟨before, n, r, after ++ new, by rw [split, List.append_assoc, List.cons_append], free⟩

section Started

variable {stages : List σ} {ignoreMissing messaging : Bool} {logger : Log.Logger}

theorem refuseAnswered (run : Run T (start stages ignoreMissing messaging logger) ms s) {role : Sending.Role α}
    {d : Bus.Drain} {e : Posted β} {scopes : Scopes} {now : Instant} {told : List (Sending.Mark β α)}
    (stands : ⟨n, role, .notifying d e⟩ ∈ s.sending.callers)
    (refused : recipient s.mediator.listeners e (d.ctx.check scopes now) = .error err)
    (answered : .did n (.answered e.number (.error err)) ∈ told) :
    Answered (ms ++ told.map .bus) e.number (.error err) := by
  obtain ⟨mediator, bus⟩ := runParts run
  obtain ⟨a, added, core⟩ := Sending.heldAdded bus stands rfl
  have shape : a.shape = e.shape := by rw [← a.shape_core, core, e.shape_core]
  have number : a.number = e.number := by rw [← a.number_core, core, e.number_core]
  refine .inr ⟨a, err, seen_mono added, number, rfl, fun missing => ?_⟩
  obtain ⟨before, after, rfl⟩ := List.append_of_mem answered
  refine ⟨ms ++ before.map .bus, n, .error err, after.map .bus, by simp [number], fun t mem same => ?_⟩
  rw [atMediator_append, atMediator_bus, List.append_nil] at mem
  obtain ⟨held, holds⟩ := Dispatch.Registry.runHolds (Exchange.runRegistrations mediator).2 t mem
  obtain ⟨err', free⟩ := recipient_missing refused missing
  rw [same, shape, free] at holds
  cases holds

theorem runAnswered (run : Run T (start stages ignoreMissing messaging logger) ms s)
    (answered : .bus (.did n (.answered k r)) ∈ ms) : Answered ms k r := by
  induction run with
  | nil => cases answered
  | @next earlier _ _ _ run last ih =>
    rcases List.mem_append.mp answered with answered | answered
    · exact (ih answered).mono
    · cases last with
      | mediator => simp at answered
      | @bus told _ step unasked =>
        have answered : .did n (.answered k r) ∈ told := by simpa using answered
        obtain ⟨o, handled⟩ := unasked.2 n k r answered
        obtain ⟨_, _, _, _, _, -, moves, did⟩ := Sending.did_moves step handled
        have caught := (moves.handles ((did _ _).mp handled).2).1
        obtain ⟨-, same⟩ := moves.answersOnce caught _ _ ((did _ _).mp answered).2
        exact .inl ⟨o, mem_seen (List.mem_append_right _ (List.mem_map_of_mem handled)), same⟩
      | @refuse n' _ _ e err told _ scopes now stands refused step word =>
        have answered : .did n (.answered k r) ∈ told := by simpa using answered
        obtain ⟨_, _, _, _, _, -, moves, did⟩ := Sending.did_moves step word
        obtain ⟨rfl, rfl⟩ := moves.answersOnce ((did _ _).mp word).2 _ _ ((did _ _).mp answered).2
        exact refuseAnswered run stands refused word
      | invoke => simp at answered

/-! ### What becomes of the event -/

end Started

/-- Delivered, as far as the handlers go. -/
def Settled (ms : List (Traffic.Mark β)) (s : Traffic β) (k : Nat) : Prop :=
  Traffic.Gone ms k ∨ (∃ m, .offered k m ∈ ms) ∨ ∃ e ∈ s.pending, e.number = k ∧ e.metadata.published = true

theorem Settled.told {ignoreMissing messaging : Bool} {logger : Log.Logger} {ms : List (Traffic.Mark β)} {s : Traffic β}
    (settled : Settled ms s k) (run : Traffic.Run (.start ignoreMissing messaging logger) ms s) :
    Traffic.Told ignoreMissing ms k := by
  obtain ⟨faithful, lawful⟩ := Traffic.runFaithful run
  have rule {m : Traffic.Mark β} (mem : m ∈ ms) : ∃ before after, ms = before ++ after ∧
      Traffic.Rule ignoreMissing messaging before m := by
    obtain ⟨before, after, rfl⟩ := List.append_of_mem mem
    exact ⟨before, m :: after, rfl, by simpa using lawful.split⟩
  rcases settled with ⟨e, gone, rfl⟩ | ⟨m, offered⟩ | ⟨e, pending, rfl, published⟩
  · obtain ⟨before, after, rfl, told, -⟩ := rule gone
    exact told.mono
  · obtain ⟨before, after, rfl, told, -⟩ := rule offered
    exact told.mono
  · exact (faithful.flags e pending).mp published

theorem handledUnasked {s t : Sending β α} {new : List (Sending.Mark β α)} {o : Outcome Unit}
    (step : Sending.Step s new t) (handled : .did n (.handled k o) ∈ new) :
    .did n (.answered k o.caught) ∈ new ∧ Unasked new := by
  obtain ⟨_, _, moved, _, _, -, moves, did⟩ := Sending.did_moves step handled
  obtain ⟨caught, uncalled⟩ := moves.handles ((did _ _).mp handled).2
  refine ⟨(did _ _).mpr ⟨rfl, caught⟩, fun n' k' mem => uncalled k' ((did _ _).mp mem).2, fun n' k' r mem => ?_⟩
  obtain ⟨rfl, answered⟩ := (did _ _).mp mem
  obtain ⟨rfl, -⟩ := moves.answersOnce caught _ _ answered
  exact ⟨o, handled⟩

/-- What counts as delivered in process was so when it was added, or its handler succeeded, or there was no handler for
its key, or its handler answered with an error that says there is none. Any other error ends the drain with that error,
and the event is in front again; whatever a handler ends with, the drain goes on with that. -/
theorem onlyMissingIgnored (T : Terms σ η θ ρ τ ν) {stages : List σ} {ignoreMissing messaging : Bool}
    {logger : Log.Logger} (run : Run T (start stages ignoreMissing messaging logger) ms s) :
    (∀ e, .added e ∈ seen ms → Settled (seen ms) s.sending.traffic e.number →
      e.metadata.published = true ∨ .handled e.number (.value ()) ∈ seen ms ∨ Missed ms e ∨
        ∃ err, .handled e.number (.failure err) ∈ seen ms ∧ err.kind = .handlerNotFound) ∧
    (∀ n k err new s', Step T s new s' → .bus (.did n (.answered k (.error err))) ∈ new →
      err.kind ≠ .handlerNotFound →
      .bus (.ended n (.error err)) ∈ new ∧
        ∃ e, e.number = k ∧ e.metadata.published = false ∧ s'.sending.bus.queue = e :: s.sending.bus.queue) ∧
    ∀ n role d e o, ⟨n, role, .handling d e⟩ ∈ s.sending.callers →
      (∃ new s', Step T s new s' ∧ .bus (.did n (.handled e.number o)) ∈ new) ∧
      ∀ new s', Step T s new s' → .bus (.did n (.handled e.number o)) ∈ new →
        .bus (.did n (.answered e.number o.caught)) ∈ new := by
  obtain ⟨mediator, bus⟩ := runParts run
  have traffic := Sending.runTraffic bus
  refine ⟨fun e added settled => ?_, fun n k err new s' step answered surfaces => ?_, fun n role d e o stands => ⟨?_, ?_⟩⟩
  · rcases settled.told traffic with ⟨x, posted, same, published⟩ | ⟨r, completes, answered⟩
    · rw [Traffic.added_unique traffic posted added same] at published
      exact .inl published
    · have answer : Answered ms e.number r := by
        rcases Sending.mem_seen.mp answered with ⟨_, is, -⟩ | ⟨n, did⟩
        · cases is
        · exact runAnswered run (mem_atBus.mp did)
      rcases answer with ⟨o, handled, rfl⟩ | ⟨x, err, posted, same, rfl, missed⟩
      · cases o with
        | value => exact .inr (.inl handled)
        | failure err => exact .inr (.inr (.inr ⟨err, handled, completes.1⟩))
        | panic => cases completes.1
      · cases Traffic.added_unique traffic posted added same
        exact .inr (.inr (.inl (missed completes.1)))
  · obtain ⟨told, rfl, answered, step⟩ := busStep step answered
    obtain ⟨ended, c, stands, d, e, holds, number, front⟩ := Sending.answeredEnds step answered surfaces
    have fits : c.call.Fits := (Traffic.runFaithful traffic).1.fits _ (List.mem_map_of_mem stands)
    refine ⟨List.mem_map_of_mem ended, e, number, ?_, front⟩
    rcases holds with holds | holds <;> rw [holds] at fits <;> exact fits
  · obtain ⟨new, t, step, handled⟩ := Sending.handlerAnswers stands o
    exact ⟨_, _, .bus step (handledUnasked step handled).2, List.mem_map_of_mem handled⟩
  · intro new s' step handled
    obtain ⟨told, rfl, handled, step⟩ := busStep step handled
    exact List.mem_map_of_mem (handledUnasked step handled).1

/-! ### The handler of the greeting sends a letter that nobody takes -/

open Dispatch.Exchange (letter relaying)
open Sending (greeted)
open Traffic (greeting greetingDrain)

def lost : Error := .handlerNotFound "letter"

def spilt : Error := .internal "ink spilt" none

/-- There is a handler for greetings, and one call drains the bus. -/
def booth (queue : List (Posted Unit)) (call : Traffic.Call Unit) : Outlet String Unit Unit Shape Shape Unit Unit :=
  ⟨⟨[], .empty, ⟨[(.ofType "Greeting", ())]⟩, [], []⟩,
    ⟨⟨queue, ⟨true, []⟩, true, false, .plain⟩, [⟨0, .plain, call⟩], [], 1, 1⟩⟩

def closedBooth : Outlet String Unit Unit Shape Shape Unit Unit :=
  ⟨(booth [] .admitted).mediator, ⟨.make true false .plain, [], [], 1, 1⟩⟩

abbrev BoothMark := Mark (Exchange.Mark String Unit Unit Shape Shape Unit) (Sending.Mark Unit Unit)

def called : List BoothMark :=
  [.mediator (.listening greeting.shape () (.ok ())), .bus (.added greeting), .bus (.did 0 (.invoked 0))]

theorem greetingCalled : Run relaying (start [] true false .plain) called (booth [] (.handling greetingDrain greeted)) := by
  have unasked : Unasked ([] : List (Sending.Mark Unit Unit)) := ⟨nofun, nofun⟩
  have listens : Run relaying (start [] true false .plain) (called.take 1)
      ⟨(booth [] .admitted).mediator, .start true false .plain⟩ :=
    .next .nil (.mediator (.listen greeting.shape () rfl))
  have posted : Run relaying (start [] true false .plain) (called.take 2)
      ⟨(booth [] .admitted).mediator, ⟨(Bus.make true false .plain).add greeting, [], [], 1, 0⟩⟩ :=
    .next listens (.bus (.add _ _ _ rfl) ⟨nofun, nofun⟩)
  have asked : Run relaying (start [] true false .plain) (called.take 2) (booth [greeting] .admitted) :=
    .next posted (.bus (.ask rfl) unasked)
  have begun : Run relaying (start [] true false .plain) (called.take 2) (booth [greeting] (.draining greetingDrain)) :=
    .next asked (.bus (.only rfl (.begins _ _ (List.cons_ne_nil _ _)) nofun) unasked)
  have advances : Sending.Step (booth [greeting] (.draining greetingDrain)).sending []
      (booth [] (.notifying greetingDrain greeted)).sending :=
    .only rfl (.advances greetingDrain (.ok ()) (.reading 2) rfl) nofun
  have advanced := begun.next (.bus advances unasked)
  exact advanced.next (.invoke .empty 0 List.mem_cons_self rfl (.only rfl (.invokes greetingDrain greeted) nofun))

def ignored : List BoothMark :=
  [.mediator (.refused greetingDrain.ctx letter lost), .bus (.did 0 (.handled 0 (.failure lost))),
    .bus (.did 0 (.answered 0 (.error lost))), .bus (.did 0 (.left greeted)), .bus (.ended 0 (.ok ()))]

theorem lostIgnored : Run relaying (booth [] (.handling greetingDrain greeted)) ignored closedBooth := by
  have refused : Run relaying (booth [] (.handling greetingDrain greeted)) (ignored.take 1)
      (booth [] (.handling greetingDrain greeted)) := .next .nil (.mediator (.refuse _ _ rfl))
  have answers : Sending.Step (booth [] (.handling greetingDrain greeted)).sending
      [.did 0 (.handled 0 (.failure lost)), .did 0 (.answered 0 (.error lost)), .did 0 (.left greeted)]
      (booth [] (.draining { greetingDrain with delivered := 1 })).sending :=
    Sending.Step.only (s := (booth [] (.handling greetingDrain greeted)).sending) rfl
      (.handled greetingDrain greeted (.failure lost) (.reading 3) rfl) nofun
  have ends : Sending.Step (booth [] (.draining { greetingDrain with delivered := 1 })).sending [.ended 0 (.ok ())]
      (booth [] .leaving).sending :=
    @Sending.Step.close _ _ _ [] [] 0 .plain _ _ _ _ rfl (.ends (.advances _ (.ok ()) (.reading 4)) rfl)
  have unlocks : Sending.Step (booth [] .leaving).sending [] closedBooth.sending :=
    @Sending.Step.letGo _ _ _ [] [] 0 .plain .leaving rfl rfl rfl
  have answered := refused.next (.bus answers (handledUnasked answers List.mem_cons_self).2)
  have ended := answered.next (.bus ends ⟨nofun, nofun⟩)
  exact ended.next (.bus unlocks ⟨nofun, nofun⟩)

/-- The handler of the greeting fails, and yet the drain ends well and the greeting has left. -/
theorem failureHidden :
    Run relaying (start [] true false .plain) (called ++ ignored) closedBooth ∧
    .mediator (.listening greeting.shape () (.ok ())) ∈ called ∧
    .bus (.did 0 (.handled greeting.number (.failure lost))) ∈ ignored ∧ .bus (.ended 0 (.ok ())) ∈ ignored ∧
    Settled (seen (called ++ ignored)) closedBooth.sending.traffic greeting.number ∧
    closedBooth.sending.traffic.pending = [] := by
  refine ⟨greetingCalled.trans lostIgnored, List.mem_cons_self, ?_, ?_, .inl ⟨greeted, ?_, rfl⟩, rfl⟩
  · exact List.mem_of_getElem? (i := 1) rfl
  · exact List.mem_of_getElem? (i := 4) rfl
  · exact mem_seen (n := 0) (List.mem_of_getElem? (i := 6) rfl)

theorem greetingStays : ∃ new s, Step relaying (booth [] (.handling greetingDrain greeted)) new s ∧
    .bus (.did 0 (.handled 0 (.failure spilt))) ∈ new ∧ .bus (.ended 0 (.error spilt)) ∈ new ∧
    ∃ e, e.number = 0 ∧ e.metadata.published = false ∧ s.sending.bus.queue = [e] := by
  obtain ⟨-, surfaces, handles⟩ := onlyMissingIgnored relaying greetingCalled
  obtain ⟨⟨new, s, step, handled⟩, answers⟩ := handles 0 .plain greetingDrain greeted (.failure spilt) List.mem_cons_self
  obtain ⟨ended, front⟩ := surfaces 0 0 spilt new s step (answers new s step handled) nofun
  exact ⟨new, s, step, handled, ended, front⟩

end Outlet
end Switchyard.Events
