import Switchyard.Proofs.Breaker.Guarded
import Switchyard.Proofs.Breaker.Notices
/-!
The callbacks of a rehearsal. What they report of the changes is what a breaker tells its callbacks, also where a
callback asks the breaker for its state and its counts: such questions cannot go on for ever, for a breaker that nobody
uses comes to rest after two changes.
-/
namespace Switchyard.Breaker

/-- How many changes can follow of mere looks, without a break passing. -/
def unrest (b : Breaker) : Nat :=
  match b.phase with
  | .closed => 0
  | .opened => 1
  | .halfOpen => if 0 < b.counts.inFlight then 2 else 0

theorem unrest_le (b : Breaker) : b.unrest ≤ 2 := by
  unfold unrest
  split
  · decide
  · decide
  · split <;> decide

theorem Refreshes.calms {b b' : Breaker} {now : Instant} {changes : List Transition}
    (refreshed : Refreshes b now b' changes) :
    b'.unrest ≤ b.unrest ∧ (changes ≠ [] → b'.unrest < b.unrest) := by
  cases refreshed with
  | early => exact ⟨Nat.le_refl _, fun some => absurd rfl some⟩
  | renewed closed => simp [unrest, renew, closed]
  | probes opened => simp [unrest, renew, opened, Counts.inFlight, Counts.zero]
  | overdue half due out => simp [unrest, renew, half, out]
  | extended half due idle => simp [unrest, half, idle]

end Switchyard.Breaker

namespace Switchyard.Rehearsal.Act

open Breaker (Gate Herald Transition)
open Breaker.Herald (Notice)

variable {α β : Type} {id : BreakerId} {w : World} {h : Herald} {change : Transition} {changes left : List Transition}
  {made unrest : Nat} {stage : Herald.Stage} {outer outer' : List Notice}

/-- The breaker of a circuit that has a callback, and the time, are those of a gate. -/
def Attends (id : BreakerId) (s : Gate) (w : World) : Prop :=
  w.now = s.now ∧ ∃ c, w.circuit? id = some c ∧ c.breaker = s.breaker ∧ c.callback ≠ .none

def reported (rs : List Report) : List Transition :=
  rs.filterMap fun
    | .moved _ change => some change
    | .queried _ _ => none

/-- What is reported is what the herald tells until its operations stand as they do, and the unrest of the breaker is
within a bound then. -/
def Tells (id : BreakerId) (x : Act α) (h : Herald) (w : World) (outer : List Notice) (unrest : Nat) : Prop :=
  ∃ ws h' rs, Herald.Run h ws h' ∧ h'.notices = outer ∧ Attends id h'.gate (x w).2 ∧
    h'.gate.breaker.unrest ≤ unrest ∧ (x w).2.reports = w.reports ++ rs ∧ reported rs = Herald.told ws

namespace Tells

theorem quiet (x : Act α) (rs : List Report) (attends : Attends id h.gate w) (calm : h.gate.breaker.unrest ≤ unrest)
    (now : (x w).2.now = w.now) (circuits : (x w).2.circuits = w.circuits)
    (reports : (x w).2.reports = w.reports ++ rs) (none : reported rs = []) : Tells id x h w h.notices unrest := by
  obtain ⟨time, c, there, listens⟩ := attends
  refine ⟨[], h, rs, .nil, rfl, ⟨now.trans time, c, ?_, listens⟩, calm, reports, none⟩
  rw [World.circuit?, circuits]
  exact there

theorem pure (a : α) (attends : Attends id h.gate w) (calm : h.gate.breaker.unrest ≤ unrest) :
    Tells id (Pure.pure a) h w h.notices unrest :=
  quiet _ [] attends calm rfl rfl (List.append_nil _).symm rfl

theorem get {f : World → Act α} (rest : Tells id (f w) h w outer unrest) :
    Tells id (MonadStateOf.get >>= f) h w outer unrest := rest

theorem bind {x : Act α} {f : α → Act β} {unrest' : Nat} (first : Tells id x h w outer unrest)
    (rest : ∀ h', h'.notices = outer → Attends id h'.gate (x w).2 → h'.gate.breaker.unrest ≤ unrest →
      Tells id (f (x w).1) h' (x w).2 outer' unrest') : Tells id (x >>= f) h w outer' unrest' := by
  obtain ⟨ws, h₁, rs, run, stands, attends, calm, reports, same⟩ := first
  obtain ⟨ws', h₂, rs', run', stands', attends', calm', reports', same'⟩ := rest h₁ stands attends calm
  refine ⟨ws ++ ws', h₂, rs ++ rs', run.trans run', stands', attends', calm', ?_, ?_⟩
  · show (f (x w).1 (x w).2).2.reports = _
    rw [reports', reports, List.append_assoc]
  · rw [Herald.told_append, ← same, ← same']
    exact List.filterMap_append

/-- The operation that is under way goes on to its next callback, or to its end. -/
theorem goesOn {x : Act α} (tells : Tells id x h w outer unrest)
    (last : ∀ h', h'.notices = outer → Herald.Step h' [] { h' with notices := outer' }) :
    Tells id x h w outer' unrest := by
  obtain ⟨ws, h₁, rs, run, stands, rest⟩ := tells
  refine ⟨ws, { h₁ with notices := outer' }, rs, ?_, rfl, rest⟩
  have once := run.next (last h₁ stands)
  rwa [List.append_nil] at once

theorem moved (name : String) (attends : Attends id h.gate w) (calm : h.gate.breaker.unrest ≤ unrest)
    (stands : h.notices = ⟨false, change :: left, made, stage⟩ :: outer) :
    Tells id (report (.moved name change)) h w (⟨true, left, made, stage⟩ :: outer) unrest :=
  ⟨_, _, [.moved name change], Runs.nil.next (.tell stands), rfl, attends, calm, rfl, rfl⟩

end Tells

theorem reports_applyTo (f : Breaker → Instant → Breaker × List Transition) :
    (applyTo id f w).2.reports = w.reports := by
  show ((applyTo id f).run w).2.reports = _
  simp only [applyTo, StateT.run_modifyGet]
  cases w.circuit? id <;> rfl

theorem attends_applyTo {s : Gate} (attends : Attends id s w) (f : Breaker → Instant → Breaker × List Transition) :
    (applyTo id f w).1 = (f s.breaker s.now).2 ∧
      Attends id { s with breaker := (f s.breaker s.now).1 } (applyTo id f w).2 := by
  obtain ⟨time, c, stands, same, listens⟩ := attends
  rw [applyTo_run stands, ← same, ← time]
  exact ⟨rfl, rfl, _, lookup_replaced stands _, rfl, listens⟩

/-- Whoever asks the breaker for something looks at it, and has at most one change to tell, after which there is less
unrest. -/
theorem asks (f : Breaker → α) (other : α) (attends : Attends id h.gate w) (free : h.Free)
    (calm : h.gate.breaker.unrest ≤ unrest) :
    ∃ less, less ≤ unrest ∧ ((refreshed id f other w).1.2 ≠ [] → less < unrest) ∧
      (refreshed id f other w).1.2.length ≤ 1 ∧
      Tells id (refreshed id f other) h w
        (⟨false, (refreshed id f other w).1.2, (refreshed id f other w).1.2.length, .only⟩ :: h.notices) less := by
  obtain ⟨same, held⟩ := attends_applyTo attends Breaker.refresh
  have refreshed : Breaker.Refreshes h.gate.breaker h.gate.now _ _ := Breaker.refreshes rfl
  have told : (Act.refreshed id f other w).1.2 = (h.gate.breaker.refresh h.gate.now).2 := same
  rw [told]
  refine ⟨_, Nat.le_trans refreshed.calms.1 calm, fun some => Nat.lt_of_lt_of_le (refreshed.calms.2 some) calm,
    refreshed.alters.once, _, _, [], Runs.nil.next (.look free rfl), rfl, held, Nat.le_refl _, ?_, ?_⟩
  · exact (reports_applyTo Breaker.refresh).trans (List.append_nil _).symm
  · exact (Herald.told_say _).symm

/-- Announcing so deep tells all there is to tell of a breaker that comes to rest within that depth. -/
def Announces (id : BreakerId) (depth : Nat) : Prop :=
  ∀ {h : Herald} {w : World} {changes : List Transition} {made : Nat} {stage : Herald.Stage} {outer : List Notice}
    {unrest : Nat}, Attends id h.gate w → h.notices = ⟨false, changes, made, stage⟩ :: outer → changes.length ≤ 1 →
    h.gate.breaker.unrest ≤ unrest → (changes ≠ [] → unrest < depth) →
    Tells id (announce id depth changes) h w (⟨false, [], made, stage⟩ :: outer) unrest

namespace Announces

variable {depth : Nat}

theorem done (depth : Nat) : announce id depth [] = Pure.pure () := by
  cases depth <;> rfl

theorem asked (announces : Announces id depth) (within : unrest ≤ depth) (attends : Attends id h.gate w)
    (free : h.Free) (calm : h.gate.breaker.unrest ≤ unrest) (f : Breaker → α) (other : α)
    {next : α × List Transition → Act β}
    (rest : ∀ a h' w', h'.notices = h.notices → Attends id h'.gate w' → h'.gate.breaker.unrest ≤ unrest →
      Tells id (next a) h' w' outer unrest) :
    Tells id (refreshed id f other >>= fun seen => announce id depth seen.2 >>= fun _ => next seen) h w outer unrest := by
  obtain ⟨less, calmer, further, once, looks⟩ := asks f other attends free calm
  -- the question is an operation of its own, and has told all it has to tell before the callback goes on
  refine looks.bind fun h₁ stands attends calm => ?_
  have nested := announces attends stands once calm fun some => Nat.lt_of_lt_of_le (further some) within
  have ended := nested.goesOn fun h' stands => Herald.Step.finish stands (by decide)
  exact ended.bind fun h₂ stands attends calm => rest _ h₂ _ stands attends (Nat.le_trans calm calmer)

theorem returns (depth : Nat) (stands : h.notices = ⟨true, [], made, stage⟩ :: outer) (attends : Attends id h.gate w)
    (calm : h.gate.breaker.unrest ≤ unrest) :
    Tells id (announce id depth []) h w (⟨false, [], made, stage⟩ :: outer) unrest := by
  rw [done]
  exact (Tells.pure () attends calm).goesOn fun h' same => .answer (same.trans stands)

theorem called (announces : Announces id depth) (within : unrest ≤ depth) (attends : Attends id h.gate w)
    (stands : h.notices = ⟨false, [change], made, stage⟩ :: outer) (calm : h.gate.breaker.unrest ≤ unrest) :
    Tells id (announce id (depth + 1) [change]) h w (⟨false, [], made, stage⟩ :: outer) unrest := by
  refine Tells.get ?_
  have ⟨_, c, there, _, listens⟩ := attends
  rw [there]
  have logged := Tells.quiet (log c.breaker.config.logger [Breaker.announce c.breaker.config change]) [] attends
    calm rfl rfl (List.append_nil _).symm rfl
  refine logged.bind fun h₁ same attends calm => ?_
  rw [if_pos listens]
  have told := Tells.moved c.breaker.config.name attends calm (same.trans stands)
  refine told.bind fun h₂ stands attends calm => ?_
  dsimp only
  split
  · have free {h : Herald} (same : h.notices = h₂.notices) : h.Free := by simp [Herald.Free, same, stands]
    refine announces.asked within attends (free rfl) calm _ _ fun seen h₃ w same attends calm => ?_
    refine announces.asked within attends (free same) calm _ _ fun counted h₄ w again attends calm => ?_
    have queried := Tells.quiet (report (.queried seen.1 counted.1.requests)) [.queried seen.1 counted.1.requests]
      attends calm rfl rfl rfl rfl
    refine queried.bind fun h₅ quiet attends calm => ?_
    exact returns depth (quiet.trans (again.trans (same.trans stands))) attends calm
  · exact returns depth stands attends calm

end Announces

theorem announceTells (depth : Nat) : Announces id depth := by
  induction depth with
  | zero =>
    intro h w changes _ _ _ _ attends stands _ calm deep
    obtain rfl : changes = [] := Classical.byContradiction fun some => Nat.not_lt_zero _ (deep some)
    exact stands ▸ Tells.pure () attends calm
  | succ depth ih =>
    intro h w changes _ _ _ _ attends stands once calm deep
    cases changes with
    | nil => exact stands ▸ Tells.pure () attends calm
    | cons change rest =>
      obtain rfl : rest = [] := List.eq_nil_of_length_eq_zero (by simpa using once)
      exact Announces.called ih (Nat.le_of_lt_succ (deep (List.cons_ne_nil _ _))) attends stands calm

/-- An operation on a breaker that is announced to its callback is one that the herald sees through to its end, and what
is reported meanwhile is what has changed. -/
theorem announced {config : Breaker.Config} {began : Instant} {ws : List Herald.Word} {ms : List Gate.Mark}
    {gate : Gate} (run : Herald.Run (.start config began) ws h) (idle : h.notices = []) (step : Gate.Step h.gate ms gate)
    (attends : Attends id gate w) :
    ∃ ws' h' rs, Herald.Run h ws' h' ∧ h'.notices = [] ∧
      Attends id h'.gate (announce id callbackDepth (Gate.tidings ms) w).2 ∧
      (announce id callbackDepth (Gate.tidings ms) w).2.reports = w.reports ++ rs ∧
      reported rs = Herald.changed ws' := by
  have operated := Runs.nil.next (Herald.Step.operate idle step)
  have once : (Gate.tidings ms).length ≤ 1 := by
    obtain ⟨ms', gateRun⟩ := Herald.runGate run
    exact (Gate.stepAlters step (Gate.runFair gateRun)).once
  have within : gate.breaker.unrest < callbackDepth := Nat.lt_of_le_of_lt gate.breaker.unrest_le (by decide)
  have tells := announceTells (h := ⟨gate, [⟨false, Gate.tidings ms, (Gate.tidings ms).length, .only⟩]⟩) callbackDepth
    attends rfl once (Nat.le_refl _) fun _ => within
  obtain ⟨ws', h', rs, rest, same, attends', -, reports, agree⟩ :=
    tells.goesOn fun h' stands => Herald.Step.finish stands (by decide)
  have whole := operated.trans rest
  refine ⟨_, h', rs, whole, same, attends', reports, ?_⟩
  have before := (Herald.runOrderly run).behind
  have after := (Herald.runOrderly (run.trans whole)).behind
  have early : h.late = [] := by simp [Herald.late, idle]
  have late : h'.late = [] := by simp [Herald.late, same]
  rw [early, List.append_nil] at before
  rw [late, List.append_nil, Herald.changed_append, Herald.told_append, before] at after
  rw [List.append_cancel_left after, Herald.told_append, List.nil_append, Herald.told_say, agree]
  rfl

end Switchyard.Rehearsal.Act
