import Switchyard.Proofs.Dispatch.Passage
import Switchyard.Proofs.History
/-!
A chain as its stages nested in one another, with what comes last innermost: what can come of the first stage is told
from what can come of the others, each call of which first looks at its context. The stack of waiting stages does
exactly that, at every moment of a dispatch.
-/
namespace Switchyard.Dispatch

variable {σ η ρ α ν : Type}

namespace Passage

/-! ### The composition -/

/-- What can have come of something that is given a context and a request: what has happened, and the outcome if it has
ended. -/
abbrev Process (σ η ρ α ν : Type) := Context → ρ → List (Mark σ η ρ α ν) → Option (Outcome α) → Prop

/-- On a cancelled context nothing is run. -/
def guarded (check : Except Error Unit) (inner : Process σ η ρ α ν) : Process σ η ρ α ν := fun ctx request ms o =>
  match check with
  | .error e => ms = [] ∧ o = some (.failure e)
  | .ok () => inner ctx request ms o

/-- What becomes of the one call that a stage makes: nothing yet, an answer, or it is given up. -/
inductive Calls (s : σ) (inner : Process σ η ρ α ν) (giveUp : Prop) (ctx : Context) (request : ρ) :
    List (Mark σ η ρ α ν) → Option (Option (Outcome α)) → Prop where
  | underWay {ms} (scopes : Scopes) (now : Instant)
      (rest : guarded (ctx.check scopes now) inner ctx request ms none) :
      Calls s inner giveUp ctx request (.called s ctx request (ctx.check scopes now) :: ms) none
  | answered {ms o} (scopes : Scopes) (now : Instant)
      (rest : guarded (ctx.check scopes now) inner ctx request ms (some o)) :
      Calls s inner giveUp ctx request (.called s ctx request (ctx.check scopes now) :: ms ++ [.told s o]) (some (some o))
  | givenUp {ms} (may : giveUp) (scopes : Scopes) (now : Instant)
      (rest : guarded (ctx.check scopes now) inner ctx request ms none) :
      Calls s inner giveUp ctx request (.called s ctx request (ctx.check scopes now) :: ms ++ [.dropped s]) (some none)

inductive Around (b : Behaviour ρ α ν) (s : σ) (inner : Process σ η ρ α ν) (ctx : Context) (request : ρ) :
    List (Mark σ η ρ α ν) → Option (Outcome α) → Prop where
  | enters : Around b s inner ctx request [.entered s ctx request] none
  | early {notes o} (may : b.early ctx request notes o) :
      Around b s inner ctx request [.entered s ctx request, .left s notes o] (some o)
  | within {passedCtx passed ms a} (may : b.call ctx request passedCtx passed)
      (calls : Calls s inner (b.giveUp ctx request passedCtx passed) passedCtx passed ms a) :
      Around b s inner ctx request (.entered s ctx request :: ms) none
  | late {passedCtx passed ms a notes o} (may : b.call ctx request passedCtx passed)
      (calls : Calls s inner (b.giveUp ctx request passedCtx passed) passedCtx passed ms (some a))
      (ends : b.late ctx request passedCtx passed a notes o) :
      Around b s inner ctx request (.entered s ctx request :: ms ++ [.left s notes o]) (some o)

inductive Last (k : Conduct σ η ρ α ν) (h : η) (ctx : Context) (request : ρ) :
    List (Mark σ η ρ α ν) → Option (Outcome α) → Prop where
  | refuses {e} (takes : k.takes h request = .error e) : Last k h ctx request [] (some (.failure e))
  | invokes (takes : k.takes h request = .ok ()) : Last k h ctx request [.invoked h ctx request] none
  | handles {o} (takes : k.takes h request = .ok ()) (may : k.handler h ctx request o) :
      Last k h ctx request [.invoked h ctx request, .handled h o] (some o)

/-- The stages of a chain, each around those after it. -/
def composed (k : Conduct σ η ρ α ν) (stages : List σ) (h : η) : Process σ η ρ α ν :=
  stages.foldr (fun s inner => Around (k.stage s) s inner) (Last k h)

/-- The call that the innermost of the waiting stages have made: where it came from, what had happened by then, and what
it was given. -/
inductive Descent (k : Conduct σ η ρ α ν) (check₀ : Except Error Unit) (ctx₀ : Context) (request₀ : ρ)
    (stages₀ : List σ) : List (Mark σ η ρ α ν) → List (Waiting σ ρ) → Except Error Unit → Context → ρ → List σ →
    Prop where
  | here : Descent k check₀ ctx₀ request₀ stages₀ [] [] check₀ ctx₀ request₀ stages₀
  | deeper {ms below ctx request s rest passedCtx passed}
      (outer : Descent k check₀ ctx₀ request₀ stages₀ ms below (.ok ()) ctx request (s :: rest))
      (may : (k.stage s).call ctx request passedCtx passed) (scopes : Scopes) (now : Instant) :
      Descent k check₀ ctx₀ request₀ stages₀
        (ms ++ [.entered s ctx request, .called s passedCtx passed (passedCtx.check scopes now)])
        (⟨⟨s, ctx, request⟩, passedCtx, passed⟩ :: below) (passedCtx.check scopes now) passedCtx passed rest

inductive Stands (k : Conduct σ η ρ α ν) (h : η) (check₀ : Except Error Unit) (ctx₀ : Context) (request₀ : ρ)
    (stages₀ : List σ) : List (Mark σ η ρ α ν) → Passage σ η ρ α → Prop where
  | entered {ms below s ctx request rest}
      (descent : Descent k check₀ ctx₀ request₀ stages₀ ms below (.ok ()) ctx request (s :: rest)) :
      Stands k h check₀ ctx₀ request₀ stages₀ (ms ++ [.entered s ctx request])
        (.entered ⟨s, ctx, request⟩ ⟨rest, h⟩ below)
  | resumed {ms below s ctx request rest passedCtx passed inner a}
      (descent : Descent k check₀ ctx₀ request₀ stages₀ ms below (.ok ()) ctx request (s :: rest))
      (may : (k.stage s).call ctx request passedCtx passed)
      (calls : Calls s (composed k rest h) ((k.stage s).giveUp ctx request passedCtx passed) passedCtx passed inner
        (some a)) :
      Stands k h check₀ ctx₀ request₀ stages₀ (ms ++ .entered s ctx request :: inner)
        (.resumed ⟨⟨s, ctx, request⟩, passedCtx, passed⟩ a below)
  | handling {ms below ctx request}
      (descent : Descent k check₀ ctx₀ request₀ stages₀ ms below (.ok ()) ctx request [])
      (takes : k.takes h request = .ok ()) :
      Stands k h check₀ ctx₀ request₀ stages₀ (ms ++ [.invoked h ctx request]) (.handling h ctx request below)
  | ended {ms o} (comes : guarded check₀ (composed k stages₀ h) ctx₀ request₀ ms (some o)) :
      Stands k h check₀ ctx₀ request₀ stages₀ ms (.ended o)

variable {k : Conduct σ η ρ α ν} {h : η} {stages stages₀ rest : List σ} {ctx ctx₀ : Context} {request request₀ : ρ}
  {check check₀ : Except Error Unit} {ms new inner : List (Mark σ η ρ α ν)} {below above : List (Waiting σ ρ)}
  {p p' : Passage σ η ρ α} {o : Outcome α}

/-! ### What the composition does, the stack does -/

theorem Dispatched.run {c : Chain σ η} (earlier : Dispatched k c check ctx request ms p)
    (run : Runs (Step k) p new p') : Dispatched k c check ctx request (ms ++ new) p' := by
  induction run with
  | nil => rwa [List.append_nil]
  | next before last ih =>
    rw [← List.append_assoc]
    exact .next ih last

def Arrives (k : Conduct σ η ρ α ν) (c : Chain σ η) (check : Except Error Unit) (ctx : Context) (request : ρ)
    (below : List (Waiting σ ρ)) (ms : List (Mark σ η ρ α ν)) (p : Passage σ η ρ α) : Prop :=
  ∃ first p₀ later, arrive k.takes c check ctx request below = (first, p₀) ∧ Runs (Step k) p₀ later p ∧
    ms = first ++ later

theorem Arrives.next {c : Chain σ η} (arrives : Arrives k c check ctx request below ms p) (step : Step k p new p') :
    Arrives k c check ctx request below (ms ++ new) p' := by
  obtain ⟨first, p₀, later, arrived, run, rfl⟩ := arrives
  exact ⟨first, p₀, later ++ new, arrived, .next run step, List.append_assoc ..⟩

theorem Arrives.called {c rest : Chain σ η} {v : Visit σ ρ} {passedCtx : Context} {passed : ρ}
    (entered : Arrives k c check ctx request below ms (.entered v rest below))
    (may : (k.stage v.stage).call v.ctx v.request passedCtx passed) (scopes : Scopes) (now : Instant)
    (arrives : Arrives k rest (passedCtx.check scopes now) passedCtx passed (⟨v, passedCtx, passed⟩ :: below) new p) :
    Arrives k c check ctx request below
      (ms ++ .called v.stage passedCtx passed (passedCtx.check scopes now) :: new) p := by
  obtain ⟨first, p₀, later, arrived, run, rfl⟩ := arrives
  have called := entered.next (.calls scopes now may arrived)
  obtain ⟨first', p₀', later', arrived', run', same⟩ := called
  refine ⟨first', p₀', later' ++ later, arrived', run'.trans run, ?_⟩
  rw [← List.append_assoc, ← same]
  simp

/-- Where a call stands that has come to `o`: over what waits for it, or at its answer, with what that tells. -/
def Reaches (below : List (Waiting σ ρ)) (tail : List (Mark σ η ρ α ν)) (p : Passage σ η ρ α) :
    Option (Outcome α) → Prop
  | none => tail = [] ∧ p.outcome? = none ∧ ∃ above, p.below = above ++ below
  | some o => answer o below = (tail, p)

/-- All that can come of the composition, the stack can come to. -/
def Reached (k : Conduct σ η ρ α ν) (stages : List σ) (h : η) : Prop :=
  ∀ check ctx request below ms o, guarded check (composed k stages h) ctx request ms o →
    ∃ tail p, Arrives k ⟨stages, h⟩ check ctx request below (ms ++ tail) p ∧ Reaches below tail p o

def Awaits (w : Waiting σ ρ) (below : List (Waiting σ ρ)) (p : Passage σ η ρ α) : Option (Option (Outcome α)) → Prop
  | none => p.outcome? = none ∧ ∃ above, p.below = above ++ w :: below
  | some a => p = .resumed w a below

theorem arrive_refused {c : Chain σ η} {e : Error} (ctx : Context)
    (refused : c.proceed k.takes check request = .error e) (answers : answer (.failure e) below = (ms, p)) :
    Arrives k c check ctx request below ms p := by
  refine ⟨ms, p, [], ?_, .nil, (List.append_nil _).symm⟩
  simp only [arrive, refused, answers]

theorem arrive_stage {s : σ} (ctx : Context) (request : ρ) :
    Arrives k ⟨s :: rest, h⟩ (.ok ()) ctx request below [.entered s ctx request]
      (.entered ⟨s, ctx, request⟩ ⟨rest, h⟩ below) :=
  ⟨_, _, [], rfl, .nil, rfl⟩

theorem arrive_last (takes : k.takes h request = .ok ()) :
    Arrives k ⟨[], h⟩ (.ok ()) ctx request below [.invoked h ctx request] (.handling h ctx request below) := by
  refine ⟨[.invoked h ctx request], _, [], ?_, .nil, rfl⟩
  simp only [arrive, Chain.proceed, takes]

theorem Reached.calls {c : Chain σ η} {v : Visit σ ρ} {passedCtx : Context} {passed : ρ}
    {a : Option (Option (Outcome α))} (reached : Reached k rest h)
    (entered : Arrives k c check ctx request below ms (.entered v ⟨rest, h⟩ below))
    (may : (k.stage v.stage).call v.ctx v.request passedCtx passed)
    (calls : Calls v.stage (composed k rest h) ((k.stage v.stage).giveUp v.ctx v.request passedCtx passed) passedCtx
      passed inner a) :
    ∃ p, Arrives k c check ctx request below (ms ++ inner) p ∧ Awaits ⟨v, passedCtx, passed⟩ below p a := by
  cases calls with
  | underWay scopes now going =>
    obtain ⟨_, p, arrives, rfl, stands⟩ := reached _ _ _ (⟨v, passedCtx, passed⟩ :: below) _ _ going
    rw [List.append_nil] at arrives
    exact ⟨p, entered.called may scopes now arrives, stands⟩
  | answered scopes now comes =>
    obtain ⟨_, _, arrives, answers⟩ := reached _ _ _ (⟨v, passedCtx, passed⟩ :: below) _ _ comes
    cases answers
    exact ⟨_, entered.called may scopes now arrives, rfl⟩
  | givenUp give scopes now going =>
    obtain ⟨_, p, arrives, rfl, -, above, stands⟩ := reached _ _ _ (⟨v, passedCtx, passed⟩ :: below) _ _ going
    rw [List.append_nil] at arrives
    have dropped := (entered.called may scopes now arrives).next (.givesUp stands give)
    exact ⟨_, by simpa using dropped, rfl⟩

theorem reached_composed : Reached k stages h := by
  induction stages with
  | nil =>
    intro check ctx request below ms o comes
    cases check with
    | error e =>
      obtain ⟨rfl, rfl⟩ := comes
      exact ⟨_, _, arrive_refused ctx rfl rfl, rfl⟩
    | ok =>
      cases comes with
      | refuses takes => exact ⟨_, _, arrive_refused ctx (by simp only [Chain.proceed, takes]) rfl, rfl⟩
      | invokes takes => exact ⟨[], _, arrive_last takes, rfl, rfl, [], rfl⟩
      | handles takes may => exact ⟨_, _, (arrive_last takes).next (.handles may rfl), rfl⟩
  | cons s rest ih =>
    intro check ctx request below ms o comes
    cases check with
    | error e =>
      obtain ⟨rfl, rfl⟩ := comes
      exact ⟨_, _, arrive_refused ctx rfl rfl, rfl⟩
    | ok =>
      have entered : Arrives k ⟨s :: rest, h⟩ (.ok ()) ctx request below _ _ := arrive_stage ctx request
      cases comes with
      | enters => exact ⟨[], _, entered, rfl, rfl, [], rfl⟩
      | early may => exact ⟨_, _, entered.next (.endsEarly may rfl), rfl⟩
      | @within _ _ ms a may calls =>
        obtain ⟨p, arrives, awaits⟩ := ih.calls entered may calls
        rw [← List.append_nil ([_] ++ ms)] at arrives
        refine ⟨[], p, arrives, rfl, ?_⟩
        cases a with
        | none =>
          obtain ⟨going, above, stands⟩ := awaits
          exact ⟨going, above ++ [_], by rw [stands, List.append_assoc, List.singleton_append]⟩
        | some a =>
          cases awaits
          exact ⟨rfl, [], rfl⟩
      | late may calls ends =>
        obtain ⟨_, arrives, rfl⟩ := ih.calls entered may calls
        have left := arrives.next (.endsLate ends rfl)
        exact ⟨_, _, by simpa using left, rfl⟩

/-! ### What the stack does, the composition does -/

theorem Descent.outwards (h : η)
    (descent : Descent k check₀ ctx₀ request₀ stages₀ ms (above ++ below) check ctx request stages)
    (going : guarded check (composed k stages h) ctx request inner none) :
    ∃ ms' inner' check' ctx' request' stages',
      Descent k check₀ ctx₀ request₀ stages₀ ms' below check' ctx' request' stages' ∧
      guarded check' (composed k stages' h) ctx' request' inner' none ∧ ms ++ inner = ms' ++ inner' := by
  induction above generalizing ms check ctx request stages inner with
  | nil => exact ⟨ms, inner, check, ctx, request, stages, descent, going, rfl⟩
  | cons w above ih =>
    cases descent with
    | deeper outer may scopes now =>
      obtain ⟨ms', inner', check', ctx', request', stages', descent', going', same⟩ :=
        ih outer (.within may (.underWay scopes now going))
      exact ⟨ms', inner', check', ctx', request', stages', descent', going', by simpa using same⟩

theorem Stands.underWay (stands : Stands k h check₀ ctx₀ request₀ stages₀ ms p) (going : p.outcome? = none) :
    ∃ ms' inner check ctx request stages,
      Descent k check₀ ctx₀ request₀ stages₀ ms' p.below check ctx request stages ∧
      guarded check (composed k stages h) ctx request inner none ∧ ms = ms' ++ inner := by
  cases stands with
  | entered descent => exact ⟨_, _, _, _, _, _, descent, Around.enters, rfl⟩
  | resumed descent may calls => exact ⟨_, _, _, _, _, _, descent, Around.within may calls, rfl⟩
  | handling descent takes => exact ⟨_, _, _, _, _, _, descent, Last.invokes takes, rfl⟩
  | ended => cases going

theorem Stands.comes (stands : Stands k h check₀ ctx₀ request₀ stages₀ ms p) :
    guarded check₀ (composed k stages₀ h) ctx₀ request₀ ms p.outcome? := by
  cases going : p.outcome? with
  | some o =>
    cases stands with
    | ended comes =>
      cases going
      exact comes
    | _ => cases going
  | none =>
    obtain ⟨ms', inner, check, ctx, request, stages, descent, comes, rfl⟩ := stands.underWay going
    rw [← List.append_nil p.below] at descent
    obtain ⟨_, _, _, _, _, _, whole, comes', same⟩ := descent.outwards h comes
    cases whole
    rw [same]
    exact comes'

theorem Descent.answer (descent : Descent k check₀ ctx₀ request₀ stages₀ ms below check ctx request stages)
    (comes : guarded check (composed k stages h) ctx request inner (some o))
    (answers : Passage.answer o below = (new, p)) :
    Stands k h check₀ ctx₀ request₀ stages₀ (ms ++ inner ++ new) p := by
  cases descent with
  | here =>
    cases answers
    rw [List.nil_append, List.append_nil]
    exact .ended comes
  | deeper outer may scopes now =>
    cases answers
    simpa using Stands.resumed outer may (.answered scopes now comes)

theorem Descent.arrive (descent : Descent k check₀ ctx₀ request₀ stages₀ ms below check ctx request stages)
    (arrives : Passage.arrive k.takes ⟨stages, h⟩ check ctx request below = (new, p)) :
    Stands k h check₀ ctx₀ request₀ stages₀ (ms ++ new) p := by
  cases check with
  | error e =>
    have refused : guarded (.error e) (composed k stages h) ctx request [] (some (.failure e)) := ⟨rfl, rfl⟩
    simpa using descent.answer refused arrives
  | ok =>
    cases stages with
    | cons s rest =>
      cases arrives
      exact .entered descent
    | nil =>
      cases takes : k.takes h request with
      | error e =>
        simp only [Passage.arrive, Chain.proceed, takes] at arrives
        have refused : guarded (.ok ()) (composed k [] h) ctx request [] (some (.failure e)) := Last.refuses takes
        simpa using descent.answer refused arrives
      | ok =>
        simp only [Passage.arrive, Chain.proceed, takes, Prod.mk.injEq] at arrives
        obtain ⟨rfl, rfl⟩ := arrives
        exact .handling descent takes

theorem stepStands (stands : Stands k h check₀ ctx₀ request₀ stages₀ ms p) (step : Step k p new p') :
    Stands k h check₀ ctx₀ request₀ stages₀ (ms ++ new) p' := by
  cases step with
  | calls scopes now may arrives =>
    cases stands with
    | entered descent => simpa using (descent.deeper may scopes now).arrive arrives
  | endsEarly may answers =>
    cases stands with
    | entered descent => simpa using descent.answer (Around.early may) answers
  | endsLate may answers =>
    cases stands with
    | resumed descent called calls => simpa using descent.answer (Around.late called calls may) answers
  | handles may answers =>
    cases stands with
    | handling descent takes => simpa using descent.answer (Last.handles takes may) answers
  | givesUp above give =>
    have going : p.outcome? = none := by
      cases p with
      | ended => simp [Passage.below] at above
      | _ => rfl
    obtain ⟨ms', inner, check, ctx, request, stages, descent, comes, rfl⟩ := stands.underWay going
    rw [above] at descent
    obtain ⟨_, _, _, _, _, _, call, comes', same⟩ := descent.outwards h comes
    rw [same]
    cases call with
    | deeper outer may scopes now => simpa using Stands.resumed outer may (.givenUp give scopes now comes')

theorem runStands (dispatched : Dispatched k ⟨stages, h⟩ check ctx request ms p) :
    Stands k h check ctx request stages ms p := by
  induction dispatched with
  | begins arrives => exact Descent.here.arrive arrives
  | next earlier last ih => exact stepStands ih last

/-! ### The two are one -/

/-- What can come of a chain is what can come of its stages nested in one another. -/
theorem comes_composed {o : Option (Outcome α)} :
    (∃ p, Dispatched k ⟨stages, h⟩ check ctx request ms p ∧ p.outcome? = o) ↔
      guarded check (composed k stages h) ctx request ms o := by
  constructor
  · rintro ⟨p, dispatched, rfl⟩
    exact (runStands dispatched).comes
  · intro comes
    obtain ⟨tail, p, ⟨first, p₀, later, arrived, run, same⟩, reaches⟩ := reached_composed _ _ _ [] _ _ comes
    have dispatched := (Dispatched.begins arrived).run run
    rw [← same] at dispatched
    cases o with
    | none =>
      obtain ⟨rfl, going, -⟩ := reaches
      exact ⟨p, by rwa [List.append_nil] at dispatched, going⟩
    | some o =>
      cases reaches
      exact ⟨_, by rwa [List.append_nil] at dispatched, rfl⟩

/-! ### Who tells of what -/

def Mark.stage? : Mark σ η ρ α ν → Option σ
  | .entered s .. | .called s .. | .told s _ | .dropped s | .left s .. => some s
  | .invoked .. | .handled .. => none

section Marks

variable {P : Mark σ η ρ α ν → Prop} {s : σ}

theorem Calls.marks {process : Process σ η ρ α ν} {giveUp : Prop} {a : Option (Option (Outcome α))}
    (own : ∀ m, m.stage? = some s → P m)
    (comes : ∀ check ctx request ms o, guarded check process ctx request ms o → ∀ m ∈ ms, P m)
    (made : Calls s process giveUp ctx request ms a) : ∀ m ∈ ms, P m := by
  cases made with
  | underWay _ _ rest => exact List.forall_mem_cons.mpr ⟨own _ rfl, comes _ _ _ _ _ rest⟩
  | answered _ _ rest | givenUp _ _ _ rest =>
    refine List.forall_mem_append.mpr ⟨List.forall_mem_cons.mpr ⟨own _ rfl, comes _ _ _ _ _ rest⟩, ?_⟩
    exact List.forall_mem_singleton.mpr (own _ rfl)

/-- All that happens in a chain happens to its stages, or to what comes last and takes the request. -/
theorem composed_marks {o : Option (Outcome α)} (check : Except Error Unit)
    (own : ∀ s ∈ stages, ∀ m, m.stage? = some s → P m)
    (invoked : ∀ ctx request, k.takes h request = .ok () → P (.invoked h ctx request))
    (handled : ∀ o, P (.handled h o)) (comes : guarded check (composed k stages h) ctx request ms o) :
    ∀ m ∈ ms, P m := by
  induction stages generalizing check ctx request ms o with
  | nil =>
    cases check with
    | error e =>
      obtain ⟨rfl, rfl⟩ := comes
      exact nofun
    | ok =>
      cases comes with
      | refuses => exact nofun
      | invokes takes => exact List.forall_mem_singleton.mpr (invoked _ _ takes)
      | handles takes =>
        exact List.forall_mem_cons.mpr ⟨invoked _ _ takes, List.forall_mem_singleton.mpr (handled _)⟩
  | cons s rest ih =>
    obtain ⟨mine, others⟩ := List.forall_mem_cons.mp own
    cases check with
    | error e =>
      obtain ⟨rfl, rfl⟩ := comes
      exact nofun
    | ok =>
      cases comes with
      | enters => exact List.forall_mem_singleton.mpr (mine _ rfl)
      | early => exact List.forall_mem_cons.mpr ⟨mine _ rfl, List.forall_mem_singleton.mpr (mine _ rfl)⟩
      | within may made =>
        exact List.forall_mem_cons.mpr ⟨mine _ rfl, made.marks mine fun check _ _ _ _ => ih check others⟩
      | late may made ends =>
        refine List.forall_mem_append.mpr ⟨List.forall_mem_cons.mpr ⟨mine _ rfl, ?_⟩, ?_⟩
        · exact made.marks mine fun check _ _ _ _ => ih check others
        · exact List.forall_mem_singleton.mpr (mine _ rfl)

end Marks

end Passage
end Switchyard.Dispatch
