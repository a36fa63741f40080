import Switchyard.Proofs.Dispatch.Turns
/-!
Chains of stages that pass the request on as it is and give back what comes of it. Nothing comes of a request that is not
taken at the end of such a chain but the error that says so, and that comes back.
-/
namespace Switchyard.Dispatch

variable {σ η ρ α ν : Type}

/-- Waits for the rest of the chain with the request it was given, and ends as that does. -/
structure Relays (b : Behaviour ρ α ν) : Prop where
  waits : ∀ ctx request notes o, ¬ b.early ctx request notes o
  passes : ∀ ctx request passedCtx passed, b.call ctx request passedCtx passed → passed = request
  stays : ∀ ctx request passedCtx passed, ¬ b.giveUp ctx request passedCtx passed
  returns : ∀ ctx request passedCtx passed a notes o, b.late ctx request passedCtx passed a notes o → a = some o
  goes : ∀ ctx request, ∃ passedCtx passed, b.call ctx request passedCtx passed
  ends : ∀ ctx request passedCtx passed o, b.call ctx request passedCtx passed →
    ∃ notes, b.late ctx request passedCtx passed (some o) notes o

namespace Passage

variable {k : Conduct σ η ρ α ν} {h : η} {stages rest : List σ} {s : σ} {ctx : Context} {request : ρ}
  {check : Except Error Unit} {ms : List (Mark σ η ρ α ν)} {p : Passage σ η ρ α} {e : Error}
  {below : List (Waiting σ ρ)}

/-- Nothing has been invoked, and the end, if it has come, is an error: `e`, unless some context was cancelled. -/
structure Barren (e : Error) (check : Except Error Unit) (ms : List (Mark σ η ρ α ν)) (o : Option (Outcome α)) :
    Prop where
  uninvoked : invocations ms = []
  fails : ∀ o', o = some o' → ∃ err, o' = .failure err ∧ (check = .ok () → (∀ c ∈ calls ms, c.2 = .ok ()) → err = e)

namespace Barren

variable {o : Option (Outcome α)}

theorem failure {err : Error} (same : check = .ok () → err = e) :
    Barren e check ([] : List (Mark σ η ρ α ν)) (some (.failure err)) :=
  ⟨rfl, fun _ is => ⟨err, (Option.some.inj is).symm, fun free _ => same free⟩⟩

theorem call (barren : Barren e check ms o) : Barren e (.ok ()) (.called s ctx request check :: ms) o where
  uninvoked := barren.uninvoked
  fails o' is := by
    obtain ⟨err, rfl, same⟩ := barren.fails o' is
    refine ⟨err, rfl, fun _ all => ?_⟩
    obtain ⟨free, others⟩ := List.forall_mem_cons.mp all
    exact same free others

theorem after {tail : List (Mark σ η ρ α ν)} (barren : Barren e check ms o) (quiet : invocations tail = [])
    (uncalled : calls tail = []) : Barren e check (ms ++ tail) o where
  uninvoked := by rw [invocations_append, barren.uninvoked, quiet, List.append_nil]
  fails o' is := by
    rw [calls_append, uncalled, List.append_nil]
    exact barren.fails o' is

theorem enter (barren : Barren e check ms o) : Barren e check (.entered s ctx request :: ms) o :=
  ⟨barren.uninvoked, barren.fails⟩

end Barren

theorem Calls.barren {inner : Process σ η ρ α ν} {giveUp : Prop} {a : Option (Option (Outcome α))}
    (stays : ¬ giveUp) (comes : ∀ check ctx ms o, guarded check inner ctx request ms o → Barren e check ms o)
    (made : Calls s inner giveUp ctx request ms a) : Barren e (.ok ()) ms a.join := by
  cases made with
  | underWay _ _ rest => exact (comes _ _ _ _ rest).call
  | answered _ _ rest => exact (comes _ _ _ _ rest).call.after rfl rfl
  | givenUp may => exact absurd may stays

/-- Nothing comes of a request that its handler does not take, but the error that says so. -/
theorem barren_composed {o : Option (Outcome α)} (relays : ∀ s ∈ stages, Relays (k.stage s))
    (refuses : k.takes h request = .error e) (check : Except Error Unit)
    (comes : guarded check (composed k stages h) ctx request ms o) : Barren e check ms o := by
  induction stages generalizing ctx check ms o with
  | nil =>
    cases check with
    | error err =>
      obtain ⟨rfl, rfl⟩ := comes
      exact .failure nofun
    | ok =>
      cases comes with
      | refuses takes =>
        cases takes.symm.trans refuses
        exact .failure fun _ => rfl
      | invokes takes | handles takes => cases takes.symm.trans refuses
  | cons s rest ih =>
    obtain ⟨relay, others⟩ := List.forall_mem_cons.mp relays
    cases check with
    | error err =>
      obtain ⟨rfl, rfl⟩ := comes
      exact .failure nofun
    | ok =>
      cases comes with
      | enters => exact ⟨rfl, nofun⟩
      | early may => exact (relay.waits _ _ _ _ may).elim
      | within may made =>
        cases relay.passes _ _ _ _ may
        have barren := made.barren (relay.stays _ _ _ _) fun check _ _ _ => ih others check
        exact ⟨barren.uninvoked, nofun⟩
      | late may made ends =>
        cases relay.passes _ _ _ _ may
        cases relay.returns _ _ _ _ _ _ _ ends
        exact (made.barren (relay.stays _ _ _ _) fun check _ _ _ => ih others check).enter.after rfl rfl

/-! ### Its way ends -/

def Attentive (k : Conduct σ η ρ α ν) (below : List (Waiting σ ρ)) : Prop :=
  ∀ w ∈ below, Relays (k.stage w.stage) ∧ (k.stage w.stage).call w.ctx w.request w.passedCtx w.passed

theorem answerEnds (attentive : Attentive k below) (o : Outcome α) :
    ∃ way o', Runs (Step k) (answer (ν := ν) (η := η) o below).2 way (.ended o') := by
  induction below generalizing o with
  | nil => exact ⟨[], o, .nil⟩
  | cons w below ih =>
    obtain ⟨⟨relay, may⟩, others⟩ := List.forall_mem_cons.mp attentive
    obtain ⟨notes, ends⟩ := relay.ends _ _ _ _ o may
    have left : Step k (.resumed w (some o) below) (.left w.stage notes o :: (answer o below).1) (answer o below).2 :=
      .endsLate ends rfl
    obtain ⟨way, o', run⟩ := ih others o
    exact ⟨_, o', (Runs.nil.next left).trans run⟩

theorem arriveEnds (relays : ∀ s ∈ stages, Relays (k.stage s)) (refuses : k.takes h request = .error e)
    (attentive : Attentive k below) (check : Except Error Unit) (ctx : Context) :
    ∃ way o, Runs (Step k) (arrive (ν := ν) (α := α) k.takes ⟨stages, h⟩ check ctx request below).2 way (.ended o) := by
  induction stages generalizing check ctx below with
  | nil =>
    cases check with
    | error err => exact answerEnds attentive _
    | ok =>
      simp only [arrive, Chain.proceed, refuses]
      exact answerEnds attentive _
  | cons s rest ih =>
    obtain ⟨relay, others⟩ := List.forall_mem_cons.mp relays
    cases check with
    | error err => exact answerEnds attentive _
    | ok =>
      obtain ⟨passedCtx, passed, may⟩ := relay.goes ctx request
      cases relay.passes _ _ _ _ may
      obtain ⟨way, o, run⟩ := ih others
        (List.forall_mem_cons.mpr ⟨⟨relay, may⟩, attentive⟩ : Attentive k (⟨⟨s, ctx, request⟩, passedCtx, request⟩ :: below))
        (passedCtx.check .empty 0) passedCtx
      exact ⟨_, o, (Runs.nil.next (.calls .empty 0 may rfl)).trans run⟩

theorem Descent.attentive {ctx₀ : Context} {request₀ : ρ} {check₀ : Except Error Unit} {stages₀ : List σ}
    (descent : Descent k check₀ ctx₀ request₀ stages₀ ms below check ctx request stages)
    (relays : ∀ s ∈ stages₀, Relays (k.stage s)) :
    Attentive k below ∧ (∀ s ∈ stages, Relays (k.stage s)) ∧ request = request₀ := by
  induction descent with
  | here => exact ⟨nofun, relays, rfl⟩
  | deeper outer may scopes now ih =>
    obtain ⟨attentive, all, rfl⟩ := ih
    obtain ⟨relay, others⟩ := List.forall_mem_cons.mp all
    cases relay.passes _ _ _ _ may
    exact ⟨List.forall_mem_cons.mpr ⟨⟨relay, may⟩, attentive⟩, others, rfl⟩

theorem Stands.ends (stands : Stands k h check ctx request stages ms p) (relays : ∀ s ∈ stages, Relays (k.stage s))
    (refuses : k.takes h request = .error e) : ∃ way o, Runs (Step k) p way (.ended o) := by
  cases stands with
  | entered descent =>
    obtain ⟨attentive, all, rfl⟩ := descent.attentive relays
    exact arriveEnds all refuses attentive (.ok ()) _
  | resumed descent may made =>
    obtain ⟨attentive, all, rfl⟩ := descent.attentive relays
    obtain ⟨relay, -⟩ := List.forall_mem_cons.mp all
    cases made with
    | answered => exact answerEnds (List.forall_mem_cons.mpr ⟨⟨relay, may⟩, attentive⟩) _
    | givenUp give => exact absurd give (relay.stays _ _ _ _)
  | handling descent takes =>
    obtain ⟨-, -, rfl⟩ := descent.attentive relays
    cases takes.symm.trans refuses
  | ended => exact ⟨[], _, .nil⟩

end Passage
end Switchyard.Dispatch
