import Switchyard.Proofs.Dispatch.Registration
/-!
Cancelled contexts on the way of a request. A call of the rest of a chain within a cancelled context starts nothing,
and at the end the cancellation of the sender takes the place of every other error, but not of a success.
-/
namespace Switchyard.Dispatch

variable {σ η θ ρ τ α ν : Type}

namespace Passage

def Mark.Starts : Mark σ η ρ α ν → Prop
  | .entered .. | .invoked .. => True
  | _ => False

/-- Whoever calls within a cancelled context is told of the cancellation at once, and nothing starts any more. -/
def Heeded (ms : List (Mark σ η ρ α ν)) : Prop :=
  ∀ before s ctx request e after, ms = before ++ .called s ctx request (.error e) :: after →
    e.kind = .cancelled ∧ ∃ rest, after = .told s (.failure e) :: rest ∧ ∀ m ∈ rest, ¬ m.Starts

variable {k : Conduct σ η ρ α ν} {h : η} {stages : List σ} {s : σ} {ctx : Context} {request : ρ}
  {ms tail : List (Mark σ η ρ α ν)} {m : Mark σ η ρ α ν}

namespace Heeded

theorem nil : Heeded ([] : List (Mark σ η ρ α ν)) := by
  intro before s ctx request e after split
  simp at split

theorem cons (free : ∀ s e, m.call? ≠ some (s, .error e)) (heeded : Heeded ms) : Heeded (m :: ms) := by
  intro before s ctx request e after split
  cases before with
  | nil =>
    obtain ⟨rfl, -⟩ := List.cons.inj split
    exact absurd rfl (free s e)
  | cons first before =>
    obtain ⟨-, split⟩ := List.cons.inj split
    exact heeded before s ctx request e after split

theorem append (heeded : Heeded ms) (quiet : ∀ m ∈ tail, ¬ m.Starts ∧ m.call? = none) : Heeded (ms ++ tail) := by
  intro before s ctx request e after split
  obtain ⟨between, rfl, within⟩ | ⟨between, rfl, within⟩ := List.append_eq_append_iff.mp split
  · have called : Mark.called s ctx request (.error e) ∈ tail := within ▸ List.mem_append_right _ List.mem_cons_self
    cases (quiet _ called).2
  · cases between with
    | nil =>
      have called : Mark.called s ctx request (.error e) ∈ tail := by
        rw [← List.nil_append tail, ← within]
        exact List.mem_cons_self
      cases (quiet _ called).2
    | cons first between =>
      obtain ⟨rfl, rfl⟩ := List.cons.inj within
      obtain ⟨cancelled, rest, rfl, still⟩ := heeded before s ctx request e between rfl
      exact ⟨cancelled, rest ++ tail, rfl, List.forall_mem_append.mpr ⟨still, fun m mem => (quiet m mem).1⟩⟩

theorem turnedBack {e : Error} (cancelled : e.kind = .cancelled) :
    Heeded (η := η) (α := α) (ν := ν) [.called s ctx request (.error e), .told s (.failure e)] := by
  intro before s' ctx' request' e' after split
  cases before with
  | nil =>
    cases split
    exact ⟨cancelled, [], rfl, nofun⟩
  | cons first before =>
    obtain ⟨-, split⟩ := List.cons.inj split
    have called : Mark.called s' ctx' request' (.error e') ∈ [(.told s (.failure e) : Mark σ η ρ α ν)] :=
      split ▸ List.mem_append_right _ List.mem_cons_self
    cases List.mem_singleton.mp called

end Heeded

theorem guarded_cases {inner : Process σ η ρ α ν} {check : Except Error Unit} {o : Option (Outcome α)}
    (comes : guarded check inner ctx request ms o) :
    (∃ e, check = .error e ∧ ms = [] ∧ o = some (.failure e)) ∨ check = .ok () ∧ inner ctx request ms o := by
  cases check with
  | error e => exact .inl ⟨e, rfl, comes⟩
  | ok => exact .inr ⟨rfl, comes⟩

theorem Calls.heeded {inner : Process σ η ρ α ν} {giveUp : Prop} {a : Option (Option (Outcome α))}
    (comes : ∀ ctx request ms o, inner ctx request ms o → Heeded ms)
    (made : Calls s inner giveUp ctx request ms a) : Heeded ms := by
  have called {ms o} (rest : inner ctx request ms o) : Heeded (.called s ctx request (.ok ()) :: ms) :=
    (comes _ _ _ _ rest).cons nofun
  -- A call within a cancelled context is answered at once: it is neither under way nor given up.
  have unanswered {check ms} (rest : guarded check inner ctx request ms none) :
      Heeded (.called s ctx request check :: ms) := by
    rcases guarded_cases rest with ⟨e, -, -, is⟩ | ⟨said, rest⟩
    · cases is
    · rw [said]
      exact called rest
  cases made with
  | underWay scopes now rest => exact unanswered rest
  | @answered _ o scopes now rest =>
    rcases guarded_cases rest with ⟨e, said, rfl, is⟩ | ⟨said, rest⟩
    · cases is
      rw [said]
      exact .turnedBack (Context.check_kind said)
    · rw [said]
      exact (called rest).append (List.forall_mem_singleton.mpr ⟨id, rfl⟩)
  | givenUp may scopes now rest => exact (unanswered rest).append (List.forall_mem_singleton.mpr ⟨id, rfl⟩)

theorem heeded_composed {o : Option (Outcome α)} (comes : composed k stages h ctx request ms o) : Heeded ms := by
  induction stages generalizing ctx request ms o with
  | nil =>
    cases comes with
    | refuses => exact .nil
    | invokes => exact Heeded.nil.cons nofun
    | handles => exact (Heeded.nil.cons nofun).cons nofun
  | cons s rest ih =>
    have inside {ctx request ms o} (comes : composed k rest h ctx request ms o) : Heeded ms := ih comes
    cases comes with
    | enters => exact Heeded.nil.cons nofun
    | early => exact (Heeded.nil.cons nofun).cons nofun
    | within may made => exact (made.heeded fun _ _ _ _ => inside).cons nofun
    | late may made =>
      refine Heeded.append ((made.heeded fun _ _ _ _ => inside).cons nofun) ?_
      exact List.forall_mem_singleton.mpr ⟨id, rfl⟩

theorem heeded_guarded {check : Except Error Unit} {o : Option (Outcome α)}
    (comes : guarded check (composed k stages h) ctx request ms o) : Heeded ms := by
  rcases guarded_cases comes with ⟨-, -, rfl, -⟩ | ⟨-, comes⟩
  · exact .nil
  · exact heeded_composed comes

end Passage

namespace Exchange

variable {T : Terms σ η θ ρ τ ν} {s s₁ s₂ s₃ : Exchange σ η θ ρ τ} {new ms : List (Mark σ η θ ρ τ ν)} {n : Nat}
  {ctx : Context} {request : ρ} {check : Except Error Unit}

/-- A stage of request `n` that may call within a context that is cancelled at that moment can do so, and has its answer
then. -/
def TurnsBack (T : Terms σ η θ ρ τ ν) (s : Exchange σ η θ ρ τ) (n : Nat) : Prop :=
  ∀ d v rest below passedCtx passed scopes now, s.sends[n]? = some d → d.closed = false →
    d.passage = .entered v rest below → (T.stage v.stage.1).call v.ctx v.request passedCtx passed →
    passedCtx.isCancelled scopes now = true →
    Step T s
      [.did n (.called v.stage passedCtx passed (.error (passedCtx.cancellation scopes))),
        .did n (.told v.stage (.failure (passedCtx.cancellation scopes)))]
      { s with
        sends := s.sends.set n
          { d with passage := .resumed ⟨v, passedCtx, passed⟩ (some (.failure (passedCtx.cancellation scopes))) below } }

/-- Where the chain has come to `result` and the context of the sender is cancelled, the sender has `r`. -/
structure Prevails (expected : ResponseType) (result r : Except Error Response) : Prop where
  fails : ∀ e, result = .error e → ∃ e', r = .error e' ∧ e'.kind = .cancelled
  succeeds : ∀ a, result = .ok a → a.type = expected → r = .ok a

theorem answered_prevails (T : Terms σ η θ ρ τ ν) (sent : Sent σ η ρ) {e : Error} (result : Except Error Response)
    (cancelled : e.kind = .cancelled) :
    Prevails (T.response sent.request) result (answered T sent (.error e) result) where
  fails err failed := by
    subst failed
    by_cases own : err.isCancelled = true
    · exact ⟨err, if_pos own, of_decide_eq_true own⟩
    · exact ⟨e, if_neg own, cancelled⟩
  succeeds a succeeded typed := by
    subst succeeded
    exact if_pos typed

theorem turnsBack : TurnsBack T s n := by
  intro d v rest below passedCtx passed scopes now stands underWay entered may cancelled
  have said := Context.check_error.mpr ⟨cancelled, rfl⟩
  have called : Passage.Step T.conduct d.passage
      [.called v.stage passedCtx passed (passedCtx.check scopes now),
        .told v.stage (.failure (passedCtx.cancellation scopes))]
      (.resumed ⟨v, passedCtx, passed⟩ (some (.failure (passedCtx.cancellation scopes))) below) := by
    rw [entered]
    refine .calls scopes now may ?_
    rw [said]
    rfl
  rw [said] at called
  exact .goes stands underWay called

/-- Whatever stages and handlers do and whenever contexts are cancelled: a stage that calls the rest of its chain within
a cancelled context gets the cancellation, and nothing of that chain starts. Where the chain has ended and the context of
the sender is cancelled, the sender gets a cancellation in place of any error, and a success of the type that the
request asks for as it is. -/
theorem cancellationPrevails (T : Terms σ η θ ρ τ ν) (sends : Step T s₁ (.sent n ctx request check :: new) s₂)
    (later : Run T s₂ ms s₃) :
    Passage.Heeded (doings n (new ++ ms)) ∧ TurnsBack T s₃ n ∧
    (∀ check' r, .returned n check' r ∈ ms →
      (∃ scopes now, check' = ctx.check scopes now) ∧
      ∃ d result, s₃.sends[n]? = some d ∧ d.passage = .ended (.ofResult result) ∧
        (check' ≠ .ok () → Prevails (T.response request) result r)) ∧
    ∀ d result scopes now, s₃.sends[n]? = some d → d.closed = false → d.passage = .ended (.ofResult result) →
      ctx.isCancelled scopes now = true →
      ∃ r s₄, Step T s₃ [.returned n (.error (ctx.cancellation scopes)) r] s₄ ∧
        Prevails (T.response request) result r := by
  obtain ⟨h, d, -, stands, follows⟩ := sentFollows sends later
  refine ⟨Passage.heeded_guarded (Passage.comes_composed.mp ⟨d.passage, follows.dispatched, rfl⟩), turnsBack, ?_, ?_⟩
  · intro check' r mem
    obtain ⟨-, ⟨scopes, now, spoken⟩, result, ended, rfl⟩ := follows.returned check' r (List.mem_append_right _ mem)
    refine ⟨⟨scopes, now, spoken⟩, d, result, stands, ended, fun cancelled => ?_⟩
    cases check' with
    | ok => exact absurd rfl cancelled
    | error e =>
      exact answered_prevails T ⟨check, ctx, request, _⟩ result (Context.check_kind spoken.symm)
  · intro d' result scopes now stands' underWay ended cancelled
    cases Option.some.inj (stands.symm.trans stands')
    have said : d.ctx.check scopes now = .error (ctx.cancellation scopes) := by
      rw [follows.same]
      exact Context.check_error.mpr ⟨cancelled, rfl⟩
    have returned := Step.returns (T := T) scopes now stands underWay ended
    rw [said, follows.same] at returned
    exact ⟨_, _, returned, answered_prevails T ⟨check, ctx, request, _⟩ result rfl⟩

/-! ### A stage that makes another error of the cancellation -/

def clerk : Context := ⟨[0], none, .nil⟩

def clerkStopped : Scopes := ⟨1, [0], []⟩

def busy : Error := .conflict "busy"

def stopped : Error := clerk.cancellation clerkStopped

def muddled : Terms String Unit Unit Shape Shape Unit := desk clerk fun _ => .failure busy

def entrusted (passage : Passage (String × Nat) (Shape × Unit) Shape Response) (closed : Bool) :
    Sending String Unit Shape :=
  ⟨⟨.ok (), clerk, letter, ⟨[only], (letter, ())⟩⟩, passage, closed⟩

theorem clerkSent : Step muddled (counter []) [.sent 0 clerk letter (.ok ()), .did 0 (.entered only clerk letter)]
    (counter [entrusted (.entered ⟨only, clerk, letter⟩ ⟨[], (letter, ())⟩ []) false]) :=
  .send clerk letter .empty 0 rfl rfl

def stopping : List (Mark String Unit Unit Shape Shape Unit) :=
  [.did 0 (.called only clerk letter (.error stopped)), .did 0 (.told only (.failure stopped)),
    .did 0 (.left only [] (.failure busy)), .returned 0 (.error stopped) (.error stopped)]

theorem clerkReturned : Run muddled
    (counter [entrusted (.entered ⟨only, clerk, letter⟩ ⟨[], (letter, ())⟩ []) false]) stopping
    (counter [entrusted (.ended (.failure busy)) true]) := by
  have called : Passage.Step muddled.conduct (.entered ⟨only, clerk, letter⟩ ⟨[], (letter, ())⟩ [])
      [.called only clerk letter (.error stopped), .told only (.failure stopped)]
      (.resumed ⟨⟨only, clerk, letter⟩, clerk, letter⟩ (some (.failure stopped)) []) :=
    .calls clerkStopped 0 ⟨rfl, rfl⟩ rfl
  have left : Passage.Step muddled.conduct
      (.resumed ⟨⟨only, clerk, letter⟩, clerk, letter⟩ (some (.failure stopped)) [])
      [.left only [] (.failure busy)] (.ended (.failure busy)) := .endsLate ⟨rfl, rfl⟩ rfl
  have passed := goesOn (T := muddled) (n := 0) (s := counter [entrusted _ false]) rfl rfl
    ((Runs.nil.next called).next left)
  have answered : Step muddled (counter [entrusted (.ended (.failure busy)) false])
      [.returned 0 (.error stopped) (.error stopped)] (counter [entrusted (.ended (.failure busy)) true]) :=
    .returns (n := 0) (d := entrusted (.ended (.failure busy)) false) (r := .error busy) clerkStopped 0 rfl rfl rfl
  exact .next passed answered

theorem busyPrevented : busy.kind ≠ .cancelled ∧
    Passage.Heeded (doings 0 ([.did 0 (.entered only clerk letter)] ++ stopping)) ∧
    Prevails .unit (.error busy) (.error stopped) := by
  obtain ⟨heeded, -, returned, -⟩ := cancellationPrevails muddled clerkSent clerkReturned
  obtain ⟨-, d, result, stands, ended, prevails⟩ := returned _ _ (List.mem_of_getElem? (l := stopping) (i := 3) rfl)
  cases Option.some.inj stands
  cases result with
  | ok => cases ended
  | error =>
    cases ended
    exact ⟨nofun, heeded, prevails nofun⟩

end Exchange
end Switchyard.Dispatch
