import Switchyard.Proofs.Dispatch.Cancellation
import Switchyard.Proofs.Dispatch.Containment
import Switchyard.Proofs.Dispatch.Registration
/-!
The stages that come with a mediator. Each of them either objects to a request or passes it on as it is and gives back
what comes of it, so that the first objection in the order of the stages decides, and without one the handler does.
-/
namespace Switchyard

theorem Outcome.exists_ofResult {α : Type} {o : Outcome α} (calm : ∀ message, o ≠ .panic message) :
    ∃ r, o = .ofResult r := by
  cases o with
  | value a => exact ⟨.ok a, rfl⟩
  | failure e => exact ⟨.error e, rfl⟩
  | panic message => exact absurd rfl (calm message)

theorem Outcome.ofResult_injective {α : Type} {r r' : Except Error α} (same : ofResult r = ofResult r') : r = r' := by
  cases r <;> cases r' <;> cases same <;> rfl

namespace Dispatch

variable {σ η θ ρ τ α ν : Type}

/-! ### Stages that object -/

/-- Ends with its objection to a request, or passes the request on and gives back what comes of it. -/
def Behaviour.screening (objection : Context → ρ → Option Error) : Behaviour ρ α ν where
  early ctx request notes o := notes = [] ∧ ∃ e, objection ctx request = some e ∧ o = .failure e
  call ctx request passedCtx passed := objection ctx request = none ∧ passedCtx = ctx ∧ passed = request
  giveUp _ _ _ _ := False
  late _ _ _ _ a notes o := notes = [] ∧ a = some o

/-- What a stage makes of a request, as long as nothing panics after it. -/
structure Screens (b : Behaviour ρ α ν) (ctx : Context) (request : ρ) (objection : Option Error) : Prop where
  early : ∀ notes o, b.early ctx request notes o → ∃ e, objection = some e ∧ o = .failure e
  call : ∀ passedCtx passed, b.call ctx request passedCtx passed →
    objection = none ∧ passedCtx = ctx ∧ passed = request
  stays : ∀ passedCtx passed, ¬ b.giveUp ctx request passedCtx passed
  returns : ∀ r notes o, b.late ctx request ctx request (some (.ofResult r)) notes o → o = .ofResult r
  objects : ∀ e, objection = some e → ∃ notes, b.early ctx request notes (.failure e)
  goes : objection = none → b.call ctx request ctx request
  ends : ∀ r, ∃ notes, b.late ctx request ctx request (some (.ofResult r)) notes (.ofResult r)

theorem screening_screens (objection : Context → ρ → Option Error) (ctx : Context) (request : ρ) :
    Screens (α := α) (ν := ν) (.screening objection) ctx request (objection ctx request) where
  early _ _ may := may.2
  call _ _ := id
  stays _ _ := id
  returns _ _ _ may := (Option.some.inj may.2).symm
  objects e objects := ⟨[], rfl, e, objects, rfl⟩
  goes free := ⟨free, rfl, rfl⟩
  ends _ := ⟨[], rfl, rfl⟩

theorem recovery_screens (key : ρ → String) (onPanic : Option (String → String → ν)) (ctx : Context) (request : ρ) :
    Screens (α := α) (.recovery key onPanic) ctx request none where
  early _ _ := False.elim
  call _ _ passed := ⟨rfl, passed⟩
  stays _ _ := id
  returns r notes o may := by cases r <;> exact may.2
  objects _ := nofun
  goes _ := ⟨rfl, rfl⟩
  ends r := by cases r <;> exact ⟨[], rfl, rfl⟩

namespace Passage

/-- How far a request has come in a chain of stages that object to it or pass it on. A stage is entered when all before
it have let the request through, and what comes last is invoked when all have. -/
structure Screened (k : Conduct σ η ρ α ν) (objection : σ → Option Error) (stages : List σ) (h : η) (ctx : Context)
    (request : ρ) (ms : List (Mark σ η ρ α ν)) (o : Option (Outcome α)) : Prop where
  entered : ∀ s c r, .entered s c r ∈ ms → c = ctx ∧ r = request ∧
    ∃ before after, stages = before ++ s :: after ∧ ∀ b ∈ before, objection b = none
  invoked : ∀ h' c r, .invoked h' c r ∈ ms → (h', c, r) = (h, ctx, request) ∧ ∀ s ∈ stages, objection s = none
  ended : ∀ o', o = some o' → ∃ r, o' = .ofResult r ∧
    match stages.findSome? objection with
    | some e => r = .error e
    | none => .invoked h ctx request ∈ ms ∧ .handled h (.ofResult r) ∈ ms ∧ k.handler h ctx request (.ofResult r)

variable {k : Conduct σ η ρ α ν} {objection : σ → Option Error} {h : η} {stages rest : List σ} {s : σ} {ctx : Context}
  {request : ρ} {ms tail : List (Mark σ η ρ α ν)} {o o' : Option (Outcome α)} {below : List (Waiting σ ρ)}
  {p : Passage σ η ρ α}

namespace Screened

theorem alone (quiet : ∀ m ∈ tail, ¬ m.Starts)
    (ends : ∀ x, o = some x → ∃ e, objection s = some e ∧ x = .failure e) :
    Screened k objection (s :: rest) h ctx request (.entered s ctx request :: tail) o where
  entered s' c x mem := by
    rcases List.mem_cons.mp mem with same | mem
    · cases same
      exact ⟨rfl, rfl, [], rest, rfl, nofun⟩
    · exact (quiet _ mem trivial).elim
  invoked h' c x mem := by
    rcases List.mem_cons.mp mem with same | mem
    · cases same
    · exact (quiet _ mem trivial).elim
  ended o' is := by
    obtain ⟨e, objects, rfl⟩ := ends o' is
    refine ⟨.error e, rfl, ?_⟩
    rw [List.findSome?_cons, objects]

/-- A stage that lets the request through, around those after it. -/
theorem around (inner : Screened k objection rest h ctx request ms o) (free : objection s = none)
    (quiet : ∀ m ∈ tail, m.stage? = some s ∧ ¬ m.Starts) (ends : ∀ x, o' = some x → o = some x) :
    Screened k objection (s :: rest) h ctx request
      (.entered s ctx request :: .called s ctx request (.ok ()) :: ms ++ tail) o' where
  entered s' c x mem := by
    simp only [List.cons_append, List.mem_cons, reduceCtorEq, false_or, List.mem_append] at mem
    rcases mem with same | mem | mem
    · cases same
      exact ⟨rfl, rfl, [], rest, rfl, nofun⟩
    · obtain ⟨rfl, rfl, before, after, rfl, all⟩ := inner.entered s' c x mem
      exact ⟨rfl, rfl, s :: before, after, rfl, List.forall_mem_cons.mpr ⟨free, all⟩⟩
    · exact ((quiet _ mem).2 trivial).elim
  invoked h' c x mem := by
    simp only [List.cons_append, List.mem_cons, reduceCtorEq, false_or, List.mem_append] at mem
    rcases mem with mem | mem
    · obtain ⟨same, all⟩ := inner.invoked h' c x mem
      exact ⟨same, List.forall_mem_cons.mpr ⟨free, all⟩⟩
    · exact ((quiet _ mem).2 trivial).elim
  ended x is := by
    obtain ⟨r, rfl, verdict⟩ := inner.ended x (ends x is)
    refine ⟨r, rfl, ?_⟩
    rw [List.findSome?_cons, free]
    cases found : rest.findSome? objection with
    | some e =>
      rw [found] at verdict
      exact verdict
    | none =>
      rw [found] at verdict
      simp [verdict]

end Screened

theorem last_screened (takes : k.takes h request = .ok ()) (calm : ∀ message, ¬ k.handler h ctx request (.panic message))
    (comes : Last k h ctx request ms o) : Screened k objection [] h ctx request ms o where
  entered s c r mem := by cases comes <;> simp at mem
  invoked h' c r mem := by
    cases comes with
    | refuses => cases mem
    | invokes | handles =>
      obtain ⟨rfl, rfl, rfl⟩ : h' = h ∧ c = ctx ∧ r = request := by simpa using mem
      exact ⟨rfl, nofun⟩
  ended o' is := by
    cases comes with
    | refuses refused => cases refused.symm.trans takes
    | invokes => cases is
    | handles _ may =>
      cases is
      obtain ⟨r, rfl⟩ := Outcome.exists_ofResult fun message panics => calm message (panics ▸ may)
      exact ⟨r, rfl, by simp [may]⟩

/-- No context is cancelled where the rest of a chain is called. -/
def Free (ms : List (Mark σ η ρ α ν)) : Prop := ∀ c ∈ calls ms, c.2 = .ok ()

theorem Free.append {xs ys : List (Mark σ η ρ α ν)} : Free (xs ++ ys) ↔ Free xs ∧ Free ys := by
  unfold Free
  rw [calls_append, List.forall_mem_append]

theorem Free.called {check : Except Error Unit} (free : Free (.called s ctx request check :: ms)) :
    check = .ok () ∧ Free ms :=
  List.forall_mem_cons.mp free

/-- The one call of a stage that waits for its answer, where nothing is cancelled. -/
theorem Calls.free {inner : Process σ η ρ α ν} {giveUp : Prop} {a : Option (Option (Outcome α))} (stays : ¬ giveUp)
    (made : Calls s inner giveUp ctx request ms a) (free : Free ms) :
    ∃ ms' o tail, ms = .called s ctx request (.ok ()) :: ms' ++ tail ∧ Free ms' ∧ inner ctx request ms' o ∧
      (∀ m ∈ tail, m.stage? = some s ∧ ¬ m.Starts) ∧ ∀ x, a = some x → x = o ∧ x.isSome := by
  cases made with
  | @underWay ms' scopes now rest =>
    obtain ⟨said, free⟩ := free.called
    rw [said] at rest
    rw [said]
    exact ⟨ms', none, [], (List.append_nil _).symm, free, rest, nofun, nofun⟩
  | @answered ms' o scopes now rest =>
    obtain ⟨said, free⟩ := (Free.append.mp free).1.called
    rw [said] at rest
    rw [said]
    refine ⟨ms', some o, [.told s o], rfl, free, rest, List.forall_mem_singleton.mpr ⟨rfl, id⟩, ?_⟩
    rintro x ⟨⟩
    exact ⟨rfl, rfl⟩
  | givenUp may => exact absurd may stays

theorem screened_composed (screens : ∀ s ∈ stages, Screens (k.stage s) ctx request (objection s))
    (takes : k.takes h request = .ok ()) (calm : ∀ message, ¬ k.handler h ctx request (.panic message))
    (comes : composed k stages h ctx request ms o) (free : Free ms) :
    Screened k objection stages h ctx request ms o := by
  induction stages generalizing ms o with
  | nil => exact last_screened takes calm comes
  | cons s rest ih =>
    obtain ⟨screen, others⟩ := List.forall_mem_cons.mp screens
    cases comes with
    | enters => exact .alone nofun nofun
    | early may =>
      obtain ⟨e, objects, rfl⟩ := screen.early _ _ may
      refine .alone (List.forall_mem_singleton.mpr id) fun x is => ⟨e, objects, ?_⟩
      exact (Option.some.inj is).symm
    | within may made =>
      obtain ⟨accepts, rfl, rfl⟩ := screen.call _ _ may
      obtain ⟨ms', o, tail, rfl, free, inner, quiet, -⟩ := made.free (screen.stays _ _) free
      exact (ih others inner free).around accepts quiet nofun
    | @late _ _ _ a notes _ may made ends =>
      obtain ⟨accepts, rfl, rfl⟩ := screen.call _ _ may
      obtain ⟨ms', o, tail, rfl, free, inner, quiet, answered⟩ :=
        made.free (screen.stays _ _) (Free.append.mp free).1
      obtain ⟨rfl, answer⟩ := answered a rfl
      obtain ⟨o, rfl⟩ := Option.isSome_iff_exists.mp answer
      have screened := ih others inner free
      obtain ⟨r, rfl, -⟩ := screened.ended o rfl
      cases screen.returns _ _ _ ends
      have whole := screened.around accepts
        (List.forall_mem_append.mpr ⟨quiet, List.forall_mem_singleton.mpr ⟨rfl, id⟩⟩ :
          ∀ m ∈ tail ++ [.left s notes (.ofResult r)], m.stage? = some s ∧ ¬ m.Starts)
        fun x (is : some (Outcome.ofResult r) = some x) => is
      simpa using whole

/-! ### Its way ends -/

/-- All that wait have passed the request on as it is, within its context. -/
def Through (k : Conduct σ η ρ α ν) (objection : σ → Option Error) (ctx : Context) (request : ρ)
    (below : List (Waiting σ ρ)) : Prop :=
  ∀ w ∈ below, ∃ s, w = ⟨⟨s, ctx, request⟩, ctx, request⟩ ∧ Screens (k.stage s) ctx request (objection s)

theorem answerReturns (through : Through k objection ctx request below) (r : Except Error α) :
    ∃ way, Runs (Step k) (answer (ν := ν) (η := η) (.ofResult r) below).2 way (.ended (.ofResult r)) := by
  induction below with
  | nil => exact ⟨[], .nil⟩
  | cons w below ih =>
    obtain ⟨⟨s, rfl, screen⟩, others⟩ := List.forall_mem_cons.mp through
    obtain ⟨notes, ends⟩ := screen.ends r
    have left : Step k (.resumed ⟨⟨s, ctx, request⟩, ctx, request⟩ (some (.ofResult r)) below)
        (.left s notes (.ofResult r) :: (answer (.ofResult r) below).1) (answer (.ofResult r) below).2 :=
      .endsLate ends rfl
    obtain ⟨way, run⟩ := ih others
    exact ⟨_, (Runs.nil.next left).trans run⟩

theorem arriveReturns {scopes : Scopes} {now : Instant}
    (screens : ∀ s ∈ stages, Screens (k.stage s) ctx request (objection s)) (takes : k.takes h request = .ok ())
    (alive : ctx.check scopes now = .ok ())
    (answers : (∀ s ∈ stages, objection s = none) → ∃ r, k.handler h ctx request (.ofResult r))
    (through : Through k objection ctx request below) :
    ∃ way r, Runs (Step k) (arrive (ν := ν) k.takes ⟨stages, h⟩ (.ok ()) ctx request below).2 way
      (.ended (.ofResult r)) := by
  induction stages generalizing below with
  | nil =>
    obtain ⟨r, may⟩ := answers nofun
    obtain ⟨way, run⟩ := answerReturns (η := η) (ν := ν) through r
    simp only [arrive, Chain.proceed, takes]
    exact ⟨_, r, (Runs.nil.next (.handles may rfl)).trans run⟩
  | cons s rest ih =>
    obtain ⟨screen, others⟩ := List.forall_mem_cons.mp screens
    cases objects : objection s with
    | some e =>
      obtain ⟨notes, early⟩ := screen.objects e objects
      obtain ⟨way, run⟩ := answerReturns (η := η) (ν := ν) through (.error e)
      exact ⟨_, .error e, (Runs.nil.next (.endsEarly early rfl)).trans run⟩
    | none =>
      have called : Step k (.entered ⟨s, ctx, request⟩ ⟨rest, h⟩ below)
          (.called s ctx request (ctx.check scopes now) ::
            (arrive k.takes ⟨rest, h⟩ (.ok ()) ctx request (⟨⟨s, ctx, request⟩, ctx, request⟩ :: below)).1)
          (arrive k.takes ⟨rest, h⟩ (.ok ()) ctx request (⟨⟨s, ctx, request⟩, ctx, request⟩ :: below)).2 :=
        .calls scopes now (screen.goes objects) (by rw [alive])
      obtain ⟨way, r, run⟩ := ih others (fun free => answers (List.forall_mem_cons.mpr ⟨objects, free⟩))
        (List.forall_mem_cons.mpr ⟨⟨s, rfl, screen⟩, through⟩ :
          Through k objection ctx request (⟨⟨s, ctx, request⟩, ctx, request⟩ :: below))
      exact ⟨_, r, (Runs.nil.next called).trans run⟩

theorem Descent.through {ctx₀ : Context} {request₀ : ρ} {check check₀ : Except Error Unit} {stages₀ : List σ}
    (descent : Descent k check₀ ctx₀ request₀ stages₀ ms below check ctx request stages)
    (screens : ∀ s ∈ stages₀, Screens (k.stage s) ctx₀ request₀ (objection s)) :
    ctx = ctx₀ ∧ request = request₀ ∧ Through k objection ctx₀ request₀ below ∧
    (∀ s ∈ stages, Screens (k.stage s) ctx₀ request₀ (objection s)) ∧
    ((∀ s ∈ stages, objection s = none) → ∀ s ∈ stages₀, objection s = none) := by
  induction descent with
  | here => exact ⟨rfl, rfl, nofun, screens, id⟩
  | deeper outer may scopes now ih =>
    obtain ⟨rfl, rfl, through, all, objections⟩ := ih
    obtain ⟨screen, others⟩ := List.forall_mem_cons.mp all
    obtain ⟨accepts, rfl, rfl⟩ := screen.call _ _ may
    refine ⟨rfl, rfl, List.forall_mem_cons.mpr ⟨⟨_, rfl, screen⟩, through⟩, others, fun free => ?_⟩
    exact objections (List.forall_mem_cons.mpr ⟨accepts, free⟩)

theorem Stands.returns {scopes : Scopes} {now : Instant} (stands : Stands k h (.ok ()) ctx request stages ms p)
    (free : Free ms) (screens : ∀ s ∈ stages, Screens (k.stage s) ctx request (objection s))
    (takes : k.takes h request = .ok ()) (calm : ∀ message, ¬ k.handler h ctx request (.panic message))
    (alive : ctx.check scopes now = .ok ())
    (answers : (∀ s ∈ stages, objection s = none) → ∃ r, k.handler h ctx request (.ofResult r)) :
    ∃ way r, Runs (Step k) p way (.ended (.ofResult r)) := by
  cases stands with
  | entered descent =>
    obtain ⟨rfl, rfl, through, all, objections⟩ := descent.through screens
    exact arriveReturns all takes alive (answers ∘ objections) through
  | resumed descent may made =>
    obtain ⟨rfl, rfl, through, all, -⟩ := descent.through screens
    obtain ⟨screen, others⟩ := List.forall_mem_cons.mp all
    obtain ⟨accepts, rfl, rfl⟩ := screen.call _ _ may
    obtain ⟨_, o, _, rfl, free, inner, -, answered⟩ := made.free (screen.stays _ _) (Free.append.mp free).2
    obtain ⟨rfl, answer⟩ := answered _ rfl
    obtain ⟨o, rfl⟩ := Option.isSome_iff_exists.mp answer
    obtain ⟨r, rfl, -⟩ := (screened_composed others takes calm inner free).ended o rfl
    obtain ⟨way, run⟩ := answerReturns (η := η) (ν := ν)
      (List.forall_mem_cons.mpr ⟨⟨_, rfl, screen⟩, through⟩ : Through k objection _ _ (_ :: _)) r
    exact ⟨way, r, run⟩
  | handling descent =>
    obtain ⟨rfl, rfl, through, all, objections⟩ := descent.through screens
    have back := arriveReturns (ν := ν) (List.forall_mem_nil _) takes alive (answers ∘ objections) through
    simpa only [arrive, Chain.proceed, takes] using back
  | ended comes =>
    obtain ⟨r, rfl, -⟩ := (screened_composed screens takes calm comes free).ended _ rfl
    exact ⟨[], r, .nil⟩

end Passage

/-! ### The stages that come with a mediator -/

inductive BuiltIn (ρ ν : Type) where
  | recovery (onPanic : Option (String → String → ν))
  | logging
  | performance
  | validation
  | guard (name : String) (admits : Context → ρ → Bool)

namespace BuiltIn

variable {key : ρ → String} {validate : ρ → Option (List ValidationError)} {ctx : Context} {request : ρ}

def objection (key : ρ → String) (validate : ρ → Option (List ValidationError)) (ctx : Context) (request : ρ) :
    BuiltIn ρ ν → Option Error
  | validation => (validate request).map fun errors => .badRequest (Validation.joined errors)
  | guard name admits => if admits ctx request then none else some (Guard.refusal name (key request))
  | recovery _ | logging | performance => none

def behaviour (key : ρ → String) (validate : ρ → Option (List ValidationError)) : BuiltIn ρ ν → Behaviour ρ α ν
  | recovery onPanic => .recovery key onPanic
  | s => .screening fun ctx request => s.objection key validate ctx request

theorem screens (s : BuiltIn ρ ν) :
    Screens (α := α) (s.behaviour key validate) ctx request (s.objection key validate ctx request) := by
  cases s with
  | recovery onPanic => exact recovery_screens key onPanic ctx request
  | _ => exact screening_screens _ ctx request

/-- The request validates if that is asked, and every guard admits it. -/
def Welcome (validate : ρ → Option (List ValidationError)) (ctx : Context) (request : ρ)
    (stages : List (BuiltIn ρ ν)) : Prop :=
  (.validation ∈ stages → validate request = none) ∧
  ∀ name admits, .guard name admits ∈ stages → admits ctx request = true

theorem welcome {stages : List (BuiltIn ρ ν)} :
    (∀ s ∈ stages, s.objection key validate ctx request = none) ↔ Welcome validate ctx request stages := by
  constructor
  · intro free
    refine ⟨fun mem => ?_, fun name admits mem => ?_⟩
    · simpa [objection] using free _ mem
    · simpa [objection] using free _ mem
  · rintro ⟨validates, admitted⟩ s mem
    cases s with
    | validation => simp [objection, validates mem]
    | guard name admits => simp [objection, admitted name admits mem]
    | _ => rfl

end BuiltIn

def Terms.furnished (T : Terms σ η θ ρ τ ν) (validate : ρ → Option (List ValidationError)) :
    Terms (BuiltIn ρ ν) η θ ρ τ ν :=
  { T with stage := BuiltIn.behaviour T.key validate }

/-- A handler that does not panic, and answers with what the request asks for. -/
structure Terms.Proper (T : Terms σ η θ ρ τ ν) (h : η) (ctx : Context) (request : ρ) : Prop where
  calm : ∀ message, ¬ T.handler h ctx request (.panic message)
  typed : ∀ a, T.handler h ctx request (.value a) → a.type = T.response request

namespace Exchange

open Passage (invocations Screened)

/-- The handler is given the request once and as it is, and the sender what the handler makes of it. -/
structure Served (T : Terms σ η θ ρ τ ν) (s : Exchange σ η θ ρ τ) (n : Nat) (h : Shape × η) (ctx : Context)
    (request : ρ) (ms : List (Mark σ η θ ρ τ ν)) : Prop where
  once : invocations (doings n ms) = [] ∨ invocations (doings n ms) = [(h, ctx, request)]
  returned : ∀ check r, .returned n check r ∈ ms →
    invocations (doings n ms) = [(h, ctx, request)] ∧ .handled h (.ofResult r) ∈ doings n ms
  canReturn : (∃ r, T.handler h.2 ctx request (.ofResult r)) →
    ∀ d, s.sends[n]? = some d → d.closed = false → CanReturn T s n ctx

/-- The request gets no further than to the stage at `place`, and the sender is told why. -/
structure TurnedBack (T : Terms σ η θ ρ τ ν) (s : Exchange σ η θ ρ τ) (n : Nat) (ctx : Context) (place : Nat)
    (e : Error) (ms : List (Mark σ η θ ρ τ ν)) : Prop where
  uninvoked : invocations (doings n ms) = []
  unseen : ∀ st i c r, .did n (.entered (st, i) c r) ∈ ms → i ≤ place
  returned : ∀ check r, .returned n check r ∈ ms → r = .error e
  canReturn : ∀ d, s.sends[n]? = some d → d.closed = false → CanReturn T s n ctx

variable {T : Terms σ η θ ρ τ ν} {validate : ρ → Option (List ValidationError)} {n : Nat} {ctx : Context} {request : ρ}
  {check : Except Error Unit} {h : η}

theorem sent_check {s s' : Exchange σ η θ ρ τ} {new : List (Mark σ η θ ρ τ ν)}
    (sends : Step T s (.sent n ctx request check :: new) s') : ∃ scopes now, check = ctx.check scopes now := by
  generalize told : Mark.sent n ctx request check :: new = marks at sends
  cases sends with
  | send ctx request scopes now =>
    cases told
    exact ⟨scopes, now, rfl⟩
  | @goes _ _ ms => cases ms <;> cases told
  | _ => cases told

theorem placed {stages : List σ} {before after : List (σ × Nat)} {s b : σ} {i j : Nat}
    (split : stages.zipIdx = before ++ (s, i) :: after) (stands : stages[j]? = some b) (earlier : j < i) :
    (b, j) ∈ before := by
  have here : stages.zipIdx[before.length]? = some (s, i) := by simp [split]
  have there : stages.zipIdx[j]? = some (b, j) := by simp [stands]
  simp only [List.getElem?_zipIdx, Option.map_eq_some_iff, Prod.mk.injEq] at here
  obtain ⟨_, -, -, place⟩ := here
  rw [split, List.getElem?_append_left (by omega)] at there
  exact List.mem_of_getElem? there

theorem findSome?_zipIdx {β : Type} (f : σ → Option β) (stages : List σ) :
    stages.zipIdx.findSome? (fun p => f p.1) = stages.findSome? f := by
  calc
    stages.zipIdx.findSome? (fun p => f p.1) = (stages.zipIdx.map Prod.fst).findSome? f := by
      rw [List.findSome?_map]
      rfl
    _ = stages.findSome? f := by rw [List.zipIdx_map_fst]

theorem invoked_once {ms : List (Passage.Mark (σ × Nat) (Shape × η) ρ Response ν)} {x : (Shape × η) × Context × ρ}
    (once : (invocations ms).length ≤ 1) (same : ∀ y ∈ invocations ms, y = x) :
    invocations ms = [] ∨ invocations ms = [x] := by
  match found : invocations ms with
  | [] => exact .inl rfl
  | [y] =>
    rw [same y (found ▸ List.mem_singleton_self y)]
    exact .inr rfl
  | _ :: _ :: rest =>
    rw [found] at once
    simp at once

theorem mem_invocations {ms : List (Passage.Mark (σ × Nat) (Shape × η) ρ Response ν)} {h : Shape × η} {c : Context}
    {r : ρ} : (h, c, r) ∈ invocations ms ↔ .invoked h c r ∈ ms := by
  let mark (x : (Shape × η) × Context × ρ) : Passage.Mark (σ × Nat) (Shape × η) ρ Response ν := .invoked x.1 x.2.1 x.2.2
  refine mem_project (g := mark) fun m x => ?_
  cases m with
  | invoked h' c' r' =>
    obtain ⟨h, c, r⟩ := x
    simp [Passage.Mark.invocation?, mark]
  | _ => simp [Passage.Mark.invocation?, mark]

/-! ### A request through them -/

section Furnished

variable {stages : List (BuiltIn ρ ν)} {s : Exchange (BuiltIn ρ ν) η θ ρ τ} {ms : List (Mark (BuiltIn ρ ν) η θ ρ τ ν)}
  {d : Sending (BuiltIn ρ ν) η ρ} {scopes : Scopes} {now : Instant}

theorem furnishedScreens : ∀ p ∈ stages.zipIdx, Screens ((T.furnished validate).conduct.stage p) ctx request
    (p.1.objection T.key validate ctx request) :=
  fun p _ => p.1.screens

theorem furnishedTakes : (T.furnished validate).conduct.takes (T.request request, h) request = .ok () :=
  received.mpr rfl

namespace Follows

variable (follows : Follows (T.furnished validate) n
    ⟨.ok (), ctx, request, numbered stages (T.request request, h)⟩ ms d)
  (proper : T.Proper h ctx request) (uncancelled : Uncancelled n ms)
include follows proper uncancelled

theorem screened : Screened (T.furnished validate).conduct (fun p => p.1.objection T.key validate ctx request)
    stages.zipIdx (T.request request, h) ctx request (doings n ms) d.passage.outcome? :=
  Passage.screened_composed furnishedScreens furnishedTakes proper.calm
    (Passage.comes_composed.mp ⟨_, follows.dispatched, rfl⟩) uncancelled.calls

theorem settled {r : Except Error Response} (mem : .returned n check r ∈ ms) :
    ∃ result, r = Mediator.conclude (T.key request) (T.response request) none result ∧
      match stages.findSome? fun s => s.objection T.key validate ctx request with
      | some e => result = .error e
      | none => .invoked (T.request request, h) ctx request ∈ doings n ms ∧
        .handled (T.request request, h) (.ofResult result) ∈ doings n ms ∧
        T.handler h ctx request (.ofResult result) := by
  have last : check = .ok () := uncancelled.free mem (if_pos rfl)
  obtain ⟨-, -, result, ended, rfl⟩ := follows.returned check r mem
  obtain ⟨same, is, verdict⟩ := (follows.screened proper uncancelled).ended (.ofResult result) (by rw [ended]; rfl)
  cases Outcome.ofResult_injective is
  rw [findSome?_zipIdx] at verdict
  exact ⟨result, by rw [last]; rfl, verdict⟩

theorem comesBack (alive : ctx.check scopes now = .ok ())
    (answers : (∀ s ∈ stages, s.objection T.key validate ctx request = none) →
      ∃ r, T.handler h ctx request (.ofResult r)) (stands : s.sends[n]? = some d) :
    ∀ d', s.sends[n]? = some d' → d'.closed = false → CanReturn (T.furnished validate) s n ctx := by
  intro d' stands' underWay
  cases Option.some.inj (stands.symm.trans stands')
  obtain ⟨way, r, run⟩ := (Passage.runStands follows.dispatched).returns uncancelled.calls furnishedScreens
    furnishedTakes proper.calm alive fun free => answers fun s mem => by
      obtain ⟨i, here⟩ := List.mem_iff_getElem?.mp mem
      exact free (s, i) (List.mk_mem_zipIdx_iff_getElem?.mpr here)
  have can := wayReturns stands underWay run
  rwa [follows.same] at can

theorem served (alive : ctx.check scopes now = .ok ()) (stands : s.sends[n]? = some d)
    (welcome : BuiltIn.Welcome validate ctx request stages) :
    Served (T.furnished validate) s n (T.request request, h) ctx request ms := by
  have screened := follows.screened proper uncancelled
  have all : ∀ s ∈ stages, s.objection T.key validate ctx request = none := BuiltIn.welcome.mpr welcome
  have comes := Passage.comes_composed.mp ⟨_, follows.dispatched, rfl⟩
  have once := invoked_once (Passage.orderly_composed (.ok ()) comes).once
    fun (h', c, r) mem => (screened.invoked h' c r (mem_invocations.mp mem)).1
  refine ⟨once, fun check r mem => ?_, fun answers => follows.comesBack proper uncancelled alive (fun _ => answers) stands⟩
  obtain ⟨result, rfl, verdict⟩ := follows.settled proper uncancelled mem
  rw [List.findSome?_eq_none_iff.mpr all] at verdict
  obtain ⟨invoked, handled, may⟩ := verdict
  refine ⟨once.resolve_left (List.ne_nil_of_mem (mem_invocations.mpr invoked)), ?_⟩
  cases result with
  | error => exact handled
  | ok a => rwa [Mediator.conclude, if_pos (proper.typed a may)]

theorem turnedBack (alive : ctx.check scopes now = .ok ()) (stands : s.sends[n]? = some d)
    {before after : List (BuiltIn ρ ν)} {st : BuiltIn ρ ν} {e : Error} (split : stages = before ++ st :: after)
    (objects : st.objection T.key validate ctx request = some e)
    (free : ∀ b ∈ before, b.objection T.key validate ctx request = none) :
    TurnedBack (T.furnished validate) s n ctx before.length e ms := by
  have screened := follows.screened proper uncancelled
  have here : stages[before.length]? = some st := by simp [split]
  refine ⟨?_, fun s' i c r mem => ?_, fun check r mem => ?_, ?_⟩
  · refine List.eq_nil_iff_forall_not_mem.mpr fun (h', c, r) mem => ?_
    have free := (screened.invoked h' c r (mem_invocations.mp mem)).2 _ (List.mk_mem_zipIdx_iff_getElem?.mpr here)
    cases free.symm.trans objects
  · obtain ⟨-, -, _, _, split', free⟩ := screened.entered _ _ _ (mem_doings.mpr mem)
    refine Nat.le_of_not_lt fun later => ?_
    cases (free _ (placed split' here later)).symm.trans objects
  · obtain ⟨result, rfl, verdict⟩ := follows.settled proper uncancelled mem
    rw [List.findSome?_eq_some_iff.mpr ⟨before, st, after, split, objects, free⟩] at verdict
    cases verdict
    rfl
  · refine follows.comesBack proper uncancelled alive (fun free => ?_) stands
    cases (free st (split ▸ List.mem_append_right _ List.mem_cons_self)).symm.trans objects

end Follows

end Furnished

/-! ### A guard in front of a validation -/

def blank (_ : Shape) : Option (List ValidationError) := some [{ field := "name", message := "must not be empty" }]

def lobby : List (BuiltIn Shape Unit) := [.logging, .guard "members" fun _ _ => false, .validation]

def scribe : BuiltIn Shape Unit × Nat := (.logging, 0)
def porter : BuiltIn Shape Unit × Nat := (.guard "members" fun _ _ => false, 1)
def examiner : BuiltIn Shape Unit × Nat := (.validation, 2)

def refused : Error := Guard.refusal "members" "letter"

def hall (sends : List (Sending (BuiltIn Shape Unit) Unit Shape)) : Exchange (BuiltIn Shape Unit) Unit Unit Shape Shape :=
  ⟨lobby, ⟨[(letter, ())]⟩, .empty, sends, []⟩

def admitted (passage : Passage (BuiltIn Shape Unit × Nat) (Shape × Unit) Shape Response) (closed : Bool) :
    Sending (BuiltIn Shape Unit) Unit Shape :=
  ⟨⟨.ok (), reader, letter, ⟨[scribe, porter, examiner], (letter, ())⟩⟩, passage, closed⟩

theorem strangerSent : Step (relaying.furnished blank) (hall [])
    [.sent 0 reader letter (.ok ()), .did 0 (.entered scribe reader letter)]
    (hall [admitted (.entered ⟨scribe, reader, letter⟩ ⟨[porter, examiner], (letter, ())⟩ []) false]) :=
  .send reader letter .empty 0 rfl rfl

def turningBack : List (Mark (BuiltIn Shape Unit) Unit Unit Shape Shape Unit) :=
  [.did 0 (.called scribe reader letter (.ok ())), .did 0 (.entered porter reader letter),
    .did 0 (.left porter [] (.failure refused)), .did 0 (.told scribe (.failure refused)),
    .did 0 (.left scribe [] (.failure refused)), .returned 0 (.ok ()) (.error refused)]

theorem strangerReturned : Run (relaying.furnished blank)
    (hall [admitted (.entered ⟨scribe, reader, letter⟩ ⟨[porter, examiner], (letter, ())⟩ []) false]) turningBack
    (hall [admitted (.ended (.failure refused)) true]) := by
  have called : Passage.Step (relaying.furnished blank).conduct
      (.entered ⟨scribe, reader, letter⟩ ⟨[porter, examiner], (letter, ())⟩ [])
      [.called scribe reader letter (.ok ()), .entered porter reader letter]
      (.entered ⟨porter, reader, letter⟩ ⟨[examiner], (letter, ())⟩ [⟨⟨scribe, reader, letter⟩, reader, letter⟩]) :=
    .calls .empty 0 ⟨rfl, rfl, rfl⟩ rfl
  have objected : Passage.Step (relaying.furnished blank).conduct
      (.entered ⟨porter, reader, letter⟩ ⟨[examiner], (letter, ())⟩ [⟨⟨scribe, reader, letter⟩, reader, letter⟩])
      [.left porter [] (.failure refused), .told scribe (.failure refused)]
      (.resumed ⟨⟨scribe, reader, letter⟩, reader, letter⟩ (some (.failure refused)) []) :=
    .endsEarly ⟨rfl, refused, rfl, rfl⟩ rfl
  have left : Passage.Step (relaying.furnished blank).conduct
      (.resumed ⟨⟨scribe, reader, letter⟩, reader, letter⟩ (some (.failure refused)) [])
      [.left scribe [] (.failure refused)] (.ended (.failure refused)) := .endsLate ⟨rfl, rfl⟩ rfl
  have passed := goesOn (T := relaying.furnished blank) (n := 0) (s := hall [admitted _ false]) rfl rfl
    (((Runs.nil.next called).next objected).next left)
  have answered : Step (relaying.furnished blank) (hall [admitted (.ended (.failure refused)) false])
      [.returned 0 (.ok ()) (.error refused)] (hall [admitted (.ended (.failure refused)) true]) :=
    .returns (n := 0) (d := admitted (.ended (.failure refused)) false) (r := .error refused) .empty 0 rfl rfl rfl
  exact .next passed answered

end Exchange
end Dispatch
end Switchyard
