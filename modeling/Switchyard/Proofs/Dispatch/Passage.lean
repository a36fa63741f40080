import Switchyard.Dispatch.Chain
import Switchyard.Context
import Switchyard.Outcome
/-!
A request on its way through a chain. Stages do what they like: they look at the request, end early, call the rest of
the chain once, with any context and request, wait for it or give it up, and end with anything, a panic included. The
stages that wait for the rest of their chains are kept as a stack, as the machine keeps them.
-/
namespace Switchyard.Dispatch

/-- What a stage may do when it has been given a context and a request: end without the rest of its chain, call that,
give the call up, and end when there is an answer or none will come. What it tells, it tells when it ends. -/
structure Behaviour (ρ α ν : Type) where
  early : Context → ρ → List ν → Outcome α → Prop
  call : Context → ρ → Context → ρ → Prop
  giveUp : Context → ρ → Context → ρ → Prop
  late : Context → ρ → Context → ρ → Option (Outcome α) → List ν → Outcome α → Prop

def Behaviour.relay {ρ α ν : Type} : Behaviour ρ α ν where
  early _ _ _ _ := False
  call ctx request passedCtx passed := passedCtx = ctx ∧ passed = request
  giveUp _ _ _ _ := False
  late _ _ _ _ a notes o := notes = [] ∧ a = some o

structure Conduct (σ η ρ α ν : Type) where
  stage : σ → Behaviour ρ α ν
  takes : η → ρ → Except Error Unit
  handler : η → Context → ρ → Outcome α → Prop

structure Visit (σ ρ : Type) where
  stage : σ
  ctx : Context
  request : ρ

/-- A stage that has called the rest of its chain, with what it passed on. -/
structure Waiting (σ ρ : Type) extends Visit σ ρ where
  passedCtx : Context
  passed : ρ

/-- Where a request stands, over the stages that wait for what comes of it, innermost first. -/
inductive Passage (σ η ρ α : Type) where
  | entered (v : Visit σ ρ) (rest : Chain σ η) (below : List (Waiting σ ρ))
  | resumed (v : Waiting σ ρ) (answer : Option (Outcome α)) (below : List (Waiting σ ρ))
  | handling (h : η) (ctx : Context) (request : ρ) (below : List (Waiting σ ρ))
  | ended (o : Outcome α)

namespace Passage

variable {σ η ρ α ν : Type}

inductive Mark (σ η ρ α ν : Type) where
  | entered (s : σ) (ctx : Context) (request : ρ)
  /-- A stage calls the rest of its chain; `check` is what the context says to that. -/
  | called (s : σ) (ctx : Context) (request : ρ) (check : Except Error Unit)
  | invoked (h : η) (ctx : Context) (request : ρ)
  | handled (h : η) (o : Outcome α)
  | told (s : σ) (o : Outcome α)
  | dropped (s : σ)
  | left (s : σ) (notes : List ν) (o : Outcome α)

def below : Passage σ η ρ α → List (Waiting σ ρ)
  | entered _ _ below | resumed _ _ below | handling _ _ _ below => below
  | ended _ => []

def outcome? : Passage σ η ρ α → Option (Outcome α)
  | ended o => some o
  | _ => none

/-- An outcome goes to the stage that waits for it, and from the first one to the sender. -/
def answer (o : Outcome α) : List (Waiting σ ρ) → List (Mark σ η ρ α ν) × Passage σ η ρ α
  | [] => ([], ended o)
  | v :: below => ([.told v.stage o], resumed v (some o) below)

def arrive (takes : η → ρ → Except Error Unit) (c : Chain σ η) (check : Except Error Unit) (ctx : Context)
    (request : ρ) (below : List (Waiting σ ρ)) : List (Mark σ η ρ α ν) × Passage σ η ρ α :=
  match c.proceed takes check request with
  | .error e => answer (.failure e) below
  | .ok (.stage s rest) => ([.entered s ctx request], entered ⟨s, ctx, request⟩ rest below)
  | .ok (.last h) => ([.invoked h ctx request], handling h ctx request below)

inductive Step (k : Conduct σ η ρ α ν) : Passage σ η ρ α → List (Mark σ η ρ α ν) → Passage σ η ρ α → Prop where
  | calls {v rest below ctx request ms p} (scopes : Scopes) (now : Instant)
      (may : (k.stage v.stage).call v.ctx v.request ctx request)
      (arrives : arrive k.takes rest (ctx.check scopes now) ctx request (⟨v, ctx, request⟩ :: below) = (ms, p)) :
      Step k (entered v rest below) (.called v.stage ctx request (ctx.check scopes now) :: ms) p
  | endsEarly {v rest below notes o ms p} (may : (k.stage v.stage).early v.ctx v.request notes o)
      (answers : answer o below = (ms, p)) : Step k (entered v rest below) (.left v.stage notes o :: ms) p
  | endsLate {v a below notes o ms p}
      (may : (k.stage v.stage).late v.ctx v.request v.passedCtx v.passed a notes o)
      (answers : answer o below = (ms, p)) : Step k (resumed v a below) (.left v.stage notes o :: ms) p
  | handles {h ctx request below o ms p} (may : k.handler h ctx request o) (answers : answer o below = (ms, p)) :
      Step k (handling h ctx request below) (.handled h o :: ms) p
  /-- A stage gives its call up, and with it all that has come of the call so far. -/
  | givesUp {p : Passage σ η ρ α} {above v below} (stands : p.below = above ++ v :: below)
      (may : (k.stage v.stage).giveUp v.ctx v.request v.passedCtx v.passed) :
      Step k p [.dropped v.stage] (resumed v none below)

/-- How far a call of a chain can have come. -/
inductive Dispatched (k : Conduct σ η ρ α ν) (c : Chain σ η) (check : Except Error Unit) (ctx : Context)
    (request : ρ) : List (Mark σ η ρ α ν) → Passage σ η ρ α → Prop where
  | begins {ms p} (arrives : arrive k.takes c check ctx request [] = (ms, p)) : Dispatched k c check ctx request ms p
  | next {ms p new p'} (earlier : Dispatched k c check ctx request ms p) (last : Step k p new p') :
      Dispatched k c check ctx request (ms ++ new) p'

end Passage
end Switchyard.Dispatch
