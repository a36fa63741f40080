import Switchyard.Dispatch.Mediator
import Switchyard.Proofs.Dispatch.Passage
import Switchyard.Proofs.History
/-!
A mediator among those who register with it, send and publish. Handlers and stages are added at any moment, also while
requests are on their way, and any number of requests and notifications are. Which types there are, and what stages
and handlers do with what they are given, is left open; what the mediator does is what its functions say.
-/
namespace Switchyard

def Outcome.ofResult {α : Type} : Except Error α → Outcome α
  | .ok a => .value a
  | .error e => .failure e

namespace Dispatch

/-- What is said of requests and notifications, and what stages and handlers may do with them. -/
structure Terms (σ η θ ρ τ ν : Type) where
  request : ρ → Shape
  response : ρ → ResponseType
  notification : τ → Shape
  stage : σ → Behaviour ρ Response ν
  handler : η → Context → ρ → Outcome Response → Prop
  listener : θ → Context → τ → Outcome Unit → Prop

variable {σ η θ ρ τ ν : Type}

namespace Terms

def key (T : Terms σ η θ ρ τ ν) (request : ρ) : String := (T.request request).key

def takes (T : Terms σ η θ ρ τ ν) (registered : Shape × η) (request : ρ) : Except Error Unit :=
  Mediator.receives (Mediator.requestMismatch (T.key request)) registered.1 (T.request request)

/-- Stages go by their places in the chain, handlers with the shapes they were registered for. -/
def conduct (T : Terms σ η θ ρ τ ν) : Conduct (σ × Nat) (Shape × η) ρ Response ν where
  stage s := T.stage s.1
  takes := T.takes
  handler h := T.handler h.2

end Terms

/-- A request as it was sent, with the chain of that moment and what the context said. -/
structure Sent (σ η ρ : Type) where
  check : Except Error Unit
  ctx : Context
  request : ρ
  chain : Chain (σ × Nat) (Shape × η)

structure Sending (σ η ρ : Type) extends Sent σ η ρ where
  passage : Passage (σ × Nat) (Shape × η) ρ Response
  closed : Bool

structure Publication (θ τ : Type) where
  ctx : Context
  notification : τ
  listener : θ
  closed : Bool

structure Exchange (σ η θ ρ τ : Type) where
  stages : List σ
  handlers : Registry η
  listeners : Registry θ
  sends : List (Sending σ η ρ)
  publications : List (Publication θ τ)

namespace Exchange

/-- Requests that were sent and notifications that were heard go by their numbers. A `check` is what the context of the
sender says at that moment. -/
inductive Mark (σ η θ ρ τ ν : Type) where
  | installed (shape : Shape) (h : η) (r : Except Error Unit)
  | listening (shape : Shape) (l : θ) (r : Except Error Unit)
  | staged (s : σ)
  | refused (ctx : Context) (request : ρ) (e : Error)
  | sent (n : Nat) (ctx : Context) (request : ρ) (check : Except Error Unit)
  | did (n : Nat) (m : Passage.Mark (σ × Nat) (Shape × η) ρ Response ν)
  | returned (n : Nat) (check : Except Error Unit) (r : Except Error Response)
  | panicked (n : Nat) (message : String)
  | dropped (n : Nat)
  | unheard (ctx : Context) (notification : τ) (check : Except Error Unit) (e : Error)
  | heard (n : Nat) (shape : Shape) (l : θ) (ctx : Context) (notification : τ)
  | answered (n : Nat) (r : Except Error Unit)
  | silenced (n : Nat)

def failed : Except Error Unit → Option Error
  | .error e => some e
  | .ok () => none

def kept {κ : Type} (registry : Registry κ) : Except Error (Registry κ) → Registry κ
  | .ok registry => registry
  | .error _ => registry

def numbered (stages : List σ) (h : Shape × η) : Chain (σ × Nat) (Shape × η) := ⟨stages.zipIdx, h⟩

def answered (T : Terms σ η θ ρ τ ν) (sent : Sent σ η ρ) (check : Except Error Unit)
    (r : Except Error Response) : Except Error Response :=
  Mediator.conclude (T.key sent.request) (T.response sent.request) (failed check) r

inductive Step (T : Terms σ η θ ρ τ ν) (s : Exchange σ η θ ρ τ) :
    List (Mark σ η θ ρ τ ν) → Exchange σ η θ ρ τ → Prop where
  | install (shape : Shape) (h : η) {r} (registers : s.handlers.register shape h = r) :
      Step T s [.installed shape h (r.map fun _ => ())] { s with handlers := kept s.handlers r }
  | listen (shape : Shape) (l : θ) {r} (registers : s.listeners.register shape l = r) :
      Step T s [.listening shape l (r.map fun _ => ())] { s with listeners := kept s.listeners r }
  | stage (st : σ) : Step T s [.staged st] { s with stages := s.stages ++ [st] }
  | refuse (ctx : Context) (request : ρ) {e} (missing : s.handlers.lookup (T.key request) = .error e) :
      Step T s [.refused ctx request e] s
  | send (ctx : Context) (request : ρ) {h} (scopes : Scopes) (now : Instant) {ms p}
      (found : s.handlers.lookup (T.key request) = .ok h)
      (arrives : Passage.arrive T.takes (numbered s.stages h) (ctx.check scopes now) ctx request [] = (ms, p)) :
      Step T s (.sent s.sends.length ctx request (ctx.check scopes now) :: ms.map (.did s.sends.length))
        { s with sends := s.sends ++ [⟨⟨ctx.check scopes now, ctx, request, numbered s.stages h⟩, p, false⟩] }
  | goes {n d ms p} (stands : s.sends[n]? = some d) (underWay : d.closed = false)
      (step : Passage.Step T.conduct d.passage ms p) :
      Step T s (ms.map (.did n)) { s with sends := s.sends.set n { d with passage := p } }
  | returns {n d r} (scopes : Scopes) (now : Instant) (stands : s.sends[n]? = some d) (underWay : d.closed = false)
      (ended : d.passage = .ended (.ofResult r)) :
      Step T s
        [.returned n (d.ctx.check scopes now) (answered T d.toSent (d.ctx.check scopes now) r)]
        { s with sends := s.sends.set n { d with closed := true } }
  | panics {n d message} (stands : s.sends[n]? = some d) (underWay : d.closed = false)
      (ended : d.passage = .ended (.panic message)) :
      Step T s [.panicked n message] { s with sends := s.sends.set n { d with closed := true } }
  /-- Nobody waits for the answer any more. -/
  | drop {n d} (stands : s.sends[n]? = some d) (underWay : d.closed = false) :
      Step T s [.dropped n] { s with sends := s.sends.set n { d with closed := true } }
  /-- There is no handler, or the context is cancelled. -/
  | unaddressed (ctx : Context) (x : τ) (scopes : Scopes) (now : Instant) {e}
      (missing : Mediator.addressee s.listeners (T.notification x).key (ctx.check scopes now) = .error e) :
      Step T s [.unheard ctx x (ctx.check scopes now) e] s
  | misaddressed (ctx : Context) (x : τ) (scopes : Scopes) (now : Instant) {shape l e}
      (found : Mediator.addressee s.listeners (T.notification x).key (ctx.check scopes now) = .ok (shape, l))
      (mismatch : Mediator.receives (Mediator.notificationMismatch shape.key) shape (T.notification x) = .error e) :
      Step T s [.unheard ctx x (ctx.check scopes now) e] s
  | publish (ctx : Context) (x : τ) (scopes : Scopes) (now : Instant) {shape l}
      (found : Mediator.addressee s.listeners (T.notification x).key (ctx.check scopes now) = .ok (shape, l))
      (fits : Mediator.receives (Mediator.notificationMismatch shape.key) shape (T.notification x) = .ok ()) :
      Step T s [.heard s.publications.length shape l ctx x]
        { s with publications := s.publications ++ [⟨ctx, x, l, false⟩] }
  | answers {n d o} (stands : s.publications[n]? = some d) (underWay : d.closed = false)
      (may : T.listener d.listener d.ctx d.notification o) :
      Step T s [.answered n o.caught] { s with publications := s.publications.set n { d with closed := true } }
  | silence {n d} (stands : s.publications[n]? = some d) (underWay : d.closed = false) :
      Step T s [.silenced n] { s with publications := s.publications.set n { d with closed := true } }

abbrev Run (T : Terms σ η θ ρ τ ν) (init : Exchange σ η θ ρ τ) :
    List (Mark σ η θ ρ τ ν) → Exchange σ η θ ρ τ → Prop :=
  Runs (Step T) init

/-! ### One request among the others -/

def Mark.send? : Mark σ η θ ρ τ ν → Option Nat
  | .sent n .. | .did n _ | .returned n .. | .panicked n _ | .dropped n => some n
  | _ => none

def Mark.doing? (n : Nat) : Mark σ η θ ρ τ ν → Option (Passage.Mark (σ × Nat) (Shape × η) ρ Response ν)
  | .did i m => if i = n then some m else none
  | _ => none

def doings (n : Nat) (ms : List (Mark σ η θ ρ τ ν)) : List (Passage.Mark (σ × Nat) (Shape × η) ρ Response ν) :=
  ms.filterMap (Mark.doing? n)

/-- What a step can do about a request that was sent. -/
inductive Fate (T : Terms σ η θ ρ τ ν) (n : Nat) (d : Sending σ η ρ) :
    List (Mark σ η θ ρ τ ν) → Sending σ η ρ → Prop where
  | aside {ms} (apart : ∀ m ∈ ms, m.send? ≠ some n) : Fate T n d ms d
  | goes {ms p} (underWay : d.closed = false) (step : Passage.Step T.conduct d.passage ms p) :
      Fate T n d (ms.map (.did n)) { d with passage := p }
  | returns {r} (scopes : Scopes) (now : Instant) (underWay : d.closed = false)
      (ended : d.passage = .ended (.ofResult r)) :
      Fate T n d
        [.returned n (d.ctx.check scopes now) (answered T d.toSent (d.ctx.check scopes now) r)]
        { d with closed := true }
  | panics {message} (underWay : d.closed = false) (ended : d.passage = .ended (.panic message)) :
      Fate T n d [.panicked n message] { d with closed := true }
  | drops (underWay : d.closed = false) : Fate T n d [.dropped n] { d with closed := true }

structure Follows (T : Terms σ η θ ρ τ ν) (n : Nat) (sent : Sent σ η ρ) (ms : List (Mark σ η θ ρ τ ν))
    (d : Sending σ η ρ) : Prop where
  same : d.toSent = sent
  dispatched : Passage.Dispatched T.conduct sent.chain sent.check sent.ctx sent.request (doings n ms) d.passage
  returned : ∀ check r, .returned n check r ∈ ms → d.closed = true ∧ (∃ scopes now, check = sent.ctx.check scopes now) ∧
    ∃ r', d.passage = .ended (.ofResult r') ∧ r = answered T sent check r'
  panicked : ∀ message, .panicked n message ∈ ms → d.closed = true ∧ d.passage = .ended (.panic message)

variable {T : Terms σ η θ ρ τ ν} {s s' init : Exchange σ η θ ρ τ} {ms new : List (Mark σ η θ ρ τ ν)} {n : Nat}
  {d d' : Sending σ η ρ}

theorem doings_append (n : Nat) (xs ys : List (Mark σ η θ ρ τ ν)) :
    doings n (xs ++ ys) = doings n xs ++ doings n ys :=
  List.filterMap_append

theorem doings_did (n : Nat) (ms : List (Passage.Mark (σ × Nat) (Shape × η) ρ Response ν)) :
    doings (θ := θ) (τ := τ) n (ms.map (.did n)) = ms := by
  induction ms with
  | nil => rfl
  | cons m rest ih => simpa [doings, Mark.doing?] using ih

theorem mem_doings {m : Passage.Mark (σ × Nat) (Shape × η) ρ Response ν} : m ∈ doings n ms ↔ .did n m ∈ ms := by
  refine mem_project fun mark m => ?_
  cases mark with
  | did i m' => simp [Mark.doing?]
  | _ => simp [Mark.doing?]

theorem doings_apart (apart : ∀ m ∈ new, m.send? ≠ some n) : doings n new = [] := by
  refine List.filterMap_eq_nil_iff.mpr fun m mem => ?_
  cases m with
  | did i m =>
    have other : i ≠ n := fun same => apart _ mem (congrArg some same)
    simp [Mark.doing?, other]
  | _ => rfl

theorem at_set {i : Nat} {f f' : Sending σ η ρ} (stands : s.sends[n]? = some d) (moved : s.sends[i]? = some f)
    (about : ∀ m ∈ new, m.send? = some i) (fate : Fate T i f new f') :
    ∃ d', (s.sends.set i f')[n]? = some d' ∧ Fate T n d new d' := by
  by_cases same : i = n
  · subst same
    cases Option.some.inj (stands.symm.trans moved)
    have bound := (List.getElem?_eq_some_iff.mp stands).1
    exact ⟨f', List.getElem?_set_self bound, fate⟩
  · refine ⟨d, by rw [List.getElem?_set_ne same, stands], .aside fun m mem => ?_⟩
    rw [about m mem]
    exact fun is => same (Option.some.inj is)

theorem stepFate (step : Step T s new s') (stands : s.sends[n]? = some d) :
    ∃ d', s'.sends[n]? = some d' ∧ Fate T n d new d' := by
  have aside {m : Mark σ η θ ρ τ ν} (apart : m.send? ≠ some n) : Fate T n d [m] d := by
    refine .aside fun m' mem => ?_
    rwa [List.mem_singleton.mp mem]
  cases step with
  | install | listen | stage | refuse | unaddressed | misaddressed | publish | answers | silence =>
    exact ⟨d, stands, aside nofun⟩
  | send ctx request scopes now found arrives =>
    have bound := (List.getElem?_eq_some_iff.mp stands).1
    refine ⟨d, by rw [List.getElem?_append_left bound, stands], .aside fun m mem is => ?_⟩
    have about : m.send? = some s.sends.length := by
      rcases List.mem_cons.mp mem with rfl | mem
      · rfl
      · obtain ⟨_, -, rfl⟩ := List.mem_map.mp mem
        rfl
    rw [about] at is
    have same := Option.some.inj is
    omega
  | goes moved underWay step =>
    refine at_set stands moved (fun m mem => ?_) (.goes underWay step)
    obtain ⟨_, -, rfl⟩ := List.mem_map.mp mem
    rfl
  | returns scopes now moved underWay ended =>
    exact at_set stands moved (by simp [Mark.send?]) (.returns scopes now underWay ended)
  | panics moved underWay ended => exact at_set stands moved (by simp [Mark.send?]) (.panics underWay ended)
  | drop moved underWay => exact at_set stands moved (by simp [Mark.send?]) (.drops underWay)

namespace Follows

variable {sent : Sent σ η ρ}

theorem unanswered (follows : Follows T n sent ms d) (underWay : d.closed = false) :
    (∀ check r, .returned n check r ∉ ms) ∧ ∀ message, .panicked n message ∉ ms := by
  constructor
  · intro check r mem
    cases underWay.symm.trans (follows.returned check r mem).1
  · intro message mem
    cases underWay.symm.trans (follows.panicked message mem).1

theorem still (follows : Follows T n sent ms d) (quiet : doings n new = []) :
    Passage.Dispatched T.conduct sent.chain sent.check sent.ctx sent.request (doings n (ms ++ new)) d.passage := by
  rw [doings_append, quiet, List.append_nil]
  exact follows.dispatched

theorem fate (follows : Follows T n sent ms d) (fate : Fate T n d new d') : Follows T n sent (ms ++ new) d' := by
  cases fate with
  | aside apart =>
    refine ⟨follows.same, follows.still (doings_apart apart), fun check r mem => ?_, fun message mem => ?_⟩
    · rcases List.mem_append.mp mem with mem | mem
      · exact follows.returned check r mem
      · exact absurd rfl (apart _ mem)
    · rcases List.mem_append.mp mem with mem | mem
      · exact follows.panicked message mem
      · exact absurd rfl (apart _ mem)
  | goes underWay step =>
    have none := follows.unanswered underWay
    refine ⟨follows.same, ?_, fun check r mem => ?_, fun message mem => ?_⟩
    · rw [doings_append, doings_did]
      exact .next follows.dispatched step
    · simp [none.1 check r] at mem
    · simp [none.2 message] at mem
  | returns scopes now underWay ended =>
    have none := follows.unanswered underWay
    refine ⟨follows.same, follows.still rfl, fun check r mem => ?_, fun message mem => ?_⟩
    · obtain ⟨rfl, rfl⟩ : check = d.ctx.check scopes now ∧ r = _ := by simpa [none.1 check r] using mem
      rw [← follows.same]
      exact ⟨rfl, ⟨scopes, now, rfl⟩, _, ended, rfl⟩
    · simp [none.2 message] at mem
  | panics underWay ended =>
    have none := follows.unanswered underWay
    refine ⟨follows.same, follows.still rfl, fun check r mem => ?_, fun message mem => ?_⟩
    · simp [none.1 check r] at mem
    · obtain rfl : message = _ := by simpa [none.2 message] using mem
      exact ⟨rfl, ended⟩
  | drops underWay =>
    have none := follows.unanswered underWay
    refine ⟨follows.same, follows.still rfl, fun check r mem => ?_, fun message mem => ?_⟩
    · simp [none.1 check r] at mem
    · simp [none.2 message] at mem

end Follows

theorem stepFollows {sent : Sent σ η ρ} (stands : s.sends[n]? = some d) (follows : Follows T n sent ms d)
    (step : Step T s new s') : ∃ d', s'.sends[n]? = some d' ∧ Follows T n sent (ms ++ new) d' := by
  obtain ⟨d', stands', fate⟩ := stepFate step stands
  exact ⟨d', stands', follows.fate fate⟩

theorem runFollows {sent : Sent σ η ρ} (stands : s.sends[n]? = some d) (follows : Follows T n sent ms d)
    (run : Run T s new s') : ∃ d', s'.sends[n]? = some d' ∧ Follows T n sent (ms ++ new) d' := by
  induction run with
  | nil => exact ⟨d, stands, by rwa [List.append_nil]⟩
  | next earlier last ih =>
    obtain ⟨d', stands', follows'⟩ := ih
    rw [← List.append_assoc]
    exact stepFollows stands' follows' last

theorem sendFollows {ctx : Context} {request : ρ} {check : Except Error Unit}
    (sends : Step T s (.sent n ctx request check :: new) s') :
    ∃ h d, s.handlers.lookup (T.key request) = .ok h ∧ s'.sends[n]? = some d ∧
      Follows T n ⟨check, ctx, request, numbered s.stages h⟩ (.sent n ctx request check :: new) d := by
  generalize told : Mark.sent n ctx request check :: new = marks at sends
  cases sends with
  | @send ctx request h scopes now ms p found arrives =>
    obtain ⟨⟨rfl, rfl, rfl, rfl⟩, rfl⟩ := List.cons.inj told
    refine ⟨h, _, found, List.getElem?_concat_length, rfl, ?_, fun check r mem => ?_, fun message mem => ?_⟩
    · have did : doings (θ := θ) (τ := τ) s.sends.length (ms.map (.did s.sends.length)) = ms := doings_did ..
      exact did.symm ▸ .begins arrives
    · simp at mem
    · simp at mem
  | @goes _ _ ms =>
    cases ms <;> cases told
  | _ => cases told

theorem sentFollows {ctx : Context} {request : ρ} {check : Except Error Unit} {s₁ s₂ s₃ : Exchange σ η θ ρ τ}
    (sends : Step T s₁ (.sent n ctx request check :: new) s₂) (later : Run T s₂ ms s₃) :
    ∃ h d, s₁.handlers.lookup (T.key request) = .ok h ∧ s₃.sends[n]? = some d ∧
      Follows T n ⟨check, ctx, request, numbered s₁.stages h⟩ (.sent n ctx request check :: new ++ ms) d := by
  obtain ⟨h, d, found, stands, follows⟩ := sendFollows sends
  obtain ⟨d', stands', follows'⟩ := runFollows stands follows later
  exact ⟨h, d', found, stands', follows'⟩

/-- While nobody else does anything, a request goes its way. -/
theorem goesOn {p : Passage (σ × Nat) (Shape × η) ρ Response}
    {way : List (Passage.Mark (σ × Nat) (Shape × η) ρ Response ν)} (stands : s.sends[n]? = some d)
    (underWay : d.closed = false) (run : Runs (Passage.Step T.conduct) d.passage way p) :
    Run T s (way.map (.did n)) { s with sends := s.sends.set n { d with passage := p } } := by
  obtain ⟨bound, here⟩ := List.getElem?_eq_some_iff.mp stands
  induction run with
  | nil =>
    rw [show { d with passage := d.passage } = s.sends[n] from here.symm, List.set_getElem_self]
    exact .nil
  | @next _ mid _ _ earlier last ih =>
    have step := Step.goes (T := T) (s := { s with sends := s.sends.set n ⟨d.toSent, mid, d.closed⟩ })
      (List.getElem?_set_self bound) underWay last
    rw [List.set_set] at step
    rw [List.map_append]
    exact .next ih step

def CanReturn (T : Terms σ η θ ρ τ ν) (s : Exchange σ η θ ρ τ) (n : Nat) (ctx : Context) : Prop :=
  ∀ scopes now, ∃ ms r s', Run T s (ms ++ [.returned n (ctx.check scopes now) r]) s'

theorem wayReturns {r : Except Error Response} {way : List (Passage.Mark (σ × Nat) (Shape × η) ρ Response ν)}
    (stands : s.sends[n]? = some d) (underWay : d.closed = false)
    (run : Runs (Passage.Step T.conduct) d.passage way (.ended (.ofResult r))) : CanReturn T s n d.ctx := by
  intro scopes now
  have bound := (List.getElem?_eq_some_iff.mp stands).1
  have gone := goesOn stands underWay run
  have answered := Step.returns (T := T) (s := { s with sends := s.sends.set n ⟨d.toSent, .ended (.ofResult r), d.closed⟩ })
    scopes now (List.getElem?_set_self bound) underWay rfl
  exact ⟨_, _, _, gone.next answered⟩

end Exchange
end Dispatch
end Switchyard
