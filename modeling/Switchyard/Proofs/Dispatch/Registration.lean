import Switchyard.Proofs.Dispatch.Stages
import Switchyard.Proofs.Dispatch.Relaying
/-!
Handlers by key. The first registration for a key decides who is given what has that key, and that is only what is of
the type of the registration.
-/
namespace Switchyard.Dispatch

variable {σ η θ ρ τ ν κ : Type}

/-! ### Registrations -/

structure Attempt (κ : Type) where
  shape : Shape
  handler : κ
  result : Except Error Unit

/-- For every key, the first registration succeeds and stays, and all others fail. -/
def FirstStays (tried : List (Attempt κ)) (registry : Registry κ) : Prop :=
  ∀ before first after, tried = before ++ first :: after → (∀ t ∈ before, t.shape.key ≠ first.shape.key) →
    first.result = .ok () ∧ registry.lookup first.shape.key = .ok (first.shape, first.handler) ∧
    ∀ t ∈ after, t.shape.key = first.shape.key → t.result = .error (.alreadyRegistered first.shape.key)

namespace Registry

inductive Registers (registry : Registry κ) : List (Attempt κ) → Registry κ → Prop where
  | tries (shape : Shape) (handler : κ) {r} (registers : registry.register shape handler = r) :
      Registers registry [⟨shape, handler, r.map fun _ => ()⟩] (Exchange.kept registry r)

variable {registry registry' : Registry κ} {tried : List (Attempt κ)} {shape : Shape} {handler : κ} {key : String}

theorem lookup_eq {found : Shape × κ} : registry.lookup key = .ok found ↔ registry.find? key = some found := by
  unfold lookup
  cases registry.find? key <;> simp

theorem lookup_missing {e : Error} (missing : registry.lookup key = .error e) :
    e = .handlerNotFound key ∧ registry.find? key = none := by
  unfold lookup at missing
  split at missing
  · cases missing
  · rename_i none
    cases missing
    exact ⟨rfl, none⟩

theorem key_of_lookup {found : Shape × κ} (holds : registry.lookup key = .ok found) : found.1.key = key := by
  simpa using List.find?_some (lookup_eq.mp holds)

theorem mem_of_lookup {found : Shape × κ} (holds : registry.lookup key = .ok found) : found ∈ registry.entries :=
  List.mem_of_find?_eq_some (lookup_eq.mp holds)

theorem register_taken {held : Shape × κ} (taken : registry.lookup shape.key = .ok held) :
    registry.register shape handler = .error (.alreadyRegistered shape.key) := by
  simp only [register, lookup_eq.mp taken]

theorem register_free {e : Error} (free : registry.lookup shape.key = .error e) :
    registry.register shape handler = .ok ⟨registry.entries ++ [(shape, handler)]⟩ := by
  simp only [register, (lookup_missing free).2]

theorem lookup_added {e : Error} (free : registry.lookup shape.key = .error e) :
    (⟨registry.entries ++ [(shape, handler)]⟩ : Registry κ).lookup shape.key = .ok (shape, handler) := by
  have missing := (lookup_missing free).2
  unfold find? at missing
  simp only [lookup, find?, List.find?_append, missing, List.find?_cons, decide_true, Option.none_or]

theorem stepKeeps {held : Shape × κ} (step : Registers registry tried registry')
    (holds : registry.lookup key = .ok held) : registry'.lookup key = .ok held := by
  cases step with
  | @tries _ _ r registers =>
    cases r with
    | error e => exact holds
    | ok registry' => exact lookup_eq.mpr (find?_register key registers (lookup_eq.mp holds))

theorem stepMisses (step : Registers registry tried registry') (other : ∀ t ∈ tried, t.shape.key ≠ key)
    (missing : registry.lookup key = .error (.handlerNotFound key)) :
    registry'.lookup key = .error (.handlerNotFound key) := by
  cases step with
  | @tries shape handler r registers =>
    have apart : shape.key ≠ key := other _ List.mem_cons_self
    cases taken : registry.lookup shape.key with
    | ok held =>
      cases registers.symm.trans (register_taken taken)
      exact missing
    | error e =>
      cases registers.symm.trans (register_free taken)
      have none := (lookup_missing missing).2
      unfold find? at none
      simp only [Exchange.kept, lookup, find?, List.find?_append, none, List.find?_cons, List.find?_nil, apart,
        decide_false, Option.none_or]

theorem runMisses (run : Runs Registers .empty tried registry) (other : ∀ t ∈ tried, t.shape.key ≠ key) :
    registry.lookup key = .error (.handlerNotFound key) := by
  induction run with
  | nil => rfl
  | next earlier last ih =>
    rw [List.forall_mem_append] at other
    exact stepMisses last other.2 (ih other.1)

theorem runFirst (run : Runs Registers .empty tried registry) : FirstStays tried registry := by
  induction run with
  | nil =>
    intro before first after split
    simp at split
  | @next earlierTried _ _ _ earlier last ih =>
    intro before first after split fresh
    have step := last
    cases last with
    | @tries shape handler r registers =>
      rcases List.eq_nil_or_concat after with rfl | ⟨between, final, rfl⟩
      · obtain ⟨rfl, same⟩ := List.append_inj' split rfl
        obtain ⟨rfl, -⟩ := List.cons.inj same
        have missing := runMisses earlier fresh
        cases registers.symm.trans (register_free missing)
        exact ⟨rfl, lookup_added missing, nofun⟩
      · rw [List.concat_eq_append, ← List.cons_append, ← List.append_assoc] at split
        obtain ⟨rfl, same⟩ := List.append_inj' split rfl
        obtain ⟨result, holds, later⟩ := ih before first between rfl fresh
        refine ⟨result, stepKeeps step holds, ?_⟩
        rw [List.concat_eq_append, List.forall_mem_append]
        refine ⟨later, fun t mem key => ?_⟩
        rw [List.mem_singleton] at mem
        subst mem
        obtain ⟨rfl, -⟩ := List.cons.inj same
        rw [← key] at holds
        rw [← registers, register_taken holds, ← key]
        rfl

theorem runHolds (run : Runs Registers .empty tried registry) :
    ∀ t ∈ tried, ∃ held, registry.lookup t.shape.key = .ok held := by
  induction run with
  | nil => exact nofun
  | @next earlierTried mid _ _ earlier last ih =>
    intro t mem
    rcases List.mem_append.mp mem with mem | mem
    · obtain ⟨held, holds⟩ := ih t mem
      exact ⟨held, stepKeeps last holds⟩
    · cases last with
      | @tries shape handler r registers =>
        cases List.mem_singleton.mp mem
        cases taken : mid.lookup shape.key with
        | ok held =>
          cases registers.symm.trans (register_taken taken)
          exact ⟨held, taken⟩
        | error =>
          cases registers.symm.trans (register_free taken)
          exact ⟨_, lookup_added taken⟩

theorem runEntries (run : Runs Registers .empty tried registry) :
    ∀ e ∈ registry.entries, ∃ t ∈ tried, t.result = .ok () ∧ e = (t.shape, t.handler) := by
  induction run with
  | nil => exact nofun
  | @next earlierTried mid _ _ earlier last ih =>
    intro e mem
    cases last with
    | @tries shape handler r registers =>
      have old (mem : e ∈ mid.entries) {more : List (Attempt κ)} :
          ∃ t ∈ earlierTried ++ more, t.result = .ok () ∧ e = (t.shape, t.handler) := by
        obtain ⟨t, tried, held⟩ := ih e mem
        exact ⟨t, List.mem_append_left _ tried, held⟩
      cases taken : mid.lookup shape.key with
      | ok held =>
        cases registers.symm.trans (register_taken taken)
        exact old mem
      | error =>
        cases registers.symm.trans (register_free taken)
        rcases List.mem_append.mp mem with mem | mem
        · exact old mem
        · rw [List.mem_singleton] at mem
          exact ⟨_, List.mem_append_right _ (List.mem_singleton.mpr rfl), rfl, mem⟩

end Registry

namespace Exchange

/-! ### Registrations at a mediator -/

def Mark.installation? : Mark σ η θ ρ τ ν → Option (Attempt η)
  | .installed shape h r => some ⟨shape, h, r⟩
  | _ => none

def Mark.subscription? : Mark σ η θ ρ τ ν → Option (Attempt θ)
  | .listening shape l r => some ⟨shape, l, r⟩
  | _ => none

/-- A registration that has failed. -/
def Mark.Rejected : Mark σ η θ ρ τ ν → Prop
  | .installed _ _ (.error _) | .listening _ _ (.error _) => True
  | _ => False

def installations (ms : List (Mark σ η θ ρ τ ν)) : List (Attempt η) := ms.filterMap Mark.installation?

def subscriptions (ms : List (Mark σ η θ ρ τ ν)) : List (Attempt θ) := ms.filterMap Mark.subscription?

/-- What the context of a sender, or one that a stage passes on, says. -/
def Mark.check? (n : Nat) : Mark σ η θ ρ τ ν → Option (Except Error Unit)
  | .sent i _ _ check | .did i (.called _ _ _ check) | .returned i check _ => if i = n then some check else none
  | _ => none

def Uncancelled (n : Nat) (ms : List (Mark σ η θ ρ τ ν)) : Prop := ∀ m ∈ ms, ∀ e, m.check? n ≠ some (.error e)

def fresh (stages : List σ) : Exchange σ η θ ρ τ := ⟨stages, .empty, .empty, [], []⟩

structure Misdirected (T : Terms σ η θ ρ τ ν) (s : Exchange σ η θ ρ τ) (n : Nat) (ctx : Context) (request : ρ)
    (ms : List (Mark σ η θ ρ τ ν)) : Prop where
  uninvoked : ∀ h c r, .did n (.invoked h c r) ∉ ms
  unpanicked : ∀ message, .panicked n message ∉ ms
  mismatch : Uncancelled n ms → ∀ check r, .returned n check r ∈ ms →
    r = .error (Mediator.requestMismatch (T.key request))
  canReturn : ∀ d, s.sends[n]? = some d → d.closed = false → CanReturn T s n ctx

/-- Sending a request comes to nothing but an error, at once. -/
structure Refused (T : Terms σ η θ ρ τ ν) (s : Exchange σ η θ ρ τ) (request : ρ) (e : Error) : Prop where
  answers : ∀ ctx, Step T s [.refused ctx request e] s
  only : ∀ ctx e' s', Step T s [.refused ctx request e'] s' → e' = e ∧ s' = s
  unsent : ∀ n ctx check new s', ¬ Step T s (.sent n ctx request check :: new) s'

/-- Publishing a notification, in a context that says so, comes to nothing but an error. -/
structure Unheard (T : Terms σ η θ ρ τ ν) (s : Exchange σ η θ ρ τ) (x : τ) (check : Except Error Unit) (e : Error) :
    Prop where
  answers : ∀ ctx scopes now, ctx.check scopes now = check → Step T s [.unheard ctx x check e] s
  only : ∀ ctx e' s', Step T s [.unheard ctx x check e'] s' → e' = e ∧ s' = s
  silent : ∀ n shape l ctx s', ¬ Step T s [.heard n shape l ctx x] s'

variable {T : Terms σ η θ ρ τ ν} {s s' s₁ s₂ : Exchange σ η θ ρ τ} {ms new more : List (Mark σ η θ ρ τ ν)} {n : Nat}
  {ctx : Context} {request : ρ} {check : Except Error Unit} {stages : List σ}

/-- What is told on the way of a request is nothing to those who look for other things. -/
theorem project_did {γ : Type} {f : Mark σ η θ ρ τ ν → Option γ} (n : Nat) (quiet : ∀ m, f (.did n m) = none)
    (way : List (Passage.Mark (σ × Nat) (Shape × η) ρ Response ν)) : (way.map (.did n)).filterMap f = [] :=
  List.filterMap_eq_nil_iff.mpr fun m mem => by
    obtain ⟨m', -, rfl⟩ := List.mem_map.mp mem
    exact quiet m'

theorem stepRegistrations (step : Step T s ms s') :
    Runs Registry.Registers s.handlers (installations ms) s'.handlers ∧
    Runs Registry.Registers s.listeners (subscriptions ms) s'.listeners := by
  have quiet (n : Nat) (way : List (Passage.Mark (σ × Nat) (Shape × η) ρ Response ν)) :
      installations (way.map (.did n) : List (Mark σ η θ ρ τ ν)) = [] ∧
        subscriptions (way.map (.did n) : List (Mark σ η θ ρ τ ν)) = [] :=
    ⟨project_did n (fun _ => rfl) way, project_did n (fun _ => rfl) way⟩
  cases step with
  | install shape h registers => exact ⟨.next .nil (.tries shape h registers), .nil⟩
  | listen shape l registers => exact ⟨.nil, .next .nil (.tries shape l registers)⟩
  | @send _ _ _ _ _ way =>
    obtain ⟨noHandler, noListener⟩ := quiet s.sends.length way
    exact ⟨noHandler.symm ▸ .nil, noListener.symm ▸ .nil⟩
  | @goes n _ way =>
    obtain ⟨noHandler, noListener⟩ := quiet n way
    rw [noHandler, noListener]
    exact ⟨.nil, .nil⟩
  | _ => exact ⟨.nil, .nil⟩

theorem runRegistrations (run : Run T s ms s') :
    Runs Registry.Registers s.handlers (installations ms) s'.handlers ∧
    Runs Registry.Registers s.listeners (subscriptions ms) s'.listeners := by
  induction run with
  | nil => exact ⟨.nil, .nil⟩
  | next earlier last ih =>
    obtain ⟨handlers, listeners⟩ := stepRegistrations last
    simp only [installations, subscriptions, List.filterMap_append]
    exact ⟨ih.1.trans handlers, ih.2.trans listeners⟩

theorem rejectedKeeps {m : Mark σ η θ ρ τ ν} (step : Step T s new s') (mem : m ∈ new) (rejected : m.Rejected) :
    s' = s := by
  cases step with
  | @install shape h r registers =>
    cases List.mem_singleton.mp mem
    cases r with
    | error => rfl
    | ok => exact rejected.elim
  | @listen shape l r registers =>
    cases List.mem_singleton.mp mem
    cases r with
    | error => rfl
    | ok => exact rejected.elim
  | send =>
    rcases List.mem_cons.mp mem with rfl | mem
    · exact rejected.elim
    · obtain ⟨_, -, rfl⟩ := List.mem_map.mp mem
      exact rejected.elim
  | goes =>
    obtain ⟨_, -, rfl⟩ := List.mem_map.mp mem
    exact rejected.elim
  | _ =>
    cases List.mem_singleton.mp mem
    exact rejected.elim

/-! ### Requests by type -/

theorem received {mismatch : Error} {registered given : Shape} :
    Mediator.receives mismatch registered given = .ok () ↔ given = registered := by
  unfold Mediator.receives
  split <;> simp_all

theorem notReceived {mismatch : Error} {registered given : Shape} (other : registered ≠ given) :
    Mediator.receives mismatch registered given = .error mismatch :=
  if_neg (Ne.symm other)

theorem Uncancelled.free {m : Mark σ η θ ρ τ ν} (uncancelled : Uncancelled n ms) (mem : m ∈ ms)
    (finds : m.check? n = some check) : check = .ok () := by
  cases check with
  | error e => exact absurd finds (uncancelled m mem e)
  | ok => rfl

theorem Uncancelled.calls (uncancelled : Uncancelled n ms) : ∀ c ∈ Passage.calls (doings n ms), c.2 = .ok () := by
  intro c mem
  obtain ⟨m, done, is⟩ := List.mem_filterMap.mp mem
  cases m with
  | called s ctx request check =>
    cases is
    exact uncancelled.free (m := .did n (.called s ctx request check)) (mem_doings.mp done) (if_pos rfl)
  | _ => cases is

theorem sentTyped (sends : Step T s (.sent n ctx request check :: new) s₁) (later : Run T s₁ more s₂) {h : Shape × η}
    {c : Context} {r : ρ} (invoked : .did n (.invoked h c r) ∈ new ++ more) :
    T.request r = h.1 ∧ s.handlers.lookup (T.key request) = .ok h := by
  obtain ⟨held, d, found, -, follows⟩ := sentFollows sends later
  have comes := Passage.comes_composed.mp ⟨d.passage, follows.dispatched, rfl⟩
  have typed := Passage.composed_marks
    (P := fun m => ∀ h c r, m = .invoked h c r → h = held ∧ T.takes held r = .ok ()) check
    (fun s _ m named h c r same => by subst same; cases named)
    (fun c r takes h' c' r' same => by cases same; exact ⟨rfl, takes⟩) (fun _ _ _ _ same => by cases same) comes
  obtain ⟨rfl, takes⟩ := typed _ (mem_doings.mpr (List.mem_cons_of_mem _ invoked)) h c r rfl
  exact ⟨received.mp takes, found⟩

theorem sentMisdirected (sends : Step T s (.sent n ctx request check :: new) s₁) (later : Run T s₁ more s₂)
    {shape : Shape} {h : η} (holds : s.handlers.lookup (T.key request) = .ok (shape, h))
    (other : shape ≠ T.request request) (relays : ∀ st ∈ s.stages, Relays (T.stage st)) :
    Misdirected T s₂ n ctx request (.sent n ctx request check :: new ++ more) := by
  obtain ⟨held, d, found, stands, follows⟩ := sentFollows sends later
  cases Except.ok.inj (holds.symm.trans found)
  have refuses : T.conduct.takes (shape, h) request = .error (Mediator.requestMismatch (T.key request)) :=
    notReceived other
  have all : ∀ st ∈ s.stages.zipIdx, Relays (T.conduct.stage st) :=
    fun st mem => relays st.1 (List.fst_mem_of_mem_zipIdx mem)
  have barren {way p} (dispatched : Passage.Dispatched T.conduct (numbered s.stages (shape, h)) check ctx request way p) :=
    Passage.barren_composed all refuses check (Passage.comes_composed.mp ⟨p, dispatched, rfl⟩)
  have soFar := barren follows.dispatched
  constructor
  · intro h c r mem
    have none := List.filterMap_eq_nil_iff.mp soFar.uninvoked _ (mem_doings.mpr mem)
    cases none
  · intro message mem
    have ended := (follows.panicked message mem).2
    obtain ⟨err, same, -⟩ := soFar.fails (.panic message) (by rw [ended]; rfl)
    cases same
  · intro uncancelled check' r mem
    obtain ⟨-, -, r', ended, rfl⟩ := follows.returned check' r mem
    obtain ⟨err, same, is⟩ := soFar.fails (.ofResult r') (by rw [ended]; rfl)
    have first : check = .ok () := uncancelled.free List.mem_cons_self (if_pos rfl)
    have last : check' = .ok () := uncancelled.free mem (if_pos rfl)
    cases is first uncancelled.calls
    cases r' with
    | ok => cases same
    | error =>
      cases same
      rw [last]
      rfl
  · intro d' stands' underWay
    cases Option.some.inj (stands.symm.trans stands')
    obtain ⟨way, o, run⟩ := (Passage.runStands follows.dispatched).ends all refuses
    obtain ⟨err, rfl, -⟩ := (barren (follows.dispatched.run run)).fails o rfl
    have can := wayReturns (r := .error err) stands underWay run
    rwa [follows.same] at can

theorem unknownRefused (missing : s.handlers.lookup (T.key request) = .error (.handlerNotFound (T.key request))) :
    Refused T s request (.handlerNotFound (T.key request)) where
  answers ctx := .refuse ctx request missing
  only ctx e s' step := by
    generalize told : [Mark.refused ctx request e] = marks at step
    cases step with
    | refuse ctx' request' missing' =>
      cases told
      exact ⟨Except.error.inj (missing'.symm.trans missing), rfl⟩
    | @goes _ _ way => cases way <;> cases told
    | _ => cases told
  unsent n ctx check new s' step := by
    obtain ⟨h, -, found, -⟩ := sendFollows step
    cases found.symm.trans missing

/-! ### Notifications by type -/

section Notifications

variable {registry : Registry κ} {key : String} {found : Shape × κ} {shape : Shape} {l : θ} {x : τ} {e : Error}

theorem addressed : Mediator.addressee registry key check = .ok found ↔ registry.lookup key = .ok found ∧ check = .ok () := by
  unfold Mediator.addressee
  cases registry.lookup key with
  | error e => simp
  | ok found => cases check <;> simp

theorem addressee_missing (missing : registry.lookup key = .error e) :
    Mediator.addressee registry key check = .error e := by
  simp only [Mediator.addressee, missing]

theorem unheardWhy (step : Step T s [.unheard ctx x check e] s') :
    s' = s ∧ (Mediator.addressee s.listeners (T.notification x).key check = .error e ∨
      ∃ shape l, Mediator.addressee s.listeners (T.notification x).key check = .ok (shape, l) ∧
        Mediator.receives (Mediator.notificationMismatch shape.key) shape (T.notification x) = .error e) := by
  generalize told : [Mark.unheard ctx x check e] = marks at step
  cases step with
  | unaddressed ctx' x' scopes now missing =>
    cases told
    exact ⟨rfl, .inl missing⟩
  | misaddressed ctx' x' scopes now found mismatch =>
    cases told
    exact ⟨rfl, .inr ⟨_, _, found, mismatch⟩⟩
  | @goes _ _ way => cases way <;> cases told
  | _ => cases told

theorem heardTyped (step : Step T s [.heard n shape l ctx x] s') :
    T.notification x = shape ∧ s.listeners.lookup (T.notification x).key = .ok (shape, l) := by
  generalize told : [Mark.heard n shape l ctx x] = marks at step
  cases step with
  | publish ctx' x' scopes now found fits =>
    cases told
    exact ⟨received.mp fits, (addressed.mp found).1⟩
  | @goes _ _ way => cases way <;> cases told
  | _ => cases told

theorem unknownUnheard
    (missing : s.listeners.lookup (T.notification x).key = .error (.handlerNotFound (T.notification x).key)) :
    Unheard T s x check (.handlerNotFound (T.notification x).key) where
  answers ctx scopes now finds := finds ▸ .unaddressed ctx x scopes now (addressee_missing missing)
  only ctx e s' step := by
    obtain ⟨rfl, why⟩ := unheardWhy step
    rw [addressee_missing missing] at why
    rcases why with same | ⟨_, _, found, -⟩
    · exact ⟨(Except.error.inj same).symm, rfl⟩
    · cases found
  silent n shape l ctx s' step := by cases (heardTyped step).2.symm.trans missing

theorem mismatchUnheard (holds : s.listeners.lookup (T.notification x).key = .ok (shape, l))
    (other : shape ≠ T.notification x) :
    Unheard T s x (.ok ()) (Mediator.notificationMismatch (T.notification x).key) where
  answers ctx scopes now finds := by
    have found := addressed.mpr ⟨holds, finds⟩
    rw [← Registry.key_of_lookup holds, ← finds]
    exact .misaddressed ctx x scopes now found (notReceived other)
  only ctx e s' step := by
    obtain ⟨rfl, why⟩ := unheardWhy step
    rw [addressed.mpr ⟨holds, rfl⟩] at why
    rcases why with missing | ⟨_, _, found, mismatch⟩
    · cases missing
    · cases found
      rw [notReceived other, Registry.key_of_lookup holds] at mismatch
      exact ⟨(Except.error.inj mismatch).symm, rfl⟩
  silent n shape' l' ctx s' step := by
    obtain ⟨typed, found⟩ := heardTyped step
    cases found.symm.trans holds
    exact other typed.symm

end Notifications

/-- Whatever is registered, sent and published, and in whatever order: for every key the first registration stays, and
the later ones fail and change nothing. Whoever is invoked was registered for the type of what it is given. What has the
key of a handler for another type reaches nobody and comes back with the error that says so, if no context is cancelled
on the way and the stages pass the request on as it is and give back what comes of it. What has a key without a handler
comes back at once. -/
theorem firstRegistrationDecides (T : Terms σ η θ ρ τ ν) (run : Run T (fresh stages) ms s) :
    (FirstStays (installations ms) s.handlers ∧ FirstStays (subscriptions ms) s.listeners) ∧
    ((∀ shape h e s', Step T s [.installed shape h (.error e)] s' → s' = s) ∧
      ∀ shape l e s', Step T s [.listening shape l (.error e)] s' → s' = s) ∧
    (∀ n ctx request check new s₁ more s₂,
      Step T s (.sent n ctx request check :: new) s₁ → Run T s₁ more s₂ →
      (∀ h c r, .did n (.invoked h c r) ∈ new ++ more →
        T.request r = h.1 ∧ ⟨h.1, h.2, .ok ()⟩ ∈ installations ms) ∧
      ∀ shape h, s.handlers.lookup (T.key request) = .ok (shape, h) → shape ≠ T.request request →
        (∀ st ∈ s.stages, Relays (T.stage st)) →
        Misdirected T s₂ n ctx request (.sent n ctx request check :: new ++ more)) ∧
    (∀ request, (∀ t ∈ installations ms, t.shape.key ≠ T.key request) →
      Refused T s request (.handlerNotFound (T.key request))) ∧
    (∀ n shape l ctx x s', Step T s [.heard n shape l ctx x] s' →
      T.notification x = shape ∧ ⟨shape, l, .ok ()⟩ ∈ subscriptions ms) ∧
    (∀ shape l x, s.listeners.lookup (T.notification x).key = .ok (shape, l) → shape ≠ T.notification x →
      Unheard T s x (.ok ()) (Mediator.notificationMismatch (T.notification x).key)) ∧
    ∀ x check, (∀ t ∈ subscriptions ms, t.shape.key ≠ (T.notification x).key) →
      Unheard T s x check (.handlerNotFound (T.notification x).key) := by
  obtain ⟨handlers, listeners⟩ := runRegistrations run
  refine ⟨⟨Registry.runFirst handlers, Registry.runFirst listeners⟩,
    ⟨fun _ _ _ _ step => rejectedKeeps step List.mem_cons_self trivial,
      fun _ _ _ _ step => rejectedKeeps step List.mem_cons_self trivial⟩, ?_, ?_, ?_, ?_, ?_⟩
  · intro n ctx request check new s₁ more s₂ sends later
    refine ⟨fun h c r invoked => ?_, fun shape h => sentMisdirected sends later⟩
    obtain ⟨typed, found⟩ := sentTyped sends later invoked
    obtain ⟨⟨shape, handler, result⟩, tried, rfl, rfl⟩ := Registry.runEntries handlers _ (Registry.mem_of_lookup found)
    exact ⟨typed, tried⟩
  · exact fun request free => unknownRefused (Registry.runMisses handlers free)
  · intro n shape l ctx x s' step
    obtain ⟨typed, found⟩ := heardTyped step
    obtain ⟨⟨shape, listener, result⟩, tried, rfl, same⟩ := Registry.runEntries listeners _ (Registry.mem_of_lookup found)
    cases same
    exact ⟨typed, tried⟩
  · exact fun shape l x => mismatchUnheard
  · exact fun x check free => unknownUnheard (Registry.runMisses listeners free)

/-! ### A parcel where there is a handler for letters -/

def parcel : Shape := ⟨"Parcel", "letter"⟩

/-- The stages pass every request on as it is, within the context `within`, and make what they like of what comes of it. -/
def desk (within : Context) (turns : Outcome Response → Outcome Response) : Terms String Unit Unit Shape Shape Unit :=
  { relaying with
    stage _ :=
      { early _ _ _ _ := False
        call _ request passedCtx passed := passedCtx = within ∧ passed = request
        giveUp _ _ _ _ := False
        late _ _ _ _ a notes o := notes = [] ∧ a.map turns = some o } }

def counter (sends : List (Sending String Unit Shape)) : Exchange String Unit Unit Shape Shape :=
  ⟨["stage"], ⟨[(letter, ())]⟩, .empty, sends, []⟩

def only : String × Nat := ("stage", 0)

def handed (passage : Passage (String × Nat) (Shape × Unit) Shape Response) (closed : Bool) :
    Sending String Unit Shape :=
  ⟨⟨.ok (), reader, parcel, ⟨[only], (letter, ())⟩⟩, passage, closed⟩

def mismatch : Error := Mediator.requestMismatch "letter"

def belated : Context := { reader with deadline := some 0 }

def lettersOnly : List (Mark String Unit Unit Shape Shape Unit) :=
  [.installed letter () (.ok ()), .installed parcel () (.error (.alreadyRegistered "letter"))]

def handing : List (Mark String Unit Unit Shape Shape Unit) :=
  [.sent 0 reader parcel (.ok ()), .did 0 (.entered only reader parcel)]

/-- The parcel gets no further than the stage, which is told the error `e`. -/
def returning (within : Context) (e : Error) (r : Except Error Response) : List (Mark String Unit Unit Shape Shape Unit) :=
  [.did 0 (.called only within parcel (within.check .empty 0)), .did 0 (.told only (.failure e)),
    .did 0 (.left only [] (.ofResult r)), .returned 0 (.ok ()) r]

section Parcel

variable {within : Context} {turns : Outcome Response → Outcome Response}

theorem lettersFirst : Run (desk within turns) (fresh ["stage"]) lettersOnly (counter []) := by
  have letters : Step (desk within turns) (fresh ["stage"]) [.installed letter () (.ok ())] (counter []) :=
    .install letter () rfl
  have parcels : Step (desk within turns) (counter []) [.installed parcel () (.error (.alreadyRegistered "letter"))]
      (counter []) := .install parcel () rfl
  exact .next (.next .nil letters) parcels

theorem parcelSent : Step (desk within turns) (counter []) handing
    (counter [handed (.entered ⟨only, reader, parcel⟩ ⟨[], (letter, ())⟩ []) false]) :=
  .send reader parcel .empty 0 rfl rfl

theorem parcelReturned {e : Error} {r : Except Error Response}
    (stops : Chain.proceed (desk within turns).takes ⟨([] : List (String × Nat)), (letter, ())⟩ (within.check .empty 0)
      parcel = .error e)
    (ends : turns (.failure e) = .ofResult r) (answer : Mediator.conclude "letter" .unit none r = r) :
    Run (desk within turns) (counter [handed (.entered ⟨only, reader, parcel⟩ ⟨[], (letter, ())⟩ []) false])
      (returning within e r) (counter [handed (.ended (.ofResult r)) true]) := by
  have called : Passage.Step (desk within turns).conduct (.entered ⟨only, reader, parcel⟩ ⟨[], (letter, ())⟩ [])
      [.called only within parcel (within.check .empty 0), .told only (.failure e)]
      (.resumed ⟨⟨only, reader, parcel⟩, within, parcel⟩ (some (.failure e)) []) := by
    refine .calls .empty 0 ⟨rfl, rfl⟩ ?_
    unfold Passage.arrive
    rw [show (desk within turns).conduct.takes = (desk within turns).takes from rfl, stops]
    rfl
  have left : Passage.Step (desk within turns).conduct
      (.resumed ⟨⟨only, reader, parcel⟩, within, parcel⟩ (some (.failure e)) [])
      [.left only [] (.ofResult r)] (.ended (.ofResult r)) := .endsLate ⟨rfl, congrArg some ends⟩ rfl
  have passed := goesOn (T := desk within turns) (n := 0) (s := counter [handed _ false]) rfl rfl
    ((Runs.nil.next called).next left)
  have answered : Step (desk within turns) (counter [handed (.ended (.ofResult r)) false])
      [.returned 0 (.ok ()) (Mediator.conclude "letter" .unit none r)]
      (counter [handed (.ended (.ofResult r)) true]) :=
    .returns (n := 0) (d := handed (.ended (.ofResult r)) false) .empty 0 rfl rfl rfl
  rw [answer] at answered
  exact .next passed answered

end Parcel

theorem deskRelays : Relays ((desk reader id).stage "stage") where
  waits _ _ _ _ := id
  passes _ _ _ _ passed := passed.2
  stays _ _ _ _ := id
  returns _ _ _ _ _ _ _ ends := by simpa using ends.2
  goes ctx request := ⟨reader, request, rfl, rfl⟩
  ends _ _ _ _ _ _ := ⟨[], rfl, rfl⟩

theorem parcelTurnedAway :
    FirstStays [⟨letter, (), .ok ()⟩, ⟨parcel, (), .error (.alreadyRegistered "letter")⟩] (counter []).handlers ∧
    Misdirected (desk reader id) (counter [handed (.ended (.failure mismatch)) true]) 0 reader parcel
      (handing ++ returning reader mismatch (.error mismatch)) := by
  obtain ⟨⟨first, -⟩, -, sends, -⟩ := firstRegistrationDecides (desk reader id) lettersFirst
  have sent := sends _ _ _ _ _ _ _ _ parcelSent (parcelReturned (e := mismatch) (r := .error mismatch) rfl rfl rfl)
  refine ⟨first, sent.2 letter () rfl (by decide) ?_⟩
  exact List.forall_mem_singleton.mpr deskRelays

/-- A parcel goes to the handler for letters, within a context that is not cancelled and through a stage that passes it
on as it is, and yet what comes back is `r`. -/
structure Astray (within : Context) (turns : Outcome Response → Outcome Response) (e : Error)
    (r : Except Error Response) : Prop where
  passes : ∀ ctx request passedCtx passed, ((desk within turns).stage "stage").call ctx request passedCtx passed →
    passed = request
  registered : Run (desk within turns) (fresh ["stage"]) lettersOnly (counter [])
  sent : Step (desk within turns) (counter []) handing
    (counter [handed (.entered ⟨only, reader, parcel⟩ ⟨[], (letter, ())⟩ []) false])
  returned : Run (desk within turns) (counter [handed (.entered ⟨only, reader, parcel⟩ ⟨[], (letter, ())⟩ []) false])
    (returning within e r) (counter [handed (.ended (.ofResult r)) true])
  answered : .returned 0 (.ok ()) r ∈ returning within e r

def mended : Outcome Response → Outcome Response
  | .failure _ => .value .unit
  | o => o

/-- To pass the request on as it is does not suffice: a stage is free to answer in place of the error, and to pass the
request on within another context, which may be cancelled. -/
theorem parcelAnswered :
    (counter []).handlers.lookup parcel.key = .ok (letter, ()) ∧ letter ≠ parcel ∧
    Astray reader mended mismatch (.ok .unit) ∧
    Astray belated id (belated.cancellation .empty) (.error (belated.cancellation .empty)) ∧
    (belated.cancellation .empty).kind ≠ mismatch.kind := by
  have astray {within turns e r} (returned : Run (desk within turns) _ (returning within e r) _) :
      Astray within turns e r :=
    ⟨fun _ _ _ _ passed => passed.2, lettersFirst, parcelSent, returned, by simp [returning]⟩
  exact ⟨rfl, by decide, astray (parcelReturned rfl rfl rfl), astray (parcelReturned rfl rfl rfl), by decide⟩

end Exchange
end Switchyard.Dispatch
