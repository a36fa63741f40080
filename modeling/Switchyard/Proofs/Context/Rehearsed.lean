import Switchyard.Proofs.Context.Family
import Switchyard.Proofs.Stepping
import Switchyard.Rehearsal.Steps
/-!
What a rehearsal does with contexts is what a family of contexts may do: where it makes one out of another or out of
nothing, where it cancels one, and where it takes scopes out of the tree that nobody holds.
-/
namespace Switchyard.Family

open Rehearsal

variable {α β : Type} {s s' : Family} {w w' : World}

/-- The family has the scopes and the time of the world, and all contexts that have a name there. -/
structure Known (s : Family) (w : World) : Prop where
  scopes : w.scopes = s.scopes
  now : w.now = s.now
  named : ∀ name c, (name, c) ∈ w.contexts → c ∈ s.contexts

/-- What is done to the world the family may do, and something holds of what comes of it. -/
def Follows (x : Act α) (s : Family) (w : World) (comes : α → Family → Prop) : Prop :=
  ∃ ms s', Runs Step s ms s' ∧ Known s' (x w).2 ∧ comes (x w).1 s'

namespace Follows

variable {comes : α → Family → Prop} {comes' : β → Family → Prop}

theorem pure {a : α} (known : Known s w) (holds : comes a s) : Follows (Pure.pure a) s w comes :=
  ⟨[], s, .nil, known, holds⟩

theorem bind {x : Act α} {f : α → Act β} (first : Follows x s w comes)
    (next : ∀ a s' w', Known s' w' → comes a s' → Follows (f a) s' w' comes') :
    Follows (x >>= f) s w comes' := by
  obtain ⟨ms, s', run, known, holds⟩ := first
  obtain ⟨ms', s'', run', known', holds'⟩ := next _ s' _ known holds
  exact ⟨ms ++ ms', s'', run.trans run', known', holds'⟩

end Follows

theorem Known.join (known : Known s w) (made : Scopes × Context) :
    Known (s.join made) { w with scopes := made.1 } where
  scopes := rfl
  now := known.now
  named name c there := List.mem_append_left _ (known.named name c there)

theorem joined_mem (made : Scopes × Context) : made.2 ∈ (s.join made).contexts := List.mem_concat_self

theorem backgroundFollows (known : Known s w) : Follows Act.background s w fun c s' => c ∈ s'.contexts := by
  refine ⟨_, _, .next .nil (.background .nil), ?_, ?_⟩
  · rw [← known.scopes]
    exact known.join (Context.background w.scopes .nil)
  · rw [← known.scopes]
    exact joined_mem _

theorem deriveFollows (how : Derivation) (known : Known s w) {p : Context} (there : p ∈ s.contexts) :
    Follows (Act.derive fun scopes => how.apply p scopes w.now) s w fun c s' => c ∈ s'.contexts := by
  obtain ⟨n, stands⟩ := List.mem_iff_getElem?.mp there
  refine ⟨_, _, .next .nil (.derive how stands), ?_, ?_⟩
  · rw [← known.scopes, ← known.now]
    exact known.join (how.apply p w.scopes w.now)
  · rw [← known.scopes, ← known.now]
    exact joined_mem _

theorem resolve_named {current : Option Context} {name : String} : Act.resolve current (.named name) w =
    match w.contexts.lookup name with
    | some c => (c, w)
    | none => Act.background w := by
  show (Act.resolve current (.named name)).run w = _
  simp only [Act.resolve, StateT.run_bind, StateT.run_get, pure_bind]
  cases w.contexts.lookup name <;> rfl

theorem resolveFollows (known : Known s w) {current : Option Context} (among : ∀ c ∈ current, c ∈ s.contexts)
    (ref : ContextRef) : Follows (Act.resolve current ref) s w fun c s' => c ∈ s'.contexts := by
  cases ref with
  | fresh => exact backgroundFollows known
  | current =>
    cases current with
    | none => exact backgroundFollows known
    | some c => exact .pure known (among c rfl)
  | named name =>
    rw [Follows, resolve_named]
    cases found : w.contexts.lookup name with
    | none => exact backgroundFollows known
    | some c =>
      obtain ⟨before, after, split, -⟩ := List.lookup_eq_some_iff.mp found
      exact ⟨[], s, .nil, known, known.named name c (split ▸ List.mem_append_right before List.mem_cons_self)⟩

/-- How a step of a script makes a context, where it does not only copy one. -/
def derivation? : Rehearsal.Derivation → Option Derivation
  | .child => some .child
  | .clone => none
  | .timeout span => some (.timeout span)
  | .deadline time => some (.deadline time)

def descend (how : Option Derivation) (p : Context) : Act Context := do
  let now ← Act.time
  match how with
  | some how => Act.derive fun scopes => how.apply p scopes now
  | none => return p

def keep (name : String) (c : Context) (w : World) : World :=
  { w with contexts := (name, c) :: w.contexts.filter (·.1 ≠ name) }

theorem makeContext_eq (current : Option Context) (name : String) (base : Option ContextRef)
    (how : Rehearsal.Derivation) (correlation : Option Ident) :
    Steps.makeContext current name base how correlation = (do
      let p ← base.elim Act.background (Act.resolve current)
      let c ← descend (derivation? how) p
      Steps.replyNull (keep name (correlation.elim c c.withCorrelation))) := by
  cases base <;> cases how <;> cases correlation <;> rfl

theorem descendFollows (known : Known s w) {p : Context} (there : p ∈ s.contexts) (how : Option Derivation) :
    Follows (descend how p) s w fun c s' => c ∈ s'.contexts := by
  cases how with
  | some how => exact deriveFollows how known there
  | none => exact ⟨[], s, .nil, known, there⟩

theorem Known.keep (known : Known s w) (name : String) {c : Context} (there : c ∈ s.contexts) :
    Known s (keep name c w) where
  scopes := known.scopes
  now := known.now
  named name' c' named := by
    rcases List.mem_cons.mp named with same | other
    · cases same
      exact there
    · exact known.named name' c' (List.mem_filter.mp other).1

theorem keepFollows (known : Known s w) (name : String) {c : Context} (there : c ∈ s.contexts)
    (correlation : Option Ident) :
    Follows (Steps.replyNull (keep name (correlation.elim c c.withCorrelation))) s w fun _ _ => True := by
  cases correlation with
  | none => exact ⟨[], s, .nil, known.keep name there, trivial⟩
  | some id =>
    obtain ⟨n, stands⟩ := List.mem_iff_getElem?.mp there
    have joined : Known (s.join (s.scopes, c.withCorrelation id)) w :=
      ⟨known.scopes, known.now, fun name' c' named => List.mem_append_left _ (known.named name' c' named)⟩
    exact ⟨_, _, .next .nil (.rename id stands), joined.keep name (joined_mem _), trivial⟩

/-- A context that is made under a name is one that the family makes. -/
theorem makeContextFollows (known : Known s w) {current : Option Context} (among : ∀ c ∈ current, c ∈ s.contexts)
    (name : String) (base : Option ContextRef) (how : Rehearsal.Derivation) (correlation : Option Ident) :
    Follows (Steps.makeContext current name base how correlation) s w fun _ _ => True := by
  have resolved : Follows (base.elim Act.background (Act.resolve current)) s w fun p s' => p ∈ s'.contexts := by
    cases base with
    | some ref => exact resolveFollows known among ref
    | none => exact backgroundFollows known
  rw [makeContext_eq]
  refine resolved.bind fun p s' w' known' parent => ?_
  refine (descendFollows known' parent (derivation? how)).bind fun c s'' w'' known'' made => ?_
  exact keepFollows known'' name made correlation

/-- A context is cancelled by one step of the family; who waits for it is woken. -/
theorem cancelSteps (known : Known s w) {n : Nat} {c : Context} (there : s.contexts[n]? = some c) :
    ∃ s', Step s [.cancelled n] s' ∧ Known s' (Act.cancel c w).2 := by
  refine ⟨_, .cancel there, ?_⟩
  let cancelled : World := { w with scopes := (w.scopes.cancel c.lineage).1 }
  obtain ⟨again, ready, roused⟩ := Act.wakeAll_rouses
    ((w.scopes.cancel c.lineage).2.flatMap fun scope => Act.inOrder w (Act.listens scope)) cancelled
  have runs : (Act.cancel c w).2 = { cancelled with again, ready } := roused
  rw [runs]
  exact ⟨congrArg (fun scopes => (Scopes.cancel scopes c.lineage).1) known.scopes, known.now, known.named⟩

theorem releasesStep (free : List Nat) : ∃ s', Runs Step s [] s' ∧
    s' = { s with scopes := free.foldl Scopes.release s.scopes } := by
  induction free generalizing s with
  | nil => exact ⟨s, .nil, rfl⟩
  | cons scope rest ih =>
    obtain ⟨s', run, rfl⟩ := ih (s := { s with scopes := s.scopes.release scope })
    exact ⟨_, (Runs.next .nil (.release scope)).trans run, rfl⟩

/-- Scopes that nobody holds go out of the tree, and nothing else goes. -/
theorem pruneSteps (known : Known s w) : ∃ s', Runs Step s [] s' ∧ Known s' w.prune := by
  obtain ⟨s', run, rfl⟩ := releasesStep (s := s)
    ((w.scopes.tree.map (·.number)).filter (!w.held.contains ·)).reverse
  exact ⟨_, run, congrArg (List.foldl Scopes.release · _) known.scopes, known.now, known.named⟩

/-- What a context answers to those who ask is what it would answer in the family. -/
theorem contextView_run (known : Known s w) (c : Context) : Steps.contextView c w =
    (⟨c.isCancelled s.scopes s.now, c.check s.scopes s.now, c.cancellation s.scopes, c.deadline, c.correlation⟩, w) := by
  rw [← known.scopes, ← known.now]
  rfl

end Switchyard.Family
