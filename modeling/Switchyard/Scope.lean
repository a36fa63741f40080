/-!
Cancellation scopes. A scope is cancelled when it or one that it was derived from was cancelled by a call.
The tree of the scopes that are still held says in which order those below a scope learn of a cancellation.
-/
namespace Switchyard

/-- A scope that is still held, and what hangs from it. -/
structure Scope where
  number : Nat
  /-- Mostly in the order in which they were derived. -/
  below : List Nat
  deriving DecidableEq, Repr

structure Scopes where
  made : Nat
  cancelled : List Nat
  tree : List Scope
  deriving DecidableEq, Repr, Inhabited

/-- The last of a list before the others. -/
def lastFirst (l : List Nat) : List Nat := l.getLast?.toList ++ l.dropLast

/-- Takes a number out of a list; the last of the list moves into its place. -/
def takeOut (n : Nat) (l : List Nat) : List Nat :=
  match l.getLast? with
  | none => []
  | some last => if last = n then l.dropLast else l.dropLast.map fun i => if i = n then last else i

namespace Scopes

def empty : Scopes := ⟨0, [], []⟩

def find? (s : Scopes) (scope : Nat) : Option Scope := s.tree.find? (·.number = scope)

def below (s : Scopes) (scope : Nat) : List Nat := ((s.find? scope).map (·.below)).getD []

def modify (s : Scopes) (scope : Nat) (f : Scope → Scope) : Scopes :=
  { s with tree := s.tree.map fun t => if t.number = scope then f t else t }

def reaches (s : Scopes) (lineage : List Nat) : Bool := lineage.any s.cancelled.contains

theorem reaches_iff {s : Scopes} {lineage : List Nat} :
    s.reaches lineage = true ↔ ∃ scope ∈ lineage, scope ∈ s.cancelled := by
  simp [reaches]

/-- A new scope under the first of a lineage, or a root if there is none. Under a cancelled one there is
nothing to learn. -/
def add (s : Scopes) (lineage : List Nat) : Scopes × Nat :=
  let scope := s.made
  let above := if s.reaches lineage then none else lineage.head?
  let s := above.elim s fun a => s.modify a fun t => { t with below := t.below ++ [scope] }
  ({ s with made := scope + 1, tree := s.tree ++ [⟨scope, []⟩] }, scope)

@[simp] theorem add_cancelled (s : Scopes) (lineage : List Nat) : (s.add lineage).1.cancelled = s.cancelled := by
  unfold add
  cases (if s.reaches lineage then none else lineage.head?) <;> rfl

/-- Level by level, those that hang from one scope from the last to the first. -/
def spread (s : Scopes) : Nat → List Nat → List Nat
  | _, [] => []
  | 0, _ => []
  | fuel + 1, scope :: rest =>
    if s.cancelled.contains scope then spread s fuel rest
    else scope :: spread s fuel (rest ++ (s.below scope).reverse)

/-- Those that a cancellation reaches, in the order they learn of it: the scope itself comes after all that
hang from it. -/
def reached (s : Scopes) (scope : Nat) : List Nat :=
  s.spread s.made (lastFirst (s.below scope)) ++ [scope]

/-- Cancels a scope, and names those it reaches. Nothing hangs from a cancelled scope any more. -/
def cancel (s : Scopes) (lineage : List Nat) : Scopes × List Nat :=
  match lineage with
  | [] => (s, [])
  | scope :: _ =>
    if s.reaches lineage then (s, [])
    else
      let reached := s.reached scope
      let tree := s.tree.map fun t => if reached.contains t.number then { t with below := [] } else t
      ({ s with cancelled := scope :: s.cancelled, tree }, reached)

@[simp] theorem cancel_made (s : Scopes) (lineage : List Nat) : (s.cancel lineage).1.made = s.made := by
  unfold cancel
  split
  · rfl
  · split <;> rfl

theorem mem_cancel {s : Scopes} {lineage : List Nat} {scope : Nat} :
    scope ∈ (s.cancel lineage).1.cancelled ↔
      scope ∈ s.cancelled ∨ lineage.head? = some scope ∧ s.reaches lineage = false := by
  unfold cancel
  split
  · simp
  · rename_i scope' above
    cases already : s.reaches (scope' :: above) with
    | true => simp
    | false =>
      rw [if_neg Bool.false_ne_true, List.mem_cons, or_comm, List.head?_cons, Option.some_inj]
      exact or_congr Iff.rfl ⟨fun same => ⟨same.symm, rfl⟩, fun same => same.1.symm⟩

theorem cancel_reaches {s : Scopes} {lineage : List Nat} (rooted : lineage ≠ []) :
    (s.cancel lineage).1.reaches lineage = true := by
  obtain ⟨scope, above, rfl⟩ := List.exists_cons_of_ne_nil rooted
  cases already : s.reaches (scope :: above) with
  | true => rwa [cancel, if_pos already]
  | false => exact reaches_iff.mpr ⟨scope, List.mem_cons_self, mem_cancel.mpr (.inr ⟨rfl, already⟩)⟩

/-- Takes a scope that nobody holds any more out of the tree. Those that hung from it hang from the one that it
hung from, if there is one. -/
def release (s : Scopes) (scope : Nat) : Scopes :=
  match s.find? scope with
  | none => s
  | some gone =>
    { s with tree := (s.tree.filter (·.number ≠ scope)).map fun t =>
        if t.below.contains scope then { t with below := takeOut scope (t.below ++ gone.below) } else t }

theorem release_tree (s : Scopes) (scope : Nat) : ∃ tree, s.release scope = { s with tree } := by
  unfold release
  split
  · exact ⟨_, rfl⟩
  · exact ⟨_, rfl⟩

end Scopes
end Switchyard
