import Mathlib.Logic.Relation
import Mathlib.Order.Bounds.Basic
import Switchyard.Context
import Switchyard.Proofs.History
/-!
Contexts that are made one after another, out of nothing or of those before, while some of them are cancelled and time
passes. Which calls reach a context, and which deadlines bind it, is told by the history alone: by who was derived from
whom, and who is a copy of whom.
-/
namespace Switchyard

structure Family where
  scopes : Scopes
  /-- In the order in which they were made. -/
  contexts : List Context
  now : Instant

namespace Family

def empty : Family := ⟨.empty, [], 0⟩

def join (s : Family) (made : Scopes × Context) : Family :=
  { s with scopes := made.1, contexts := s.contexts ++ [made.2] }

inductive Derivation where
  | child
  | timeout (span : Span)
  | deadline (time : Instant)

namespace Derivation

/-- The deadline that is given with it. -/
def given (now : Instant) : Derivation → Option Instant
  | child => none
  | timeout span => some (now + span)
  | deadline time => some time

def apply (how : Derivation) (parent : Context) (s : Scopes) (now : Instant) : Scopes × Context :=
  match how with
  | child => parent.child s
  | timeout span => parent.withTimeout s now span
  | deadline time => parent.withDeadline s time

end Derivation

/-- Contexts go by the number of those made before them. -/
inductive Mark where
  | began (n : Nat) (id : Ident)
  | derived (n parent : Nat) (given : Option Instant)
  | copied (n original : Nat) (id : Option Ident)
  | cancelled (n : Nat)
  deriving DecidableEq

inductive Step (s : Family) : List Mark → Family → Prop where
  | background (id : Ident) : Step s [.began s.contexts.length id] (s.join (Context.background s.scopes id))
  | derive (how : Derivation) {n p} (there : s.contexts[n]? = some p) :
      Step s [.derived s.contexts.length n (how.given s.now)] (s.join (how.apply p s.scopes s.now))
  | clone {n p} (there : s.contexts[n]? = some p) : Step s [.copied s.contexts.length n none] (s.join (s.scopes, p))
  | rename (id : Ident) {n p} (there : s.contexts[n]? = some p) :
      Step s [.copied s.contexts.length n (some id)] (s.join (s.scopes, p.withCorrelation id))
  | cancel {n c} (there : s.contexts[n]? = some c) :
      Step s [.cancelled n] { s with scopes := (s.scopes.cancel c.lineage).1 }
  | pass {later : Instant} (passes : s.now ≤ later) : Step s [] { s with now := later }
  | release (scope : Nat) : Step s [] { s with scopes := s.scopes.release scope }

abbrev Run := Runs Step empty

/-! ### What the history says -/

section History

variable (ms : List Mark)

def Derived (b c : Nat) : Prop := ∃ given, .derived c b given ∈ ms

def Copied (b c : Nat) : Prop := ∃ id, .copied c b id ∈ ms

/-- The one is the other, or a clone of it; a clone may have got another correlation. -/
def Same : Nat → Nat → Prop := Relation.EqvGen (Copied ms)

/-- The second is the first, or a clone of it, or was derived from it, directly or through others. A clone stands for
what it is a clone of. -/
def Reaches : Nat → Nat → Prop := Relation.ReflTransGen fun b c => Same ms b c ∨ Derived ms b c

/-- A call of `cancel` has reached the context. -/
def Called (n : Nat) : Prop := ∃ a, .cancelled a ∈ ms ∧ Reaches ms a n

/-- The way from a root down to a context leads through another. -/
def Through : Nat → Nat → Prop := Relation.ReflTransGen fun b c => Copied ms b c ∨ Derived ms b c

/-- The deadlines that were given on the way down to a context. -/
def Given (n : Nat) : Set Instant := { d | ∃ b x, .derived x b (some d) ∈ ms ∧ Through ms x n }

/-- The second was made of the first, directly or through others, and no correlation was replaced on the way. -/
def Inherits : Nat → Nat → Prop := Relation.ReflTransGen fun b c => .copied c b none ∈ ms ∨ Derived ms b c

/-- The second is a descendant of the first. -/
def Below (n a : Nat) : Prop := ∃ b x, Reaches ms n b ∧ Derived ms b x ∧ Reaches ms x a

/-- The second is a sibling of the first, or a descendant of a sibling. -/
def Beside (n a : Nat) : Prop :=
  ∃ b b' x y, Same ms b b' ∧ Derived ms b x ∧ Derived ms b' y ∧ x ≠ y ∧ Same ms x n ∧ Reaches ms y a

end History

variable {s s' : Family} {ms new : List Mark} {m : Mark} {a b n : Nat} {c p : Context} {d : Instant}

theorem Copied.append (copied : Copied ms b n) : Copied (ms ++ new) b n :=
  copied.imp fun _ told => List.mem_append_left new told

theorem Derived.append (derived : Derived ms b n) : Derived (ms ++ new) b n :=
  derived.imp fun _ told => List.mem_append_left new told

theorem Copied.last {id : Option Ident} : Copied (ms ++ [.copied n b id]) b n := ⟨id, List.mem_concat_self⟩

theorem Derived.last {given : Option Instant} : Derived (ms ++ [.derived n b given]) b n :=
  ⟨given, List.mem_concat_self⟩

theorem Same.append (same : Same ms b n) : Same (ms ++ new) b n :=
  Relation.EqvGen.mono (fun _ _ => Copied.append) _ _ same

theorem Reaches.append (reaches : Reaches ms a n) : Reaches (ms ++ new) a n :=
  Relation.ReflTransGen.mono (fun _ _ => Or.imp Same.append Derived.append) _ _ reaches

theorem Through.append (through : Through ms a n) : Through (ms ++ new) a n :=
  Relation.ReflTransGen.mono (fun _ _ => Or.imp Copied.append Derived.append) _ _ through

theorem Given.onward (given : d ∈ Given ms b) (edge : Copied ms b n ∨ Derived ms b n) : d ∈ Given ms n := by
  obtain ⟨b', x, told, through⟩ := given
  exact ⟨b', x, told, .tail through edge⟩

theorem Given.append (given : d ∈ Given ms n) : d ∈ Given (ms ++ new) n := by
  obtain ⟨b, x, told, through⟩ := given
  exact ⟨b, x, List.mem_append_left new told, through.append⟩

theorem Reaches.derived (reaches : Reaches ms a b) (derived : Derived ms b n) : Reaches ms a n :=
  .tail reaches (.inr derived)

theorem Reaches.same (reaches : Reaches ms a b) (same : Same ms b n) : Reaches ms a n :=
  .tail reaches (.inl same)

/-! ### What a step does -/

def narrowed (existing given : Option Instant) : Option Instant :=
  given.elim existing fun d => some (Context.earlier existing d)

/-- How a context is made, and how many scopes there are then. -/
inductive Makes (s : Family) : Mark → Context → Nat → Prop where
  | began (id : Ident) : Makes s (.began s.contexts.length id) ⟨[s.scopes.made], none, id⟩ (s.scopes.made + 1)
  | derived {n : Nat} {p : Context} (there : s.contexts[n]? = some p) (given : Option Instant) :
      Makes s (.derived s.contexts.length n given)
        { p with lineage := s.scopes.made :: p.lineage, deadline := narrowed p.deadline given } (s.scopes.made + 1)
  | copied {n : Nat} {p : Context} (there : s.contexts[n]? = some p) (id : Option Ident) :
      Makes s (.copied s.contexts.length n id) { p with correlation := id.getD p.correlation } s.scopes.made

structure Joins (s : Family) (m : Mark) (c : Context) (s' : Family) : Prop where
  makes : Makes s m c s'.scopes.made
  contexts : s'.contexts = s.contexts ++ [c]
  cancelled : s'.scopes.cancelled = s.scopes.cancelled
  now : s'.now = s.now

structure Rests (s s' : Family) : Prop where
  contexts : s'.contexts = s.contexts
  made : s'.scopes.made = s.scopes.made
  cancelled : s'.scopes.cancelled = s.scopes.cancelled
  now : s.now ≤ s'.now

theorem Step.cases (step : Step s new s') :
    (∃ m c, new = [m] ∧ Joins s m c s') ∨
    (∃ n c, new = [.cancelled n] ∧ s.contexts[n]? = some c ∧ s' = { s with scopes := (s.scopes.cancel c.lineage).1 }) ∨
    (new = [] ∧ Rests s s') := by
  cases step with
  | background id =>
    exact .inl ⟨_, _, rfl, .began id, rfl, Scopes.add_cancelled s.scopes [], rfl⟩
  | @derive how n p there =>
    refine .inl ⟨_, _, rfl, ?_, rfl, ?_, rfl⟩
    · cases how <;> exact .derived there _
    · cases how <;> exact Scopes.add_cancelled s.scopes p.lineage
  | clone there => exact .inl ⟨_, _, rfl, .copied there none, rfl, rfl, rfl⟩
  | rename id there => exact .inl ⟨_, _, rfl, .copied there (some id), rfl, rfl, rfl⟩
  | cancel there => exact .inr (.inl ⟨_, _, rfl, there, rfl⟩)
  | pass later => exact .inr (.inr ⟨rfl, rfl, rfl, rfl, later⟩)
  | release scope =>
    obtain ⟨tree, released⟩ := s.scopes.release_tree scope
    rw [released]
    exact .inr (.inr ⟨rfl, rfl, rfl, rfl, le_rfl⟩)

/-- Nothing is lost: contexts stay as they were made, what is cancelled stays so, and time does not go back. -/
structure Grows (s s' : Family) : Prop where
  contexts : s.contexts <+: s'.contexts
  cancelled : s.scopes.cancelled ⊆ s'.scopes.cancelled
  now : s.now ≤ s'.now

namespace Grows

theorem refl (s : Family) : Grows s s := ⟨List.prefix_refl _, List.Subset.refl _, le_rfl⟩

theorem trans {s'' : Family} (first : Grows s s') (rest : Grows s' s'') : Grows s s'' :=
  ⟨first.contexts.trans rest.contexts, List.Subset.trans first.cancelled rest.cancelled, first.now.trans rest.now⟩

theorem stands (grows : Grows s s') (there : s.contexts[n]? = some c) : s'.contexts[n]? = some c := by
  obtain ⟨more, same⟩ := grows.contexts
  rw [← same, List.getElem?_append_left (List.getElem?_eq_some_iff.mp there).1, there]

theorem stood (grows : Grows s s') (older : n < s.contexts.length) (there : s'.contexts[n]? = some c) :
    s.contexts[n]? = some c := by
  obtain ⟨more, same⟩ := grows.contexts
  rwa [← same, List.getElem?_append_left older] at there

theorem reached (grows : Grows s s') {lineage : List Nat} (reached : s.scopes.reaches lineage = true) :
    s'.scopes.reaches lineage = true := by
  obtain ⟨scope, inside, cancelled⟩ := Scopes.reaches_iff.mp reached
  exact Scopes.reaches_iff.mpr ⟨scope, inside, grows.cancelled cancelled⟩

theorem isCancelled (grows : Grows s s') (cancelled : c.isCancelled s.scopes s.now = true) :
    c.isCancelled s'.scopes s'.now = true := by
  rcases (Bool.or_eq_true _ _).mp cancelled with reached | past
  · exact (Bool.or_eq_true _ _).mpr (.inl (grows.reached reached))
  · obtain ⟨d, deadline, come⟩ := (Option.any_eq_true _ _).mp past
    refine (Bool.or_eq_true _ _).mpr (.inr ((Option.any_eq_true _ _).mpr ⟨d, deadline, ?_⟩))
    exact decide_eq_true ((of_decide_eq_true come).trans grows.now)

end Grows

theorem Joins.grows (joins : Joins s m c s') : Grows s s' :=
  ⟨joins.contexts ▸ List.prefix_append _ _, joins.cancelled ▸ List.Subset.refl _, joins.now.ge⟩

theorem Step.grows (step : Step s new s') : Grows s s' := by
  obtain ⟨m, c, -, joins⟩ | ⟨n, c, -, -, rfl⟩ | ⟨-, rests⟩ := step.cases
  · exact joins.grows
  · exact ⟨List.prefix_refl _, fun scope already => Scopes.mem_cancel.mpr (.inl already), le_rfl⟩
  · exact ⟨rests.contexts ▸ List.prefix_refl _, rests.cancelled ▸ List.Subset.refl _, rests.now⟩

theorem Step.derives {given : Option Instant} (step : Step s new s') (told : .derived n b given ∈ new) :
    n = s.contexts.length ∧ ∃ p, s.contexts[b]? = some p ∧ s'.contexts =
      s.contexts ++ [{ p with lineage := s.scopes.made :: p.lineage, deadline := narrowed p.deadline given }] := by
  obtain ⟨m, c, rfl, makes, contexts, -, -⟩ | ⟨_, _, rfl, -, -⟩ | ⟨rfl, -⟩ := step.cases
  · obtain rfl := List.mem_singleton.mp told
    generalize s'.scopes.made = made at makes
    cases makes with
    | derived there => exact ⟨rfl, _, there, contexts⟩
  · cases List.mem_singleton.mp told
  · cases told

theorem runGrows {init : Family} (run : Runs Step init ms s) : Grows init s := by
  induction run with
  | nil => exact .refl init
  | next _ last ih => exact ih.trans last.grows

theorem getElem?_joined : (s.contexts ++ [p])[n]? = some c ↔
    s.contexts[n]? = some c ∨ n = s.contexts.length ∧ p = c := by
  rcases lt_trichotomy n s.contexts.length with old | rfl | beyond
  · simp [List.getElem?_append_left old, old.ne]
  · simp
  · simp [List.getElem?_append_right beyond.le, List.getElem?_eq_none beyond.le, beyond.ne',
      Nat.sub_ne_zero_of_lt beyond]

/-! ### What was made -/

/-- A context has a scope, and all scopes that it hangs from are there. -/
def Bounded (made : Nat) (c : Context) : Prop := c.lineage ≠ [] ∧ ∀ scope ∈ c.lineage, scope < made

theorem Makes.more {made : Nat} (makes : Makes s m c made) : s.scopes.made ≤ made := by
  cases makes with
  | began | derived => exact Nat.le_succ _
  | copied => exact le_rfl

theorem Makes.bounded {made : Nat} (makes : Makes s m c made)
    (earlier : ∀ p ∈ s.contexts, Bounded s.scopes.made p) : Bounded made c := by
  cases makes with
  | began => exact ⟨List.cons_ne_nil _ _, by simp⟩
  | derived there =>
    have parent := (earlier _ (List.mem_of_getElem? there)).2
    refine ⟨List.cons_ne_nil _ _, fun scope inside => ?_⟩
    rcases List.mem_cons.mp inside with rfl | above
    · exact Nat.lt_succ_self _
    · exact (parent scope above).trans (Nat.lt_succ_self _)
  | copied there =>
    have original := earlier _ (List.mem_of_getElem? there)
    exact ⟨original.1, original.2⟩

theorem runBounded (run : Run ms s) : ∀ c ∈ s.contexts, Bounded s.scopes.made c := by
  induction run with
  | nil => simp [empty]
  | next _ last ih =>
    obtain ⟨m, c, -, joins⟩ | ⟨n, c, -, -, rfl⟩ | ⟨-, rests⟩ := last.cases
    · rw [joins.contexts]
      intro c' among
      rcases List.mem_append.mp among with old | here
      · exact ⟨(ih c' old).1, fun scope inside => ((ih c' old).2 scope inside).trans_le joins.makes.more⟩
      · rw [List.mem_singleton.mp here]
        exact joins.makes.bounded ih
    · rw [Scopes.cancel_made]
      exact ih
    · rw [rests.contexts, rests.made]
      exact ih

/-- What was made stands as it was made, and a call has reached the context that it was made on. -/
def Recorded (s : Family) : Mark → Prop
  | .began n id => ∃ scope, s.contexts[n]? = some ⟨[scope], none, id⟩
  | .derived n parent given => ∃ p scope, s.contexts[parent]? = some p ∧
      s.contexts[n]? = some { p with lineage := scope :: p.lineage, deadline := narrowed p.deadline given }
  | .copied n original id => ∃ p, s.contexts[original]? = some p ∧
      s.contexts[n]? = some { p with correlation := id.getD p.correlation }
  | .cancelled n => ∃ c, s.contexts[n]? = some c ∧ s.scopes.reaches c.lineage = true

theorem Recorded.mono (recorded : Recorded s m) (grows : Grows s s') : Recorded s' m := by
  cases m with
  | began =>
    obtain ⟨scope, made⟩ := recorded
    exact ⟨scope, grows.stands made⟩
  | derived =>
    obtain ⟨p, scope, there, made⟩ := recorded
    exact ⟨p, scope, grows.stands there, grows.stands made⟩
  | copied =>
    obtain ⟨p, there, made⟩ := recorded
    exact ⟨p, grows.stands there, grows.stands made⟩
  | cancelled =>
    obtain ⟨c, there, reached⟩ := recorded
    exact ⟨c, grows.stands there, grows.reached reached⟩

theorem Joins.records (joins : Joins s m c s') : Recorded s' m := by
  have here : s'.contexts[s.contexts.length]? = some c := by simp [joins.contexts]
  obtain ⟨makes, -, -, -⟩ := id joins
  generalize s'.scopes.made = made at makes
  cases makes with
  | began => exact ⟨_, here⟩
  | derived there => exact ⟨_, _, joins.grows.stands there, here⟩
  | copied there => exact ⟨_, joins.grows.stands there, here⟩

theorem runRecorded (run : Run ms s) : ∀ m ∈ ms, Recorded s m := by
  induction run with
  | nil => simp
  | next before last ih =>
    intro m told
    rcases List.mem_append.mp told with old | new
    · exact (ih m old).mono last.grows
    · obtain ⟨_, c, rfl, joins⟩ | ⟨n, c, rfl, there, rfl⟩ | ⟨rfl, -⟩ := last.cases
      · rw [List.mem_singleton.mp new]
        exact joins.records
      · rw [List.mem_singleton.mp new]
        have bounded := runBounded before c (List.mem_of_getElem? there)
        exact ⟨c, there, Scopes.cancel_reaches bounded.1⟩
      · cases new

/-! ### What hangs from what -/

def lineage (s : Family) (n : Nat) : Option (List Nat) := s.contexts[n]?.map (·.lineage)

theorem derivedLineage (run : Run ms s) (derived : Derived ms b n) :
    ∃ scope above, s.lineage b = some above ∧ s.lineage n = some (scope :: above) := by
  obtain ⟨given, told⟩ := derived
  obtain ⟨p, scope, parent, made⟩ := runRecorded run _ told
  exact ⟨scope, p.lineage, by rw [lineage, parent]; rfl, by rw [lineage, made]; rfl⟩

theorem sameLineage (run : Run ms s) (same : Same ms a n) : s.lineage a = s.lineage n := by
  induction same with
  | rel a n copied =>
    obtain ⟨id, told⟩ := copied
    obtain ⟨p, original, made⟩ := runRecorded run _ told
    rw [lineage, lineage, original, made]
    rfl
  | refl => rfl
  | symm _ _ _ ih => exact ih.symm
  | trans _ _ _ _ _ ih ih' => exact ih.trans ih'

theorem reachesLineage (run : Run ms s) (reaches : Reaches ms a n) {l : List Nat} (there : s.lineage a = some l) :
    ∃ l', s.lineage n = some l' ∧ l <:+ l' := by
  induction reaches with
  | refl => exact ⟨l, there, List.suffix_refl l⟩
  | tail _ edge ih =>
    obtain ⟨l', above, hangs⟩ := ih
    rcases edge with same | derived
    · exact ⟨l', (sameLineage run same).symm.trans above, hangs⟩
    · obtain ⟨scope, parent, parent_eq, made⟩ := derivedLineage run derived
      obtain rfl : l' = parent := Option.some.inj (above.symm.trans parent_eq)
      exact ⟨scope :: l', made, hangs.trans (List.suffix_cons scope l')⟩

/-- The scope of a context is among those that another hangs from only if what is done to the one reaches the other. -/
def Traced (ms : List Mark) (s : Family) : Prop :=
  ∀ {a n : Nat} {p c : Context} {scope : Nat}, s.contexts[a]? = some p → s.contexts[n]? = some c →
    p.lineage.head? = some scope → scope ∈ c.lineage → Reaches ms a n

theorem Makes.hangs {made scope : Nat} (makes : Makes s m c made) (bounded : ∀ p ∈ s.contexts, Bounded s.scopes.made p)
    (traced : Traced ms s) (there : s.contexts[a]? = some p) (own : p.lineage.head? = some scope)
    (among : scope ∈ c.lineage) : Reaches (ms ++ [m]) a s.contexts.length := by
  have old : scope ≠ s.scopes.made :=
    ((bounded p (List.mem_of_getElem? there)).2 scope (List.mem_of_mem_head? own)).ne
  cases makes with
  | began => exact absurd (List.mem_singleton.mp among) old
  | derived parent given =>
    have above := (List.mem_cons.mp among).resolve_left old
    exact (traced there parent own above).append.derived .last
  | copied original id =>
    exact (traced there original own among).append.same (.rel _ _ .last)

theorem Makes.heads {made scope : Nat} (makes : Makes s m p made) (bounded : ∀ c ∈ s.contexts, Bounded s.scopes.made c)
    (traced : Traced ms s) (there : s.contexts[n]? = some c) (own : p.lineage.head? = some scope)
    (among : scope ∈ c.lineage) : Reaches (ms ++ [m]) s.contexts.length n := by
  have old : scope ≠ s.scopes.made := ((bounded c (List.mem_of_getElem? there)).2 scope among).ne
  cases makes with
  | began | derived => exact absurd (Option.some.inj own).symm old
  | copied original id =>
    exact .head (.inl (.symm _ _ (.rel _ _ .last))) (traced original there own among).append

theorem runTraced (run : Run ms s) : Traced ms s := by
  induction run with
  | nil => simp [Traced, empty]
  | @next ms s new s' before last ih =>
    intro a n p c scope first second own among
    obtain ⟨m, x, rfl, joins⟩ | ⟨_, _, -, -, rfl⟩ | ⟨-, rests⟩ := last.cases
    · have bounded := runBounded before
      rw [joins.contexts] at first second
      -- Old scopes are below the new one, so a new context hangs from an old scope only over its parent or original.
      rcases getElem?_joined.mp first with first | ⟨rfl, rfl⟩ <;>
        rcases getElem?_joined.mp second with second | ⟨rfl, rfl⟩
      · exact (ih first second own among).append
      · exact joins.makes.hangs bounded ih first own among
      · exact joins.makes.heads bounded ih second own among
      · exact .refl
    · exact (ih first second own among).append
    · rw [rests.contexts] at first second
      exact (ih first second own among).append

theorem Grows.lineage (grows : Grows s s') {l : List Nat} (there : s.lineage n = some l) : s'.lineage n = some l := by
  obtain ⟨c, stands, rfl⟩ := Option.map_eq_some_iff.mp there
  rw [Family.lineage, grows.stands stands, Option.map_some]

theorem lineage_lt {l : List Nat} (there : s.lineage n = some l) : n < s.contexts.length := by
  obtain ⟨c, stands, -⟩ := Option.map_eq_some_iff.mp there
  exact (List.getElem?_eq_some_iff.mp stands).1

/-- Nothing that was made before a derived context hangs from its scope. -/
theorem runLater (run : Run ms s) {scope : Nat} {above : List Nat} (derived : Derived ms b a)
    (own : s.lineage a = some (scope :: above)) (there : s.contexts[n]? = some c) (among : scope ∈ c.lineage) :
    a ≤ n := by
  induction run generalizing n c with
  | nil => exact absurd derived.choose_spec List.not_mem_nil
  | @next ms s new s' before last ih =>
    by_contra later
    -- Then the other was there already when the context was derived, or both were there before the last step.
    have earlier : n < a := Nat.lt_of_not_le later
    obtain ⟨given, told⟩ := derived
    rcases List.mem_append.mp told with old | now
    · obtain ⟨scope', above', -, own'⟩ := derivedLineage before ⟨given, old⟩
      have same : scope' :: above' = scope :: above := Option.some.inj ((last.grows.lineage own').symm.trans own)
      have stood := last.grows.stood (earlier.trans (lineage_lt own')) there
      exact later (ih ⟨given, old⟩ (same ▸ own') stood among)
    · obtain ⟨rfl, p, -, contexts⟩ := last.derives now
      have stood := last.grows.stood earlier there
      have fresh : s.scopes.made :: p.lineage = scope :: above := by simpa [lineage, contexts] using own
      have bound := (runBounded before c (List.mem_of_getElem? stood)).2 scope among
      exact bound.ne (List.cons.inj fresh).1.symm

/-- A cancelled scope is that of a context that was cancelled by call. -/
theorem runCalls (run : Run ms s) : ∀ scope ∈ s.scopes.cancelled,
    ∃ a p, .cancelled a ∈ ms ∧ s.contexts[a]? = some p ∧ p.lineage.head? = some scope := by
  induction run with
  | nil => simp [empty, Scopes.empty]
  | @next ms s new s' before last ih =>
    intro scope cancelled
    have earlier (already : scope ∈ s.scopes.cancelled) :
        ∃ a p, .cancelled a ∈ ms ++ new ∧ s'.contexts[a]? = some p ∧ p.lineage.head? = some scope := by
      obtain ⟨a, p, told, there, own⟩ := ih scope already
      exact ⟨a, p, List.mem_append_left new told, last.grows.stands there, own⟩
    obtain ⟨m, x, -, joins⟩ | ⟨a, p, rfl, there, rfl⟩ | ⟨-, rests⟩ := last.cases
    · exact earlier (joins.cancelled ▸ cancelled)
    · rcases Scopes.mem_cancel.mp cancelled with already | ⟨own, -⟩
      · exact earlier already
      · exact ⟨a, p, List.mem_concat_self, there, own⟩
    · exact earlier (rests.cancelled ▸ cancelled)

theorem reached_iff (run : Run ms s) (there : s.contexts[n]? = some c) :
    s.scopes.reaches c.lineage = true ↔ Called ms n := by
  constructor
  · intro reached
    obtain ⟨scope, among, cancelled⟩ := Scopes.reaches_iff.mp reached
    obtain ⟨a, p, told, first, own⟩ := runCalls run scope cancelled
    exact ⟨a, told, runTraced run first there own among⟩
  · rintro ⟨a, told, reaches⟩
    obtain ⟨p, first, reached⟩ := runRecorded run _ told
    obtain ⟨l, above, hangs⟩ := reachesLineage run reaches (l := p.lineage) (by rw [lineage, first]; rfl)
    obtain rfl : c.lineage = l := by simpa [lineage, there] using above
    obtain ⟨scope, among, cancelled⟩ := Scopes.reaches_iff.mp reached
    exact Scopes.reaches_iff.mpr ⟨scope, hangs.mem among, cancelled⟩

end Family
end Switchyard
