import Switchyard.Proofs.Context.Family
/-!
What is to be said of a context after any history: when it is cancelled, what cancels it, which correlation it has, and
what it answers to those who ask.
-/
namespace Switchyard.Family

variable {s s' : Family} {ms new : List Mark} {m : Mark} {a b n : Nat} {c p : Context} {d : Instant}

/-! ### Deadlines and correlations -/

theorem earlier_le (existing : Option Instant) (d : Instant) : Context.earlier existing d ≤ d := by
  cases existing with
  | none => exact le_rfl
  | some => exact Nat.min_le_right _ _

theorem narrowed_le {existing : Option Instant} {e : Instant} (given : Option Instant) (stands : existing = some e) :
    ∃ e', narrowed existing given = some e' ∧ e' ≤ e := by
  subst stands
  cases given with
  | none => exact ⟨e, rfl, le_rfl⟩
  | some d => exact ⟨min e d, rfl, Nat.min_le_left e d⟩

theorem narrowed_cases {existing given : Option Instant} (narrows : narrowed existing given = some d) :
    existing = some d ∨ given = some d := by
  cases given with
  | none => exact .inl narrows
  | some d' =>
    cases existing with
    | none => exact .inr narrows
    | some e =>
      obtain rfl : min e d' = d := Option.some.inj narrows
      rcases Nat.le_total e d' with first | first
      · exact .inl (by rw [Nat.min_eq_left first])
      · exact .inr (by rw [Nat.min_eq_right first])

/-- On the way down a deadline does not move to a later time. -/
theorem throughDeadline (run : Run ms s) (through : Through ms a n) (first : s.contexts[a]? = some p) {e : Instant}
    (bound : p.deadline = some e) : ∃ c e', s.contexts[n]? = some c ∧ c.deadline = some e' ∧ e' ≤ e := by
  induction through with
  | refl => exact ⟨p, e, first, bound, le_rfl⟩
  | tail _ edge ih =>
    obtain ⟨q, e', there, deadline, sooner⟩ := ih
    rcases edge with ⟨id, told⟩ | ⟨given, told⟩
    · obtain ⟨q', original, made⟩ := runRecorded run _ told
      obtain rfl := Option.some.inj (there.symm.trans original)
      exact ⟨_, e', made, deadline, sooner⟩
    · obtain ⟨q', scope, parent, made⟩ := runRecorded run _ told
      obtain rfl := Option.some.inj (there.symm.trans parent)
      obtain ⟨e'', narrows, sooner'⟩ := narrowed_le given deadline
      exact ⟨_, e'', made, narrows, sooner'.trans sooner⟩

theorem given_bounds (run : Run ms s) (there : s.contexts[n]? = some c) (given : d ∈ Given ms n) :
    ∃ e, c.deadline = some e ∧ e ≤ d := by
  obtain ⟨b, x, told, through⟩ := given
  obtain ⟨p, scope, -, made⟩ := runRecorded run _ told
  obtain ⟨c', e, there', deadline, sooner⟩ := throughDeadline run through made rfl
  obtain rfl := Option.some.inj (there.symm.trans there')
  exact ⟨e, deadline, sooner.trans (earlier_le p.deadline d)⟩

theorem Makes.given {made : Nat} (makes : Makes s m c made)
    (earlier : ∀ {n c}, s.contexts[n]? = some c → c.deadline = some d → d ∈ Given ms n) (deadline : c.deadline = some d) :
    d ∈ Given (ms ++ [m]) s.contexts.length := by
  cases makes with
  | began => cases deadline
  | derived there given =>
    rcases narrowed_cases deadline with inherited | own
    · exact Given.onward (Given.append (earlier there inherited)) (.inr .last)
    · subst own
      exact ⟨_, _, List.mem_concat_self, .refl⟩
  | copied there id => exact Given.onward (Given.append (earlier there deadline)) (.inl .last)

/-- The deadline of a context was given on the way down to it. -/
theorem runGiven (run : Run ms s) (there : s.contexts[n]? = some c) (deadline : c.deadline = some d) :
    d ∈ Given ms n := by
  induction run generalizing n c with
  | nil => simp [empty] at there
  | @next ms s new s' before last ih =>
    obtain ⟨m, x, rfl, makes, contexts, -, -⟩ | ⟨_, _, -, -, rfl⟩ | ⟨-, rests⟩ := last.cases
    · rw [contexts] at there
      rcases getElem?_joined.mp there with old | ⟨rfl, rfl⟩
      · exact Given.append (ih old deadline)
      · exact makes.given ih deadline
    · exact Given.append (ih there deadline)
    · rw [rests.contexts] at there
      exact Given.append (ih there deadline)

theorem deadline_iff (run : Run ms s) (there : s.contexts[n]? = some c) :
    c.deadline = some d ↔ IsLeast (Given ms n) d := by
  constructor
  · intro deadline
    refine ⟨runGiven run there deadline, fun d' given => ?_⟩
    obtain ⟨e, deadline', sooner⟩ := given_bounds run there given
    obtain rfl := Option.some.inj (deadline.symm.trans deadline')
    exact sooner
  · intro least
    obtain ⟨e, deadline, sooner⟩ := given_bounds run there least.1
    rw [deadline, le_antisymm sooner (least.2 (runGiven run there deadline))]

theorem inheritsCorrelation (run : Run ms s) (inherits : Inherits ms a n) (first : s.contexts[a]? = some p) :
    ∃ c, s.contexts[n]? = some c ∧ c.correlation = p.correlation := by
  induction inherits with
  | refl => exact ⟨p, first, rfl⟩
  | tail _ edge ih =>
    obtain ⟨q, there, same⟩ := ih
    rcases edge with told | ⟨given, told⟩
    · obtain ⟨q', original, made⟩ := runRecorded run _ told
      obtain rfl := Option.some.inj (there.symm.trans original)
      exact ⟨_, made, same⟩
    · obtain ⟨q', scope, parent, made⟩ := runRecorded run _ told
      obtain rfl := Option.some.inj (there.symm.trans parent)
      exact ⟨_, made, same⟩

/-! ### Descendants and siblings -/

theorem reaches_suffix (run : Run ms s) (reaches : Reaches ms a n) {l l' : List Nat} (first : s.lineage a = some l)
    (second : s.lineage n = some l') : l <:+ l' := by
  obtain ⟨l'', second', hangs⟩ := reachesLineage run reaches first
  rwa [Option.some.inj (second.symm.trans second')]

/-- What is done to a descendant does not reach back. -/
theorem below_unreached (run : Run ms s) (there : s.contexts[n]? = some c) (below : Below ms n a) :
    ¬ Reaches ms a n := by
  intro back
  obtain ⟨b, x, down, derived, further⟩ := below
  have own : s.lineage n = some c.lineage := by rw [lineage, there, Option.map_some]
  obtain ⟨scope, l, parent, child⟩ := derivedLineage run derived
  obtain ⟨l', descendant, under⟩ := reachesLineage run further child
  -- The scopes of the descendant are more than those it would have to be among.
  have under' : c.lineage <:+ l := reaches_suffix run down own parent
  have round : scope :: l <:+ l := under.trans ((reaches_suffix run back descendant own).trans under')
  exact absurd round.length_le (Nat.not_succ_le_self l.length)

/-- Nor does what is done to a sibling, or to one of its descendants. -/
theorem beside_unreached (run : Run ms s) (beside : Beside ms n a) : ¬ Reaches ms a n := by
  intro reaches
  obtain ⟨b, b', x, y, same, first, second, differ, here, further⟩ := beside
  obtain ⟨scope, l, parent, own⟩ := derivedLineage run first
  obtain ⟨scope', l', parent', own'⟩ := derivedLineage run second
  obtain rfl : l = l' := Option.some.inj (parent.symm.trans ((sameLineage run same).trans parent'))
  have under : scope' :: l <:+ scope :: l :=
    reaches_suffix run (further.trans (reaches.same (.symm _ _ here))) own' own
  obtain rfl : scope' = scope := (List.cons.inj (under.eq_of_length rfl)).1
  obtain ⟨p, there, lineage_p⟩ := Option.map_eq_some_iff.mp own
  obtain ⟨q, there', lineage_q⟩ := Option.map_eq_some_iff.mp own'
  have among : scope' ∈ p.lineage := lineage_p ▸ List.mem_cons_self
  have among' : scope' ∈ q.lineage := lineage_q ▸ List.mem_cons_self
  exact differ (Nat.le_antisymm (runLater run first own there' among') (runLater run second own' there among))

/-- A cancellation leaves the contexts alone that it does not reach. -/
theorem cancel_unmoved (run : Run ms s) (there : s.contexts[n]? = some c) (step : Step s [.cancelled a] s')
    (unreached : ¬ Reaches ms a n) : s'.scopes.reaches c.lineage = s.scopes.reaches c.lineage := by
  refine Bool.eq_iff_iff.mpr ⟨fun reached => ?_, step.grows.reached⟩
  obtain ⟨scope, among, cancelled⟩ := Scopes.reaches_iff.mp reached
  cases step with
  | cancel first =>
    rcases Scopes.mem_cancel.mp cancelled with already | ⟨own, -⟩
    · exact Scopes.reaches_iff.mpr ⟨scope, among, already⟩
    · exact absurd (runTraced run first there own among) unreached

/-! ### A context after its history -/

theorem isPast_iff (run : Run ms s) (there : s.contexts[n]? = some c) :
    c.isPast s.now = true ↔ ∃ d, IsLeast (Given ms n) d ∧ d ≤ s.now := by
  rw [Context.isPast, Option.any_eq_true]
  refine exists_congr fun d => ?_
  rw [deadline_iff run there, decide_eq_true_iff]

theorem isCancelled_iff (run : Run ms s) (there : s.contexts[n]? = some c) :
    c.isCancelled s.scopes s.now = true ↔ Called ms n ∨ ∃ d, IsLeast (Given ms n) d ∧ d ≤ s.now := by
  rw [Context.isCancelled, Bool.or_eq_true, reached_iff run there, isPast_iff run there]

theorem cancellation_iff (run : Run ms s) (there : s.contexts[n]? = some c) :
    c.cancellation s.scopes = .cancelled "context deadline exceeded" ↔ ¬ Called ms n := by
  rw [← reached_iff run there, Context.cancellation]
  cases s.scopes.reaches c.lineage <;> simp

/-- All that its history has to say of a context that goes by `n`. -/
structure Governed (ms : List Mark) (s : Family) (n : Nat) (c : Context) : Prop where
  /-- It is cancelled if a call has reached it, or if the earliest deadline given on the way down to it has come. -/
  ends : c.isCancelled s.scopes s.now = true ↔ Called ms n ∨ ∃ d, IsLeast (Given ms n) d ∧ d ≤ s.now
  /-- Whatever happens from now on, it stays what it is, and if it is cancelled it remains so. -/
  remains : ∀ new s', Runs Step s new s' → s'.contexts[n]? = some c ∧
    (c.isCancelled s.scopes s.now = true → c.isCancelled s'.scopes s'.now = true)
  /-- Cancelling one that does not reach it makes no difference to it, now or at any other time. -/
  unmoved : ∀ a s', Step s [.cancelled a] s' → ¬ Reaches ms a n → ∀ time,
    c.isCancelled s'.scopes time = c.isCancelled s.scopes time ∧ c.cancellation s'.scopes = c.cancellation s.scopes
  /-- Its descendants, its siblings and the descendants of those do not reach it. -/
  apart : ∀ a, Below ms n a ∨ Beside ms n a → ¬ Reaches ms a n
  /-- It has the correlation of those it was made of, up to the last that was replaced. -/
  inherits : ∀ a p, s.contexts[a]? = some p → Inherits ms a n → c.correlation = p.correlation
  replaced : ∀ original id, .copied n original (some id) ∈ ms → c.correlation = id
  /-- The deadline is reported only if no call has reached it. -/
  reported : c.cancellation s.scopes = .cancelled "context deadline exceeded" ↔ ¬ Called ms n

/-- Over contexts of any shape, made, cancelled and timed in any order: each is governed by its history. -/
theorem everyContextGoverned (run : Run ms s) (there : s.contexts[n]? = some c) : Governed ms s n c where
  ends := isCancelled_iff run there
  remains new s' later := ⟨(runGrows later).stands there, (runGrows later).isCancelled⟩
  unmoved a s' step unreached time := by
    have same := cancel_unmoved run there step unreached
    exact ⟨by rw [Context.isCancelled, same, Context.isCancelled], by rw [Context.cancellation, same, Context.cancellation]⟩
  apart a elsewhere := by
    rcases elsewhere with below | beside
    · exact below_unreached run there below
    · exact beside_unreached run beside
  inherits a p first inherits := by
    obtain ⟨c', there', same⟩ := inheritsCorrelation run inherits first
    rwa [Option.some.inj (there.symm.trans there')]
  replaced original id told := by
    obtain ⟨p, -, made⟩ := runRecorded run _ told
    exact congrArg Context.correlation (Option.some.inj (there.symm.trans made))
  reported := cancellation_iff run there

/-- Out of a context with a deadline another was derived, over a clone with a correlation of its own. A sibling of the
first was cancelled. The second is over when the deadline of the first has come. -/
theorem grandchildGoverned : ∃ ms s c, Run ms s ∧ s.contexts[3]? = some c ∧ Governed ms s 3 c ∧
    .cancelled 4 ∈ ms ∧ c.check s.scopes s.now = .error (.cancelled "context deadline exceeded") ∧
    IsLeast (Given ms 3) 50 ∧ c.correlation = .drawn 1 := by
  have root : Run _ _ := .next .nil (.background .nil)
  have first : Run _ _ := .next root (.derive (n := 0) (.timeout 50) rfl)
  have renamed : Run _ _ := .next first (.rename (n := 1) (.drawn 1) rfl)
  have second : Run _ _ := .next renamed (.derive (n := 2) (.deadline 80) rfl)
  have sibling : Run _ _ := .next second (.derive (n := 0) .child rfl)
  have cancelled : Run _ _ := .next sibling (.cancel (n := 4) rfl)
  have later : Run _ _ := .next cancelled (.pass (show (0 : Instant) ≤ 60 by decide))
  exact ⟨_, _, _, later, rfl, everyContextGoverned later rfl, by decide, rfl,
    (deadline_iff later rfl).mp rfl, rfl⟩

end Switchyard.Family
