import Mathlib.Data.List.Forall2
import Switchyard.Proofs.Breaker.Deeds
import Switchyard.Proofs.Breaker.Outcomes
/-!
What reading a breaker changes. A read applies what is due, and a counting window or a break that begins so is dated from
the read. Where it begins neither, the run goes on as if nobody had read: a read that ends a break, or finds a half-open
breaker idle, moves no more than the deadline of the trial calls.
-/
namespace Switchyard.Breaker

variable {b b' b₁ b₁' : Breaker} {now : Instant} {cs cs' : List Transition} {success : Bool}

/-- A trial call is out at the deadline. -/
def Overdue (b : Breaker) (now : Instant) : Prop := b.phase = .halfOpen ∧ b.isDue now = true ∧ 0 < b.counts.inFlight

/-- Reading it would begin a counting window or a break. -/
def Restarts (b : Breaker) (now : Instant) : Prop := b.phase = .closed ∧ b.isDue now = true ∨ b.Overdue now

instance (b : Breaker) (now : Instant) : Decidable (b.Overdue now) := inferInstanceAs (Decidable (_ ∧ _))

instance (b : Breaker) (now : Instant) : Decidable (b.Restarts now) := inferInstanceAs (Decidable (_ ∨ _))

/-- The same to all who ask, but for the deadline of trial calls. -/
structure Kin (b b' : Breaker) : Prop where
  settings : b.config = b'.config
  phase : b.phase = b'.phase
  counts : b.counts = b'.counts
  expiry : b.phase ≠ .halfOpen → b.expiry = b'.expiry

/-- Both stay in their generations, or both begin new ones. -/
def Abreast (b b₁ b' b₁' : Breaker) : Prop :=
  b₁.generation = b.generation ∧ b₁'.generation = b'.generation ∨
    b.generation < b₁.generation ∧ b'.generation < b₁'.generation

namespace Kin

theorem isDue (kin : Kin b b') (other : b.phase ≠ .halfOpen) : b.isDue now = b'.isDue now := by
  rw [Breaker.isDue, Breaker.isDue, kin.expiry other]

theorem renewed (settings : b.config = b'.config) (phase : b.phase = b'.phase) : Kin (b.renew now) (b'.renew now) :=
  ⟨settings, phase, rfl, fun _ => by simp only [renew, settings, phase]⟩

theorem began : Abreast b (b.renew now) b' (b'.renew now) := .inr ⟨Nat.lt_succ_self _, Nat.lt_succ_self _⟩

theorem refreshed (kin : Kin b b') (agree : b.Overdue now ↔ b'.Overdue now) (first : Refreshes b now b₁ cs)
    (second : Refreshes b' now b₁' cs') : Kin b₁ b₁' ∧ Abreast b b₁ b' b₁' := by
  have phase := kin.phase
  have same (other : b.phase ≠ .halfOpen) : b.isDue now = b'.isDue now := kin.isDue other
  -- half-open breakers have deadlines of their own, so one may be due and not the other
  cases first with
  | early early =>
    cases second with
    | early => exact ⟨kin, .inl ⟨rfl, rfl⟩⟩
    | extended half => exact ⟨{ kin with expiry := fun other => absurd (phase.trans half) other }, .inl ⟨rfl, rfl⟩⟩
    | overdue half due out => simp [(agree.mpr ⟨half, due, out⟩).2.1] at early
    | renewed at' due | probes at' due => simp [same (by simp [phase, at']), due] at early
  | renewed closed due =>
    have due' := same (by simp [closed]) ▸ due
    cases second with
    | early early => simp [due'] at early
    | renewed => exact ⟨renewed kin.settings phase, began⟩
    | probes other | overdue other | extended other => simp [← phase, closed] at other
  | probes opened due =>
    have due' := same (by simp [opened]) ▸ due
    cases second with
    | early early => simp [due'] at early
    | probes => exact ⟨renewed kin.settings rfl, began⟩
    | renewed other | overdue other | extended other => simp [← phase, opened] at other
  | overdue half due out =>
    obtain ⟨-, due', out'⟩ := agree.mp ⟨half, due, out⟩
    cases second with
    | early early => simp [due'] at early
    | overdue => exact ⟨renewed kin.settings rfl, began⟩
    | extended _ _ idle => exact absurd out' (Nat.not_lt.mpr (Nat.le_of_eq idle))
    | renewed other | probes other => simp [← phase, half] at other
  | extended half due idle =>
    have kept {expiry expiry' : Option Instant} : Kin { b with expiry } { b' with expiry := expiry' } :=
      { kin with expiry := fun other => absurd half other }
    cases second with
    | early => exact ⟨kept, .inl ⟨rfl, rfl⟩⟩
    | extended => exact ⟨kept, .inl ⟨rfl, rfl⟩⟩
    | overdue half' due' out' =>
      have out := (agree.mpr ⟨half', due', out'⟩).2.2
      exact absurd out (Nat.not_lt.mpr (Nat.le_of_eq idle))
    | renewed other | probes other => simp [← phase, half] at other

theorem recorded (kin : Kin b b') (first : Records b now success b₁ cs) (second : Records b' now success b₁' cs') :
    Kin b₁ b₁' ∧ Abreast b b₁ b' b₁' := by
  obtain ⟨settings, phase, counts, expiry⟩ := kin
  cases first with
  | ignored _ opened =>
    cases second with
    | ignored => exact ⟨⟨settings, phase, counts, expiry⟩, .inl ⟨rfl, rfl⟩⟩
    | succeeded other | failed other | tripped other | advanced other | closes other | reopens other =>
      simp [← phase, opened] at other
  | succeeded closed =>
    cases second with
    | succeeded => exact ⟨⟨settings, phase, congrArg Counts.succeed counts, expiry⟩, .inl ⟨rfl, rfl⟩⟩
    | ignored _ other | advanced other | closes other => simp [← phase, closed] at other
  | failed closed holds =>
    cases second with
    | failed => exact ⟨⟨settings, phase, congrArg Counts.fail counts, expiry⟩, .inl ⟨rfl, rfl⟩⟩
    | tripped _ trips => simp [← settings, ← counts, holds] at trips
    | ignored _ other | reopens other => simp [← phase, closed] at other
  | tripped closed trips =>
    cases second with
    | tripped => exact ⟨renewed settings rfl, began⟩
    | failed _ holds => simp [← settings, ← counts, trips] at holds
    | ignored _ other | reopens other => simp [← phase, closed] at other
  | advanced half short =>
    cases second with
    | advanced => exact ⟨⟨settings, phase, congrArg Counts.succeed counts, expiry⟩, .inl ⟨rfl, rfl⟩⟩
    | closes _ enough =>
      rw [← settings, ← counts] at enough
      exact absurd short (Nat.not_lt.mpr enough)
    | ignored _ other | succeeded other => simp [← phase, half] at other
  | closes half enough =>
    cases second with
    | closes => exact ⟨renewed settings rfl, began⟩
    | advanced _ short =>
      rw [← settings, ← counts] at short
      exact absurd short (Nat.not_lt.mpr enough)
    | ignored _ other | succeeded other => simp [← phase, half] at other
  | reopens half =>
    cases second with
    | reopens => exact ⟨renewed settings rfl, began⟩
    | ignored _ other | failed other | tripped other => simp [← phase, half] at other

theorem hasRoom (kin : Kin b b') : b.hasRoom = b'.hasRoom := by
  rw [Breaker.hasRoom, Breaker.hasRoom, kin.phase, kin.counts, kin.settings]

end Kin

namespace Gate

variable {config : Config} {began : Instant} {s t : Gate} {ms ns : List Mark} {calls calls' : List Call}

/-! ### Two gates -/

/-- The same call, in the present generation of both gates or of neither. -/
def Paired (g g' : Nat) (c d : Call) : Prop := c.number = d.number ∧ (c.tag = g ↔ d.tag = g')

def Aligned (calls calls' : List Call) : Prop := List.Forall₂ (fun c d => c.number = d.number) calls calls'

theorem Aligned.none (aligned : Aligned calls calls') {g g' : Nat} (none : ∀ c ∈ calls, c.tag ≠ g)
    (none' : ∀ d ∈ calls', d.tag ≠ g') : List.Forall₂ (Paired g g') calls calls' := by
  induction aligned with
  | nil => exact .nil
  | cons same rest ih =>
    obtain ⟨here, later⟩ := List.forall_mem_cons.mp none
    obtain ⟨here', later'⟩ := List.forall_mem_cons.mp none'
    exact .cons ⟨same, iff_of_false here here'⟩ (ih later later')

theorem Paired.aligned {g g' : Nat} (paired : List.Forall₂ (Paired g g') calls calls') : Aligned calls calls' :=
  paired.imp fun _ _ pair => pair.1

/-- No call is out of a generation that has not begun. -/
def Known (b : Breaker) (calls : List Call) : Prop := ∀ c ∈ calls, c.tag ≤ b.generation

theorem Known.later {b b₁ : Breaker} (known : Known b calls) (later : b.generation < b₁.generation) :
    ∀ c ∈ calls, c.tag ≠ b₁.generation :=
  fun c out => Nat.ne_of_lt (Nat.lt_of_le_of_lt (known c out) later)

theorem Known.refreshed {b b₁ : Breaker} {now : Instant} {changes : List Transition} (known : Known b calls)
    (refreshed : Refreshes b now b₁ changes) : Known b₁ calls :=
  fun c out => Nat.le_trans (known c out) refreshed.later

theorem Paired.abreast {b b₁ b' b₁' : Breaker}
    (paired : List.Forall₂ (Paired b.generation b'.generation) calls calls') (known : Known b calls)
    (known' : Known b' calls') (abreast : Abreast b b₁ b' b₁') :
    List.Forall₂ (Paired b₁.generation b₁'.generation) calls calls' := by
  rcases abreast with ⟨same, same'⟩ | ⟨later, later'⟩
  · rwa [same, same']
  · exact (Paired.aligned paired).none (known.later later) (known'.later later')

theorem Paired.found {g g' : Nat} (paired : List.Forall₂ (Paired g g') calls calls') (n : Nat) :
    calls.find? (·.number = n) = none ∧ calls'.find? (·.number = n) = none ∨
    ∃ c d, calls.find? (·.number = n) = some c ∧ calls'.find? (·.number = n) = some d ∧ (c.tag = g ↔ d.tag = g') ∧
      List.Forall₂ (Paired g g') (calls.eraseP (·.number = n)) (calls'.eraseP (·.number = n)) := by
  induction paired with
  | nil => exact .inl ⟨rfl, rfl⟩
  | @cons c d rest rest' pair others ih =>
    by_cases here : c.number = n
    · have here' : d.number = n := pair.1 ▸ here
      refine .inr ⟨c, d, ?_, ?_, pair.2, ?_⟩
      · simp [here]
      · simp [here']
      · simpa [here, here'] using others
    · have here' : ¬ d.number = n := pair.1 ▸ here
      simp only [List.find?_cons, here, here', decide_false, List.eraseP_cons, cond_false]
      rcases ih with missing | ⟨c', d', found, found', current, left⟩
      · exact .inl missing
      · exact .inr ⟨c', d', found, found', current, .cons pair left⟩

/-- Nobody who asks can tell the gates apart. -/
structure Level (s t : Gate) : Prop where
  now : s.now = t.now
  total : s.total = t.total
  kin : s.breaker.Kin t.breaker
  calls : List.Forall₂ (Paired s.breaker.generation t.breaker.generation) s.calls t.calls

/-- The first gate was read when its break was over, and probes; the second will when somebody asks. -/
structure Ahead (s t : Gate) : Prop where
  now : s.now = t.now
  total : s.total = t.total
  settings : s.breaker.config = t.breaker.config
  half : s.breaker.phase = .halfOpen
  clear : s.breaker.counts = .zero
  opened : t.breaker.phase = .opened
  due : t.breaker.isDue t.now = true
  calls : Aligned s.calls t.calls
  untried : ∀ c ∈ s.calls, c.tag ≠ s.breaker.generation

inductive Alike (s t : Gate) : Prop where
  | level (level : Level s t)
  | ahead (ahead : Ahead s t)

/-- The breaker that would be read in each gate is the same to whoever asks. -/
abbrev Meet (s t : Gate) : Prop := Level { s with breaker := s.current } { t with breaker := t.current }

theorem Ahead.waits (ahead : Ahead s t) : ∃ expiry, s.current = { s.breaker with expiry } := by
  obtain ⟨changes, refreshed⟩ : ∃ changes, Refreshes s.breaker s.now s.current changes := ⟨_, refreshes rfl⟩
  generalize s.current = b at refreshed
  cases refreshed with
  | early | extended => exact ⟨_, rfl⟩
  | overdue _ _ out => simp [ahead.clear, Counts.zero, Counts.inFlight] at out
  | renewed other | probes other => simp [ahead.half] at other

theorem Ahead.current (ahead : Ahead s t) (known : Known t.breaker t.calls) : Meet s t := by
  have probes : t.current = ({ t.breaker with phase := .halfOpen }).renew t.now :=
    current_of_refreshes (.probes ahead.opened ahead.due)
  obtain ⟨expiry, waits⟩ := ahead.waits
  rw [Meet, probes, waits]
  refine ⟨ahead.now, ahead.total, ⟨ahead.settings, ahead.half, ahead.clear, fun other => absurd ahead.half other⟩, ?_⟩
  exact ahead.calls.none ahead.untried (known.later (Nat.lt_succ_self _))

theorem Level.current (level : Level s t) (known : Known s.breaker s.calls) (known' : Known t.breaker t.calls)
    (agree : s.breaker.Overdue s.now ↔ t.breaker.Overdue t.now) : Meet s t := by
  have second : Refreshes t.breaker s.now t.current (t.breaker.refresh t.now).2 := by
    rw [level.now]
    exact refreshes rfl
  rw [← level.now] at agree
  obtain ⟨kin, abreast⟩ := level.kin.refreshed agree (refreshes rfl) second
  exact ⟨level.now, level.total, kin, Paired.abreast level.calls known known' abreast⟩

/-- Whoever asks finds both gates the same, where a trial call is overdue in both or in neither. -/
theorem Alike.current (alike : Alike s t) (known : Known s.breaker s.calls) (known' : Known t.breaker t.calls)
    (agree : s.breaker.Overdue s.now ↔ t.breaker.Overdue t.now) : Meet s t := by
  cases alike with
  | level level => exact level.current known known' agree
  | ahead ahead => exact ahead.current known'

/-! ### What is done to both -/

/-- Who asked, and when, and whether they were let in. -/
def Mark.answer? : Mark → Option (Nat × Except Error Unit × Instant)
  | .asked n r time => some (n, r.map fun _ => (), time)
  | _ => none

def answers (ms : List Mark) : List (Nat × Except Error Unit × Instant) := ms.filterMap Mark.answer?

theorem answers_moves (changes : List Transition) (time : Instant) : answers (moves changes time) = [] :=
  List.filterMap_eq_nil_iff.mpr (forall_moves fun _ => rfl)

theorem answers_cons {m : Mark} (silent : m.answer? = none) (changes : List Transition) (time : Instant) :
    answers (m :: moves changes time) = [] := by
  rw [answers, List.filterMap_cons_none silent]
  exact answers_moves changes time

theorem answers_asked (changes : List Transition) (n : Nat) (r : Except Error Nat) (time : Instant) :
    answers (moves changes time ++ [.asked n r time]) = [(n, r.map fun _ => (), time)] := by
  rw [answers, List.filterMap_append, show List.filterMap Mark.answer? (moves changes time) = [] from answers_moves ..]
  rfl

/-- The same is answered, and nobody can tell what has become of the gates. -/
structure Same (x y : List Mark × Gate) : Prop where
  answers : answers x.1 = answers y.1
  alike : Alike x.2 y.2

theorem Meet.ask (meet : Meet s t) : Same (s.play .ask) (t.play .ask) := by
  have now : s.now = t.now := meet.now
  have total : s.total = t.total := meet.total
  have kin : s.current.Kin t.current := meet.kin
  obtain ⟨b, changes, r, asked⟩ : ∃ b changes r, s.breaker.acquire s.now = (b, changes, r) := ⟨_, _, _, rfl⟩
  obtain ⟨b', changes', r', asked'⟩ : ∃ b changes r, t.breaker.acquire t.now = (b, changes, r) := ⟨_, _, _, rfl⟩
  obtain ⟨b₁, totals, refreshed, decided⟩ := acquires asked
  obtain ⟨b₁', totals', refreshed', decided'⟩ := acquires asked'
  obtain rfl := current_of_refreshes refreshed
  obtain rfl := current_of_refreshes refreshed'
  have room := kin.hasRoom
  simp only [play, asked, asked']
  rcases decided with ⟨free, rfl, rfl⟩ | ⟨full, rfl, rfl⟩
  · obtain ⟨-, rfl, rfl⟩ := decided'.resolve_right fun other => by simp [← room, free] at other
    refine ⟨?_, .level ⟨now, congrArg (· + 1) total, ?_, ?_⟩⟩
    · simp only [asking, answers_asked, total, now, Except.map]
    · exact ⟨kin.settings, kin.phase, congrArg Counts.acquire kin.counts, kin.expiry⟩
    · exact List.rel_append meet.calls (.cons ⟨total, iff_of_true rfl rfl⟩ .nil)
  · obtain ⟨-, rfl, rfl⟩ := decided'.resolve_left fun other => by simp [← room, full] at other
    refine ⟨?_, .level ⟨now, congrArg (· + 1) total, ?_, meet.calls⟩⟩
    · simp only [asking, answers_asked, total, now, kin.settings, Except.map]
    · exact ⟨kin.settings, kin.phase, kin.counts, kin.expiry⟩

theorem Known.left {b : Breaker} (known : Known b calls) (n : Nat) : Known b (calls.eraseP (·.number = n)) :=
  fun c out => known c (List.mem_of_mem_eraseP out)

/-- A call that goes leaves the gates alike, if it does the same to both breakers. -/
theorem Meet.leaving {f f' : Call → Mark × Breaker × List Transition} (meet : Meet s t) (alike : Alike s t)
    (known : Known s.current s.calls) (known' : Known t.current t.calls) (n : Nat)
    (silent : ∀ c, (f c).1.answer? = none ∧ (f' c).1.answer? = none)
    (each : ∀ c d : Call, (c.tag = s.current.generation ↔ d.tag = t.current.generation) →
      Kin (f c).2.1 (f' d).2.1 ∧ Abreast s.current (f c).2.1 t.current (f' d).2.1) :
    Same (s.leaving n f) (t.leaving n f') := by
  rcases Paired.found meet.calls n with ⟨missing, missing'⟩ | ⟨c, d, found, found', current, left⟩
  · simp only [Gate.leaving, missing, missing']
    exact ⟨rfl, alike⟩
  · obtain ⟨kin, abreast⟩ := each c d current
    simp only [Gate.leaving, found, found']
    refine ⟨?_, .level ⟨meet.now, meet.total, kin, Paired.abreast left (known.left n) (known'.left n) abreast⟩⟩
    rw [answers_cons (silent c).1, answers_cons (silent d).2]

theorem Meet.settled {tag tag' : Nat} {success : Bool} (meet : Meet s t)
    (current : tag = s.current.generation ↔ tag' = t.current.generation) :
    Kin (s.breaker.settle tag success s.now).1 (t.breaker.settle tag' success t.now).1 ∧
    Abreast s.current (s.breaker.settle tag success s.now).1 t.current (t.breaker.settle tag' success t.now).1 := by
  have kin : s.current.Kin t.current := meet.kin
  have same (totals totals' : Totals) : Kin { s.current with totals } { t.current with totals := totals' } :=
    ⟨kin.settings, kin.phase, kin.counts, kin.expiry⟩
  obtain ⟨b, changes, settled⟩ : ∃ b changes, s.breaker.settle tag success s.now = (b, changes) := ⟨_, _, rfl⟩
  obtain ⟨b', changes', settled'⟩ : ∃ b changes, t.breaker.settle tag' success t.now = (b, changes) := ⟨_, _, rfl⟩
  obtain ⟨b₁, first, totals, refreshed, outcome⟩ := settles settled
  obtain ⟨b₁', first', totals', refreshed', outcome'⟩ := settles settled'
  obtain rfl := current_of_refreshes refreshed
  obtain rfl := current_of_refreshes refreshed'
  rw [settled, settled']
  rcases outcome with ⟨stale, rfl, -⟩ | ⟨mine, more, recorded, -⟩
  · obtain ⟨-, rfl, -⟩ := outcome'.resolve_right fun other => stale (current.mpr other.1.symm).symm
    exact ⟨same totals totals', .inl ⟨rfl, rfl⟩⟩
  · obtain ⟨-, more', recorded', -⟩ := outcome'.resolve_left fun other => other.1 (current.mp mine.symm).symm
    rw [meet.now.symm] at recorded'
    exact (same totals totals').recorded recorded recorded'

theorem Meet.abandoned {tag tag' : Nat} (meet : Meet s t)
    (current : tag = s.current.generation ↔ tag' = t.current.generation) :
    Kin (s.breaker.abandon tag s.now).1 (t.breaker.abandon tag' t.now).1 ∧
    Abreast s.current (s.breaker.abandon tag s.now).1 t.current (t.breaker.abandon tag' t.now).1 := by
  have kin : s.current.Kin t.current := meet.kin
  obtain ⟨b, changes, abandoned⟩ : ∃ b changes, s.breaker.abandon tag s.now = (b, changes) := ⟨_, _, rfl⟩
  obtain ⟨b', changes', abandoned'⟩ : ∃ b changes, t.breaker.abandon tag' t.now = (b, changes) := ⟨_, _, rfl⟩
  obtain ⟨b₁, refreshed, done⟩ := abandons abandoned
  obtain ⟨b₁', refreshed', done'⟩ := abandons abandoned'
  obtain rfl := current_of_refreshes refreshed
  obtain rfl := current_of_refreshes refreshed'
  rw [abandoned, abandoned', done, done']
  by_cases mine : tag = s.current.generation
  · rw [if_pos mine.symm, if_pos (current.mp mine).symm]
    exact ⟨⟨kin.settings, kin.phase, congrArg Counts.release kin.counts, kin.expiry⟩, .inl ⟨rfl, rfl⟩⟩
  · rw [if_neg (Ne.symm mine), if_neg fun other => mine (current.mpr other.symm)]
    exact ⟨kin, .inl ⟨rfl, rfl⟩⟩

theorem Meet.look (meet : Meet s t) : Same (s.play .look) (t.play .look) :=
  ⟨(answers_moves ..).trans (answers_moves ..).symm, .level meet⟩

theorem Alike.forcing (alike : Alike s t) (known : Known s.breaker s.calls) (known' : Known t.breaker t.calls)
    (phase : Phase) : Same (s.forcing phase) (t.forcing phase) := by
  obtain ⟨now, total, settings, calls⟩ :
      s.now = t.now ∧ s.total = t.total ∧ s.breaker.config = t.breaker.config ∧ Aligned s.calls t.calls := by
    cases alike with
    | level level => exact ⟨level.now, level.total, level.kin.settings, Paired.aligned level.calls⟩
    | ahead ahead => exact ⟨ahead.now, ahead.total, ahead.settings, ahead.calls⟩
  have renews (b : Breaker) (now : Instant) : (b.force phase now).1 = ({ b with phase }).renew now := (forces rfl).1
  refine ⟨(answers_cons rfl ..).trans (answers_cons rfl ..).symm, .level ⟨now, total, ?_, ?_⟩⟩
  · simp only [Gate.forcing, renews, ← now]
    exact Kin.renewed settings rfl
  · simp only [Gate.forcing, renews]
    exact calls.none (known.later (Nat.lt_succ_self _)) (known'.later (Nat.lt_succ_self _))

/-- What is due is applied first. -/
def Deed.refreshes : Deed → Bool
  | .reset | .forceOpen => false
  | _ => true

theorem Alike.play (alike : Alike s t) (known : Known s.breaker s.calls) (known' : Known t.breaker t.calls)
    (deed : Deed) (agree : deed.refreshes = true → (s.breaker.Overdue s.now ↔ t.breaker.Overdue t.now)) :
    Same (s.play deed) (t.play deed) := by
  have meet (refreshes : deed.refreshes = true) : Meet s t := alike.current known known' (agree refreshes)
  have knownNow : Known s.current s.calls := known.refreshed (refreshes rfl)
  have knownNow' : Known t.current t.calls := known'.refreshed (refreshes rfl)
  cases deed with
  | ask => exact (meet rfl).ask
  | finish n o =>
    have same : s.breaker.config.succeeds o = t.breaker.config.succeeds o := by
      cases alike with
      | level level => rw [level.kin.settings]
      | ahead ahead => rw [ahead.settings]
    simp only [Gate.play, same]
    exact (meet rfl).leaving alike knownNow knownNow' n (fun _ => ⟨rfl, rfl⟩) fun c d => (meet rfl).settled
  | drop n =>
    simp only [Gate.play]
    exact (meet rfl).leaving alike knownNow knownNow' n (fun _ => ⟨rfl, rfl⟩) fun c d => (meet rfl).abandoned
  | look => exact (meet rfl).look
  | reset => exact alike.forcing known known' .closed
  | forceOpen => exact alike.forcing known known' .opened

/-! ### What is done to one -/

theorem Alike.pass (alike : Alike s t) (span : Span) :
    Alike { s with now := s.now + span } { t with now := t.now + span } := by
  cases alike with
  | level level => exact .level { level with now := congrArg (· + span) level.now }
  | ahead ahead =>
    refine .ahead { ahead with now := congrArg (· + span) ahead.now, due := ?_ }
    obtain ⟨e, expiry, past⟩ := (Option.any_eq_true _ _).mp ahead.due
    refine (Option.any_eq_true _ _).mpr ⟨e, expiry, ?_⟩
    exact decide_eq_true (Nat.le_trans (of_decide_eq_true past) (Nat.le_add_right _ _))

theorem Alike.glance (alike : Alike s t) (known : Known s.breaker s.calls) (quiet : ¬ s.breaker.Restarts s.now) :
    Alike (s.play .look).2 t := by
  cases alike with
  | ahead ahead =>
    obtain ⟨expiry, waits⟩ := ahead.waits
    exact .ahead { ahead with
      settings := (congrArg Breaker.config waits).trans ahead.settings
      half := (congrArg Breaker.phase waits).trans ahead.half
      clear := (congrArg Breaker.counts waits).trans ahead.clear
      untried := fun c out => (ahead.untried c out).trans_eq (congrArg Breaker.generation waits).symm }
  | level level =>
    obtain ⟨now, total, kin, calls⟩ := level
    obtain ⟨changes, refreshed⟩ : ∃ changes, Refreshes s.breaker s.now s.current changes := ⟨_, refreshes rfl⟩
    have read : (s.play .look).2 = { s with breaker := s.current } := rfl
    rw [read]
    generalize s.current = b at refreshed
    cases refreshed with
    | early => exact .level ⟨now, total, kin, calls⟩
    | extended half =>
      exact .level ⟨now, total, { kin with expiry := fun other => absurd half other }, calls⟩
    | probes opened due =>
      have opened' : t.breaker.phase = .opened := kin.phase.symm.trans opened
      have due' : t.breaker.isDue t.now = true := by
        rw [← now, ← kin.isDue (by simp [opened])]
        exact due
      have untried : ∀ c ∈ s.calls, c.tag ≠ s.breaker.generation + 1 :=
        fun c out => Nat.ne_of_lt (Nat.lt_succ_of_le (known c out))
      exact .ahead ⟨now, total, kin.settings, rfl, rfl, opened', due', Paired.aligned calls, untried⟩
    | renewed closed due => exact absurd (.inl ⟨closed, due⟩) quiet
    | overdue half due out => exact absurd (.inr ⟨half, due, out⟩) quiet

/-! ### Plans -/

/-- What is done is not a read that begins a window or a break, and finds no trial call overdue in one gate only. -/
def Quiet (s t : Gate) : Beat → Prop
  | .pass _ => True
  | .glance => ¬ s.breaker.Restarts s.now
  | .both deed => deed.refreshes = true → (s.breaker.Overdue s.now ↔ t.breaker.Overdue t.now)

instance (s t : Gate) : DecidablePred (Quiet s t)
  | .pass _ => .isTrue trivial
  | .glance => inferInstanceAs (Decidable (¬ _))
  | .both _ => inferInstanceAs (Decidable (_ → _))

def Calm (s t : Gate) : List Beat → Prop
  | [] => True
  | b :: rest => Quiet s t b ∧ Calm (s.beat true b).2 (t.beat false b).2 rest

instance decidableCalm (s t : Gate) : (plan : List Beat) → Decidable (Calm s t plan)
  | [] => .isTrue trivial
  | b :: rest =>
    have := decidableCalm (s.beat true b).2 (t.beat false b).2 rest
    inferInstanceAs (Decidable (_ ∧ _))

theorem Alike.beat (alike : Alike s t) (known : Known s.breaker s.calls) (known' : Known t.breaker t.calls) (b : Beat)
    (quiet : Quiet s t b) : Same (s.beat true b) (t.beat false b) := by
  cases b with
  | pass span => exact ⟨rfl, alike.pass span⟩
  | glance => exact ⟨answers_moves .., alike.glance known quiet⟩
  | both deed => exact alike.play known known' deed quiet

theorem runKnowing (run : Run (start config began) ms s) : Known s.breaker s.calls :=
  fun _ out => (runFair run).known out

theorem Alike.follow (alike : Alike s t) (run : Run (start config began) ms s) (run' : Run (start config began) ns t)
    (plan : List Beat) (calm : Calm s t plan) : Same (s.follow true plan) (t.follow false plan) := by
  induction plan generalizing s t ms ns with
  | nil => exact ⟨rfl, alike⟩
  | cons b rest ih =>
    -- both are followed as runs, in which no call is of a generation that has not begun
    obtain ⟨quiet, calm⟩ := calm
    obtain ⟨first, alike⟩ := alike.beat (runKnowing run) (runKnowing run') b quiet
    obtain ⟨later, alike⟩ := ih alike (run.trans (beatRuns true s b)) (run'.trans (beatRuns false t b)) calm
    refine ⟨?_, alike⟩
    simp only [Gate.follow, answers, List.filterMap_append] at first later ⊢
    rw [first, later]

theorem Level.refl (s : Gate) : Level s s :=
  ⟨rfl, rfl, ⟨rfl, rfl, rfl, fun _ => rfl⟩, List.forall₂_same.mpr fun _ _ => ⟨rfl, Iff.rfl⟩⟩

/-- The runs of a breaker are what follows the plans. Of two runs of one plan, of which one also reads, both let in the
same calls at the same times, where no read begins a window or a break and no trial call is overdue in one of them only. -/
theorem readsLeaveAnswers :
    (∀ glances ms s, Run (start config began) ms s ↔ ∃ plan, (start config began).follow glances plan = (ms, s)) ∧
    ∀ plan, Calm (start config began) (start config began) plan →
      answers ((start config began).follow true plan).1 = answers ((start config began).follow false plan).1 := by
  refine ⟨fun glances ms s => ⟨fun run => ?_, ?_⟩, fun plan calm => ?_⟩
  · obtain ⟨plan, follows⟩ := runFollows run
    exact ⟨plan, follows glances⟩
  · rintro ⟨plan, follows⟩
    have run := followRuns glances (start config began) plan
    rwa [follows] at run
  · have alike : Alike (start config began) (start config began) := .level (.refl _)
    exact (alike.follow .nil .nil plan calm).answers

def probeConfig : Config := { failureCount := 1, breakFor := 50 }

def probeRead : List Beat :=
  [.both .ask, .both (.finish 0 (.panic "lost")), .pass 50, .glance, .pass 10, .both .ask, .pass 20,
   .both (.finish 1 (.value ())), .both .ask]

theorem probeReadAnswers : Calm (start probeConfig 0) (start probeConfig 0) probeRead ∧
    answers ((start probeConfig 0).follow true probeRead).1 =
      answers ((start probeConfig 0).follow false probeRead).1 :=
  have calm : Calm (start probeConfig 0) (start probeConfig 0) probeRead := by decide
  ⟨calm, readsLeaveAnswers.2 probeRead calm⟩

/-- The read begins a window that ends between the two failures. -/
def lossRead : List Beat :=
  [.pass 150, .glance, .pass 50, .both .ask, .both (.finish 0 (.panic "lost")), .pass 60, .both .ask,
   .both (.finish 1 (.panic "lost")), .both .ask]

/-- The read begins a break, which is over when the next call asks. -/
def breakRead : List Beat :=
  [.both .ask, .both (.finish 0 (.panic "lost")), .pass 50, .both .ask, .pass 60, .glance, .pass 55, .both .ask]

/-- The read ends a break, long before the trial call is let in. -/
def trialRead : List Beat :=
  [.both .ask, .both (.finish 0 (.panic "lost")), .pass 50, .glance, .pass 45, .both .ask, .pass 10,
   .both (.finish 1 (.value ())), .both .ask]

theorem readsChangeAnswers :
    answers ((start lossConfig 0).follow true lossRead).1 ≠ answers ((start lossConfig 0).follow false lossRead).1 ∧
    answers ((start probeConfig 0).follow true breakRead).1 ≠
      answers ((start probeConfig 0).follow false breakRead).1 ∧
    answers ((start probeConfig 0).follow true trialRead).1 ≠
      answers ((start probeConfig 0).follow false trialRead).1 := by
  have told {xs ys : List (Nat × Except Error Unit × Instant)}
      (other : xs.map (fun a => a.2.1.isOk) ≠ ys.map fun a => a.2.1.isOk) : xs ≠ ys :=
    fun same => other (same ▸ rfl)
  exact ⟨told (by decide), told (by decide), told (by decide)⟩

end Gate
end Switchyard.Breaker
