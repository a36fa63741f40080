import Switchyard.Proofs.Breaker.Gate
/-!
The places of a breaker. In every reachable state the calls let in under the present generation are those that have
succeeded, those that have failed and those that are still out; so the places of a half-open breaker are never held by
anybody else, and no call that hangs or is lost can keep it shut.
-/
namespace Switchyard.Breaker

/-- One more under the tag. -/
def bump (f : Nat → Nat) (tag : Nat) : Nat → Nat := fun g => f g + if g = tag then 1 else 0

@[simp] theorem bump_same (f : Nat → Nat) (tag : Nat) : bump f tag tag = f tag + 1 := by simp [bump]

theorem bump_other (f : Nat → Nat) {tag g : Nat} (other : g ≠ tag) : bump f tag g = f g := by simp [bump, other]

/-- A half-open breaker with a number of trial calls out. -/
structure Trying (b : Breaker) (out : Nat) : Prop where
  spotless : b.counts.failures = 0
  streak : b.counts.consecutiveSuccesses = b.counts.successes
  short : b.counts.successes < b.config.limit
  held : b.counts.requests ≤ b.counts.successes + out
  room : b.counts.requests ≤ b.config.limit

/-- How many calls are out under a tag, and how many were let in under it, go with what the breaker counts. -/
structure Balanced (b : Breaker) (now : Instant) (out lets : Nat → Nat) : Prop where
  later : ∀ g, b.generation < g → out g = 0 ∧ lets g = 0
  bounded : b.counts.requests ≤ Counts.most
  within : b.counts.successes + b.counts.failures + out b.generation ≤ lets b.generation
  exact : lets b.generation ≤ Counts.most →
    b.counts.requests = b.counts.successes + b.counts.failures + out b.generation
  opened : b.phase = .opened → b.counts = .zero ∧ out b.generation = 0
  half : b.phase = .halfOpen → Trying b (out b.generation)
  timed : b.phase ≠ .closed → ∃ e, b.expiry = some e ∧ e ≤ now + b.config.breakFor

theorem Config.limit_pos (c : Config) : 0 < c.limit := Nat.le_max_right _ _

namespace Balanced

variable {b b' : Breaker} {now now' : Instant} {out lets : Nat → Nat} {changes : List Transition} {tag : Nat}
  {success : Bool}

theorem renewed (later : ∀ g, b.generation < g → out g = 0 ∧ lets g = 0) (phase : Phase) :
    Balanced (({ b with phase }).renew now) now out lets := by
  have none := (later _ (Nat.lt_succ_self b.generation)).1
  refine ⟨?_, Nat.zero_le _, ?_, fun _ => ?_, fun _ => ⟨rfl, none⟩, fun _ => ?_, fun other => ?_⟩
  · intro g after
    exact later g (Nat.lt_of_succ_lt after)
  · simp [renew, Counts.zero, none]
  · simp [renew, Counts.zero, none]
  · exact ⟨rfl, rfl, b.config.limit_pos, Nat.zero_le _, Nat.zero_le _⟩
  · cases phase with
    | closed => exact absurd rfl other
    | opened | halfOpen => exact ⟨_, rfl, Nat.le_refl _⟩

theorem of_make (config : Config) (now : Instant) : Balanced (make config now) now (fun _ => 0) (fun _ => 0) :=
  ⟨fun _ _ => ⟨rfl, rfl⟩, Nat.zero_le _, Nat.le_refl _, fun _ => rfl, nofun, nofun, fun other => absurd rfl other⟩

theorem totals (balanced : Balanced b now out lets) (totals : Totals) : Balanced { b with totals } now out lets :=
  { balanced with half := fun half => { balanced.half half with } }

theorem wait (balanced : Balanced b now out lets) (later : now ≤ now') : Balanced b now' out lets := by
  refine { balanced with timed := fun other => ?_ }
  obtain ⟨e, expiry, bound⟩ := balanced.timed other
  exact ⟨e, expiry, Nat.le_trans bound (Nat.add_le_add_right later _)⟩

theorem refreshed (balanced : Balanced b now out lets) (refreshed : Refreshes b now b' changes) :
    Balanced b' now out lets := by
  cases refreshed with
  | early => exact balanced
  | renewed => exact renewed balanced.later b.phase
  | probes | overdue => exact renewed balanced.later _
  | extended =>
    exact { balanced with
      half := fun half => { balanced.half half with }
      timed := fun _ => ⟨_, rfl, Nat.le_refl _⟩ }

theorem letIn (balanced : Balanced b now out lets) (room : b.hasRoom = true) :
    Balanced { b with counts := b.counts.acquire } now (bump out b.generation) (bump lets b.generation) := by
  obtain ⟨later, bounded, within, exact', opened, half, timed⟩ := balanced
  have fresh : ∀ g, b.generation < g →
      bump out b.generation g = 0 ∧ bump lets b.generation g = 0 := by
    intro g after
    have other : g ≠ b.generation := Nat.ne_of_gt after
    simpa only [bump_other _ other] using later g after
  refine ⟨fresh, Nat.min_le_right _ _, ?_, ?_, ?_, ?_, timed⟩
  · simp only [bump_same, Counts.acquire]
    omega
  · intro few
    simp only [bump_same, Counts.acquire, Counts.more] at few ⊢
    have before := exact' (by omega)
    omega
  · intro isOpen
    have shut : b.phase = .opened := isOpen
    simp [hasRoom, shut] at room
  · intro isHalf
    have trying := half isHalf
    have free : b.counts.requests < b.config.limit := by
      have isHalf' : b.phase = .halfOpen := isHalf
      simpa [hasRoom, isHalf'] using room
    have held := trying.held
    refine ⟨trying.spotless, trying.streak, trying.short, ?_, ?_⟩
    · simp only [bump_same, Counts.acquire, Counts.more]
      omega
    · simp only [Counts.acquire, Counts.more]
      omega

theorem fallsBack (later : ∀ g, b.generation < g → bump out tag g = 0 ∧ lets g = 0) :
    ∀ g, b.generation < g → out g = 0 ∧ lets g = 0 := by
  intro g after
  obtain ⟨none, fresh⟩ := later g after
  exact ⟨Nat.eq_zero_of_add_eq_zero_right none, fresh⟩

theorem leave (balanced : Balanced b now (bump out tag) lets) (stale : b.generation ≠ tag) :
    Balanced b now out lets := by
  have same : bump out tag b.generation = out b.generation := bump_other out stale
  exact { balanced with
    later := fallsBack balanced.later
    within := same ▸ balanced.within
    exact := same ▸ balanced.exact
    opened := same ▸ balanced.opened
    half := same ▸ balanced.half }

/-- The call that ends was out, so the breaker is not open. -/
theorem recorded (balanced : Balanced b now (bump out b.generation) lets)
    (recorded : Records b now success b' changes) : Balanced b' now out lets := by
  have later := fallsBack balanced.later
  have within := balanced.within
  have exact' := balanced.exact
  have bounded := balanced.bounded
  simp only [bump_same] at within exact'
  cases recorded with
  | ignored _ isOpen =>
    have none := (balanced.opened isOpen).2
    simp at none
  | succeeded closed =>
    refine ⟨later, bounded, ?_, ?_, ?_, ?_, balanced.timed⟩
    · simp only [Counts.succeed, Counts.more]
      omega
    · intro few
      simp only [Counts.succeed, Counts.more]
      have before := exact' few
      omega
    · simp [closed]
    · simp [closed]
  | failed closed =>
    refine ⟨later, bounded, ?_, ?_, ?_, ?_, balanced.timed⟩
    · simp only [Counts.fail, Counts.more]
      omega
    · intro few
      simp only [Counts.fail, Counts.more]
      have before := exact' few
      omega
    · simp [closed]
    · simp [closed]
  | advanced half short =>
    have trying := balanced.half half
    have held := trying.held
    simp only [bump_same] at held
    refine ⟨later, bounded, ?_, ?_, ?_, fun _ => ?_, balanced.timed⟩
    · simp only [Counts.succeed, Counts.more]
      omega
    · intro few
      simp only [Counts.succeed, Counts.more]
      have before := exact' few
      omega
    · simp [half]
    · have streak := trying.streak
      simp only [Counts.succeed, streak] at short
      refine ⟨trying.spotless, ?_, short, ?_, trying.room⟩
      · simp only [Counts.succeed, streak]
      · simp only [Counts.succeed, Counts.more]
        omega
  | tripped | closes | reopens => exact renewed later _

theorem released (balanced : Balanced b now (bump out b.generation) lets) :
    Balanced { b with counts := b.counts.release } now out lets := by
  have later := fallsBack balanced.later
  have within := balanced.within
  have exact' := balanced.exact
  simp only [bump_same] at within exact'
  refine ⟨later, Nat.le_trans (Nat.sub_le _ _) balanced.bounded, ?_, ?_, fun isOpen => ?_, fun isHalf => ?_,
    balanced.timed⟩
  · simp only [Counts.release]
    omega
  · intro few
    simp only [Counts.release]
    have before := exact' few
    omega
  · have none := (balanced.opened isOpen).2
    simp at none
  · have trying := balanced.half isHalf
    have held := trying.held
    simp only [bump_same] at held
    refine ⟨trying.spotless, trying.streak, trying.short, ?_, Nat.le_trans (Nat.sub_le _ _) trying.room⟩
    simp only [Counts.release]
    omega

/-- The outcome of a call that is out: in another generation nothing but what is due happens, and in its own nothing is
due that would change the phase, and the breaker is not open. -/
theorem settles (balanced : Balanced b now (bump out tag) lets) (settled : b.settle tag success now = (b', changes)) :
    ∃ totals, (∃ b₁, Refreshes b now b₁ changes ∧ b₁.generation ≠ tag ∧ b' = { b₁ with totals }) ∨
      (b.generation = tag ∧ b.phase ≠ .opened ∧ ∃ expiry, Refreshes b now { b with expiry } [] ∧
        Records { b with expiry, totals } now success b' changes) := by
  obtain ⟨b₁, first, totals, refreshed, ⟨stale, rfl, rfl⟩ | ⟨same, more, recorded, rfl⟩⟩ := Breaker.settles settled
  · exact ⟨totals, .inl ⟨b₁, refreshed, stale, rfl⟩⟩
  · have known : tag ≤ b.generation := by
      refine Nat.le_of_not_lt fun after => ?_
      have none := (balanced.later tag after).1
      simp at none
    obtain ⟨rfl, expiry, rfl⟩ := refreshed.current (same ▸ known)
    have shut : b.phase ≠ .opened := by
      intro opened
      have none := (balanced.opened opened).2
      simp [show b.generation = tag from same] at none
    exact ⟨totals, .inr ⟨same, shut, expiry, refreshed, recorded⟩⟩

end Balanced

/-! ### Every reachable state -/

namespace Gate

/-- The calls that are out under a tag. -/
def outstanding (s : Gate) (tag : Nat) : Nat := s.calls.countP (·.tag = tag)

def Mark.isLetIn (tag : Nat) : Mark → Bool
  | .asked _ (.ok g) _ => tag = g
  | _ => false

/-- The calls that were let in under a tag. -/
def admissions (ms : List Mark) (tag : Nat) : Nat := ms.countP (Mark.isLetIn tag)

theorem admissions_quiet {ms new : List Mark} (quiet : ∀ tag, ∀ m ∈ new, Mark.isLetIn tag m = false) :
    admissions (ms ++ new) = admissions ms := by
  funext tag
  have none : new.countP (Mark.isLetIn tag) = 0 := List.countP_eq_zero.mpr fun m hm => by simp [quiet tag m hm]
  simp [admissions, none]

theorem moves_quiet {changes : List Transition} {time : Instant} (tag : Nat) :
    ∀ m ∈ moves changes time, Mark.isLetIn tag m = false :=
  forall_moves fun _ => rfl

theorem admissions_letIn (ms : List Mark) (n tag : Nat) (time : Instant) :
    admissions (ms ++ [.asked n (.ok tag) time]) = bump (admissions ms) tag := by
  funext g
  by_cases same : g = tag <;> simp [admissions, Mark.isLetIn, bump, same]

theorem outstanding_letIn (s : Gate) (breaker : Breaker) (tag : Nat) :
    outstanding { s with breaker, calls := s.calls ++ [⟨s.total, tag⟩], total := s.total + 1 } =
      bump s.outstanding tag := by
  funext g
  simp [outstanding, bump, List.countP_append, List.countP_cons, eq_comm (a := g)]

theorem outstanding_leave {s : Gate} {before after : List Call} {c : Call} (stands : s.calls = before ++ c :: after)
    (breaker : Breaker) : s.outstanding = bump (Gate.outstanding { s with breaker, calls := before ++ after }) c.tag := by
  funext tag
  simp only [outstanding, stands, bump, List.countP_append, List.countP_cons, decide_eq_true_eq, eq_comm (a := tag)]
  omega

/-- The books of a gate after the marks `ms`. -/
def Fair (ms : List Mark) (s : Gate) : Prop := Balanced s.breaker s.now s.outstanding (admissions ms)

namespace Fair

variable {ms : List Mark} {s : Gate} {c : Call}

theorem known (fair : Fair ms s) (out : c ∈ s.calls) : c.tag ≤ s.breaker.generation := by
  refine Nat.le_of_not_lt fun later => ?_
  have none := List.countP_eq_zero.mp (fair.later c.tag later).1 c out
  simp at none

theorem settles {before after : List Call} {success : Bool} {breaker : Breaker} {changes : List Transition}
    (fair : Fair ms s) (stands : s.calls = before ++ c :: after)
    (settled : s.breaker.settle c.tag success s.now = (breaker, changes)) :
    ∃ totals, (∃ b₁, Refreshes s.breaker s.now b₁ changes ∧ b₁.generation ≠ c.tag ∧ breaker = { b₁ with totals }) ∨
      (s.breaker.generation = c.tag ∧ s.breaker.phase ≠ .opened ∧
        ∃ expiry, Refreshes s.breaker s.now { s.breaker with expiry } [] ∧
          Records { s.breaker with expiry, totals } s.now success breaker changes) := by
  rw [Fair, outstanding_leave stands breaker] at fair
  exact Balanced.settles fair settled

end Fair

theorem stepFair {ms new : List Mark} {s s' : Gate} (step : Step s new s') (fair : Fair ms s) : Fair (ms ++ new) s' := by
  unfold Fair at fair ⊢
  cases step with
  | letIn asked =>
    obtain ⟨b₁, totals, refreshed, ⟨room, tagged, rfl⟩ | ⟨-, other, -⟩⟩ := acquires asked
    · cases tagged
      rw [← List.append_assoc, admissions_letIn, admissions_quiet moves_quiet]
      exact outstanding_letIn s _ _ ▸ ((fair.refreshed refreshed).letIn room).totals totals
    · cases other
  | turnAway asked =>
    obtain ⟨b₁, totals, refreshed, ⟨-, other, -⟩ | ⟨-, -, rfl⟩⟩ := acquires asked
    · cases other
    · rw [← List.append_assoc, admissions_quiet (by simp [Mark.isLetIn]), admissions_quiet moves_quiet]
      exact (fair.refreshed refreshed).totals totals
  | settle o stands settled =>
    rw [admissions_quiet (by simpa [Mark.isLetIn] using moves_quiet)]
    obtain ⟨b₁, first, totals, refreshed, ⟨stale, rfl, -⟩ | ⟨same, more, recorded, -⟩⟩ := settles settled
    · exact (((outstanding_leave stands _ ▸ fair).refreshed refreshed).leave stale).totals totals
    · rw [outstanding_leave stands, ← same] at fair
      exact ((fair.refreshed refreshed).totals totals).recorded recorded
  | abandon stands abandoned =>
    rw [admissions_quiet (by simpa [Mark.isLetIn] using moves_quiet)]
    obtain ⟨b₁, refreshed, rfl⟩ := abandons abandoned
    split
    · rename_i same
      rw [outstanding_leave stands, ← same] at fair
      exact (fair.refreshed refreshed).released
    · rename_i stale
      exact ((outstanding_leave stands _ ▸ fair).refreshed refreshed).leave stale
  | look refreshed =>
    rw [admissions_quiet moves_quiet]
    exact fair.refreshed (refreshes refreshed)
  | reset forced | forceOpen forced =>
    obtain ⟨rfl, -⟩ := forces forced
    rw [admissions_quiet (by simpa [Mark.isLetIn] using moves_quiet)]
    exact Balanced.renewed fair.later _
  | pass now later =>
    rw [admissions_quiet (by simp)]
    exact fair.wait later

variable {config : Config} {began : Instant} {ms : List Mark} {s : Gate}

theorem runFair (run : Run (start config began) ms s) : Fair ms s := by
  induction run with
  | nil => exact Balanced.of_make config began
  | next earlier last ih => exact stepFair last ih

/-- While fewer calls were let in under the present generation than a counter can hold: the calls counted are those
that succeeded, those that failed and those still out; an open breaker has nothing counted and nobody out; and the
trial calls of a half-open one, out or successful, are never more than its places. -/
theorem everyPlaceAccountedFor (run : Run (start config began) ms s)
    (few : admissions ms s.breaker.generation < Nat.pow 2 32) :
    s.breaker.counts.requests =
      s.breaker.counts.successes + s.breaker.counts.failures + s.outstanding s.breaker.generation ∧
    s.breaker.counts.inFlight = s.outstanding s.breaker.generation ∧
    (s.breaker.phase = .opened →
      s.breaker.counts = .zero ∧ ∀ c ∈ s.calls, c.tag ≠ s.breaker.generation) ∧
    (s.breaker.phase = .halfOpen →
      s.breaker.counts.failures = 0 ∧ s.breaker.counts.consecutiveSuccesses = s.breaker.counts.successes ∧
      s.breaker.counts.successes < config.limit ∧
      s.outstanding s.breaker.generation + s.breaker.counts.successes ≤ config.limit) := by
  have fair := runFair run
  have counted := fair.exact (Nat.le_of_lt_succ few)
  have bounded := fair.bounded
  refine ⟨counted, ?_, fun isOpen => ?_, fun isHalf => ?_⟩
  · simp only [Counts.inFlight]
    omega
  · obtain ⟨zero, none⟩ := fair.opened isOpen
    refine ⟨zero, fun c hc same => ?_⟩
    have out := List.countP_eq_zero.mp none c hc
    simp [same] at out
  · have trying := fair.half isHalf
    have spotless := trying.spotless
    have room := trying.room
    rw [runConfig run] at room
    exact ⟨spotless, trying.streak, runConfig run ▸ trying.short, by omega⟩

/-! Two trial calls, of which one has succeeded. -/

def pairConfig : Config := { halfOpenMax := 2, breakFor := 60 }

def pairForced : Gate :=
  ⟨⟨pairConfig, .opened, 1, .zero, some 60, ⟨0, 0, 0, 0⟩⟩, 0, [], 0⟩

def pairProbed : Gate :=
  ⟨⟨pairConfig, .halfOpen, 2, ⟨1, 0, 0, 0, 0⟩, some 120, ⟨1, 0, 0, 0⟩⟩, 60, [⟨0, 2⟩], 1⟩

def pairOut : Gate :=
  ⟨⟨pairConfig, .halfOpen, 2, ⟨2, 0, 0, 0, 0⟩, some 120, ⟨2, 0, 0, 0⟩⟩, 60,
    [⟨0, 2⟩, ⟨1, 2⟩], 2⟩

def pairHalf : Gate :=
  ⟨⟨pairConfig, .halfOpen, 2, ⟨2, 1, 0, 1, 0⟩, some 120, ⟨2, 1, 0, 0⟩⟩, 60, [⟨1, 2⟩], 2⟩

def pairMarks : List Mark :=
  [.forced .opened 0, .moved (.closed, .opened) 0, .moved (.opened, .halfOpen) 60,
   .asked 0 (.ok 2) 60, .asked 1 (.ok 2) 60, .ended 0 2 (.value ()) 60]

theorem pairRun : Run (start pairConfig 0) pairMarks pairHalf := by
  have forced : Step (start pairConfig 0) [.forced .opened 0, .moved (.closed, .opened) 0] pairForced := .forceOpen rfl
  have passed : Step pairForced [] { pairForced with now := 60 } := .pass _ (Nat.zero_le _)
  have probed : Step { pairForced with now := 60 }
      [.moved (.opened, .halfOpen) 60, .asked 0 (.ok 2) 60] pairProbed :=
    @Step.letIn _ pairProbed.breaker [(.opened, .halfOpen)] 2 rfl
  have joined : Step pairProbed [.asked 1 (.ok 2) 60] pairOut := @Step.letIn _ pairOut.breaker [] 2 rfl
  have ended : Step pairOut [.ended 0 2 (.value ()) 60] pairHalf :=
    @Step.settle _ [] [⟨1, 2⟩] ⟨0, 2⟩ _ _ (.value ()) rfl rfl
  exact .next (.next (.next (.next (.next .nil forced) passed) probed) joined) ended

theorem pairAccounted : admissions pairMarks 2 < Nat.pow 2 32 ∧ pairHalf.breaker.counts.inFlight = pairHalf.outstanding 2 ∧
    pairHalf.outstanding 2 + pairHalf.breaker.counts.successes ≤ pairConfig.limit := by
  have few : admissions pairMarks 2 < Nat.pow 2 32 := by decide
  obtain ⟨-, inFlight, -, half⟩ := everyPlaceAccountedFor pairRun few
  exact ⟨few, inFlight, (half rfl).2.2.2⟩

end Gate

theorem letsIn {b : Breaker} {now : Instant} (room : (b.refresh now).1.hasRoom = true) :
    ∃ tag, (b.acquire now).2.2 = .ok tag := by
  obtain ⟨b', changes, r, asked⟩ : ∃ b' changes r, b.acquire now = (b', changes, r) := ⟨_, _, _, rfl⟩
  obtain ⟨b₁, totals, refreshed, ⟨-, rfl, -⟩ | ⟨full, -, -⟩⟩ := acquires asked
  · exact ⟨_, congrArg (·.2.2) asked⟩
  · simp [refreshed.determined, full] at room

theorem turnsAway {b : Breaker} {now : Instant} (full : (b.refresh now).1.hasRoom = false) :
    (b.acquire now).2.2 = .error (.circuitOpen b.config.name) := by
  obtain ⟨b', changes, r, asked⟩ : ∃ b' changes r, b.acquire now = (b', changes, r) := ⟨_, _, _, rfl⟩
  obtain ⟨b₁, totals, refreshed, ⟨room, -, -⟩ | ⟨-, rfl, -⟩⟩ := acquires asked
  · simp [refreshed.determined, room] at full
  · rw [← refreshed.keepsConfig]
    exact congrArg (·.2.2) asked

theorem roomClosed {b b' : Breaker} {now : Instant} {changes : List Transition} (closed : b.phase = .closed)
    (refreshed : Refreshes b now b' changes) : b'.phase = .closed ∧ b'.hasRoom = true := by
  cases refreshed with
  | early => exact ⟨closed, by simp [hasRoom, closed]⟩
  | renewed => exact ⟨closed, by simp [hasRoom, renew, closed]⟩
  | probes opened | overdue half | extended half => simp_all

theorem roomOpened {b b' : Breaker} {now : Instant} {changes : List Transition} (opened : b.phase = .opened)
    (due : b.isDue now = true) (refreshed : Refreshes b now b' changes) :
    b'.phase = .halfOpen ∧ b'.hasRoom = true := by
  cases refreshed with
  | probes => exact ⟨rfl, decide_eq_true b.config.limit_pos⟩
  | early early => simp [due] at early
  | renewed closed => simp [opened] at closed
  | overdue half | extended half => simp [opened] at half

namespace Balanced

variable {b b' : Breaker} {now later : Instant} {out lets : Nat → Nat} {changes : List Transition}

/-- A half-open breaker with nobody out has a place, for less have succeeded than it has places. -/
theorem roomHalf (balanced : Balanced b now out lets) (half : b.phase = .halfOpen) (idle : b.counts.inFlight = 0)
    (refreshed : Refreshes b later b' changes) : b'.hasRoom = true := by
  have trying := balanced.half half
  have spotless := trying.spotless
  have short := trying.short
  have free : b.counts.requests < b.config.limit := by
    simp only [Counts.inFlight] at idle
    omega
  cases refreshed with
  | early => simpa [hasRoom, half] using free
  | extended => simpa [hasRoom, half] using free
  | overdue _ _ out => exact absurd out (Nat.not_lt.mpr (Nat.le_of_eq idle))
  | renewed closed => simp [half] at closed
  | probes opened => simp [half] at opened

/-- Once a break has passed, whatever was not closed changes: what was open probes, and what has a call out reopens. -/
theorem roomAfter (balanced : Balanced b now out lets) {first second : Instant}
    (passed : now + b.config.breakFor ≤ first) (again : first + b.config.breakFor ≤ second) :
    (((b.refresh first).1).refresh second).1.hasRoom = true := by
  obtain ⟨b₁, changes, seen⟩ : ∃ b₁ changes, b.refresh first = (b₁, changes) := ⟨_, _, rfl⟩
  have refreshed := refreshes seen
  have balanced₁ := (balanced.wait (Nat.le_trans (Nat.le_add_right _ _) passed)).refreshed refreshed
  have last : Refreshes b₁ second (b₁.refresh second).1 (b₁.refresh second).2 := refreshes rfl
  rw [seen]
  cases refreshed with
  | early early =>
    by_cases closed : b.phase = .closed
    · exact (roomClosed closed last).2
    · obtain ⟨e, expiry, bound⟩ := balanced.timed closed
      simp [isDue, expiry, Nat.le_trans bound passed] at early
  | renewed closed => exact (roomClosed (b := b.renew first) closed last).2
  | probes => exact balanced₁.roomHalf rfl rfl last
  | overdue =>
    have due : (({ b with phase := .opened }).renew first).isDue second = true := decide_eq_true again
    exact (roomOpened rfl due last).2
  | extended half _ idle => exact balanced₁.roomHalf half idle last

end Balanced

end Switchyard.Breaker
