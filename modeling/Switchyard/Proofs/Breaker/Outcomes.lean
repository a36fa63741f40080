import Switchyard.Proofs.Breaker.Slots
/-!
What opens a closed breaker, and what closes a half-open one. An outcome counts in the generation in which its call was
let in and in no other: so many failures of one closed window trip the breaker, so many successes of one half-open period
close it, and it does not matter what else has happened.
-/
namespace Switchyard.Breaker

variable {b b' : Breaker} {now : Instant} {changes : List Transition} {success : Bool}

theorem Refreshes.later (refreshed : Refreshes b now b' changes) : b.generation ≤ b'.generation := by
  cases refreshed with
  | early | extended => exact Nat.le_refl _
  | renewed | probes | overdue => exact Nat.le_succ _

theorem Records.later (recorded : Records b now success b' changes) : b.generation ≤ b'.generation := by
  cases recorded with
  | ignored | succeeded | failed | advanced => exact Nat.le_refl _
  | tripped | closes | reopens => exact Nat.le_succ _

/-- The window of a breaker that is read closed is not over. -/
theorem Refreshes.ahead {e : Instant} (refreshed : Refreshes b now b' changes) (closed : b'.phase = .closed)
    (timed : b.config.sampling ≠ 0) (expiry : b'.expiry = some e) : now < e := by
  cases refreshed with
  | early early => simpa [isDue, expiry] using early
  | renewed was =>
    obtain rfl : now + b.config.sampling = e := by simpa [renew, Config.expiry, was, timed] using expiry
    exact Nat.lt_add_of_pos_right (Nat.pos_of_ne_zero timed)
  | probes | overdue => cases closed
  | extended half => simp [half] at closed

/-- Time opens no closed breaker and closes none. -/
theorem Refreshes.changed (refreshed : Refreshes b now b' changes) :
    ∀ change ∈ changes, change = (.opened, .halfOpen) ∨ change = (.halfOpen, .opened) := by
  cases refreshed with
  | early | renewed | extended => nofun
  | probes => exact List.forall_mem_singleton.mpr (.inl rfl)
  | overdue => exact List.forall_mem_singleton.mpr (.inr rfl)

theorem Refreshes.overdue_of (refreshed : Refreshes b now b' changes) (mem : (.halfOpen, .opened) ∈ changes) :
    b.phase = .halfOpen ∧ b.isDue now = true ∧ 0 < b.counts.inFlight := by
  cases refreshed with
  | early | renewed | extended => cases mem
  | probes => simp at mem
  | overdue half due out => exact ⟨half, due, out⟩

theorem Records.trips_iff (recorded : Records b now success b' changes) :
    (.closed, .opened) ∈ changes ↔ b.phase = .closed ∧ success = false ∧ b.config.trips b.counts.fail = true := by
  cases recorded with
  | ignored _ opened => simp [opened]
  | succeeded => simp
  | failed closed holds => simp [holds]
  | tripped closed trips => simp [closed, trips]
  | advanced half | closes half | reopens half => simp [half]

theorem Records.closes_iff (recorded : Records b now success b' changes) :
    (.halfOpen, .closed) ∈ changes ↔
      b.phase = .halfOpen ∧ success = true ∧ b.config.limit ≤ b.counts.succeed.consecutiveSuccesses := by
  cases recorded with
  | ignored _ opened => simp [opened]
  | succeeded closed | failed closed | tripped closed => simp [closed]
  | advanced half short => simp [Nat.not_le.mpr short]
  | closes half enough => simp [half, enough]
  | reopens => simp

theorem Records.reopens_iff (recorded : Records b now success b' changes) :
    (.halfOpen, .opened) ∈ changes ↔ b.phase = .halfOpen ∧ success = false := by
  cases recorded with
  | ignored _ opened => simp [opened]
  | succeeded closed | failed closed | tripped closed => simp [closed]
  | advanced | closes => simp
  | reopens half => simp [half]

theorem Records.reopened (recorded : Records b now false b' changes) (half : b.phase = .halfOpen) :
    b'.phase = .opened := by
  cases recorded with
  | ignored _ opened => exact opened
  | failed closed => simp [half] at closed
  | tripped | reopens => rfl

namespace Gate

variable {config : Config} {began : Instant} {ms new : List Mark} {s s' : Gate} {n tag : Nat} {o : Outcome Unit}
  {t : Instant} {success : Bool}

/-- The breaker as it would be read now. -/
def current (s : Gate) : Breaker := (s.breaker.refresh s.now).1

theorem current_of_refreshes (refreshed : Refreshes s.breaker s.now b changes) : s.current = b :=
  congrArg Prod.fst refreshed.determined

/-! ### What a step tells of an end and of a change -/

/-- The end of a call is all that happens in its step, but for the changes that come of it. -/
theorem stepEnded (step : Step s new s') (ended : .ended n tag o t ∈ new) :
    ∃ before c after changes, s.calls = before ++ c :: after ∧ c.number = n ∧ c.tag = tag ∧ t = s.now ∧
      s.breaker.settle tag (s.breaker.config.succeeds o) s.now = (s'.breaker, changes) ∧
      new = .ended n tag o s.now :: moves changes s.now ∧ s'.calls = before ++ after ∧ s'.now = s.now := by
  have unmoved {changes : List Transition} : .ended n tag o t ∉ moves changes s.now := by simp [moves]
  cases step with
  | letIn | turnAway => simp [unmoved] at ended
  | abandon | reset | forceOpen => simp [unmoved] at ended
  | look => exact absurd ended unmoved
  | pass => cases ended
  | @settle before after c breaker changes o' stands settled =>
    rcases List.mem_cons.mp ended with same | moved
    · cases same
      exact ⟨before, c, after, changes, stands, rfl, rfl, rfl, settled, rfl, rfl, rfl⟩
    · exact absurd moved unmoved

/-- The phase changes by time, by an outcome in its own generation, or by force. -/
inductive Cause (s : Gate) (new : List Mark) (s' : Gate) (change : Transition) : Prop where
  | due {changes : List Transition} (refreshed : Refreshes s.breaker s.now s.current changes) (mem : change ∈ changes)
  | outcome {n : Nat} {o : Outcome Unit} {totals : Totals} {changes : List Transition}
      (ended : .ended n s.current.generation o s.now ∈ new)
      (recorded : Records { s.current with totals } s.now (s.breaker.config.succeeds o) s'.breaker changes)
      (mem : change ∈ changes)
  | force {phase : Phase} (forced : .forced phase s.now ∈ new) (reached : change.2 = phase)

theorem stepMoved {change : Transition} (step : Step s new s') (moved : .moved change t ∈ new) :
    t = s.now ∧ Cause s new s' change := by
  have due {b : Breaker} {changes : List Transition} (refreshed : Refreshes s.breaker s.now b changes)
      (mem : change ∈ changes) : Cause s new s' change :=
    .due (current_of_refreshes refreshed ▸ refreshed) mem
  have among {changes : List Transition} : .moved change t ∈ moves changes s.now ↔ change ∈ changes ∧ t = s.now := by
    constructor
    · intro mem
      obtain ⟨x, there, same⟩ := List.mem_map.mp mem
      cases same
      exact ⟨there, rfl⟩
    · rintro ⟨mem, rfl⟩
      exact List.mem_map_of_mem mem
  cases step with
  | letIn asked | turnAway asked =>
    obtain ⟨b₁, totals, refreshed, -⟩ := acquires asked
    obtain ⟨mem, rfl⟩ : change ∈ _ ∧ t = s.now := by simpa [among] using moved
    exact ⟨rfl, due refreshed mem⟩
  | abandon stands abandoned =>
    obtain ⟨b₁, refreshed, -⟩ := abandons abandoned
    obtain ⟨mem, rfl⟩ : change ∈ _ ∧ t = s.now := by simpa [among] using moved
    exact ⟨rfl, due refreshed mem⟩
  | look refreshed =>
    obtain ⟨mem, rfl⟩ := among.mp moved
    exact ⟨rfl, due (refreshes refreshed) mem⟩
  | reset forced | forceOpen forced =>
    obtain ⟨mem, rfl⟩ : change ∈ _ ∧ t = s.now := by simpa [among] using moved
    obtain ⟨-, rfl⟩ := forces forced
    refine ⟨rfl, .force List.mem_cons_self ?_⟩
    split at mem
    · cases mem
    · rw [List.mem_singleton.mp mem]
  | pass => cases moved
  | @settle before after c breaker changes o stands settled =>
    obtain ⟨mem, rfl⟩ : change ∈ _ ∧ t = s.now := by simpa [among] using moved
    obtain ⟨b₁, first, totals, refreshed, ⟨-, -, rfl⟩ | ⟨same, more, recorded, rfl⟩⟩ := settles settled
    · exact ⟨rfl, due refreshed mem⟩
    · rcases List.mem_append.mp mem with mem | mem
      · exact ⟨rfl, due refreshed mem⟩
      · cases current_of_refreshes refreshed
        refine ⟨rfl, .outcome (n := c.number) (o := o) ?_ recorded mem⟩
        rw [same]
        exact List.mem_cons_self

/-! ### What has ended under a tag -/

def Mark.isOutcome (config : Config) (success : Bool) (tag : Nat) : Mark → Bool
  | .ended _ g o _ => g = tag && config.succeeds o == success
  | _ => false

/-- How many of the calls let in under a tag have ended well, or badly. -/
def outcomes (config : Config) (success : Bool) (ms : List Mark) (tag : Nat) : Nat :=
  ms.countP (Mark.isOutcome config success tag)

theorem outcomes_append (xs ys : List Mark) :
    outcomes config success (xs ++ ys) tag = outcomes config success xs tag + outcomes config success ys tag :=
  List.countP_append

theorem outcomes_none (none : ∀ n o t, .ended n tag o t ∈ new → config.succeeds o ≠ success) :
    outcomes config success new tag = 0 := by
  refine List.countP_eq_zero.mpr fun m mem => ?_
  cases m with
  | ended n g o t =>
    intro counts
    obtain ⟨rfl, well⟩ : g = tag ∧ config.succeeds o = success := by simpa [Mark.isOutcome] using counts
    exact none n o t mem well
  | asked | dropped | forced | moved => simp [Mark.isOutcome]

theorem outcomes_moves : outcomes config success (moves changes now) tag = 0 :=
  outcomes_none (by simp [moves])

theorem outcomes_ended : outcomes config success (ms ++ .ended n tag o now :: moves changes now) tag =
    outcomes config success ms tag + if config.succeeds o = success then 1 else 0 := by
  rw [outcomes_append, ← List.singleton_append, outcomes_append, outcomes_moves]
  simp [outcomes, Mark.isOutcome, List.countP_cons]

/-- What a breaker has counted is what has ended under its generation. In a closed window it is less than trips the
breaker, and has ended since the window began. -/
structure Counted (config : Config) (ms : List Mark) (b : Breaker) (now : Instant) : Prop where
  losses : b.counts.failures = min (outcomes config false ms b.generation) Counts.most
  wins : b.counts.successes = min (outcomes config true ms b.generation) Counts.most
  short : config.ratio = none → b.phase = .closed → b.counts.failures < max config.failureCount 1
  window : b.phase = .closed → config.sampling ≠ 0 → ∃ e, b.expiry = some e ∧ e ≤ now + config.sampling ∧
    ∀ n o t, .ended n b.generation o t ∈ ms → e ≤ t + config.sampling

namespace Counted

variable {b' : Breaker}

theorem quiet (counted : Counted config ms b now) (none : ∀ n o t, .ended n b.generation o t ∉ new) :
    Counted config (ms ++ new) b now := by
  have same (success : Bool) :
      outcomes config success (ms ++ new) b.generation = outcomes config success ms b.generation := by
    rw [outcomes_append, outcomes_none fun n o t mem => absurd mem (none n o t), Nat.add_zero]
  refine ⟨?_, ?_, counted.short, fun closed timed => ?_⟩
  · rw [same]
    exact counted.losses
  · rw [same]
    exact counted.wins
  · obtain ⟨e, expiry, within, since⟩ := counted.window closed timed
    refine ⟨e, expiry, within, fun n o t mem => ?_⟩
    exact since n o t ((List.mem_append.mp mem).resolve_right (none n o t))

theorem keep (counted : Counted config ms b now) (generation : b'.generation = b.generation)
    (failures : b'.counts.failures = b.counts.failures) (successes : b'.counts.successes = b.counts.successes)
    (same : b'.phase = .closed → b.phase = .closed ∧ b'.expiry = b.expiry) : Counted config ms b' now := by
  obtain ⟨losses, wins, short, window⟩ := counted
  refine ⟨?_, ?_, fun plain closed => ?_, fun closed timed => ?_⟩
  · rw [generation, failures]
    exact losses
  · rw [generation, successes]
    exact wins
  · rw [failures]
    exact short plain (same closed).1
  · obtain ⟨was, expiry⟩ := same closed
    rw [generation, expiry]
    exact window was timed

theorem wait {later : Instant} (counted : Counted config ms b now) (passed : now ≤ later) : Counted config ms b later := by
  refine { counted with window := fun closed timed => ?_ }
  obtain ⟨e, expiry, within, since⟩ := counted.window closed timed
  exact ⟨e, expiry, Nat.le_trans within (Nat.add_le_add_right passed _), since⟩

theorem renewed (settings : b.config = config) (fresh : ∀ n o t, .ended n (b.generation + 1) o t ∉ ms) (phase : Phase) :
    Counted config ms (({ b with phase }).renew now) now := by
  have none (success : Bool) : outcomes config success ms (b.generation + 1) = 0 :=
    outcomes_none fun n o t mem => absurd mem (fresh n o t)
  refine ⟨?_, ?_, fun _ _ => ?_, fun closed timed => ?_⟩
  · simp [renew, Counts.zero, none]
  · simp [renew, Counts.zero, none]
  · exact Nat.lt_of_lt_of_le Nat.zero_lt_one (Nat.le_max_right _ _)
  · obtain rfl : phase = .closed := closed
    subst settings
    exact ⟨now + b.config.sampling, if_neg timed, Nat.le_refl _, fun n o t mem => absurd mem (fresh n o t)⟩

theorem refreshed (counted : Counted config ms b now) (settings : b.config = config)
    (fresh : ∀ n o t, .ended n (b.generation + 1) o t ∉ ms) (refreshed : Refreshes b now b' changes) :
    Counted config ms b' now := by
  cases refreshed with
  | early => exact counted
  | extended half => exact counted.keep rfl rfl rfl (by simp [half])
  | renewed => exact renewed settings fresh b.phase
  | probes | overdue => exact renewed settings fresh _

/-- What ends now ends within the window. -/
theorem endsWithin (counted : Counted config ms b now) (closed : b.phase = .closed) (timed : config.sampling ≠ 0) :
    ∃ e, b.expiry = some e ∧ e ≤ now + config.sampling ∧
      ∀ n' o' t, .ended n' b.generation o' t ∈ ms ++ .ended n tag o now :: moves changes now → e ≤ t + config.sampling := by
  obtain ⟨e, expiry, within, since⟩ := counted.window closed timed
  refine ⟨e, expiry, within, fun n' o' t mem => ?_⟩
  rcases List.mem_append.mp mem with old | new
  · exact since n' o' t old
  · obtain ⟨-, -, -, rfl⟩ : n' = n ∧ b.generation = tag ∧ o' = o ∧ t = now := by simpa [moves] using new
    exact within

theorem recorded (counted : Counted config ms b now) (settings : b.config = config) (shut : b.phase ≠ .opened)
    (fresh : ∀ n' o' t, .ended n' (b.generation + 1) o' t ∉ ms ++ .ended n b.generation o now :: moves changes now)
    (recorded : Records b now (config.succeeds o) b' changes) :
    Counted config (ms ++ .ended n b.generation o now :: moves changes now) b' now := by
  have losses := counted.losses
  have wins := counted.wins
  generalize result : config.succeeds o = success at recorded
  cases recorded with
  | ignored _ opened => exact absurd opened shut
  | succeeded closed =>
    refine ⟨?_, ?_, counted.short, counted.endsWithin⟩
    · simpa [outcomes_ended, result, Counts.succeed] using losses
    · simp only [outcomes_ended, result, if_true, Counts.succeed, Counts.more]
      omega
  | advanced half =>
    refine ⟨?_, ?_, by simp [half], by simp [half]⟩
    · simpa [outcomes_ended, result, Counts.succeed] using losses
    · simp only [outcomes_ended, result, if_true, Counts.succeed, Counts.more]
      omega
  | failed closed holds =>
    refine ⟨?_, ?_, fun plain _ => ?_, counted.endsWithin⟩
    · simp only [outcomes_ended, result, if_true, Counts.fail, Counts.more]
      omega
    · simpa [outcomes_ended, result, Counts.fail] using wins
    · subst settings
      simp only [Config.trips, plain, decide_eq_false_iff_not, Nat.not_le] at holds
      exact holds
  | tripped | closes | reopens => exact renewed settings fresh _

end Counted

theorem stepLater (step : Step s new s') : s.breaker.generation ≤ s'.breaker.generation := by
  cases step with
  | letIn asks | turnAway asks =>
    obtain ⟨b₁, totals, refreshed, ⟨-, -, rfl⟩ | ⟨-, -, rfl⟩⟩ := acquires asks <;> exact refreshed.later
  | settle o stands settled =>
    obtain ⟨b₁, first, totals, refreshed, ⟨-, rfl, -⟩ | ⟨-, more, recorded, -⟩⟩ := settles settled
    · exact refreshed.later
    · exact Nat.le_trans refreshed.later recorded.later
  | abandon stands abandoned =>
    obtain ⟨b₁, refreshed, rfl⟩ := abandons abandoned
    split <;> exact refreshed.later
  | look refreshed => exact (refreshes refreshed).later
  | reset forced | forceOpen forced =>
    obtain ⟨rfl, -⟩ := forces forced
    exact Nat.le_succ _
  | pass => exact Nat.le_refl _

theorem settle_later (settled : s.breaker.settle tag success s.now = (b, changes)) :
    s.current.generation ≤ b.generation := by
  obtain ⟨b₁, first, totals, refreshed, outcome⟩ := settles settled
  rw [current_of_refreshes refreshed]
  obtain ⟨-, rfl, -⟩ | ⟨-, more, recorded, -⟩ := outcome
  · exact Nat.le_refl _
  · exact recorded.later

theorem known_of_ended (fair : Fair ms s) (step : Step s new s') (ended : .ended n tag o t ∈ new) :
    tag ≤ s.breaker.generation := by
  obtain ⟨before, c, after, changes, stands, -, rfl, -⟩ := stepEnded step ended
  exact fair.known (by simp [stands])

theorem runKnown (run : Run (start config began) ms s) (ended : .ended n tag o t ∈ ms) : tag ≤ s.breaker.generation := by
  induction run with
  | nil => cases ended
  | next earlier last ih =>
    refine Nat.le_trans ?_ (stepLater last)
    rcases List.mem_append.mp ended with old | here
    · exact ih old
    · exact known_of_ended (runFair earlier) last here

/-- Nothing has ended under a generation that has not begun. -/
theorem stepKnown (run : Run (start config began) ms s) (step : Step s new s') (later : s.breaker.generation < tag) :
    ∀ n o t, .ended n tag o t ∉ ms ++ new := by
  intro n o t ended
  refine Nat.not_le.mpr later ?_
  rcases List.mem_append.mp ended with old | here
  · exact runKnown run old
  · exact known_of_ended (runFair run) step here

theorem stepCounted (run : Run (start config began) ms s) (step : Step s new s')
    (counted : Counted config ms s.breaker s.now) : Counted config (ms ++ new) s'.breaker s'.now := by
  have settings := runConfig run
  have fresh := stepKnown run step (Nat.lt_succ_self _)
  have refreshed {b : Breaker} {changes : List Transition} (refreshed : Refreshes s.breaker s.now b changes) :
      Counted config ms b s.now :=
    counted.refreshed settings (fun n o t mem => fresh n o t (List.mem_append_left _ mem)) refreshed
  cases step with
  | letIn asks =>
    obtain ⟨b₁, totals, first, ⟨-, -, rfl⟩ | ⟨-, other, -⟩⟩ := acquires asks
    · exact ((refreshed first).quiet (by simp [moves])).keep rfl rfl rfl fun closed => ⟨closed, rfl⟩
    · cases other
  | turnAway asks =>
    obtain ⟨b₁, totals, first, ⟨-, other, -⟩ | ⟨-, -, rfl⟩⟩ := acquires asks
    · cases other
    · exact ((refreshed first).quiet (by simp [moves])).keep rfl rfl rfl fun closed => ⟨closed, rfl⟩
  | @settle before after c breaker changes o stands settled =>
    obtain ⟨totals, ⟨b₁, first, stale, rfl⟩ | ⟨current, shut, expiry, first, recorded⟩⟩ :=
      (runFair run).settles stands settled
    · -- the end counts under a tag that is no longer counted
      have left : Counted config (ms ++ .ended c.number c.tag o s.now :: moves changes s.now) b₁ s.now :=
        (refreshed first).quiet (by simp [moves, stale])
      exact left.keep rfl rfl rfl fun closed => ⟨closed, rfl⟩
    · subst settings
      have same : Counted s.breaker.config ms { s.breaker with expiry, totals } s.now :=
        (refreshed first).keep rfl rfl rfl fun closed => ⟨closed, rfl⟩
      rw [← current] at fresh ⊢
      exact same.recorded rfl shut fresh recorded
  | abandon stands abandoned =>
    obtain ⟨b₁, first, rfl⟩ := abandons abandoned
    refine Counted.quiet ?_ (by simp [moves])
    split
    · exact (refreshed first).keep rfl rfl rfl fun closed => ⟨closed, rfl⟩
    · exact refreshed first
  | look first => exact (refreshed (refreshes first)).quiet (by simp [moves])
  | reset forced | forceOpen forced =>
    obtain ⟨rfl, -⟩ := forces forced
    exact Counted.renewed settings fresh _
  | pass later passed =>
    rw [List.append_nil]
    exact counted.wait passed

theorem runCounted (run : Run (start config began) ms s) : Counted config ms s.breaker s.now := by
  induction run with
  | nil =>
    refine ⟨rfl, rfl, fun _ _ => Nat.lt_of_lt_of_le Nat.zero_lt_one (Nat.le_max_right _ _), fun _ timed => ?_⟩
    exact ⟨began + config.sampling, if_neg timed, Nat.le_refl _, nofun⟩
  | next earlier last ih => exact stepCounted earlier last ih

/-! ### The breaker as it is read -/

theorem run_current (run : Run (start config began) ms s) :
    Refreshes s.breaker s.now s.current (s.breaker.refresh s.now).2 ∧ s.current.config = config ∧
      Counted config ms s.current s.now := by
  have refreshed : Refreshes s.breaker s.now s.current (s.breaker.refresh s.now).2 := refreshes rfl
  have settings := runConfig run
  refine ⟨refreshed, refreshed.keepsConfig.trans settings, (runCounted run).refreshed settings ?_ refreshed⟩
  -- to do nothing is a step
  have idle : Step s [] { s with now := s.now } := .pass _ (Nat.le_refl _)
  simpa using stepKnown run idle (Nat.lt_succ_self _)

/-- What an end in its own generation does to the breaker. -/
theorem stepRecorded (step : Step s new s') (ended : .ended n s.current.generation o t ∈ new) :
    ∃ totals changes more, Records { s.current with totals } s.now (s.breaker.config.succeeds o) s'.breaker more ∧
      new = .ended n s.current.generation o s.now :: moves (changes ++ more) s.now := by
  obtain ⟨before, c, after, changes, -, -, -, -, settled, rfl, -⟩ := stepEnded step ended
  obtain ⟨b₁, first, totals, refreshed, ⟨stale, -⟩ | ⟨-, more, recorded, rfl⟩⟩ := settles settled
  · cases current_of_refreshes refreshed
    exact absurd rfl stale
  · cases current_of_refreshes refreshed
    exact ⟨totals, first, more, recorded, rfl⟩

/-- A call let in under a tag has ended while others were let in under it. -/
def EndedWithin (init : Gate) (ms : List Mark) (n tag : Nat) (o : Outcome Unit) (t : Instant) : Prop :=
  ∃ before s new s' after, ms = before ++ new ++ after ∧ Run init before s ∧ Step s new s' ∧ .ended n tag o t ∈ new ∧
    s.now = t ∧ s.current.generation = tag

/-- A change that does not come by time comes, but by force, of an outcome in its own generation. -/
theorem movedExactly {change : Transition} {decides : Bool → Prop} (step : Step s new s')
    (probes : change ≠ (.opened, .halfOpen)) (overdue : change ≠ (.halfOpen, .opened))
    (decided : ∀ {totals success b changes}, Records { s.current with totals } s.now success b changes →
      (change ∈ changes ↔ decides success)) :
    (.moved change s.now ∈ new ∧ .forced change.2 s.now ∉ new) ↔
      ∃ n o, .ended n s.current.generation o s.now ∈ new ∧ decides (s.breaker.config.succeeds o) := by
  constructor
  · rintro ⟨moved, unforced⟩
    obtain ⟨-, cause⟩ := stepMoved step moved
    cases cause with
    | due refreshed mem => exact absurd (refreshed.changed _ mem) (not_or.mpr ⟨probes, overdue⟩)
    | outcome ended recorded mem => exact ⟨_, _, ended, (decided recorded).mp mem⟩
    | force forced reached => exact absurd forced (reached ▸ unforced)
  · rintro ⟨n, o, ended, holds⟩
    obtain ⟨totals, changes, more, recorded, rfl⟩ := stepRecorded step ended
    have mem : change ∈ more := (decided recorded).mpr holds
    simp [moves, mem]

theorem endedWithin (run : Run (start config began) ms s) (present : s.breaker.generation ≤ tag)
    (ended : .ended n tag o t ∈ ms) : EndedWithin (start config began) ms n tag o t := by
  induction run with
  | nil => cases ended
  | @next ms s new s' earlier last ih =>
    have later := stepLater last
    rcases List.mem_append.mp ended with old | here
    · obtain ⟨before, s₀, new₀, s₁, after, rfl, rest⟩ := ih (Nat.le_trans later present) old
      exact ⟨before, s₀, new₀, s₁, after ++ new, by simp, rest⟩
    · obtain ⟨-, c, -, changes, -, -, -, rfl, settled, -⟩ := stepEnded last here
      refine ⟨ms, s, new, s', [], by simp, earlier, last, here, rfl, ?_⟩
      have refreshed : Refreshes s.breaker s.now s.current _ := refreshes rfl
      have known : tag ≤ s.current.generation := Nat.le_trans (known_of_ended (runFair earlier) last here) refreshed.later
      exact Nat.le_antisymm (Nat.le_trans (settle_later settled) present) known

/-! ### The two rules -/

/-- A closed breaker opens, but by force, exactly when a call of its generation fails and is the last of as many as it
takes, all of which have ended in this generation and less than a window ago. Nothing but such a failure brings it nearer
to that. -/
theorem tripsExactly (run : Run (start config began) ms s) (step : Step s new s') (plain : config.ratio = none)
    (fits : config.failureCount ≤ Counts.most) :
    ((.moved (.closed, .opened) s.now ∈ new ∧ .forced .opened s.now ∉ new) ↔
      ∃ n o, .ended n s.current.generation o s.now ∈ new ∧ config.succeeds o = false ∧ s.current.phase = .closed ∧
        outcomes config false ms s.current.generation + 1 = max config.failureCount 1) ∧
    (∀ n o t, .ended n s.current.generation o t ∈ ms →
      EndedWithin (start config began) ms n s.current.generation o t ∧
      (s.current.phase = .closed → config.sampling ≠ 0 → s.now < t + config.sampling)) ∧
    ((∀ n o, .ended n s.current.generation o s.now ∈ new → config.succeeds o = true) →
      outcomes config false (ms ++ new) s'.breaker.generation ≤ outcomes config false ms s.breaker.generation) := by
  obtain ⟨refreshed, settings, counted⟩ := run_current run
  have last (closed : s.current.phase = .closed) : s.current.config.trips s.current.counts.fail = true ↔
      outcomes config false ms s.current.generation + 1 = max config.failureCount 1 := by
    have short := counted.short plain closed
    have losses := counted.losses
    have one : 1 ≤ Counts.most := by decide
    simp only [settings, Config.trips, plain, decide_eq_true_eq, Counts.fail, Counts.more]
    omega
  refine ⟨?_, fun n o t ended => ⟨endedWithin run refreshed.later ended, fun closed timed => ?_⟩, fun well => ?_⟩
  · have decided {totals : Totals} {success : Bool} {b : Breaker} {changes : List Transition}
        (recorded : Records { s.current with totals } s.now success b changes) :
        (.closed, .opened) ∈ changes ↔ success = false ∧ s.current.phase = .closed ∧
          outcomes config false ms s.current.generation + 1 = max config.failureCount 1 := by
      rw [recorded.trips_iff, and_left_comm]
      exact and_congr_right fun _ => and_congr_right last
    have exactly := movedExactly step (by decide) (by decide) decided
    rwa [runConfig run] at exactly
  · obtain ⟨e, expiry, -, since⟩ := counted.window closed timed
    exact Nat.lt_of_lt_of_le (refreshed.ahead closed (runConfig run ▸ timed) expiry) (since n o t ended)
  · rcases Nat.eq_or_lt_of_le (stepLater step) with same | later
    · have none : outcomes config false new s.breaker.generation = 0 := outcomes_none fun n o t mem => by
        obtain ⟨before, c, after, changes, -, -, -, rfl, settled, -⟩ := stepEnded step mem
        have read : s.current.generation = s.breaker.generation :=
          Nat.le_antisymm (same ▸ settle_later settled) refreshed.later
        simp [well n o (read ▸ mem)]
      rw [← same, outcomes_append, none]
      exact Nat.le_refl _
    · have none := stepKnown run step later
      rw [outcomes_none fun n o t mem => absurd mem (none n o t)]
      exact Nat.zero_le _

/-! Two calls fail within a window. -/

def lossConfig : Config := { failureCount := 2, sampling := 100 }

def lossOut : Gate := ⟨(((make lossConfig 0).acquire 0).1.acquire 0).1, 0, [⟨0, 0⟩, ⟨1, 0⟩], 2⟩

def lossFirst : Gate := ⟨(lossOut.breaker.settle 0 false 5).1, 20, [⟨1, 0⟩], 2⟩

def lossMarks : List Mark := [.asked 0 (.ok 0) 0, .asked 1 (.ok 0) 0, .ended 0 0 (.panic "lost") 5]

theorem lossRun : Run (start lossConfig 0) lossMarks lossFirst := by
  have first : Step (start lossConfig 0) [.asked 0 (.ok 0) 0] ⟨((make lossConfig 0).acquire 0).1, 0, [⟨0, 0⟩], 1⟩ :=
    @Step.letIn _ _ [] 0 rfl
  have second : Step ⟨((make lossConfig 0).acquire 0).1, 0, [⟨0, 0⟩], 1⟩ [.asked 1 (.ok 0) 0] lossOut :=
    @Step.letIn _ _ [] 0 rfl
  have waits : Step lossOut [] { lossOut with now := 5 } := .pass 5 (by decide)
  have fails : Step { lossOut with now := 5 } [.ended 0 0 (.panic "lost") 5] { lossFirst with now := 5 } :=
    @Step.settle _ [] [⟨1, 0⟩] ⟨0, 0⟩ _ [] (.panic "lost") rfl rfl
  have later : Step { lossFirst with now := 5 } [] lossFirst := .pass 20 (by decide)
  exact ((((Runs.nil.next first).next second).next waits).next fails).next later

theorem lossTrips : ∃ s', Step lossFirst [.ended 1 0 (.panic "lost") 20, .moved (.closed, .opened) 20] s' ∧
    outcomes lossConfig false lossMarks 0 + 1 = 2 ∧ 20 < 5 + lossConfig.sampling := by
  have step : Step lossFirst [.ended 1 0 (.panic "lost") 20, .moved (.closed, .opened) 20]
      ⟨(lossFirst.breaker.settle 0 false 20).1, 20, [], 2⟩ :=
    @Step.settle _ [] [] ⟨1, 0⟩ _ [(.closed, .opened)] (.panic "lost") rfl rfl
  obtain ⟨⟨trips, -⟩, counted, -⟩ := tripsExactly lossRun step rfl (by decide)
  obtain ⟨n, o, -, -, closed, last⟩ := trips (by simp [lossFirst])
  exact ⟨_, step, last, (counted 0 (.panic "lost") 5 (by simp [lossMarks]; decide)).2 closed (by decide)⟩

/-- A half-open breaker closes, but by a reset, exactly when a call of its generation succeeds and is the last of as many
as it takes. A call of its generation that fails reopens it, and one of another generation does no more than a look. -/
theorem closesExactly (run : Run (start config began) ms s) (step : Step s new s')
    (fits : config.halfOpenMax ≤ Counts.most) :
    ((.moved (.halfOpen, .closed) s.now ∈ new ∧ .forced .closed s.now ∉ new) ↔
      ∃ n o, .ended n s.current.generation o s.now ∈ new ∧ config.succeeds o = true ∧ s.current.phase = .halfOpen ∧
        outcomes config true ms s.current.generation + 1 = config.limit) ∧
    (∀ n o t, .ended n s.current.generation o t ∈ ms →
      EndedWithin (start config began) ms n s.current.generation o t) ∧
    (∀ n o t, .ended n s.current.generation o t ∈ new → config.succeeds o = false → s.current.phase = .halfOpen →
      s'.breaker.phase = .opened ∧ .moved (.halfOpen, .opened) s.now ∈ new) ∧
    ∀ n tag o t, .ended n tag o t ∈ new → tag ≠ s.current.generation →
      ∃ changes totals, s.breaker.refresh s.now = (s.current, changes) ∧
        new = .ended n tag o s.now :: moves changes s.now ∧ s'.breaker = { s.current with totals } := by
  obtain ⟨refreshed, settings, counted⟩ := run_current run
  have last (half : s.current.phase = .halfOpen) : s.current.config.limit ≤ s.current.counts.succeed.consecutiveSuccesses ↔
      outcomes config true ms s.current.generation + 1 = config.limit := by
    have trying := ((runFair run).refreshed refreshed).half half
    have short := trying.short
    have wins := counted.wins
    have one : 1 ≤ Counts.most := by decide
    simp only [settings, Config.limit, Counts.succeed, Counts.more, trying.streak] at short ⊢
    omega
  refine ⟨?_, fun n o t ended => endedWithin run refreshed.later ended, ?_, ?_⟩
  · have decided {totals : Totals} {success : Bool} {b : Breaker} {changes : List Transition}
        (recorded : Records { s.current with totals } s.now success b changes) :
        (.halfOpen, .closed) ∈ changes ↔ success = true ∧ s.current.phase = .halfOpen ∧
          outcomes config true ms s.current.generation + 1 = config.limit := by
      rw [recorded.closes_iff, and_left_comm]
      exact and_congr_right fun _ => and_congr_right last
    have exactly := movedExactly step (by decide) (by decide) decided
    rwa [runConfig run] at exactly
  · intro n o t ended failed half
    obtain ⟨totals, changes, more, recorded, rfl⟩ := stepRecorded step ended
    rw [runConfig run, failed] at recorded
    have reopens := recorded.reopens_iff.mpr ⟨half, rfl⟩
    exact ⟨recorded.reopened half, by simp [moves, reopens]⟩
  · intro n tag o t ended other
    obtain ⟨before, c, after, changes, -, -, -, -, settled, rfl, -⟩ := stepEnded step ended
    obtain ⟨b₁, first, totals, refreshed, ⟨-, left, rfl⟩ | ⟨same, -⟩⟩ := settles settled
    · cases current_of_refreshes refreshed
      exact ⟨changes, totals, refreshed.determined, rfl, left⟩
    · rw [current_of_refreshes refreshed] at other
      exact absurd same.symm other

theorem pairCloses : ∃ s', Step pairHalf [.ended 1 2 (.value ()) 60, .moved (.halfOpen, .closed) 60] s' ∧
    outcomes pairConfig true pairMarks 2 + 1 = 2 := by
  have step : Step pairHalf [.ended 1 2 (.value ()) 60, .moved (.halfOpen, .closed) 60]
      ⟨(pairHalf.breaker.settle 2 true 60).1, 60, [], 2⟩ :=
    @Step.settle _ [] [] ⟨1, 2⟩ _ [(.halfOpen, .closed)] (.value ()) rfl rfl
  obtain ⟨⟨closes, -⟩, -⟩ := closesExactly pairRun step (by decide)
  obtain ⟨n, o, -, -, -, last⟩ := closes (by simp [pairHalf])
  exact ⟨_, step, last⟩

end Gate
end Switchyard.Breaker
