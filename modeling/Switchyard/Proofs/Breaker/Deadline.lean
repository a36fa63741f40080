import Switchyard.Proofs.Breaker.Isolation
import Switchyard.Proofs.Breaker.Outcomes
import Switchyard.Proofs.Breaker.Trials
/-!
The time a trial call has to answer. A half-open breaker has one deadline for all its trial calls, a break after it began
to probe or was last found idle. A call that is let in at such a moment has a full break; one let in later has not.
-/
namespace Switchyard.Breaker

variable {b b' : Breaker} {now : Instant} {out lets : Nat → Nat} {changes : List Transition} {tag : Nat} {success : Bool}

/-! ### A trial call keeps its place -/

/-- A half-open breaker has counted every trial call that has succeeded or is out. -/
def Placed (b : Breaker) (out : Nat → Nat) : Prop :=
  b.phase = .halfOpen → b.counts.successes + out b.generation ≤ b.counts.requests

namespace Placed

theorem away (other : b.phase ≠ .halfOpen) : Placed b out := fun half => absurd half other

theorem renewed (later : ∀ g, b.generation < g → out g = 0 ∧ lets g = 0) (phase : Phase) :
    Placed (({ b with phase }).renew now) out := by
  intro _
  have none := (later _ (Nat.lt_succ_self b.generation)).1
  simp [renew, Counts.zero, none]

theorem refreshed (placed : Placed b out) (balanced : Balanced b now out lets) (refreshed : Refreshes b now b' changes) :
    Placed b' out := by
  cases refreshed with
  | early | extended => exact placed
  | renewed => exact renewed balanced.later b.phase
  | probes | overdue => exact renewed balanced.later _

theorem letIn (placed : Placed b out) (fits : b.config.limit ≤ Counts.most) (room : b.hasRoom = true) :
    Placed { b with counts := b.counts.acquire } (bump out b.generation) := by
  intro half
  have isHalf : b.phase = .halfOpen := half
  have held := placed isHalf
  have free : b.counts.requests < b.config.limit := by simpa [hasRoom, isHalf] using room
  simp only [bump_same, Counts.acquire, Counts.more]
  omega

theorem leave (placed : Placed b (bump out tag)) : Placed b out := by
  intro half
  have held := placed half
  simp only [bump] at held
  omega

theorem recorded (placed : Placed b (bump out b.generation)) (balanced : Balanced b now (bump out b.generation) lets)
    (recorded : Records b now success b' changes) : Placed b' out := by
  have later := Balanced.fallsBack balanced.later
  cases recorded with
  | ignored _ opened => exact away (by simp [opened])
  | succeeded closed | failed closed => exact away (by simp [closed])
  | tripped | closes | reopens => exact renewed later _
  | advanced half =>
    intro _
    have held := placed half
    simp only [bump_same] at held
    simp only [Counts.succeed, Counts.more]
    omega

theorem released (placed : Placed b (bump out b.generation)) : Placed { b with counts := b.counts.release } out := by
  intro half
  have held := placed half
  simp only [bump_same] at held
  simp only [Counts.release]
  omega

end Placed

namespace Gate

variable {config : Config} {began : Instant} {ms new : List Mark} {s s' : Gate} {n g : Nat} {o : Outcome Unit} {a : Instant}

theorem stepPlaced (step : Step s new s') (fair : Fair ms s) (fits : s.breaker.config.limit ≤ Counts.most)
    (placed : Placed s.breaker s.outstanding) : Placed s'.breaker s'.outstanding := by
  cases step with
  | letIn asked =>
    obtain ⟨b₁, totals, refreshed, ⟨room, tagged, rfl⟩ | ⟨-, other, -⟩⟩ := acquires asked
    · cases tagged
      rw [outstanding_letIn]
      exact (placed.refreshed fair refreshed).letIn (refreshed.keepsConfig ▸ fits) room
    · cases other
  | turnAway asked =>
    obtain ⟨b₁, totals, refreshed, ⟨-, other, -⟩ | ⟨-, -, rfl⟩⟩ := acquires asked
    · cases other
    · have held : Placed b₁ s.outstanding := placed.refreshed fair refreshed
      exact held
  | @settle before after c breaker changes o stands settled =>
    obtain ⟨b₁, earlier, totals, refreshed, outcome⟩ := settles settled
    have first : Placed b₁ s.outstanding := placed.refreshed fair refreshed
    have held : Placed { b₁ with totals } s.outstanding := first
    have balanced : Balanced { b₁ with totals } s.now s.outstanding (admissions ms) :=
      (fair.refreshed refreshed).totals totals
    rw [outstanding_leave stands breaker] at held balanced
    obtain ⟨-, rfl, -⟩ | ⟨same, more, recorded, -⟩ := outcome
    · exact held.leave
    · rw [← same] at held balanced
      exact held.recorded balanced recorded
  | @abandon before after c breaker changes stands abandoned =>
    obtain ⟨b₁, refreshed, left⟩ := abandons abandoned
    have held : Placed b₁ s.outstanding := placed.refreshed fair refreshed
    rw [outstanding_leave stands breaker] at held
    subst left
    split
    · rename_i same
      rw [← same] at held
      exact held.released
    · exact held.leave
  | look refreshed => exact placed.refreshed fair (refreshes refreshed)
  | reset forced | forceOpen forced =>
    obtain ⟨rfl, -⟩ := forces forced
    exact Placed.renewed fair.later _
  | pass => exact placed

theorem runPlaced (run : Run (start config began) ms s) (fits : config.limit ≤ Counts.most) :
    Placed s.breaker s.outstanding := by
  induction run with
  | nil => exact Placed.away nofun
  | next earlier last ih => exact stepPlaced last (runFair earlier) ((runConfig earlier).symm ▸ fits) ih

/-! ### Who has left -/

def Mark.leaves (n : Nat) : Mark → Prop
  | .ended m _ _ _ | .dropped m _ _ => m = n
  | _ => False

/-- Whoever has left was here before, and is not out. -/
def Gone (ms : List Mark) (calls : List Call) (total : Nat) : Prop :=
  ∀ m ∈ ms, ∀ n, m.leaves n → n < total ∧ ∀ c ∈ calls, c.number ≠ n

namespace Gone

variable {calls before after : List Call} {total : Nat} {c : Call}

theorem quiet (gone : Gone ms calls total) (none : ∀ m ∈ new, ∀ n, ¬ m.leaves n) : Gone (ms ++ new) calls total :=
  List.forall_mem_append.mpr ⟨gone, fun m mem n leaves => absurd leaves (none m mem n)⟩

theorem leave (gone : Gone ms (before ++ c :: after) total) (tally : Tally config ms b (before ++ c :: after) total)
    {m : Mark} (only : ∀ n, m.leaves n → n = c.number) : Gone (ms ++ [m]) (before ++ after) total := by
  refine List.forall_mem_append.mpr ⟨fun x mem n leaves => ?_, List.forall_mem_singleton.mpr fun n leaves => ?_⟩
  · obtain ⟨known, left⟩ := gone x mem n leaves
    exact ⟨known, fun d out => left d ((sublist_without before after c).subset out)⟩
  · obtain rfl := only n leaves
    have once : (c.number :: (before ++ after).map (·.number)).Nodup :=
      ((List.perm_middle.map _).nodup_iff).mp tally.distinct
    refine ⟨tally.known c (by simp), fun d out same => ?_⟩
    exact (List.nodup_cons.mp once).1 (List.mem_map.mpr ⟨d, out, same⟩)

end Gone

theorem stepGone (step : Step s new s') (tally : Tally config ms s.breaker s.calls s.total)
    (gone : Gone ms s.calls s.total) : Gone (ms ++ new) s'.calls s'.total := by
  have still {changes : List Transition} : ∀ m ∈ moves changes s.now, ∀ n, ¬ m.leaves n := forall_moves fun _ _ => id
  cases step with
  | letIn =>
    refine Gone.quiet (fun m mem n leaves => ?_) (List.forall_mem_append.mpr ⟨still, by simp [Mark.leaves]⟩)
    obtain ⟨known, left⟩ := gone m mem n leaves
    refine ⟨Nat.lt_succ_of_lt known, List.forall_mem_append.mpr ⟨left, ?_⟩⟩
    exact List.forall_mem_singleton.mpr (Nat.ne_of_gt known)
  | turnAway =>
    refine Gone.quiet (fun m mem n leaves => ?_) (List.forall_mem_append.mpr ⟨still, by simp [Mark.leaves]⟩)
    obtain ⟨known, left⟩ := gone m mem n leaves
    exact ⟨Nat.lt_succ_of_lt known, left⟩
  | settle o stands | abandon stands =>
    rw [stands] at gone tally
    rw [List.append_cons]
    refine Gone.quiet (gone.leave tally ?_) still
    intro n leaves
    exact Eq.symm leaves
  | look => exact gone.quiet still
  | reset | forceOpen => exact gone.quiet (List.forall_mem_cons.mpr ⟨fun _ => id, still⟩)
  | pass => exact gone.quiet nofun

theorem runGone (run : Run (start config began) ms s) : Gone ms s.calls s.total := by
  induction run with
  | nil => nofun
  | next earlier last ih => exact stepGone last (runTally earlier).2 ih

/-! ### The deadline of the trial calls -/

/-- Whoever is let in under the tag has a full break ahead. -/
def Timely (g : Nat) (s : Gate) (ms : List Mark) (s' : Gate) : Prop :=
  Step s ms s' ∧ ∀ n a, .asked n (.ok g) a ∈ ms → s'.breaker.expiry = some (a + s'.breaker.config.breakFor)

theorem Timely.run {init : Gate} (run : Runs (Timely g) init ms s) : Run init ms s := run.mono fun _ _ _ timely => timely.1

/-- Whoever was let in under the tag was let in a full break before the deadline. -/
def Awaited (config : Config) (g : Nat) (ms : List Mark) (b : Breaker) : Prop :=
  b.generation = g → b.phase = .halfOpen →
    ∃ e, b.expiry = some e ∧ ∀ n a, .asked n (.ok g) a ∈ ms → a + config.breakFor ≤ e

namespace Awaited

theorem away (other : b.phase ≠ .halfOpen) : Awaited config g ms b := fun _ half => absurd half other

theorem quiet (awaited : Awaited config g ms b) (none : ∀ n a, .asked n (.ok g) a ∉ new) :
    Awaited config g (ms ++ new) b := by
  intro current half
  obtain ⟨e, expiry, before⟩ := awaited current half
  exact ⟨e, expiry, fun n a mem => before n a ((List.mem_append.mp mem).resolve_right (none n a))⟩

theorem renewed (fresh : ∀ n a, .asked n (.ok (b.generation + 1)) a ∉ ms) (phase : Phase) :
    Awaited config g ms (({ b with phase }).renew now) := by
  intro current half
  obtain rfl : phase = .halfOpen := half
  obtain rfl : b.generation + 1 = g := current
  exact ⟨_, rfl, fun n a mem => absurd mem (fresh n a)⟩

theorem refreshed (awaited : Awaited config g ms b) (fresh : ∀ n a, .asked n (.ok (b.generation + 1)) a ∉ ms)
    (refreshed : Refreshes b now b' changes) : Awaited config g ms b' := by
  cases refreshed with
  | early => exact awaited
  | renewed => exact renewed fresh b.phase
  | probes | overdue => exact renewed fresh _
  | extended _ due =>
    -- the deadline that has come is put off
    intro current half
    obtain ⟨e, expiry, before⟩ := awaited current half
    have past : e ≤ now := by simpa [isDue, expiry] using due
    exact ⟨_, rfl, fun n a mem => Nat.le_trans (before n a mem) (Nat.le_trans past (Nat.le_add_right _ _))⟩

theorem recorded (awaited : Awaited config g ms b) (fresh : ∀ n a, .asked n (.ok (b.generation + 1)) a ∉ ms)
    (recorded : Records b now success b' changes) : Awaited config g ms b' := by
  cases recorded with
  | ignored | succeeded | failed | advanced => exact awaited
  | tripped | closes | reopens => exact renewed fresh _

end Awaited

theorem unasked (fair : Fair ms s) (later : s.breaker.generation < g) : ∀ n a, .asked n (.ok g) a ∉ ms := by
  intro n a mem
  have none := List.countP_eq_zero.mp (fair.later g later).2 _ mem
  simp [Mark.isLetIn] at none

theorem stepAwaited (run : Run (start config began) ms s) (step : Timely g s new s')
    (awaited : Awaited config g ms s.breaker) : Awaited config g (ms ++ new) s'.breaker := by
  obtain ⟨step, timely⟩ := step
  have times : ∀ m ∈ ms ++ new, m.time ≤ s.now :=
    List.forall_mem_append.mpr ⟨runTimes run, fun m mem => Nat.le_of_eq ((stepTimes step).2 m mem)⟩
  have settings : s'.breaker.config = config := runConfig (run.next step)
  have fresh := unasked (runFair run) (Nat.lt_succ_self _)
  have refreshed {b : Breaker} {changes : List Transition} (first : Refreshes s.breaker s.now b changes) :
      Awaited config g ms b := awaited.refreshed fresh first
  cases step with
  | letIn asked =>
    obtain ⟨b₁, totals, -, ⟨-, tagged, rfl⟩ | ⟨-, other, -⟩⟩ := acquires asked
    · cases tagged
      intro current half
      obtain rfl : b₁.generation = g := current
      have deadline := timely s.total s.now (by simp)
      rw [settings] at deadline
      exact ⟨_, deadline, fun n a mem => Nat.add_le_add_right (times _ mem) _⟩
    · cases other
  | turnAway asked =>
    obtain ⟨b₁, totals, first, ⟨-, other, -⟩ | ⟨-, -, rfl⟩⟩ := acquires asked
    · cases other
    · have left := refreshed first
      exact Awaited.quiet left (by simp [moves])
  | settle o stands settled =>
    obtain ⟨totals, ⟨b₁, first, -, rfl⟩ | ⟨-, -, expiry, first, recorded⟩⟩ := (runFair run).settles stands settled
    · have left := refreshed first
      exact Awaited.quiet left (by simp [moves])
    · have waited : Awaited config g ms { s.breaker with expiry } := refreshed first
      have left : Awaited config g ms { s.breaker with expiry, totals } := waited
      exact (left.recorded fresh recorded).quiet (by simp [moves])
  | abandon stands abandoned =>
    obtain ⟨b₁, first, rfl⟩ := abandons abandoned
    have left := refreshed first
    refine Awaited.quiet ?_ (by simp [moves])
    split <;> exact left
  | look first => exact (refreshed (refreshes first)).quiet (by simp [moves])
  | reset forced | forceOpen forced =>
    obtain ⟨rfl, -⟩ := forces forced
    exact Awaited.quiet (Awaited.renewed fresh _) (by simp [moves])
  | pass => exact awaited.quiet (by simp)

theorem runAwaited (run : Runs (Timely g) (start config began) ms s) : Awaited config g ms s.breaker := by
  induction run with
  | nil => exact Awaited.away nofun
  | next earlier last ih => exact stepAwaited (Timely.run earlier) last ih

/-! ### A full break to answer -/

/-- A deadline that has come finds somebody out who was let in a full break before. -/
theorem overdue (run : Runs (Timely g) (start config began) ms s) (current : s.breaker.generation = g)
    (half : s.breaker.phase = .halfOpen) (due : s.breaker.isDue s.now = true) (out : 0 < s.breaker.counts.inFlight) :
    ∃ c ∈ s.calls, c.tag = g ∧ ∃ a, .asked c.number (.ok g) a ∈ ms ∧ a + config.breakFor ≤ s.now := by
  have fair := runFair (Timely.run run)
  have present : 0 < s.outstanding s.breaker.generation := by
    have held := (fair.half half).held
    have bounded := fair.bounded
    simp only [Counts.inFlight] at out
    omega
  obtain ⟨c, mem, tagged⟩ := List.countP_pos_iff.mp present
  have same : c.tag = s.breaker.generation := of_decide_eq_true tagged
  obtain ⟨period, passed, trials⟩ := (runTally (Timely.run run)).2.trials half
  obtain ⟨earlier, time, since⟩ := trials.since
  obtain ⟨a, inside⟩ := trials.inside c mem same
  obtain ⟨e, expiry, before⟩ := runAwaited run current half
  have asked : .asked c.number (.ok g) a ∈ ms := by
    rw [← current, ← same, since]
    exact List.mem_append_right _ (List.mem_cons_of_mem _ inside)
  have past : e ≤ s.now := by simpa [isDue, expiry] using due
  exact ⟨c, mem, same.trans current, a, asked, Nat.le_trans (before _ a asked) past⟩

/-- No call let in under the tag has failed, and none was out for a full break. -/
structure Unspoiled (config : Config) (g : Nat) (ms : List Mark) (now : Instant) : Prop where
  well : ∀ n o t, .ended n g o t ∈ ms → config.succeeds o = true
  brief : ∀ n a, .asked n (.ok g) a ∈ ms → a + config.breakFor ≤ now →
    ∃ m ∈ ms, m.leaves n ∧ m.time < a + config.breakFor

theorem Unspoiled.before (step : Step s new s') (unspoiled : Unspoiled config g (ms ++ new) s'.now) :
    Unspoiled config g ms s.now := by
  obtain ⟨later, times⟩ := stepTimes step
  refine ⟨fun n o t mem => unspoiled.well n o t (List.mem_append_left _ mem), fun n a asked past => ?_⟩
  obtain ⟨m, mem, leaves, early⟩ := unspoiled.brief n a (List.mem_append_left _ asked) (Nat.le_trans past later)
  rcases List.mem_append.mp mem with old | here
  · exact ⟨m, old, leaves, early⟩
  · rw [times m here] at early
    exact absurd early (Nat.not_lt.mpr past)

theorem unspoiled_refresh (run : Runs (Timely g) (start config began) ms s) (current : s.breaker.generation = g)
    (half : s.breaker.phase = .halfOpen) (unspoiled : Unspoiled config g ms s.now)
    (refreshed : Refreshes s.breaker s.now b changes) : ∃ expiry, b = { s.breaker with expiry } := by
  cases refreshed with
  | early | extended => exact ⟨_, rfl⟩
  | renewed closed => simp [half] at closed
  | probes opened => simp [half] at opened
  | overdue _ due out =>
    obtain ⟨c, mem, -, a, asked, past⟩ := overdue run current half due out
    obtain ⟨m, left, leaves, -⟩ := unspoiled.brief c.number a asked past
    exact absurd rfl ((runGone (Timely.run run) m left c.number leaves).2 c mem)

/-- While a trial call is out, its period does not end but by a failure, by a call that is overdue, or by force. -/
theorem stepStays {c : Call} (run : Runs (Timely g) (start config began) ms s) (step : Step s new s')
    (fits : config.limit ≤ Counts.most) (current : s.breaker.generation = g) (half : s.breaker.phase = .halfOpen)
    (unspoiled : Unspoiled config g ms s.now) (well : ∀ n o t, .ended n g o t ∈ new → config.succeeds o = true)
    (free : ∀ m ∈ new, m.isForced = false) (out : c ∈ s'.calls) (tagged : c.tag = g) :
    s'.breaker.generation = g ∧ s'.breaker.phase = .halfOpen := by
  have still {b : Breaker} {changes : List Transition} (refreshed : Refreshes s.breaker s.now b changes) :
      b.generation = g ∧ b.phase = .halfOpen := by
    obtain ⟨expiry, rfl⟩ := unspoiled_refresh run current half unspoiled refreshed
    exact ⟨current, half⟩
  have plain := Timely.run run
  cases step with
  | letIn asked | turnAway asked =>
    obtain ⟨b₁, totals, refreshed, outcome⟩ := acquires asked
    have kept := still refreshed
    obtain ⟨-, -, rfl⟩ | ⟨-, -, rfl⟩ := outcome <;> exact kept
  | @settle before after c' breaker changes o stands settled =>
    obtain ⟨totals, ⟨b₁, refreshed, -, rfl⟩ | ⟨same, -, expiry, -, recorded⟩⟩ := (runFair plain).settles stands settled
    · have kept := still refreshed
      exact kept
    · have success : config.succeeds o = true := well c'.number o s.now (by simp [← same, current])
      rw [runConfig plain, success] at recorded
      cases recorded with
      | ignored _ opened => simp [half] at opened
      | succeeded closed => simp [half] at closed
      | advanced => exact ⟨current, half⟩
      | closes _ enough =>
        -- those that have succeeded and the two that are out have more places than there are
        exfalso
        have trying := (runFair plain).half half
        have room := trying.room
        have held := runPlaced plain fits half
        rw [outstanding_leave stands s.breaker, ← same, bump_same] at held
        have other : 0 < Gate.outstanding { s with calls := before ++ after } s.breaker.generation :=
          List.countP_pos_iff.mpr ⟨c, out, by simp [tagged, current]⟩
        have needed : s.breaker.config.limit ≤ s.breaker.counts.successes + 1 :=
          trying.streak ▸ Nat.le_trans enough (Nat.min_le_left _ _)
        omega
  | abandon stands abandoned =>
    obtain ⟨b₁, refreshed, rfl⟩ := abandons abandoned
    have kept := still refreshed
    split <;> exact kept
  | look refreshed => exact still (refreshes refreshed)
  | reset | forceOpen => simp [Mark.isForced] at free
  | pass => exact ⟨current, half⟩

theorem stepOut {c : Call} (step : Step s new s') (old : c.number < s.total) :
    c.number < s'.total ∧ (c ∈ s'.calls → c ∈ s.calls) := by
  cases step with
  | letIn =>
    refine ⟨Nat.lt_succ_of_lt old, fun out => (List.mem_append.mp out).resolve_right fun last => ?_⟩
    rw [List.mem_singleton.mp last] at old
    exact Nat.lt_irrefl _ old
  | turnAway => exact ⟨Nat.lt_succ_of_lt old, id⟩
  | settle o stands | abandon stands => exact ⟨old, fun out => stands ▸ (sublist_without _ _ _).subset out⟩
  | look | reset | forceOpen | pass => exact ⟨old, id⟩

theorem runOut {c : Call} {s₁ : Gate} (run : Runs (Timely g) s₁ ms s) (old : c.number < s₁.total) : c.number < s.total := by
  induction run with
  | nil => exact old
  | next earlier last ih => exact (stepOut last.1 ih).1

theorem runStays {c : Call} {before after : List Mark} {s₁ : Gate} (first : Runs (Timely g) (start config began) before s₁)
    (rest : Runs (Timely g) s₁ after s) (fits : config.limit ≤ Counts.most) (current : s₁.breaker.generation = g)
    (half : s₁.breaker.phase = .halfOpen) (free : ∀ m ∈ after, m.isForced = false)
    (unspoiled : Unspoiled config g (before ++ after) s.now) (old : c.number < s₁.total) (out : c ∈ s.calls)
    (tagged : c.tag = g) : s.breaker.generation = g ∧ s.breaker.phase = .halfOpen := by
  induction rest with
  | nil => exact ⟨current, half⟩
  | @next after s new s' earlier last ih =>
    rw [← List.append_assoc] at unspoiled
    have sooner := Unspoiled.before last.1 unspoiled
    obtain ⟨-, stays⟩ := stepOut last.1 (runOut earlier old)
    obtain ⟨present, stillHalf⟩ := ih (fun m mem => free m (List.mem_append_left _ mem)) sooner (stays out)
    refine stepStays (first.trans earlier) last.1 fits present stillHalf sooner (fun n o t mem => ?_) (fun m mem => ?_) out
      tagged
    · exact unspoiled.well n o t (List.mem_append_right _ mem)
    · exact free m (List.mem_append_right _ mem)

theorem stepLetIn (step : Step s new s') (asked : .asked n (.ok g) a ∈ new) : s'.breaker.generation = g ∧ n < s'.total := by
  cases step with
  | letIn asks =>
    obtain ⟨b₁, totals, -, ⟨-, tagged, rfl⟩ | ⟨-, other, -⟩⟩ := acquires asks
    · obtain ⟨rfl, rfl, -⟩ : n = s.total ∧ g = _ ∧ a = s.now := by simpa [moves] using asked
      cases tagged
      exact ⟨rfl, Nat.lt_succ_self _⟩
    · cases other
  | turnAway | settle | abandon | look | reset | forceOpen | pass => simp [moves] at asked

/-- A call was let in under the tag, to a half-open breaker, and nothing has been forced since. -/
def Tried (config : Config) (began : Instant) (n g : Nat) (ms : List Mark) (s : Gate) : Prop :=
  ∃ before s₀ asked s₁ after a, ms = before ++ asked ++ after ∧ Runs (Timely g) (start config began) before s₀ ∧
    Timely g s₀ asked s₁ ∧ Runs (Timely g) s₁ after s ∧ .asked n (.ok g) a ∈ asked ∧ s₁.breaker.phase = .halfOpen ∧
    ∀ m ∈ after, m.isForced = false

/-- Where every trial call of a period is let in with a full break ahead: the period ends for an overdue call only if one
is out that was let in a full break ago; and where none was, and none has failed, a call that succeeds is counted. -/
theorem trialsHaveABreak (run : Runs (Timely g) (start config began) ms s) (step : Step s new s')
    (fits : config.halfOpenMax ≤ Counts.most) :
    (s.breaker.generation = g → .moved (.halfOpen, .opened) s.now ∈ new → .forced .opened s.now ∉ new →
      (∀ n o, .ended n s.current.generation o s.now ∈ new → config.succeeds o = true) →
      ∃ c ∈ s.calls, c.tag = g ∧ ∃ a, .asked c.number (.ok g) a ∈ ms ∧ a + config.breakFor ≤ s.now) ∧
    ∀ n o, Tried config began n g ms s → Unspoiled config g ms s.now →
      .ended n g o s.now ∈ new → config.succeeds o = true →
      s.current.generation = g ∧ s.current.phase = .halfOpen ∧
      (.moved (.halfOpen, .closed) s.now ∈ new ∨ s'.breaker.generation = g ∧ s'.breaker.phase = .halfOpen ∧
        s'.breaker.counts.successes = s.breaker.counts.successes + 1) := by
  have plain := Timely.run run
  refine ⟨fun current moved unforced well => ?_, ?_⟩
  · obtain ⟨-, cause⟩ := stepMoved step moved
    cases cause with
    | due refreshed mem =>
      obtain ⟨half, due, out⟩ := refreshed.overdue_of mem
      exact overdue run current half due out
    | force forced reached =>
      cases reached
      exact absurd forced unforced
    | outcome ended recorded mem =>
      have failed := (recorded.reopens_iff.mp mem).2
      rw [runConfig plain, well _ _ ended] at failed
      cases failed
  · rintro n o ⟨before, s₀, asked, s₁, after, a, rfl, first, lets, rest, mark, half, free⟩ unspoiled ended well
    have limited : config.limit ≤ Counts.most := Nat.max_le.mpr ⟨fits, by decide⟩
    obtain ⟨left, c, right, changes, stands, rfl, tagged, -, -, -⟩ := stepEnded step ended
    obtain ⟨begun, old⟩ := stepLetIn lets.1 mark
    obtain ⟨current, stillHalf⟩ :=
      runStays (first.next lets) rest limited begun half free unspoiled old (by simp [stands]) tagged
    obtain ⟨expiry, read⟩ := unspoiled_refresh run current stillHalf unspoiled (refreshes rfl)
    have same : s.current = { s.breaker with expiry } := read
    have present : s.current.generation = g := same ▸ current
    refine ⟨present, same ▸ stillHalf, ?_⟩
    obtain ⟨totals, earlier, more, recorded, rfl⟩ := stepRecorded step (present.symm ▸ ended)
    rw [runConfig plain, well, same] at recorded
    generalize s'.breaker = b' at recorded ⊢
    cases recorded with
    | ignored _ opened => simp [stillHalf] at opened
    | succeeded closed => simp [stillHalf] at closed
    | closes => exact .inl (by simp [moves])
    | advanced =>
      have short := runConfig plain ▸ ((runFair plain).half stillHalf).short
      exact .inr ⟨current, stillHalf, Nat.min_eq_left (Nat.le_trans short limited)⟩

/-! A trial call that is let in as the period begins, and one that is let in near its end. -/

def probeShut : Gate := ⟨((make tripConfig 0).forceOpen 0).1, 60, [], 0⟩

def probeOut : Gate := ⟨(probeShut.breaker.acquire 60).1, 60, [⟨0, 2⟩], 1⟩

def probeForced : List Mark := [.forced .opened 0, .moved (.closed, .opened) 0]

def probeAsked : List Mark := [.moved (.opened, .halfOpen) 60, .asked 0 (.ok 2) 60]

theorem probeRun : Runs (Timely 2) (start tripConfig 0) probeForced probeShut := by
  have forced : Timely 2 (start tripConfig 0) probeForced { probeShut with now := 0 } :=
    ⟨.forceOpen rfl, by simp [probeForced]⟩
  have waits : Timely 2 { probeShut with now := 0 } [] probeShut := ⟨.pass 60 (by decide), nofun⟩
  exact (Runs.nil.next forced).next waits

theorem probeLetIn : Timely 2 probeShut probeAsked probeOut := by
  have asked : Step probeShut probeAsked probeOut := @Step.letIn _ _ [(.opened, .halfOpen)] 2 rfl
  refine ⟨asked, fun n a mem => ?_⟩
  obtain ⟨-, rfl⟩ : n = 0 ∧ a = 60 := by simpa [probeAsked] using mem
  rfl

theorem probeWaits (now : Instant) (later : 60 ≤ now) : Runs (Timely 2) probeOut [] { probeOut with now } :=
  .next .nil ⟨.pass now later, nofun⟩

theorem probeCounted :
    (∃ s', Step { probeOut with now := 100 } [.ended 0 2 (.value ()) 100, .moved (.halfOpen, .closed) 100] s' ∧
      (Gate.current { probeOut with now := 100 }).phase = .halfOpen) ∧
    ∃ c ∈ probeOut.calls, ∃ a, .asked c.number (.ok 2) a ∈ probeForced ++ probeAsked ∧ a + tripConfig.breakFor ≤ 120 := by
  have run (now : Instant) (later : 60 ≤ now) :
      Runs (Timely 2) (start tripConfig 0) (probeForced ++ probeAsked ++ []) { probeOut with now } :=
    (probeRun.next probeLetIn).trans (probeWaits now later)
  have answers : Step { probeOut with now := 100 } [.ended 0 2 (.value ()) 100, .moved (.halfOpen, .closed) 100]
      ⟨(probeOut.breaker.settle 2 true 100).1, 100, [], 1⟩ :=
    @Step.settle _ [] [] ⟨0, 2⟩ _ [(.halfOpen, .closed)] (.value ()) rfl rfl
  have hangs : Step { probeOut with now := 120 } [.moved (.halfOpen, .opened) 120]
      { probeOut with now := 120, breaker := (probeOut.breaker.refresh 120).1 } :=
    @Step.look _ _ [(.halfOpen, .opened)] rfl
  have unspoiled : Unspoiled tripConfig 2 (probeForced ++ probeAsked ++ []) 100 := by
    refine ⟨by simp [probeForced, probeAsked], fun n a mem past => ?_⟩
    obtain ⟨-, rfl⟩ : n = 0 ∧ a = 60 := by simpa [probeForced, probeAsked] using mem
    exact absurd past (by decide)
  have tried : Tried tripConfig 0 0 2 (probeForced ++ probeAsked ++ []) { probeOut with now := 100 } :=
    ⟨_, _, _, _, _, 60, rfl, probeRun, probeLetIn, probeWaits 100 (by decide), by simp [probeAsked], rfl, nofun⟩
  obtain ⟨-, counted⟩ := trialsHaveABreak (run 100 (by decide)) answers (by decide)
  obtain ⟨reopens, -⟩ := trialsHaveABreak (run 120 (by decide)) hangs (by decide)
  refine ⟨⟨_, answers, ?_⟩, ?_⟩
  · exact (counted 0 (.value ()) tried unspoiled (by simp) rfl).2.1
  · obtain ⟨c, out, -, a, asked, past⟩ := reopens rfl (by simp) (by simp) (by simp)
    exact ⟨c, out, a, by simpa using asked, past⟩

def lateHalf : Gate := { probeShut with breaker := (probeShut.breaker.refresh 60).1 }

def lateOut : Gate := ⟨(lateHalf.breaker.acquire 110).1, 110, [⟨0, 2⟩], 1⟩

/-- A trial call that is let in when its period is nearly over is overdue before it has had a full break, and the success
that comes after is lost. -/
theorem lateTrialLost : ∃ ms s new s', Run (start tripConfig 0) ms s ∧ Step s new s' ∧ s.breaker.generation = 2 ∧
    .moved (.halfOpen, .opened) s.now ∈ new ∧ .forced .opened s.now ∉ new ∧ .ended 0 2 (.value ()) s.now ∈ new ∧
    (∀ n o, .ended n s.current.generation o s.now ∈ new → tripConfig.succeeds o = true) ∧
    (∀ c ∈ s.calls, ∀ a, .asked c.number (.ok 2) a ∈ ms → s.now < a + tripConfig.breakFor) ∧
    s'.breaker.phase = .opened := by
  have looks : Step probeShut [.moved (.opened, .halfOpen) 60] lateHalf := @Step.look _ _ [(.opened, .halfOpen)] rfl
  have asks : Step { lateHalf with now := 110 } [.asked 0 (.ok 2) 110] lateOut := @Step.letIn _ _ [] 2 rfl
  have ends : Step { lateOut with now := 130 } [.ended 0 2 (.value ()) 130, .moved (.halfOpen, .opened) 130]
      ⟨(lateOut.breaker.settle 2 true 130).1, 130, [], 1⟩ :=
    @Step.settle _ [] [] ⟨0, 2⟩ _ [(.halfOpen, .opened)] (.value ()) rfl rfl
  have run := ((((Timely.run probeRun).next looks).next (.pass 110 (by decide))).next asks).next (.pass 130 (by decide))
  refine ⟨_, _, _, _, run, ends, rfl, by simp, by simp, by simp, fun n o ended => ?_, fun c mem a asked => ?_, rfl⟩
  · obtain ⟨-, -, rfl⟩ : n = 0 ∧ _ ∧ o = .value () := by simpa using ended
    rfl
  · obtain ⟨-, rfl⟩ : c.number = 0 ∧ a = 110 := by simpa [probeForced] using asked
    decide

end Gate
end Switchyard.Breaker
