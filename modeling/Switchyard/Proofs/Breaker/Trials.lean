import Switchyard.Proofs.Breaker.Slots
/-!
The trial calls of a half-open breaker. What closes it, where nobody resets it, are as many calls as it has places, all
let in and all ended well since it began to probe.
-/
namespace Switchyard.Breaker.Gate

variable {config : Config} {began now : Instant} {ms period : List Mark} {s : Gate} {b b' : Breaker}
  {changes : List Transition} {calls : List Call} {total streak generation : Nat} {passed : List Nat}

def Mark.isMove : Mark → Bool
  | .moved .. => true
  | _ => false

def Passed (config : Config) (period : List Mark) (n : Nat) : Prop :=
  ∃ tag o before after, .asked n (.ok tag) before ∈ period ∧ .ended n tag o after ∈ period ∧ config.succeeds o = true

theorem Passed.later {n : Nat} (passed : Passed config period n) (new : List Mark) : Passed config (period ++ new) n := by
  obtain ⟨tag, o, before, after, asked, ended, well⟩ := passed
  exact ⟨tag, o, before, after, List.mem_append_left _ asked, List.mem_append_left _ ended, well⟩

/-- The marks since a half-open breaker began to probe, and the calls that have passed since. -/
structure Trials (config : Config) (ms : List Mark) (streak generation : Nat) (calls : List Call) (total : Nat)
    (period : List Mark) (passed : List Nat) : Prop where
  since : ∃ earlier time, ms = earlier ++ .moved (.opened, .halfOpen) time :: period
  quiet : ∀ m ∈ period, m.isMove = false
  distinct : (passed ++ calls.map (·.number)).Nodup
  below : ∀ n ∈ passed, n < total
  counted : streak ≤ passed.length
  each : ∀ n ∈ passed, Passed config period n
  inside : ∀ c ∈ calls, c.tag = generation → ∃ time, .asked c.number (.ok c.tag) time ∈ period

namespace Trials

theorem note (trials : Trials config ms streak generation calls total period passed) {m : Mark}
    (still : m.isMove = false) : Trials config (ms ++ [m]) streak generation calls total (period ++ [m]) passed := by
  obtain ⟨⟨earlier, time, rfl⟩, quiet, distinct, below, counted, each, inside⟩ := trials
  refine ⟨⟨earlier, time, by simp⟩, ?_, distinct, below, counted, fun n mem => (each n mem).later _, ?_⟩
  · exact List.forall_mem_append.mpr ⟨quiet, List.forall_mem_singleton.mpr still⟩
  · intro c mem current
    obtain ⟨asked, mark⟩ := inside c mem current
    exact ⟨asked, List.mem_append_left _ mark⟩

theorem leave {before after : List Call} {c : Call}
    (trials : Trials config ms streak generation (before ++ c :: after) total period passed) :
    Trials config ms streak generation (before ++ after) total period passed :=
  have fewer := sublist_without before after c
  { trials with
    distinct := trials.distinct.sublist ((List.Sublist.refl passed).append (fewer.map _))
    inside := fun c mem => trials.inside c (fewer.subset mem) }

theorem letIn (trials : Trials config ms streak generation calls total period passed)
    (known : ∀ c ∈ calls, c.number < total) :
    Trials config (ms ++ [.asked total (.ok generation) now]) streak generation (calls ++ [⟨total, generation⟩])
      (total + 1) (period ++ [.asked total (.ok generation) now]) passed := by
  have noted := trials.note (m := .asked total (.ok generation) now) rfl
  refine { noted with
    distinct := ?_
    below := fun n mem => Nat.lt_succ_of_lt (trials.below n mem)
    inside := List.forall_mem_append.mpr ⟨noted.inside, List.forall_mem_singleton.mpr fun _ => ⟨now, by simp⟩⟩ }
  have fresh : total ∉ passed ++ calls.map (·.number) := by
    intro mem
    rcases List.mem_append.mp mem with old | out
    · exact Nat.lt_irrefl _ (trials.below total old)
    · obtain ⟨c, standing, same⟩ := List.mem_map.mp out
      exact Nat.lt_irrefl _ (same ▸ known c standing)
  rw [List.map_append, ← List.append_assoc, List.nodup_append]
  refine ⟨trials.distinct, by simp, ?_⟩
  intro n mem m last same
  obtain rfl : m = total := by simpa using last
  exact fresh (same ▸ mem)

theorem pass {before after : List Call} {c : Call} {o : Outcome Unit}
    (trials : Trials config ms streak generation (before ++ c :: after) total period passed)
    (known : ∀ x ∈ before ++ c :: after, x.number < total) (current : c.tag = generation) (well : config.succeeds o = true) :
    Trials config (ms ++ [.ended c.number c.tag o now]) (streak + 1) generation (before ++ after) total
      (period ++ [.ended c.number c.tag o now]) (passed ++ [c.number]) := by
  have noted := trials.leave.note (m := .ended c.number c.tag o now) rfl
  obtain ⟨asked, mark⟩ := trials.inside c (by simp) current
  have here : Passed config (period ++ [.ended c.number c.tag o now]) c.number :=
    ⟨c.tag, o, asked, now, List.mem_append_left _ mark, by simp, well⟩
  have moved : (passed ++ (before ++ c :: after).map (·.number)).Perm
      (passed ++ [c.number] ++ (before ++ after).map (·.number)) := by
    rw [List.append_assoc]
    exact (List.perm_middle.map _).append_left passed
  exact { noted with
    distinct := moved.nodup_iff.mp trials.distinct
    below := List.forall_mem_append.mpr ⟨trials.below, List.forall_mem_singleton.mpr (known c (by simp))⟩
    counted := by simpa using trials.counted
    each := List.forall_mem_append.mpr ⟨noted.each, List.forall_mem_singleton.mpr here⟩ }

end Trials

/-- The breaker began to probe, and since then as many calls as it has places were let in and have ended well. -/
def Tested (config : Config) (past : List Mark) : Prop :=
  ∃ earlier time period, ∃ passed : List Nat, past = earlier ++ .moved (.opened, .halfOpen) time :: period ∧
    (∀ m ∈ period, m.isMove = false) ∧ passed.Nodup ∧ config.limit ≤ passed.length ∧
    ∀ n ∈ passed, Passed config period n

/-- A half-open breaker closes after a test, or is reset. -/
def Tests (config : Config) (past : List Mark) : Mark → Prop
  | .moved (.halfOpen, .closed) time => past.getLast? = some (.forced .closed time) ∨ Tested config past
  | _ => True

structure Tally (config : Config) (ms : List Mark) (b : Breaker) (calls : List Call) (total : Nat) : Prop where
  distinct : (calls.map (·.number)).Nodup
  known : ∀ c ∈ calls, c.number < total
  trials : b.phase = .halfOpen →
    ∃ period passed, Trials config ms b.counts.consecutiveSuccesses b.generation calls total period passed

namespace Tally

theorem note (tally : Tally config ms b calls total) {m : Mark} (still : m.isMove = false) :
    Tally config (ms ++ [m]) b calls total := by
  refine { tally with trials := fun half => ?_ }
  obtain ⟨period, passed, trials⟩ := tally.trials half
  exact ⟨_, passed, trials.note still⟩

theorem leave {before after : List Call} {c : Call} (tally : Tally config ms b (before ++ c :: after) total) :
    Tally config ms b (before ++ after) total := by
  have fewer := sublist_without before after c
  refine ⟨tally.distinct.sublist (fewer.map _), fun c mem => tally.known c (fewer.subset mem), fun half => ?_⟩
  obtain ⟨period, passed, trials⟩ := tally.trials half
  exact ⟨period, passed, trials.leave⟩

theorem counts (tally : Tally config ms b calls total) (same : b'.counts.consecutiveSuccesses = b.counts.consecutiveSuccesses)
    (phase : b'.phase = b.phase) (generation : b'.generation = b.generation) : Tally config ms b' calls total := by
  refine { tally with trials := ?_ }
  rw [same, phase, generation]
  exact tally.trials

theorem away (tally : Tally config ms b calls total) (other : b'.phase ≠ .halfOpen) (new : List Mark) :
    Tally config (ms ++ new) b' calls total :=
  { tally with trials := fun half => absurd half other }

theorem refreshed (tally : Tally config ms b calls total) (later : ∀ c ∈ calls, c.tag ≤ b.generation)
    (refreshed : Refreshes b now b' changes) : Tally config (ms ++ moves changes now) b' calls total := by
  cases refreshed with
  | early | extended =>
    rw [moves, List.map_nil, List.append_nil]
    exact tally.counts rfl rfl rfl
  | renewed closed => exact tally.away (by simp [renew, closed]) _
  | overdue => exact tally.away (by simp [renew]) _
  | probes =>
    refine { tally with trials := fun _ => ⟨[], [], ?_⟩ }
    refine ⟨⟨ms, now, rfl⟩, by simp, tally.distinct, by simp, Nat.le_refl _, by simp, ?_⟩
    -- nobody has been let in under the new generation
    intro c mem current
    have old := later c mem
    rw [current] at old
    exact absurd old (Nat.not_succ_le_self _)

theorem asked (tally : Tally config ms b calls total) (m : Mark) (still : m.isMove = false) :
    Tally config (ms ++ [m]) b calls (total + 1) := by
  have noted := tally.note still
  refine ⟨noted.distinct, fun c mem => Nat.lt_succ_of_lt (noted.known c mem), fun half => ?_⟩
  obtain ⟨period, passed, trials⟩ := noted.trials half
  exact ⟨period, passed, { trials with below := fun n mem => Nat.lt_succ_of_lt (trials.below n mem) }⟩

theorem letIn (tally : Tally config ms b calls total) :
    Tally config (ms ++ [.asked total (.ok b.generation) now]) { b with counts := b.counts.acquire }
      (calls ++ [⟨total, b.generation⟩]) (total + 1) := by
  refine ⟨?_, ?_, fun half => ?_⟩
  · have fresh : ∀ c ∈ calls, c.number ≠ total := fun c mem => Nat.ne_of_lt (tally.known c mem)
    simpa [List.nodup_append, tally.distinct] using fresh
  · exact List.forall_mem_append.mpr
      ⟨fun c mem => Nat.lt_succ_of_lt (tally.known c mem), List.forall_mem_singleton.mpr (Nat.lt_succ_self _)⟩
  · obtain ⟨period, passed, trials⟩ := tally.trials half
    exact ⟨_, passed, trials.letIn tally.known⟩

theorem recorded {before after : List Call} {c : Call} {o : Outcome Unit}
    (tally : Tally config ms b (before ++ c :: after) total) (current : c.tag = b.generation) (settings : b.config = config)
    (recorded : Records b now (config.succeeds o) b' changes) :
    Lawful (Tests config) (ms ++ [.ended c.number c.tag o now]) (moves changes now) ∧
    Tally config (ms ++ .ended c.number c.tag o now :: moves changes now) b' (before ++ after) total := by
  have left := tally.leave
  have passes (half : b.phase = .halfOpen) (well : config.succeeds o = true) :
      ∃ period passed, Trials config (ms ++ [.ended c.number c.tag o now]) (b.counts.consecutiveSuccesses + 1) b.generation
        (before ++ after) total period passed := by
    obtain ⟨period, passed, trials⟩ := tally.trials half
    exact ⟨_, _, trials.pass tally.known current well⟩
  generalize result : config.succeeds o = success at recorded
  cases recorded with
  | ignored _ opened => exact ⟨trivial, left.away (by simp [opened]) _⟩
  | succeeded closed | failed closed => exact ⟨trivial, left.away (by simp [closed]) _⟩
  | tripped => exact ⟨⟨trivial, trivial⟩, left.away (by simp [renew]) _⟩
  | reopens => exact ⟨⟨trivial, trivial⟩, left.away (by simp [renew]) _⟩
  | advanced half =>
    refine ⟨trivial, left.distinct, left.known, fun _ => ?_⟩
    obtain ⟨period, passed, trials⟩ := passes half result
    have counted : b.counts.succeed.consecutiveSuccesses ≤ passed.length :=
      Nat.le_trans (Nat.min_le_left _ _) trials.counted
    exact ⟨period, passed, { trials with counted }⟩
  | closes half enough =>
    refine ⟨⟨.inr ?_, trivial⟩, left.away (by simp [renew]) _⟩
    obtain ⟨period, passed, trials⟩ := passes half result
    obtain ⟨earlier, time, since⟩ := trials.since
    have distinct := (List.nodup_append.mp trials.distinct).1
    have counted : b.counts.succeed.consecutiveSuccesses ≤ passed.length :=
      Nat.le_trans (Nat.min_le_left _ _) trials.counted
    exact ⟨earlier, time, period, passed, since, trials.quiet, distinct,
      settings ▸ Nat.le_trans enough counted, trials.each⟩

end Tally

theorem lawfulRefresh {past : List Mark} (refreshed : Refreshes b now b' changes) :
    Lawful (Tests config) past (moves changes now) := by
  cases refreshed with
  | early | renewed | extended => trivial
  | probes | overdue => exact ⟨trivial, trivial⟩

theorem lawfulForce {past : List Mark} {was phase : Phase} :
    Lawful (Tests config) past (.forced phase now :: moves (if was = phase then [] else [(was, phase)]) now) := by
  refine ⟨trivial, ?_⟩
  split
  · trivial
  · refine ⟨?_, trivial⟩
    cases was <;> cases phase <;> first | trivial | exact .inl (by simp)

theorem stepTally {new : List Mark} {s' : Gate} (step : Step s new s') (fair : Fair ms s)
    (settings : s.breaker.config = config) (tally : Tally config ms s.breaker s.calls s.total) :
    Lawful (Tests config) ms new ∧ Tally config (ms ++ new) s'.breaker s'.calls s'.total := by
  have known : ∀ c ∈ s.calls, c.tag ≤ s.breaker.generation := fun c mem => fair.known mem
  cases step with
  | letIn asked =>
    obtain ⟨b₁, totals, refreshed, ⟨-, tagged, rfl⟩ | ⟨-, other, -⟩⟩ := acquires asked
    · cases tagged
      refine ⟨Lawful.append.mpr ⟨lawfulRefresh refreshed, trivial, trivial⟩, ?_⟩
      rw [← List.append_assoc]
      exact (tally.refreshed known refreshed).letIn.counts rfl rfl rfl
    · cases other
  | turnAway asked =>
    obtain ⟨b₁, totals, refreshed, ⟨-, other, -⟩ | ⟨-, -, rfl⟩⟩ := acquires asked
    · cases other
    · refine ⟨Lawful.append.mpr ⟨lawfulRefresh refreshed, trivial, trivial⟩, ?_⟩
      rw [← List.append_assoc]
      exact ((tally.refreshed known refreshed).asked _ rfl).counts rfl rfl rfl
  | @settle before after c breaker changes o stands settled =>
    have still : Mark.isMove (.ended c.number c.tag o s.now) = false := rfl
    obtain ⟨totals, sooner⟩ := fair.settles stands settled
    rw [stands] at tally known
    obtain ⟨b₁, refreshed, -, rfl⟩ | ⟨current, -, expiry, -, recorded⟩ := sooner
    · refine ⟨⟨trivial, lawfulRefresh refreshed⟩, ?_⟩
      have left := (tally.leave.note still).refreshed (fun x mem => known x ((sublist_without before after c).subset mem)) refreshed
      rw [List.append_cons]
      exact left.counts rfl rfl rfl
    · subst settings
      have same : Tally s.breaker.config ms { s.breaker with expiry, totals } (before ++ c :: after) s.total :=
        tally.counts rfl rfl rfl
      obtain ⟨lawful, left⟩ := same.recorded current.symm rfl recorded
      exact ⟨⟨trivial, lawful⟩, left⟩
  | @abandon before after c breaker changes stands abandoned =>
    obtain ⟨b₁, refreshed, rfl⟩ := abandons abandoned
    refine ⟨⟨trivial, lawfulRefresh refreshed⟩, ?_⟩
    rw [stands] at tally known
    have still : Mark.isMove (.dropped c.number c.tag s.now) = false := rfl
    have left := (tally.leave.note still).refreshed (fun x mem => known x ((sublist_without before after c).subset mem)) refreshed
    rw [List.append_cons]
    split
    · exact left.counts rfl rfl rfl
    · exact left
  | look refreshed => exact ⟨lawfulRefresh (refreshes refreshed), tally.refreshed known (refreshes refreshed)⟩
  | reset forced =>
    obtain ⟨rfl, rfl⟩ := forces forced
    exact ⟨lawfulForce, tally.away (by simp [renew]) _⟩
  | forceOpen forced =>
    obtain ⟨rfl, rfl⟩ := forces forced
    exact ⟨lawfulForce, tally.away (by simp [renew]) _⟩
  | pass now later =>
    rw [List.append_nil]
    exact ⟨trivial, tally⟩

theorem runTally (run : Run (start config began) ms s) :
    Lawful (Tests config) [] ms ∧ Tally config ms s.breaker s.calls s.total := by
  induction run with
  | nil => exact ⟨trivial, List.nodup_nil, nofun, nofun⟩
  | next earlier last ih =>
    obtain ⟨lawful, tally⟩ := ih
    obtain ⟨allowed, tally'⟩ := stepTally last (runFair earlier) (runConfig earlier) tally
    exact ⟨Lawful.append.mpr ⟨lawful, allowed⟩, tally'⟩

end Switchyard.Breaker.Gate
