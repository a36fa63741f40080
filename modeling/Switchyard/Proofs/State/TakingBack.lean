import Switchyard.Proofs.State.Provenance
/-!
A set that fails takes its own entry back and no other. Several sets of one key can be under way in front of a store that
fails as it likes, and return in any order; each has a stamp of its own, which its entry carries and no other entry does.
-/
namespace Switchyard.State

namespace Front

variable {config : CacheConfig} {ms new : List Mark} {s s' init : Front} {k : String} {e : Entry} {n : Nat}

/-- The mark tells of the moment at which the entry came to memory. -/
inductive Put (init : Front) (m : Mark) (k : String) (e : Entry) : List Mark → Front → Prop where
  | mk {before marks since s₁ s₂ s} (earlier : Runs Erring init before s₁) (step : Erring s₁ (m :: marks) s₂)
      (absent : (k, e) ∉ s₁.memory.entries) (puts : (k, e) ∈ s₂.memory.entries) (rest : Runs Erring s₂ since s) :
      Put init m k e (before ++ m :: marks ++ since) s

def PutBySet (init : Front) (n : Nat) (k : String) (e : Entry) (ms : List Mark) (s : Front) : Prop :=
  ∃ time, Put init (.begun n (.set k e.value) time) k e ms s

def PutByRead (init : Front) (k : String) (e : Entry) (ms : List Mark) (s : Front) : Prop :=
  ∃ n, Put init (.ended n (.get k) (.ok (.value e.value))) k e ms s

theorem Put.step {m : Mark} (put : Put init m k e ms s) (step : Erring s new s') : Put init m k e (ms ++ new) s' := by
  cases put with
  | mk earlier puts absent there rest =>
    rw [List.append_assoc]
    exact .mk earlier puts absent there (rest.next step)

theorem PutBySet.step (put : PutBySet init n k e ms s) (step : Erring s new s') : PutBySet init n k e (ms ++ new) s' :=
  put.imp fun _ put => put.step step

theorem PutByRead.step (put : PutByRead init k e ms s) (step : Erring s new s') : PutByRead init k e (ms ++ new) s' :=
  put.imp fun _ put => put.step step

/-! ### What a step does -/

/-- The same call, wherever it stands. -/
def Call.Same (c d : Call) : Prop := c.number = d.number ∧ c.op = d.op ∧ c.stage.pending = d.stage.pending

theorem Call.Same.refl (c : Call) : c.Same c := ⟨rfl, rfl, rfl⟩

/-- A call begins, or ends, or memory has nothing new and nobody returns. -/
inductive Deeds (s s' : Front) : List Mark → Prop where
  | begins {op begun stage marks} (begins : s.memory.begin s.config op s.now = (s'.memory, begun))
      (pending : stage.pending = begun.pending) (calls : s'.calls = s.calls ++ [⟨s.total, op, s.now, stage⟩])
      (total : s'.total = s.total + 1) (still : ∀ n op r, .ended n op r ∉ marks) :
      Deeds s s' (.begun s.total op s.now :: marks)
  | ends {before after c p r r'} (stands : s.calls = before ++ c :: after) (answered : c.stage = .answered p r)
      (finished : s.memory.finish s.config p r s.now = (s'.memory, r')) (calls : s'.calls = before ++ after)
      (total : s'.total = s.total) : Deeds s s' [.ended c.number c.op r']
  | aside {marks} (entries : ∀ k e, (k, e) ∈ s'.memory.entries → (k, e) ∈ s.memory.entries)
      (writes : s'.memory.writes = s.memory.writes) (calls : ∀ c ∈ s'.calls, ∃ d ∈ s.calls, c.Same d)
      (kept : ∀ d ∈ s.calls, .dropped d.number ∈ marks ∨ ∃ c ∈ s'.calls, c.Same d) (total : s'.total = s.total)
      (still : ∀ n op r, .ended n op r ∉ marks) : Deeds s s' marks

theorem workStill {now : Instant} {stopping : Bool} {channel channel' : Channel} {shelf shelf' : Shelf}
    {marks : List Mark} {worker worker' : Worker}
    (works : Works config now stopping channel shelf worker marks worker' channel' shelf') (n : Nat) (op : Op)
    (r : Except Error Answer) : Mark.ended n op r ∉ marks := by
  cases works <;> simp

theorem moveStill {shelf shelf' : Shelf} {channel channel' : Channel} {queued : List KeyValue} {marks : List Mark}
    {n : Nat} {op : Op} {was stage : Stage} (moves : Moves shelf channel queued n op was marks shelf' channel' stage)
    (j : Nat) (op' : Op) (r : Except Error Answer) : Mark.ended j op' r ∉ marks := by
  cases moves <;> simp

/-- One call moves on, and the others stay as they are. -/
theorem movesOne {calls before after : List Call} {c d : Call} (stands : calls = before ++ c :: after)
    (same : d.Same c) :
    (∀ x ∈ before ++ d :: after, ∃ y ∈ calls, x.Same y) ∧
      ∀ y ∈ calls, ∃ x ∈ before ++ d :: after, x.Same y := by
  simp only [stands, List.mem_append, List.mem_cons]
  refine ⟨fun x mem => ?_, fun y mem => ?_⟩
  · rcases mem with old | rfl | old
    · exact ⟨x, .inl old, .refl x⟩
    · exact ⟨c, .inr (.inl rfl), same⟩
    · exact ⟨x, .inr (.inr old), .refl x⟩
  · rcases mem with old | rfl | old
    · exact ⟨y, .inl old, .refl y⟩
    · exact ⟨d, .inr (.inl rfl), same⟩
    · exact ⟨y, .inr (.inr old), .refl y⟩

theorem Erring.deeds (step : Erring s new s') : Deeds s s' new := by
  have among : ∀ c ∈ s.calls, ∃ d ∈ s.calls, c.Same d := fun c here => ⟨c, here, .refl c⟩
  have kept : ∀ d ∈ s.calls, .dropped d.number ∈ new ∨ ∃ c ∈ s.calls, c.Same d :=
    fun d here => .inr ⟨d, here, .refl d⟩
  cases step with
  | @fails before after c p err shelf stands asked =>
    have same : Call.Same { c with stage := .answered p (.error err) } c :=
      ⟨rfl, rfl, (congrArg Stage.pending asked).symm⟩
    have ⟨among, kept⟩ := movesOne stands same
    exact .aside (fun _ _ mem => mem) rfl among (fun d here => .inr (kept d here)) rfl (by simp)
  | step step =>
    cases step with
    | enter op begins enters =>
      exact .begins begins (by cases enters <;> rfl) rfl rfl (by cases enters <;> simp)
    | @move before after c _ shelf channel stage stands moves =>
      have same : Call.Same { c with stage } c := ⟨rfl, rfl, movePending moves⟩
      have ⟨among, kept⟩ := movesOne stands same
      exact .aside (fun _ _ mem => mem) rfl among (fun d here => .inr (kept d here)) rfl (moveStill moves)
    | answer stands answered finished => exact .ends stands answered finished rfl rfl
    | @drop before after c stands =>
      refine .aside (fun _ _ mem => mem) rfl (fun d here => ⟨d, ?_, .refl d⟩) (fun d here => ?_) rfl (by simp)
      · exact stands ▸ (sublist_without _ _ _).subset here
      · simp only [stands, List.mem_append, List.mem_cons] at here
        rcases here with old | rfl | old
        · exact .inr ⟨d, List.mem_append_left _ old, .refl d⟩
        · exact .inl List.mem_cons_self
        · exact .inr ⟨d, List.mem_append_right _ old, .refl d⟩
    | pass | stop => exact .aside (fun _ _ mem => mem) rfl among kept rfl (by simp)
    | sweep =>
      exact .aside (fun _ _ mem => (List.mem_filter.mp mem).1) rfl among kept rfl (by simp)
    | work works =>
      exact .aside (fun _ _ mem => mem) rfl among kept rfl (workStill works)

/-- Stamps are not ahead of the writes that have begun, nor numbers of the calls. -/
structure Stamped (ms : List Mark) (s : Front) : Prop where
  numbers : ∀ c ∈ s.calls, c.number < s.total
  returned : ∀ n op r, .ended n op r ∈ ms → n < s.total
  matched : ∀ c ∈ s.calls, Matches c.op c.stage.pending
  stamps : ∀ c ∈ s.calls, c.stage.pending.stamp ≤ s.memory.writes
  versions : ∀ k e, (k, e) ∈ s.memory.entries → e.version ≤ s.memory.writes

theorem stepStamped (step : Erring s new s') (stamped : Stamped ms s) : Stamped (ms ++ new) s' := by
  obtain ⟨numbers, returned, matched, stamps, versions⟩ := stamped
  cases step.deeds with
  | @begins op begun stage marks begins pending calls total still =>
    obtain ⟨matches', stamp⟩ := beginMatches begins
    have later := Memory.beginWrites begins
    rw [← pending] at matches' stamp
    refine ⟨?_, fun n op r mem => ?_, ?_, ?_, fun k e mem => ?_⟩
    · rw [calls, total]
      refine List.forall_mem_append.mpr ⟨fun c here => Nat.lt_succ_of_lt (numbers c here), ?_⟩
      exact List.forall_mem_singleton.mpr (Nat.lt_succ_self _)
    · rw [total]
      rcases List.mem_append.mp mem with old | old
      · exact Nat.lt_succ_of_lt (returned n op r old)
      · exact absurd ((List.mem_cons.mp old).resolve_left nofun) (still n op r)
    · rw [calls]
      exact List.forall_mem_append.mpr ⟨matched, List.forall_mem_singleton.mpr matches'⟩
    · rw [calls]
      refine List.forall_mem_append.mpr ⟨fun c here => Nat.le_trans (stamps c here) later, ?_⟩
      exact List.forall_mem_singleton.mpr stamp
    · rcases beginEntries begins mem with ⟨-, there⟩ | ⟨-, own, -⟩
      · exact Nat.le_trans (versions k e there) later
      · rwa [pending, own] at stamp
  | @ends before after c p r r' stands answered finished calls total =>
    have rest : (before ++ after).Sublist s.calls := stands ▸ sublist_without _ _ _
    have writes := Memory.finishWrites finished
    refine ⟨?_, fun n op r mem => ?_, ?_, ?_, fun k e mem => ?_⟩
    · rw [calls, total]
      exact fun d here => numbers d (rest.subset here)
    · rw [total]
      rcases List.mem_append.mp mem with old | old
      · exact returned n op r old
      · cases List.mem_singleton.mp old
        exact numbers c (by simp [stands])
    · rw [calls]
      exact fun d here => matched d (rest.subset here)
    · rw [calls, writes]
      exact fun d here => stamps d (rest.subset here)
    · rw [writes]
      have finishes := Memory.finishes finished
      generalize s'.memory = m at finishes mem
      cases finishes with
      | remembered | missing | passed => exact versions k e mem
      | takenBack => exact versions k e (List.mem_filter.mp mem).1
      | stored =>
        -- what was read has no stamp
        rcases Memory.mem_insert.mp mem with ⟨there, -⟩ | ⟨-, rfl⟩
        · exact versions k e there
        · exact Nat.zero_le _
  | aside entries writes calls kept total still =>
    refine ⟨fun c here => ?_, fun n op r mem => ?_, fun c here => ?_, fun c here => ?_,
      fun k e mem => writes ▸ versions k e (entries k e mem)⟩
    · obtain ⟨d, there, number, -, -⟩ := calls c here
      exact total ▸ number ▸ numbers d there
    · exact total ▸ returned n op r ((List.mem_append.mp mem).resolve_right (still n op r))
    · obtain ⟨d, there, -, op, pending⟩ := calls c here
      exact op ▸ pending ▸ matched d there
    · obtain ⟨d, there, -, -, pending⟩ := calls c here
      exact writes ▸ pending ▸ stamps d there

theorem runStamped {shelf : Shelf} (run : Runs Erring (start config shelf) ms s) : Stamped ms s := by
  induction run with
  | nil =>
    exact ⟨List.forall_mem_nil _, fun _ _ _ mem => absurd mem List.not_mem_nil, List.forall_mem_nil _,
      List.forall_mem_nil _, fun _ _ mem => absurd mem List.not_mem_nil⟩
  | next earlier last ih => exact stepStamped last ih

/-! ### The stamp of a set -/

/-- Whatever carries the stamp of the entry is the entry itself or the set that has put it, which has not returned with an
error if the entry is there. -/
structure Tended (n : Nat) (k : String) (e : Entry) (ms : List Mark) (s : Front) : Prop where
  positive : 0 < e.version
  begun : e.version ≤ s.memory.writes
  old : n < s.total
  alone : ∀ k' e', (k', e') ∈ s.memory.entries → e'.version = e.version → k' = k ∧ e' = e
  writer : ∀ c ∈ s.calls, ∀ key, c.stage.pending = .write key e.version → c.number = n
  call : ∀ c ∈ s.calls, c.number = n → c.op = .set k e.value ∧ c.stage.pending = .write k e.version
  returns : (∃ c ∈ s.calls, c.number = n) ∨ .dropped n ∈ ms ∨ ∃ r, .ended n (.set k e.value) r ∈ ms
  failed : ∀ op err, .ended n op (.error err) ∈ ms → (k, e) ∉ s.memory.entries

theorem setStamps {m memory : Memory} {v : Json} {now : Instant} {begun : Begun}
    (begins : m.begin config (.set k v) now = (memory, begun)) :
    memory.writes = m.writes + 1 ∧ begun.pending = .write k (m.writes + 1) ∧
      ∀ k' e', (k', e') ∈ memory.entries ↔
        ((k', e') ∈ m.entries ∧ k' ≠ k) ∨ k' = k ∧ e' = ⟨v, now + config.expiration, m.writes + 1⟩ := by
  cases begins
  exact ⟨rfl, by split <;> rfl, fun _ _ => Memory.mem_insert⟩

theorem beginTended {time : Instant} {marks : List Mark} (stamped : Stamped ms s)
    (step : Erring s (.begun n (.set k e.value) time :: marks) s') (absent : (k, e) ∉ s.memory.entries)
    (puts : (k, e) ∈ s'.memory.entries) : Tended n k e (ms ++ .begun n (.set k e.value) time :: marks) s' := by
  generalize said : Mark.begun n (.set k e.value) time :: marks = new at step
  cases step.deeds with
  | ends => cases said
  | aside entries => exact absurd (entries k e puts) absent
  | begins begins pending calls total still =>
    cases said
    obtain ⟨writes, mine, only⟩ := setStamps begins
    have own : e = ⟨e.value, s.now + s.config.expiration, s.memory.writes + 1⟩ :=
      (((only k e).mp puts).resolve_left fun old => absent old.1).2
    have version : e.version = s.memory.writes + 1 := congrArg Entry.version own
    have newest {m : Nat} (le : m ≤ s.memory.writes) : m ≠ e.version := by omega
    rw [mine, ← version] at pending
    refine ⟨by omega, by omega, by omega, fun k' e' mem same => ?_, ?_, ?_, .inl ?_, fun op err mem => ?_⟩
    · obtain ⟨there, -⟩ | ⟨rfl, rfl⟩ := (only k' e').mp mem
      · exact absurd same (newest (stamped.versions k' e' there))
      · exact ⟨rfl, own.symm⟩
    · rw [calls]
      refine List.forall_mem_append.mpr ⟨fun c here key writing => ?_, List.forall_mem_singleton.mpr fun _ _ => rfl⟩
      have stamp := stamped.stamps c here
      rw [writing] at stamp
      exact absurd rfl (newest stamp)
    · rw [calls]
      refine List.forall_mem_append.mpr ⟨fun c here same => ?_, List.forall_mem_singleton.mpr fun _ => ⟨rfl, pending⟩⟩
      exact absurd same (Nat.ne_of_lt (stamped.numbers c here))
    · rw [calls]
      exact ⟨_, List.mem_append_right _ List.mem_cons_self, rfl⟩
    · rcases List.mem_append.mp mem with old | old
      · exact absurd (stamped.returned _ op _ old) (Nat.lt_irrefl _)
      · exact absurd ((List.mem_cons.mp old).resolve_left nofun) (still _ op _)

theorem beginStamp {m memory : Memory} {op : Op} {now : Instant} {begun : Begun} {key : String} {version : Nat}
    (begins : m.begin config op now = (memory, begun)) (writing : begun.pending = .write key version) :
    version = m.writes + 1 := by
  have matched := (beginMatches begins).1
  rw [writing] at matched
  obtain ⟨v, rfl⟩ := matched.write
  exact (Pending.write.inj (writing.symm.trans (setStamps begins).2.1)).2

theorem finishEntries {m memory : Memory} {p : Pending} {r r' : Except Error Answer} {now : Instant}
    (finished : m.finish config p r now = (memory, r')) (mem : (k, e) ∈ memory.entries) :
    (k, e) ∈ m.entries ∨ e.version = 0 ∧ p = .read k m.writes ∧ r' = .ok (.value e.value) := by
  cases Memory.finishes finished with
  | remembered | missing | passed => exact .inl mem
  | takenBack => exact .inl (List.mem_filter.mp mem).1
  | stored =>
    rcases Memory.mem_insert.mp mem with ⟨there, -⟩ | ⟨rfl, rfl⟩
    · exact .inl there
    · exact .inr ⟨rfl, rfl, rfl⟩

theorem finishFailed {m memory : Memory} {r : Except Error Answer} {now : Instant} {version : Nat} {err : Error}
    (finished : m.finish config (.write k version) r now = (memory, .error err)) :
    memory = m.eraseIf k (·.version = version) := by
  cases r <;> cases finished
  rfl

theorem stepTended (step : Erring s new s') (tended : Tended n k e ms s) : Tended n k e (ms ++ new) s' := by
  obtain ⟨positive, begun, old, alone, writer, call, returns, failed⟩ := tended
  have gone : (.dropped n ∈ ms ∨ ∃ r, .ended n (.set k e.value) r ∈ ms) →
      .dropped n ∈ ms ++ new ∨ ∃ r, .ended n (.set k e.value) r ∈ ms ++ new :=
    Or.imp (List.mem_append_left _) (Exists.imp fun _ => List.mem_append_left _)
  cases step.deeds with
  | @begins op began stage marks begins pending calls total still =>
    -- a later set counts on, and comes by a stamp that no other has had
    have other {m : Nat} (latest : m = s.memory.writes + 1) : m ≠ e.version := by omega
    have before (k' : String) (e' : Entry) (mem : (k', e') ∈ s'.memory.entries) (same : e'.version = e.version) :
        (k', e') ∈ s.memory.entries := by
      obtain ⟨-, there⟩ | ⟨-, writing, -⟩ := beginEntries begins mem
      · exact there
      · exact absurd same (other (beginStamp begins writing))
    refine ⟨positive, Nat.le_trans begun (Memory.beginWrites begins), by omega,
      fun k' e' mem same => alone k' e' (before k' e' mem same) same, ?_, ?_, ?_, fun op err mem there => ?_⟩
    · rw [calls]
      refine List.forall_mem_append.mpr ⟨writer, List.forall_mem_singleton.mpr fun key writing => ?_⟩
      exact absurd rfl (other (beginStamp begins (pending.symm.trans writing)))
    · rw [calls]
      refine List.forall_mem_append.mpr ⟨call, List.forall_mem_singleton.mpr fun same => ?_⟩
      exact absurd same (Nat.ne_of_gt old)
    · rw [calls]
      exact returns.imp (fun ⟨c, here, same⟩ => ⟨c, List.mem_append_left _ here, same⟩) gone
    · rcases List.mem_append.mp mem with ended | ended
      · exact failed op err ended (before k e there rfl)
      · exact absurd ((List.mem_cons.mp ended).resolve_left nofun) (still n op _)
  | @ends before after c p r r' stands answered finished calls total =>
    have rest : (before ++ after).Sublist s.calls := stands ▸ sublist_without _ _ _
    have here : c ∈ s.calls := by simp [stands]
    have earlier (k' : String) (e' : Entry) (mem : (k', e') ∈ s'.memory.entries) (same : e'.version = e.version) :
        (k', e') ∈ s.memory.entries :=
      (finishEntries finished mem).resolve_right fun read => Nat.ne_of_gt positive (same.symm.trans read.1)
    refine ⟨positive, Memory.finishWrites finished ▸ begun, total ▸ old,
      fun k' e' mem same => alone k' e' (earlier k' e' mem same) same, ?_, ?_, ?_, fun op err mem there => ?_⟩
    · rw [calls]
      exact fun d mem => writer d (rest.subset mem)
    · rw [calls]
      exact fun d mem => call d (rest.subset mem)
    · rw [calls]
      rcases returns with ⟨d, there, rfl⟩ | left
      · simp only [stands, List.mem_append, List.mem_cons] at there
        rcases there with old | rfl | old
        · exact .inl ⟨d, List.mem_append_left _ old, rfl⟩
        · exact .inr (.inr ⟨r', (call d here rfl).1 ▸ List.mem_append_right _ List.mem_cons_self⟩)
        · exact .inl ⟨d, List.mem_append_right _ old, rfl⟩
      · exact .inr (gone left)
    · rcases List.mem_append.mp mem with ended | ended
      · exact failed op err ended (earlier k e there rfl)
      · -- the set itself has just failed
        cases List.mem_singleton.mp ended
        have writing := (call c here rfl).2
        rw [answered] at writing
        cases writing
        rw [finishFailed finished] at there
        simp [Memory.eraseIf] at there
  | aside entries writes calls kept total still =>
    refine ⟨positive, writes ▸ begun, total ▸ old, fun k' e' mem => alone k' e' (entries k' e' mem), ?_, ?_, ?_, ?_⟩
    · intro c here key writing
      obtain ⟨d, there, number, -, pending⟩ := calls c here
      exact number ▸ writer d there key (pending ▸ writing)
    · intro c here same
      obtain ⟨d, there, number, op, pending⟩ := calls c here
      exact op ▸ pending ▸ call d there (number ▸ same)
    · rcases returns with ⟨d, there, rfl⟩ | left
      · rcases kept d there with dropped | ⟨c, here, number, -, -⟩
        · exact .inr (.inl (List.mem_append_right _ dropped))
        · exact .inl ⟨c, here, number⟩
      · exact .inr (gone left)
    · intro op err mem there
      have ended := (List.mem_append.mp mem).resolve_right (still n op _)
      exact failed op err ended (entries k e there)

theorem runTended {shelf : Shelf} (put : PutBySet (start config shelf) n k e ms s) : Tended n k e ms s := by
  obtain ⟨time, put⟩ := put
  cases put with
  | mk earlier sets absent puts rest =>
    have first := beginTended (runStamped earlier) sets absent puts
    clear earlier sets absent puts
    induction rest with
    | nil => rwa [List.append_nil]
    | next _ last ih =>
      rw [← List.append_assoc]
      exact stepTended last ih

/-- Every entry was put by a set or a read, and a set that has not returned has put an entry with its stamp. -/
structure Sourced (init : Front) (ms : List Mark) (s : Front) : Prop where
  entries : ∀ k e, (k, e) ∈ s.memory.entries → (∃ n, PutBySet init n k e ms s) ∨ PutByRead init k e ms s
  writers : ∀ c ∈ s.calls, ∀ key version, c.stage.pending = .write key version →
    ∃ e, e.version = version ∧ PutBySet init c.number key e ms s

theorem stepSourced (run : Runs Erring init ms s) (stamped : Stamped ms s) (step : Erring s new s')
    (sourced : Sourced init ms s) : Sourced init (ms ++ new) s' := by
  have old (k : String) (e : Entry) (there : (k, e) ∈ s.memory.entries) :
      (∃ n, PutBySet init n k e (ms ++ new) s') ∨ PutByRead init k e (ms ++ new) s' :=
    (sourced.entries k e there).imp (fun ⟨n, put⟩ => ⟨n, put.step step⟩) fun put => put.step step
  have writer {c : Call} (here : c ∈ s.calls) {key : String} {version : Nat}
      (writing : c.stage.pending = .write key version) :
      ∃ e, e.version = version ∧ PutBySet init c.number key e (ms ++ new) s' :=
    (sourced.writers c here key version writing).imp fun e ⟨same, put⟩ => ⟨same, put.step step⟩
  have deeds := step.deeds
  cases deeds with
  | @begins op began stage marks begins pending calls total still =>
    have sets {key : String} {e : Entry} (same : op = .set key e.value) (mem : (key, e) ∈ s'.memory.entries)
        (version : e.version = s.memory.writes + 1) :
        PutBySet init s.total key e (ms ++ .begun s.total op s.now :: marks) s' := by
      subst same
      have absent : (key, e) ∉ s.memory.entries := fun there => by
        have le := stamped.versions key e there
        omega
      have put := Put.mk run step absent mem .nil
      rw [List.append_nil] at put
      exact ⟨s.now, put⟩
    refine ⟨fun k e mem => ?_, ?_⟩
    · obtain ⟨-, there⟩ | ⟨same, writing, -⟩ := beginEntries begins mem
      · exact old k e there
      · exact .inl ⟨s.total, sets same mem (beginStamp begins writing)⟩
    · rw [calls]
      refine List.forall_mem_append.mpr ⟨fun c here _ _ => writer here, List.forall_mem_singleton.mpr ?_⟩
      intro key version writing
      have writing' : began.pending = .write key version := pending.symm.trans writing
      have matched := (beginMatches begins).1
      rw [writing'] at matched
      obtain ⟨v, rfl⟩ := matched.write
      obtain rfl := beginStamp begins writing'
      have entries := (setStamps begins).2.2
      exact ⟨_, rfl, sets rfl ((entries _ _).mpr (.inr ⟨rfl, rfl⟩)) rfl⟩
  | @ends before after c p r r' stands answered finished calls total =>
    have rest : (before ++ after).Sublist s.calls := stands ▸ sublist_without _ _ _
    refine ⟨fun k e mem => ?_, ?_⟩
    · by_cases there : (k, e) ∈ s.memory.entries
      · exact old k e there
      · obtain ⟨-, rfl, rfl⟩ := (finishEntries finished mem).resolve_left there
        have matched := stamped.matched c (by simp [stands])
        rw [answered] at matched
        have get : c.op = .get k := matched.read
        rw [get] at step ⊢
        have put := Put.mk run step there mem .nil
        rw [List.append_nil] at put
        exact .inr ⟨c.number, put⟩
    · rw [calls]
      exact fun d here _ _ => writer (rest.subset here)
  | aside entries writes calls kept total still =>
    refine ⟨fun k e mem => old k e (entries k e mem), fun c here key version writing => ?_⟩
    obtain ⟨d, there, number, -, pending⟩ := calls c here
    exact number ▸ writer there (pending ▸ writing)

theorem runSourced {shelf : Shelf} (run : Runs Erring (start config shelf) ms s) :
    Sourced (start config shelf) ms s := by
  induction run with
  | nil => exact ⟨fun _ _ mem => absurd mem List.not_mem_nil, List.forall_mem_nil _⟩
  | next earlier last ih => exact stepSourced earlier (runStamped earlier) last ih

/-! ### A set that fails -/

theorem failedErases {key : String} {v : Json} {err : Error} (stamped : Stamped ms s)
    (step : Erring s [.ended n (.set key v) (.error err)] s') :
    ∃ c ∈ s.calls, c.number = n ∧ ∃ version, c.stage.pending = .write key version ∧
      s'.memory = s.memory.eraseIf key (·.version = version) := by
  generalize said : [Mark.ended n (.set key v) (.error err)] = new at step
  cases step.deeds with
  | begins => cases said
  | aside _ _ _ _ _ still => exact absurd (said ▸ List.mem_singleton.mpr rfl) (still n (.set key v) (.error err))
  | @ends before after c p r r' stands answered finished calls total =>
    simp only [List.cons.injEq, Mark.ended.injEq, and_true] at said
    obtain ⟨rfl, op, rfl⟩ := said
    have here : c ∈ s.calls := by simp [stands]
    have matched := stamped.matched c here
    rw [← op, answered] at matched
    generalize same : Stage.pending (.answered p r) = q at matched
    cases matched with
    | served _ reads => cases reads
    | set _ _ version =>
      obtain rfl : p = .write key version := same
      exact ⟨c, here, rfl, version, congrArg Stage.pending answered, finishFailed finished⟩

/-- A set that fails takes out of memory what it has put there, and nothing else, however many sets are under way. What
is in memory was put by no set that has failed; and when all calls have returned, it was put by sets that have succeeded
and by reads. -/
theorem failedSetTakesBackItsOwn {shelf : Shelf} (run : Runs Erring (start config shelf) ms s) :
    (∀ n key v err s', Erring s [.ended n (.set key v) (.error err)] s' →
      (∀ k e, (k, e) ∈ s'.memory.entries ↔
        (k, e) ∈ s.memory.entries ∧ ¬ PutBySet (start config shelf) n k e ms s) ∧
      ∀ m k e, m ≠ n → PutBySet (start config shelf) m k e ms s →
        (k, e) ∈ s.memory.entries → (k, e) ∈ s'.memory.entries) ∧
    (∀ n k e, (k, e) ∈ s.memory.entries → PutBySet (start config shelf) n k e ms s →
      ∀ op err, .ended n op (.error err) ∉ ms) ∧
    (s.calls = [] → (∀ n, .dropped n ∉ ms) → ∀ k e, (k, e) ∈ s.memory.entries →
      PutByRead (start config shelf) k e ms s ∨
        ∃ n a, PutBySet (start config shelf) n k e ms s ∧ .ended n (.set k e.value) (.ok a) ∈ ms) := by
  have sourced := runSourced run
  have kept (n : Nat) (k : String) (e : Entry) (mem : (k, e) ∈ s.memory.entries)
      (put : PutBySet (start config shelf) n k e ms s) (op : Op) (err : Error) : .ended n op (.error err) ∉ ms :=
    fun ended => (runTended put).failed op err ended mem
  refine ⟨fun n key v err s' step => ?_, kept, fun returned undropped k e mem => ?_⟩
  · obtain ⟨c, here, rfl, version, writing, erased⟩ := failedErases (runStamped run) step
    have exactly (k : String) (e : Entry) : (k, e) ∈ s'.memory.entries ↔
        (k, e) ∈ s.memory.entries ∧ ¬ PutBySet (start config shelf) c.number k e ms s := by
      have away : (k, e) ∈ s'.memory.entries ↔ (k, e) ∈ s.memory.entries ∧ ¬ (k = key ∧ e.version = version) := by
        rw [erased]
        simp [Memory.eraseIf, Decidable.imp_iff_not_or]
      refine away.trans (and_congr_right fun mem => not_congr ⟨?_, fun put => ?_⟩)
      · rintro ⟨rfl, rfl⟩
        obtain ⟨own, same, put⟩ := sourced.writers c here _ _ writing
        exact ((runTended put).alone k e mem same.symm).2 ▸ put
      · have mine := ((runTended put).call c here rfl).2
        exact Pending.write.inj (mine.symm.trans writing)
    refine ⟨exactly, fun m k e other put mem => (exactly k e).mpr ⟨mem, fun own => other ?_⟩⟩
    exact ((runTended put).writer c here k ((runTended own).call c here rfl).2).symm
  · rcases sourced.entries k e mem with ⟨n, put⟩ | put
    · rcases (runTended put).returns with ⟨c, here, -⟩ | dropped | ⟨r, ended⟩
      · simp [returned] at here
      · exact absurd dropped (undropped n)
      · cases r with
        | error err => exact absurd ended (kept n k e mem put _ err)
        | ok a => exact .inr ⟨n, a, put, ended⟩
    · exact .inl put

/-! ### Two sets of one key -/

def firstEntry : Entry := ⟨.bool true, Span.ofSeconds 300, 1⟩

def secondEntry : Entry := ⟨.bool false, Span.ofSeconds 300, 2⟩

/-- Both sets are under way; the older one fails, as if its key were missing, and then the newer one is done. -/
def overlappingMarks : List Mark :=
  [.begun 0 (.set "k" (.bool true)) 0, .begun 1 (.set "k" (.bool false)) 0, .failed 0,
   .ended 0 (.set "k" (.bool true)) (.error (.notFound "k")), .landed 1 (.set "k" (.bool false)) [],
   .ended 1 (.set "k" (.bool false)) (.ok .done)]

theorem overlappingRun : ∃ s, Runs Erring (start {} fun _ => none) overlappingMarks s ∧ s.calls = [] ∧
    ("k", secondEntry) ∈ s.memory.entries := by
  have begins : Runs Erring (start {} fun _ => none) [] _ := .nil
  have first := begins.next (.step (@Step.enter _ (.set "k" (.bool true)) ⟨[("k", firstEntry)], 1⟩ _ _ _ _ rfl
    (.asks (.write "k" 1))))
  have second := first.next (.step (@Step.enter _ (.set "k" (.bool false)) ⟨[("k", secondEntry)], 2⟩ _ _ _ _ rfl
    (.asks (.write "k" 2))))
  have fails := second.next (@Erring.fails _ [] _ _ _ (.notFound "k") (fun _ => none) rfl rfl)
  have told := fails.next (.step (@Step.answer _ [] _ _ _ _ ⟨[("k", secondEntry)], 2⟩ _ rfl rfl rfl))
  have lands := told.next (.step (@Step.move _ [] [] _ _ _ _ _ rfl (.lands _)))
  have ends := lands.next (.step (@Step.answer _ [] [] _ _ _ ⟨[("k", secondEntry)], 2⟩ _ rfl rfl rfl))
  exact ⟨_, ends, rfl, List.mem_singleton_self _⟩

theorem overlappingStays : ∃ s, Runs Erring (start {} fun _ => none) overlappingMarks s ∧ s.calls = [] ∧
    (PutByRead (start {} fun _ => none) "k" secondEntry overlappingMarks s ∨
      ∃ n a, PutBySet (start {} fun _ => none) n "k" secondEntry overlappingMarks s ∧
        .ended n (.set "k" secondEntry.value) (.ok a) ∈ overlappingMarks) := by
  obtain ⟨s, run, returned, mem⟩ := overlappingRun
  obtain ⟨-, -, sources⟩ := failedSetTakesBackItsOwn run
  exact ⟨s, run, returned, sources returned (by simp [overlappingMarks]) _ _ mem⟩

end Front
end Switchyard.State
