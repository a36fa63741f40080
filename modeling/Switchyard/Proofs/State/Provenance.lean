import Switchyard.Proofs.State.Agreement
import Switchyard.Proofs.State.Overtaking
/-!
Where the entries of memory come from. An entry was stored by the latest write of its key, or by a read that missed
after that write had begun and saw no write of any key begin before it stored what it had read; and what is answered
from memory comes from an entry that has not expired.
-/
namespace Switchyard.State

namespace Front

variable {config : CacheConfig} {ms new : List Mark} {s s' init : Front} {k : String} {e : Entry} {n : Nat}

/-- No write begins. -/
def Unwritten (ms : List Mark) : Prop := ∀ n op time, .begun n op time ∈ ms → op.isRead = true

theorem Unwritten.nil : Unwritten [] := fun _ _ _ mem => absurd mem List.not_mem_nil

/-- A read has missed, and no write has begun since. -/
inductive Missed (init : Front) (k : String) (n : Nat) : List Mark → Front → Prop where
  | mk {before marks since s₁ s₂ s} {time : Instant} (earlier : Runs Erring init before s₁)
      (asks : Erring s₁ (.begun n (.get k) time :: marks) s₂) (missed : s₁.memory.fresh? k s₁.now = none)
      (rest : Runs Erring s₂ since s) (unwritten : Unwritten since) :
      Missed init k n (before ++ .begun n (.get k) time :: marks ++ since) s

/-- An entry of a key was stored at a time, and no write of the key has begun since. -/
inductive Origin (init : Front) (k : String) (e : Entry) (stored : Instant) : List Mark → Front → Prop where
  | set {before marks since n s₁ s₂ s} (earlier : Runs Erring init before s₁)
      (sets : Erring s₁ (.begun n (.set k e.value) stored :: marks) s₂) (puts : (k, e) ∈ s₂.memory.entries)
      (rest : Runs Erring s₂ since s) (quiet : Quiet k since) :
      Origin init k e stored (before ++ .begun n (.set k e.value) stored :: marks ++ since) s
  | read {before since n s₁ s₂ s} (missed : Missed init k n before s₁) (time : s₁.now = stored)
      (fills : Erring s₁ [.ended n (.get k) (.ok (.value e.value))] s₂) (puts : (k, e) ∈ s₂.memory.entries)
      (rest : Runs Erring s₂ since s) (quiet : Quiet k since) :
      Origin init k e stored (before ++ .ended n (.get k) (.ok (.value e.value)) :: since) s

theorem Missed.step (missed : Missed init k n ms s) (step : Erring s new s') (unwritten : Unwritten new) :
    Missed init k n (ms ++ new) s' := by
  cases missed with
  | mk earlier asks missed rest before =>
    rw [List.append_assoc]
    refine .mk earlier asks missed (rest.next step) fun j op time mem => ?_
    exact (List.mem_append.mp mem).elim (before j op time) (unwritten j op time)

theorem Origin.step {stored : Instant} (origin : Origin init k e stored ms s) (step : Erring s new s')
    (quiet : Quiet k new) : Origin init k e stored (ms ++ new) s' := by
  cases origin with
  | set earlier sets puts rest before =>
    rw [List.append_assoc]
    exact .set earlier sets puts (rest.next step) (Quiet.append.mpr ⟨before, quiet⟩)
  | read missed time fills puts rest before =>
    rw [List.append_assoc, List.cons_append]
    exact .read missed time fills puts (rest.next step) (Quiet.append.mpr ⟨before, quiet⟩)

theorem beginCounts {m memory : Memory} {op : Op} {now : Instant} {begun : Begun}
    (begins : m.begin config op now = (memory, begun)) :
    memory.writes = if op.isRead then m.writes else m.writes + 1 := by
  cases op with
  | get key =>
    rw [Memory.begin_get] at begins
    split at begins <;> cases begins <;> rfl
  | has key =>
    rw [Memory.begin_has] at begins
    split at begins <;> cases begins <;> rfl
  | set | delete =>
    cases begins
    rfl
  | batchSet items =>
    cases begins
    exact Memory.writes_eraseAll

/-- Every entry has its origin, and a read whose guard still holds has seen all writes that have begun. -/
structure Traced (config : CacheConfig) (init : Front) (ms : List Mark) (s : Front) : Prop where
  entries : ∀ k e, (k, e) ∈ s.memory.entries →
    ∃ stored, e.expires = stored + config.expiration ∧ Origin init k e stored ms s
  readers : ∀ c ∈ s.calls, ∀ key, c.stage.pending = .read key s.memory.writes → Missed init key c.number ms s

namespace Traced

theorem enter (traced : Traced config init ms s) (sound : Sound config s) (run : Runs Erring init ms s) {op : Op}
    {memory : Memory} {begun : Begun} {channel : Channel} {stage : Stage} {marks : List Mark}
    (begins : s.memory.begin s.config op s.now = (memory, begun))
    (enters : Enters s.channel s.total begun channel stage marks) :
    Traced config init (ms ++ .begun s.total op s.now :: marks)
      { s with memory, channel, calls := s.calls ++ [⟨s.total, op, s.now, stage⟩], total := s.total + 1 } := by
  have step := Erring.step (.enter op begins enters)
  have settings := sound.settings
  have only : ∀ j op' time, .begun j op' time ∈ Mark.begun s.total op s.now :: marks → op' = op := by
    intro j op' time mem
    cases enters <;> simp at mem <;> exact mem.2.1
  refine ⟨fun k e mem => ?_, List.forall_mem_append.mpr ⟨fun c hc key reading => ?_, List.forall_mem_singleton.mpr ?_⟩⟩
  · rcases beginEntries begins mem with ⟨away, there⟩ | ⟨rfl, -, expires⟩
    · obtain ⟨stored, expires, origin⟩ := traced.entries k e there
      exact ⟨stored, expires, origin.step step fun j op' time begun => only j op' time begun ▸ away⟩
    · refine ⟨s.now, settings ▸ expires, ?_⟩
      have origin := Origin.set run step mem .nil .nil
      rwa [List.append_nil] at origin
  · have counts := beginCounts begins
    cases reads : op.isRead with
    | true =>
      rw [reads, if_pos rfl] at counts
      rw [counts] at reading
      exact (traced.readers c hc key reading).step step fun j op' time begun => only j op' time begun ▸ reads
    | false =>
      -- the new write has gone past the read
      have stamp := (sound.fits c hc).stamp
      rw [reading, counts, reads] at stamp
      exact absurd stamp (Nat.not_succ_le_self _)
  · intro key reading
    have fits : Call.Fits memory.writes ⟨s.total, op, s.now, stage⟩ := enterFits begins enters
    have matched := fits.matched
    rw [reading] at matched
    obtain rfl : op = .get key := matched.read
    obtain ⟨w, -, rfl⟩ | ⟨missed, -⟩ := enterReads begins enters (.inl rfl)
    · cases reading
    · have missed := Missed.mk run step missed .nil .nil
      rwa [List.append_nil] at missed

/-- Nothing begins, and memory gets nothing new. -/
theorem aside (traced : Traced config init ms s) (step : Erring s new s') (silent : ∀ n op time, .begun n op time ∉ new)
    (entries : ∀ k e, (k, e) ∈ s'.memory.entries → (k, e) ∈ s.memory.entries)
    (writes : s'.memory.writes = s.memory.writes)
    (readers : ∀ c ∈ s'.calls, ∃ d ∈ s.calls, d.number = c.number ∧ d.stage.pending = c.stage.pending) :
    Traced config init (ms ++ new) s' where
  entries := by
    intro k e mem
    obtain ⟨stored, expires, origin⟩ := traced.entries k e (entries k e mem)
    exact ⟨stored, expires, origin.step step fun n op time begun => absurd begun (silent n op time)⟩
  readers := by
    intro c hc key reading
    obtain ⟨d, hd, number, pending⟩ := readers c hc
    have missed := traced.readers d hd key (pending.trans (writes ▸ reading))
    exact number ▸ missed.step step fun n op time begun => absurd begun (silent n op time)

theorem answer (traced : Traced config init ms s) (sound : Sound config s) {before after : List Call} {c : Call}
    {p : Pending} {r r' : Except Error Answer} {memory : Memory} (stands : s.calls = before ++ c :: after)
    (answered : c.stage = .answered p r) (finished : s.memory.finish s.config p r s.now = (memory, r')) :
    Traced config init (ms ++ [.ended c.number c.op r']) { s with memory, calls := before ++ after } := by
  have step := Erring.step (.answer stands answered finished)
  have writes := Memory.finishWrites finished
  have rest : (before ++ after).Sublist s.calls := stands ▸ sublist_without _ _ _
  have silent : ∀ n op time, Mark.begun n op time ∉ [Mark.ended c.number c.op r'] := by simp
  have plain (entries : ∀ k e, (k, e) ∈ memory.entries → (k, e) ∈ s.memory.entries) :=
    traced.aside step silent entries writes fun d hd => ⟨d, rest.subset hd, rfl, rfl⟩
  cases Memory.finishes finished with
  | remembered | missing | passed => exact plain fun _ _ mem => mem
  | takenBack => exact plain fun _ _ mem => (List.mem_filter.mp mem).1
  | @stored key v missed =>
    refine ⟨fun k e mem => ?_, ?_⟩
    · rcases Memory.mem_insert.mp mem with ⟨there, -⟩ | ⟨rfl, rfl⟩
      · obtain ⟨stored, expires, origin⟩ := traced.entries k e there
        exact ⟨stored, expires, origin.step step fun n op time begun => absurd begun (silent n op time)⟩
      · have here : c ∈ s.calls := by simp [stands]
        have matched := (sound.fits c here).matched
        rw [answered, Stage.pending] at matched
        have missed := traced.readers c here k (congrArg Stage.pending answered)
        have get : c.op = .get k := matched.read
        rw [get] at step ⊢
        have settings := sound.settings
        exact ⟨s.now, settings ▸ rfl, .read missed rfl step mem .nil .nil⟩
    · intro d hd key' reading
      have missed := traced.readers d (rest.subset hd) key' (writes ▸ reading)
      exact missed.step step fun n op time begun => absurd begun (silent n op time)

end Traced

theorem stepTraced (step : Erring s new s') (sound : Sound config s) (run : Runs Erring init ms s)
    (traced : Traced config init ms s) : Traced config init (ms ++ new) s' := by
  have one {before after : List Call} {c c' : Call} (stands : s.calls = before ++ c :: after)
      (number : c.number = c'.number) (pending : c.stage.pending = c'.stage.pending) :
      ∀ d ∈ before ++ c' :: after, ∃ d' ∈ s.calls, d'.number = d.number ∧ d'.stage.pending = d.stage.pending := by
    intro d hd
    rcases List.mem_append.mp hd with old | old
    · exact ⟨d, by simp [stands, old], rfl, rfl⟩
    · rcases List.mem_cons.mp old with rfl | old
      · exact ⟨c, by simp [stands], number, pending⟩
      · exact ⟨d, by simp [stands, old], rfl, rfl⟩
  have same : ∀ d ∈ s.calls, ∃ d' ∈ s.calls, d'.number = d.number ∧ d'.stage.pending = d.stage.pending :=
    fun d hd => ⟨d, hd, rfl, rfl⟩
  cases step with
  | fails e shelf stands asked =>
    refine traced.aside (.fails e shelf stands asked) (by simp) (fun _ _ mem => mem) rfl (one stands rfl ?_)
    rw [asked]
    rfl
  | step step =>
    cases step with
    | enter op begins enters => exact traced.enter sound run begins enters
    | move stands moves =>
      exact traced.aside (.step (.move stands moves)) (moveSilent moves) (fun _ _ mem => mem) rfl
        (one stands rfl (movePending moves).symm)
    | answer stands answered finished => exact traced.answer sound stands answered finished
    | drop stands =>
      refine traced.aside (.step (.drop stands)) (by simp) (fun _ _ mem => mem) rfl fun d hd => ⟨d, ?_, rfl, rfl⟩
      exact stands ▸ (sublist_without _ _ _).subset hd
    | pass now later => exact traced.aside (.step (.pass now later)) nofun (fun _ _ mem => mem) rfl same
    | sweep => exact traced.aside (.step .sweep) nofun (fun _ _ mem => (List.mem_filter.mp mem).1) rfl same
    | stop => exact traced.aside (.step .stop) (by simp) (fun _ _ mem => mem) rfl same
    | work works =>
      exact traced.aside (.step (.work works)) (workSilent works) (fun _ _ mem => mem) rfl same

theorem runTraced {shelf : Shelf} (run : Runs Erring (start config shelf) ms s) :
    Traced config (start config shelf) ms s := by
  induction run with
  | nil => exact ⟨nofun, List.forall_mem_nil _⟩
  | next earlier last ih => exact stepTraced last (runErringSound earlier) earlier ih

/-! ### What is answered from memory -/

/-- Memory answers a look at once, or gives a read that has returned something else than the store has. -/
inductive Recalls (s : Front) (k : String) : Answer → Prop where
  | atOnce {op memory a} (reads : Reads k op) (begins : s.memory.begin s.config op s.now = (memory, .served a)) :
      Recalls s k a
  | onReturn {seen v w memory} (other : w ≠ v)
      (finished : s.memory.finish s.config (.read k seen) (.ok (.value v)) s.now = (memory, .ok (.value w))) :
      Recalls s k (.value w)

theorem recallsFresh {a : Answer} (recalls : Recalls s k a) :
    ∃ e, (k, e) ∈ s.memory.entries ∧ s.now < e.expires ∧ (a = .value e.value ∨ a = .flag true) := by
  obtain ⟨w, served, answer⟩ : ∃ w, s.memory.fresh? k s.now = some w ∧ (a = .value w ∨ a = .flag true) := by
    cases recalls with
    | atOnce reads begins =>
      rcases reads with rfl | rfl
      · rw [Memory.begin_get] at begins
        split at begins <;> cases begins
        exact ⟨_, ‹_›, .inl rfl⟩
      · rw [Memory.begin_has] at begins
        split at begins <;> cases begins
        exact ⟨_, ‹_›, .inr rfl⟩
    | onReturn other finished =>
      cases Memory.finishes finished with
      | remembered served => exact ⟨_, served, .inl rfl⟩
      | stored | passed => exact absurd rfl other
  obtain ⟨e, mem, fresh, rfl⟩ := Memory.exists_of_fresh? served
  exact ⟨e, mem, by simpa [Entry.isFresh] using fresh, answer⟩

/-- Whatever the calls, the batch writer and the store do, as long as a call has memory to itself between two waits: an
entry of memory was stored by the latest write of its key, or by a read that missed after that had begun and during
which no write of any key began; and an answer from memory comes from an entry whose time has not run out since it was
stored. -/
theorem entriesOfLatestWrite {shelf : Shelf} (run : Runs Erring (start config shelf) ms s) :
    (∀ k e, (k, e) ∈ s.memory.entries →
      ∃ stored, e.expires = stored + config.expiration ∧ Origin (start config shelf) k e stored ms s) ∧
    ∀ k a, Recalls s k a → ∃ e stored, (k, e) ∈ s.memory.entries ∧ (a = .value e.value ∨ a = .flag true) ∧
      Origin (start config shelf) k e stored ms s ∧ s.now < stored + config.expiration := by
  have entries := (runTraced run).entries
  refine ⟨entries, fun k a recalls => ?_⟩
  obtain ⟨e, mem, fresh, answer⟩ := recallsFresh recalls
  obtain ⟨stored, expires, origin⟩ := entries k e mem
  exact ⟨e, stored, mem, answer, origin, expires ▸ fresh⟩

/-! ### An entry that is renewed -/

def renewedMarks : List Mark :=
  [.begun 0 (.set "k" (.bool true)) 0, .landed 0 (.set "k" (.bool true)) [],
   .ended 0 (.set "k" (.bool true)) (.ok .done), .begun 1 (.get "k") (Span.ofSeconds 300), .landed 1 (.get "k") [],
   .ended 1 (.get "k") (.ok (.value (.bool true)))]

theorem renewedRun : ∃ s, Runs Erring (start {} fun _ => none) renewedMarks s ∧
    ("k", ⟨.bool true, Span.ofSeconds 600, 0⟩) ∈ s.memory.entries ∧ Recalls s "k" (.flag true) := by
  have begins : Run (start {} fun _ => none) [] _ := .nil
  have sets := begins.next (.enter (.set "k" (.bool true)) rfl (.asks (.write "k" 1)))
  have lands := sets.next (@Step.move _ [] [] _ _ _ _ _ rfl (.lands _))
  have told := lands.next (@Step.answer _ [] [] _ _ _ _ _ rfl rfl rfl)
  have later := told.next (.pass (Span.ofSeconds 300) (Nat.zero_le _))
  have reads := later.next (.enter (.get "k") rfl (.asks (.read "k" 1)))
  have found := reads.next (@Step.move _ [] [] _ _ _ _ _ rfl (.lands _))
  have renewed := found.next (@Step.answer _ [] [] _ _ _ _ _ rfl rfl rfl)
  exact ⟨_, renewed.mono fun _ _ _ => .step, List.mem_singleton.mpr rfl, .atOnce (.inr rfl) rfl⟩

end Front
end Switchyard.State
