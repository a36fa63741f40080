import Switchyard.Proofs.State.Front
import Switchyard.State.Service
/-!
A write without batching that is dropped before the store has done it. Memory was written first, and only an answer
takes the entry back: until it expires every read of the key is served the value that was never stored, and from then
on reads are answered what the store holds.
-/
namespace Switchyard.State.Front

open Memory (Keeps)

def Untouched (k : String) (ms : List Mark) : Prop :=
  (∀ n op time, Mark.begun n op time ∈ ms → k ∉ op.written) ∧
  ∀ n op queued, Mark.landed n op queued ∈ ms → k ∉ op.written

/-- The call is given up before the store has done anything for it, and nobody else writes its key. -/
structure Abandoned (n : Nat) (k : String) (ms : List Mark) : Prop where
  dropped : Mark.dropped n ∈ ms
  unanswered : ∀ op r, Mark.ended n op r ∉ ms
  untouched : Untouched k ms

def Reads (k : String) (op : Op) : Prop := op = .get k ∨ op = .has k

def recalled (value : Json) : Op → Answer
  | .get _ => .value value
  | _ => .flag true

/-- The answer to a read, if it succeeds, is what the store holds. -/
def Truthful (home : Option Json) (op : Op) (r : Except Error Answer) : Prop :=
  match op with
  | .get _ => ∀ x, Service.found r = .ok x → x = home
  | .has _ => ∀ a, r = .ok a → a = .flag home.isSome
  | _ => True

theorem truthfulAnswer {shelf : Shelf} {k : String} {op : Op} (reads : Reads k op) :
    Truthful (shelf k) op (shelf.answer op) := by
  rcases reads with rfl | rfl
  · intro x found
    cases held : shelf k with
    | some v =>
      simp only [Shelf.answer, held, Service.found, Except.ok.injEq] at found
      exact found.symm
    | none =>
      have missing : (Error.notFound k).isNotFound = true := rfl
      simp only [Shelf.answer, held, Service.found, missing, if_true, Except.ok.injEq] at found
      exact found.symm
  · rintro a ⟨⟩
    rfl

theorem truthfulFailure {home : Option Json} {op : Op} {e : Error} (other : e.isNotFound = false) :
    Truthful home op (.error e) := by
  cases op with
  | get key =>
    intro x found
    simp [Service.found, other] at found
  | has key => nofun
  | _ => trivial

theorem truthfulRecall {k : String} {op : Op} {w : Json} (reads : Reads k op) :
    Truthful (some w) op (.ok (recalled w op)) := by
  rcases reads with rfl | rfl
  · rintro x ⟨⟩
    rfl
  · rintro a ⟨⟩
    rfl

theorem enterReads {m memory : Memory} {config : CacheConfig} {op : Op} {now : Instant} {begun : Begun}
    {channel channel' : Channel} {n : Nat} {stage : Stage} {marks : List Mark} {k : String}
    (begins : m.begin config op now = (memory, begun)) (enters : Enters channel n begun channel' stage marks)
    (reads : Reads k op) :
    (∃ w, m.fresh? k now = some w ∧ stage = .answered .pass (.ok (recalled w op))) ∨
    (m.fresh? k now = none ∧ ∃ p, stage = .asked p) := by
  rcases reads with rfl | rfl
  · rw [Memory.begin_get] at begins
    split at begins <;> cases begins <;> cases enters
    · exact .inl ⟨_, ‹_›, rfl⟩
    · exact .inr ⟨‹_›, _, rfl⟩
  · rw [Memory.begin_has] at begins
    split at begins <;> cases begins <;> cases enters
    · exact .inl ⟨_, ‹_›, rfl⟩
    · exact .inr ⟨‹_›, _, rfl⟩

theorem moveAway {shelf shelf' : Shelf} {channel channel' : Channel} {queued : List KeyValue} {marks : List Mark}
    {n : Nat} {op : Op} {was stage : Stage} {k : String}
    (moves : Moves shelf channel queued n op was marks shelf' channel' stage) (untouched : Untouched k marks) :
    shelf' k = shelf k := by
  cases moves with
  | lands => exact Shelf.apply_absent (untouched.2 _ _ _ List.mem_cons_self)
  | fails | accepted | refused => rfl

theorem moveTruthful {shelf shelf' : Shelf} {channel channel' : Channel} {queued : List KeyValue} {marks : List Mark}
    {n : Nat} {op : Op} {was : Stage} {p : Pending} {r : Except Error Answer} {k : String}
    (moves : Moves shelf channel queued n op was marks shelf' channel' (.answered p r))
    (placed : ∀ item p, was = .placing item p → op = .set item.key item.value) (reads : Reads k op) :
    Truthful (shelf k) op r := by
  cases moves with
  | lands => exact truthfulAnswer reads
  | fails _ _ other => exact truthfulFailure other
  | accepted item | refused item =>
    have set := placed item p rfl
    rcases reads with h | h <;> rw [h] at set <;> cases set

section Lingering

/- The key, the entry of the write, what the store holds, and the number of the write. -/
variable {k : String} {own : Entry} {home : Option Json} {n : Nat}

/-- What a read begun at a time is to be answered. -/
def Due (own : Entry) (home : Option Json) (op : Op) (began : Instant) (r : Except Error Answer) : Prop :=
  (began < own.expires → r = .ok (recalled own.value op)) ∧ (own.expires ≤ began → Truthful home op r)

/-- A call under way while the entry lingers, after the marks `ms`. -/
structure Call.Bears (k : String) (own : Entry) (home : Option Json) (n : Nat) (ms : List Mark) (now : Instant)
    (total writes : Nat) (c : Call) : Prop where
  number : c.number < total
  began : c.began ≤ now
  fits : c.Fits writes
  born : ∀ op time, Mark.begun c.number op time ∈ ms → n < c.number ∧ op = c.op ∧ time = c.began
  writer : c.stage.pending = .write k own.version → c.number = n
  reader : ∀ key seen, c.stage.pending = .read key seen → seen < own.version ∨ n < c.number
  early : n < c.number → Reads k c.op → c.began < own.expires →
    c.stage = .answered .pass (.ok (recalled own.value c.op))
  late : n < c.number → Reads k c.op → own.expires ≤ c.began → ∀ p r, c.stage = .answered p r → Truthful home c.op r

/-- The entry of the write, as long as it is fresh, is what memory has for the key; else memory has what the store
holds. -/
structure Lingers (k : String) (own : Entry) (home : Option Json) (n : Nat) (ms : List Mark) (s : Front) : Prop where
  plain : s.config.batch = false
  alone : s.worker = .gone
  later : n < s.total
  shelf : s.shelf k = home
  entries : ∀ e, (k, e) ∈ s.memory.entries → e = own ∨ home = some e.value
  stays : s.now < own.expires → s.memory.find? k = some own
  newest : own.version ≤ s.memory.writes
  known : ∀ j op time, Mark.begun j op time ∈ ms → j < s.total
  calls : ∀ c ∈ s.calls, c.Bears k own home n ms s.now s.total s.memory.writes

variable {ms new : List Mark} {s s' : Front} {c : Call} {now now' : Instant} {total total' writes writes' : Nat}

theorem Call.Bears.mono (bears : c.Bears k own home n ms now total writes) (nowLe : now ≤ now')
    (totalLe : total ≤ total') (writesLe : writes ≤ writes') (silent : ∀ op time, Mark.begun c.number op time ∉ new) :
    c.Bears k own home n (ms ++ new) now' total' writes' where
  number := Nat.lt_of_lt_of_le bears.number totalLe
  began := Nat.le_trans bears.began nowLe
  fits := bears.fits.mono writesLe
  born := by
    intro op time mem
    rcases List.mem_append.mp mem with old | old
    · exact bears.born op time old
    · exact absurd old (silent op time)
  writer := bears.writer
  reader := bears.reader
  early := bears.early
  late := bears.late

namespace Lingers

/-- Calls are served the entry of the write while it is fresh, and what the store holds afterwards. -/
theorem remembers (lingers : Lingers k own home n ms s) {w : Json} (served : s.memory.fresh? k s.now = some w) :
    (s.now < own.expires → w = own.value) ∧ (own.expires ≤ s.now → home = some w) := by
  obtain ⟨e, mem, fresh, rfl⟩ := Memory.exists_of_fresh? served
  refine ⟨fun early => ?_, fun late => ?_⟩
  · have own' := Memory.fresh?_of_find? (lingers.stays early) (by simpa [Entry.isFresh] using early)
    rw [own'] at served
    exact (Option.some.inj served).symm
  · rcases lingers.entries e mem with rfl | same
    · simp only [Entry.isFresh, decide_eq_true_eq] at fresh
      exact absurd fresh (Nat.not_lt.mpr late)
    · exact same

theorem late_of_missed (lingers : Lingers k own home n ms s) (missed : s.memory.fresh? k s.now = none) :
    own.expires ≤ s.now := by
  refine Nat.le_of_not_lt fun early => ?_
  have own' := Memory.fresh?_of_find? (lingers.stays early) (by simpa [Entry.isFresh] using early)
  rw [own'] at missed
  cases missed

theorem keeping (lingers : Lingers k own home n ms s) {memory : Memory} (keeps : Keeps s.memory k s.now memory) :
    (∀ e, (k, e) ∈ memory.entries → e = own ∨ home = some e.value) ∧
    (s.now < own.expires → memory.find? k = some own) :=
  ⟨fun e he => lingers.entries e (keeps.entries e he),
    fun early => keeps.fresh own (lingers.stays early) (by simpa [Entry.isFresh] using early)⟩

theorem enter (lingers : Lingers k own home n ms s) {op : Op} {memory : Memory} {begun : Begun} {channel : Channel}
    {stage : Stage} {marks : List Mark} (begins : s.memory.begin s.config op s.now = (memory, begun))
    (enters : Enters s.channel s.total begun channel stage marks) (away : k ∉ op.written) :
    Lingers k own home n (ms ++ .begun s.total op s.now :: marks)
      { s with memory, channel, calls := s.calls ++ [⟨s.total, op, s.now, stage⟩], total := s.total + 1 } := by
  obtain ⟨entries, stays⟩ := lingers.keeping (Memory.beginKeeps begins away)
  have writes := Memory.beginWrites begins
  have only : ∀ j op' time, Mark.begun j op' time ∈ Mark.begun s.total op s.now :: marks →
      j = s.total ∧ op' = op ∧ time = s.now := by
    intro j op' time mem
    cases enters <;> simpa using mem
  have fits : Call.Fits memory.writes ⟨s.total, op, s.now, stage⟩ := enterFits begins enters
  refine ⟨lingers.plain, lingers.alone, Nat.lt_succ_of_lt lingers.later, lingers.shelf, entries, stays,
    Nat.le_trans lingers.newest writes, ?_, ?_⟩
  · intro j op' time mem
    rcases List.mem_append.mp mem with old | old
    · exact Nat.lt_succ_of_lt (lingers.known j op' time old)
    · exact (only j op' time old).1 ▸ Nat.lt_succ_self _
  · refine List.forall_mem_append.mpr ⟨fun c hc => ?_, List.forall_mem_singleton.mpr ?_⟩
    · refine (lingers.calls c hc).mono (Nat.le_refl _) (Nat.le_succ _) writes fun op' time mem => ?_
      exact absurd (only _ op' time mem).1 (Nat.ne_of_lt (lingers.calls c hc).number)
    · refine ⟨Nat.lt_succ_self _, Nat.le_refl _, fits, ?_, ?_, fun _ _ _ => .inr lingers.later, ?_, ?_⟩
      · intro op' time mem
        rcases List.mem_append.mp mem with old | old
        · exact absurd (lingers.known _ op' time old) (Nat.lt_irrefl _)
        · exact ⟨lingers.later, (only _ op' time old).2⟩
      · intro writes
        have matched := fits.matched
        rw [writes] at matched
        obtain ⟨value, rfl⟩ := matched.write
        exact absurd (List.mem_singleton.mpr rfl) away
      · intro _ reads early
        obtain ⟨w, served, rfl⟩ | ⟨missed, -⟩ := enterReads begins enters reads
        · rw [(lingers.remembers served).1 early]
        · have late := lingers.late_of_missed missed
          exact absurd early (Nat.not_lt.mpr late)
      · rintro _ reads late p r answered
        obtain ⟨w, served, rfl⟩ | ⟨missed, p, rfl⟩ := enterReads begins enters reads
        · obtain ⟨rfl, rfl⟩ : Pending.pass = p ∧ (.ok (recalled w op) : Except Error Answer) = r := by
            simpa using answered
          rw [(lingers.remembers served).2 late]
          exact truthfulRecall reads
        · cases answered

theorem move (lingers : Lingers k own home n ms s) {before after : List Call} {shelf : Shelf} {channel : Channel}
    {stage : Stage} {marks : List Mark} (stands : s.calls = before ++ c :: after)
    (moves : Moves s.shelf s.channel s.backlog c.number c.op c.stage marks shelf channel stage)
    (untouched : Untouched k marks) :
    Lingers k own home n (ms ++ marks) { s with shelf, channel, calls := before ++ { c with stage } :: after } := by
  have silent := moveSilent moves
  have calls := lingers.calls
  rw [stands, List.forall_mem_append, List.forall_mem_cons] at calls
  obtain ⟨bearBefore, bears, bearAfter⟩ := calls
  have others : ∀ d : Call, d.Bears k own home n ms s.now s.total s.memory.writes →
      d.Bears k own home n (ms ++ marks) s.now s.total s.memory.writes := fun d bears =>
    bears.mono (Nat.le_refl _) (Nat.le_refl _) (Nat.le_refl _) (silent d.number)
  have pending := movePending moves
  have shelf' : shelf k = home := (moveAway moves untouched).trans lingers.shelf
  refine ⟨lingers.plain, lingers.alone, lingers.later, shelf', lingers.entries, lingers.stays, lingers.newest, ?_, ?_⟩
  · intro j op time mem
    rcases List.mem_append.mp mem with old | old
    · exact lingers.known j op time old
    · exact absurd old (silent j op time)
  · refine List.forall_mem_append.mpr ⟨fun d hd => others d (bearBefore d hd),
      List.forall_mem_cons.mpr ⟨?_, fun d hd => others d (bearAfter d hd)⟩⟩
    have same := others c bears
    refine ⟨same.number, same.began, moveFits moves same.fits, same.born, ?_, ?_, ?_, ?_⟩
    · intro writes
      exact same.writer (pending ▸ writes)
    · intro key seen reading
      exact same.reader key seen (pending ▸ reading)
    · intro later reads early
      exact absurd (same.early later reads early) (moveWaits moves _ _)
    · rintro later reads late p r rfl
      rw [← lingers.shelf]
      exact moveTruthful moves bears.fits.placed reads

theorem answerMemory (lingers : Lingers k own home n ms s)
    (bears : c.Bears k own home n ms s.now s.total s.memory.writes) {p : Pending} {r r' : Except Error Answer} {memory : Memory} (answered : c.stage = .answered p r)
    (finished : s.memory.finish s.config p r s.now = (memory, r')) (other : c.number ≠ n) :
    (∀ e, (k, e) ∈ memory.entries → e = own ∨ home = some e.value) ∧
    (s.now < own.expires → memory.find? k = some own) := by
  have pending : c.stage.pending = p := by rw [answered]; rfl
  cases Memory.finishes finished with
  | remembered | missing | passed => exact ⟨lingers.entries, lingers.stays⟩
  | @takenBack key version e =>
    refine ⟨fun e he => lingers.entries e (List.mem_filter.mp he).1, fun early => ?_⟩
    refine Memory.lookup_filter (lingers.stays early) ?_
    -- only the write itself would take its entry back
    by_cases mine : k = key ∧ own.version = version
    · obtain ⟨rfl, rfl⟩ := mine
      exact absurd (bears.writer pending) other
    · rw [Bool.not_eq_true', ← Bool.not_eq_true]
      simpa using mine
  | @stored key v missed =>
    refine ⟨fun e he => ?_, fun early => ?_⟩
    · rcases Memory.mem_insert.mp he with ⟨he, -⟩ | ⟨rfl, rfl⟩
      · exact lingers.entries e he
      · -- the read has seen the write, so it has begun after it, and the store was asked after the entry expired
        have later : n < c.number := (bears.reader k _ pending).resolve_left (Nat.not_lt.mpr lingers.newest)
        have matched := bears.fits.matched
        rw [pending] at matched
        have same := matched.read
        have reads : Reads k c.op := .inl same
        have late : own.expires ≤ c.began := by
          refine Nat.le_of_not_lt fun early => ?_
          have served := bears.early later reads early
          rw [answered] at served
          cases served
        have truthful := bears.late later reads late _ _ answered
        rw [same] at truthful
        exact .inr (truthful (some v) rfl).symm
    · by_cases same : k = key
      · subst same
        exact absurd early (Nat.not_lt.mpr (lingers.late_of_missed missed))
      · exact Memory.find?_insert_other same (lingers.stays early)

theorem answerDue (lingers : Lingers k own home n ms s) (bears : c.Bears k own home n ms s.now s.total s.memory.writes)
    {p : Pending} {r r' : Except Error Answer} {memory : Memory} (answered : c.stage = .answered p r)
    (finished : s.memory.finish s.config p r s.now = (memory, r')) (later : n < c.number) (reads : Reads k c.op) :
    Due own home c.op c.began r' := by
  refine ⟨fun early => ?_, fun late => ?_⟩
  · have served := bears.early later reads early
    rw [answered] at served
    obtain ⟨rfl, rfl⟩ : p = .pass ∧ r = .ok (recalled own.value c.op) := by simpa using served
    cases finished
    rfl
  · have truthful := bears.late later reads late p r answered
    have matched := bears.fits.matched
    rw [answered, Stage.pending] at matched
    cases Memory.finishes finished with
    | stored | takenBack | passed => exact truthful
    | @remembered key seen v w served =>
      -- memory has had the key since, with what the store holds
      rw [matched.read] at reads ⊢
      obtain rfl : key = k := by simpa [Reads] using reads
      rw [(lingers.remembers served).2 (Nat.le_trans late bears.began)]
      exact truthfulRecall reads
    | missing =>
      obtain ⟨key, same⟩ := matched.deletion
      rw [same] at reads
      simp [Reads] at reads

theorem answer (lingers : Lingers k own home n ms s) {before after : List Call} {p : Pending}
    {r r' : Except Error Answer} {memory : Memory} (stands : s.calls = before ++ c :: after)
    (answered : c.stage = .answered p r) (finished : s.memory.finish s.config p r s.now = (memory, r'))
    (other : c.number ≠ n) :
    Lingers k own home n (ms ++ [.ended c.number c.op r']) { s with memory, calls := before ++ after } := by
  have calls := lingers.calls
  rw [stands, List.forall_mem_append, List.forall_mem_cons] at calls
  obtain ⟨bearBefore, bears, bearAfter⟩ := calls
  have others : ∀ d : Call, d.Bears k own home n ms s.now s.total s.memory.writes →
      d.Bears k own home n (ms ++ [.ended c.number c.op r']) s.now s.total memory.writes := fun d bears =>
    bears.mono (Nat.le_refl _) (Nat.le_refl _) (Nat.le_of_eq (Memory.finishWrites finished).symm) (by simp)
  obtain ⟨entries, stays⟩ := lingers.answerMemory bears answered finished other
  refine ⟨lingers.plain, lingers.alone, lingers.later, lingers.shelf, entries, stays, ?_, ?_, ?_⟩
  · exact Nat.le_trans lingers.newest (Nat.le_of_eq (Memory.finishWrites finished).symm)
  · intro j op time mem
    exact lingers.known j op time (by simpa using mem)
  · exact List.forall_mem_append.mpr ⟨fun d hd => others d (bearBefore d hd), fun d hd => others d (bearAfter d hd)⟩

theorem drop (lingers : Lingers k own home n ms s) {before after : List Call} {channel : Channel}
    (stands : s.calls = before ++ c :: after) :
    Lingers k own home n (ms ++ [.dropped c.number]) { s with channel, calls := before ++ after } := by
  have calls := lingers.calls
  rw [stands, List.forall_mem_append, List.forall_mem_cons] at calls
  obtain ⟨bearBefore, -, bearAfter⟩ := calls
  have others : ∀ d : Call, d.Bears k own home n ms s.now s.total s.memory.writes →
      d.Bears k own home n (ms ++ [.dropped c.number]) s.now s.total s.memory.writes := fun d bears =>
    bears.mono (Nat.le_refl _) (Nat.le_refl _) (Nat.le_refl _) (by simp)
  refine ⟨lingers.plain, lingers.alone, lingers.later, lingers.shelf, lingers.entries, lingers.stays, lingers.newest,
    ?_, ?_⟩
  · intro j op time mem
    exact lingers.known j op time (by simpa using mem)
  · exact List.forall_mem_append.mpr ⟨fun d hd => others d (bearBefore d hd), fun d hd => others d (bearAfter d hd)⟩

theorem pass (lingers : Lingers k own home n ms s) (later : s.now ≤ now) :
    Lingers k own home n (ms ++ []) { s with now } := by
  have calls : ∀ d ∈ s.calls, d.Bears k own home n (ms ++ []) now s.total s.memory.writes := fun d hd =>
    (lingers.calls d hd).mono later (Nat.le_refl _) (Nat.le_refl _) (by simp)
  rw [List.append_nil] at calls ⊢
  exact { lingers with stays := fun early => lingers.stays (Nat.lt_of_le_of_lt later early), calls }

theorem sweep (lingers : Lingers k own home n ms s) :
    Lingers k own home n (ms ++ []) { s with memory := (s.memory.purge s.now).1 } := by
  obtain ⟨entries, stays⟩ := lingers.keeping Keeps.purge
  rw [List.append_nil]
  exact { lingers with entries, stays }

theorem stop (lingers : Lingers k own home n ms s) :
    Lingers k own home n (ms ++ [.stopping]) { s with stopping := true } := by
  have calls : ∀ d ∈ s.calls, d.Bears k own home n (ms ++ [.stopping]) s.now s.total s.memory.writes := fun d hd =>
    (lingers.calls d hd).mono (Nat.le_refl _) (Nat.le_refl _) (Nat.le_refl _) (by simp)
  exact { lingers with calls, known := fun j op time mem => lingers.known j op time (by simpa using mem) }

end Lingers

def Answers (k : String) (own : Entry) (home : Option Json) (past : List Mark) : Mark → Prop
  | .ended j op r => ∀ time, .begun j op time ∈ past → Reads k op → Due own home op time r
  | _ => True

theorem moveLawful {shelf shelf' : Shelf} {channel channel' : Channel} {queued : List KeyValue} {marks : List Mark}
    {op : Op} {was stage : Stage} (moves : Moves shelf channel queued n op was marks shelf' channel' stage) :
    Lawful (Answers k own home) ms marks := by
  cases moves <;> simp [Lawful, Answers]

theorem lingerStep (step : Step s new s') (lingers : Lingers k own home n ms s) (untouched : Untouched k new)
    (unanswered : ∀ op r, Mark.ended n op r ∉ new) :
    Lingers k own home n (ms ++ new) s' ∧ Lawful (Answers k own home) ms new := by
  cases step with
  | enter op begins enters =>
    refine ⟨lingers.enter begins enters (untouched.1 _ _ _ List.mem_cons_self), trivial, ?_⟩
    cases enters <;> simp [Lawful, Answers]
  | move stands moves =>
    exact ⟨lingers.move stands moves untouched, moveLawful moves⟩
  | @answer before after c p r memory r' stands answered finished =>
    have other : c.number ≠ n := by
      rintro rfl
      exact unanswered _ _ List.mem_cons_self
    refine ⟨lingers.answer stands answered finished other, fun time mem reads => ?_, trivial⟩
    have bears := lingers.calls c (by simp [stands])
    obtain ⟨later, -, rfl⟩ := bears.born _ _ mem
    exact lingers.answerDue bears answered finished later reads
  | drop stands => exact ⟨lingers.drop stands, trivial, trivial⟩
  | pass now later => exact ⟨lingers.pass later, trivial⟩
  | sweep => exact ⟨lingers.sweep, trivial⟩
  | stop => exact ⟨lingers.stop, trivial, trivial⟩
  | work works =>
    rw [lingers.alone] at works
    exact absurd works workAlone

theorem runLingers {init : Front} (run : Run init ms s) (lingers : Lingers k own home n [] init)
    (untouched : Untouched k ms) (unanswered : ∀ op r, Mark.ended n op r ∉ ms) :
    Lingers k own home n ms s ∧ Lawful (Answers k own home) [] ms := by
  induction run with
  | nil => exact ⟨lingers, trivial⟩
  | next earlier last ih =>
    simp only [Untouched, List.mem_append] at untouched unanswered
    obtain ⟨lingers', lawful⟩ := ih
      ⟨fun n op time mem => untouched.1 n op time (.inl mem), fun n op q mem => untouched.2 n op q (.inl mem)⟩
      (fun op r mem => unanswered op r (.inl mem))
    obtain ⟨lingers'', new⟩ := lingerStep last lingers'
      ⟨fun n op time mem => untouched.1 n op time (.inr mem), fun n op q mem => untouched.2 n op q (.inr mem)⟩
      (fun op r mem => unanswered op r (.inr mem))
    exact ⟨lingers'', Lawful.append.mpr ⟨lawful, by simpa using new⟩⟩

end Lingering

theorem setLingers {config : CacheConfig} {s s' : Front} {n : Nat} {k : String} {value : Json} {time : Instant}
    {marks : List Mark} (sound : Sound config s) (off : config.batch = false)
    (begins : Step s (.begun n (.set k value) time :: marks) s') :
    ∃ version, Lingers k ⟨value, time + config.expiration, version⟩ (s.shelf k) n [] s' := by
  obtain ⟨settings, alone, numbers, times, fits⟩ := sound
  subst settings
  generalize written : Mark.begun n (.set k value) time :: marks = new at begins
  cases begins with
  | enter op begins enters =>
    cases written
    have writes := Memory.beginWrites begins
    have fits' : Call.Fits _ ⟨s.total, .set k value, s.now, _⟩ := enterFits begins enters
    cases begins
    refine ⟨s.memory.writes + 1, off, alone off, Nat.lt_succ_self _, rfl, ?_, fun _ => Memory.find?_insert_same,
      Nat.le_refl _, nofun, List.forall_mem_append.mpr ⟨fun c hc => ?_, List.forall_mem_singleton.mpr ?_⟩⟩
    · intro e he
      rcases Memory.mem_insert.mp he with ⟨-, other⟩ | ⟨-, same⟩
      · exact absurd rfl other
      · exact .inl same
    · have stamp := (fits c hc).stamp
      refine ⟨Nat.lt_succ_of_lt (numbers c hc), times c hc, (fits c hc).mono writes, nofun, ?_, ?_, ?_, ?_⟩
      · intro writing
        rw [writing] at stamp
        exact absurd stamp (Nat.not_succ_le_self _)
      · intro key seen reading
        rw [reading] at stamp
        exact .inl (Nat.lt_succ_of_le stamp)
      · exact fun later => absurd (numbers c hc) (Nat.lt_asymm later)
      · exact fun later => absurd (numbers c hc) (Nat.lt_asymm later)
    · refine ⟨Nat.lt_succ_self _, Nat.le_refl _, fits', nofun, fun _ => rfl, fun key seen reading => ?_,
        fun later => absurd later (Nat.lt_irrefl _), fun later => absurd later (Nat.lt_irrefl _)⟩
      have matched := fits'.matched
      rw [reading] at matched
      cases matched
  | move stands moves =>
    exact absurd (written ▸ List.mem_cons_self) (moveSilent moves n _ time)
  | work works => exact absurd (written ▸ List.mem_cons_self) (workSilent works n _ time)
  | _ => cases written

/-- Without batching, when a write is given up before the store has done anything for it and nobody else writes its key,
the store holds for the key what it held; a read begun before the entry of the write expires is served the value of the
write; and the answer to a read, if it succeeds, is what the store holds exactly when the read has begun later or the
value of the write says no other. -/
theorem readsAfterAbandonedWrite {config : CacheConfig} {shelf : Shelf} {past more xs ys : List Mark} {s₀ s₁ s : Front}
    {n j : Nat} {k : String} {value : Json} {time began : Instant} {op : Op} {r : Except Error Answer}
    (off : config.batch = false) (earlier : Run (start config shelf) past s₀)
    (begins : Step s₀ (.begun n (.set k value) time :: more) s₁) (later : Run s₁ (xs ++ .ended j op r :: ys) s)
    (abandoned : Abandoned n k (xs ++ .ended j op r :: ys)) (begun : .begun j op began ∈ xs)
    (reads : op = .get k ∨ op = .has k) :
    s.shelf k = s₀.shelf k ∧ (began < time + config.expiration → r = .ok (recalled value op)) ∧
    (Truthful (s.shelf k) op r ↔
      time + config.expiration ≤ began ∨ Truthful (s.shelf k) op (.ok (recalled value op))) := by
  obtain ⟨version, first⟩ := setLingers (runSound earlier) off begins
  obtain ⟨lingers, lawful⟩ := runLingers later first abandoned.untouched abandoned.unanswered
  have due : Due ⟨value, time + config.expiration, version⟩ (s₀.shelf k) op began r :=
    lawful.split began (by simpa using begun) reads
  rw [lingers.shelf]
  refine ⟨rfl, due.1, ?_⟩
  by_cases early : began < time + config.expiration
  · rw [due.1 early]
    exact ⟨.inr, fun h => h.resolve_left (Nat.not_le.mpr early)⟩
  · have late := Nat.le_of_not_lt early
    exact ⟨fun _ => .inl late, fun _ => due.2 late⟩

/-! ### A write given up at once -/

def unsaved : Front :=
  { start {} (fun _ => none) with
    memory := Memory.empty.beginWrite.insert "k" ⟨.bool true, Span.ofSeconds 300, 1⟩
    total := 1 }

def unsavedWriting : Front := { unsaved with calls := [⟨0, .set "k" (.bool true), 0, .asked (.write "k" 1)⟩] }

def unsavedReading : Front :=
  { unsaved with calls := [⟨1, .get "k", 0, .answered .pass (.ok (.value (.bool true)))⟩], total := 2 }

theorem unsavedBegins : Step (start {} fun _ => none) [.begun 0 (.set "k" (.bool true)) 0] unsavedWriting :=
  .enter (.set "k" (.bool true)) rfl (.asks _)

theorem unsavedServed : Run unsavedWriting
    ([.dropped 0, .begun 1 (.get "k") 0] ++ .ended 1 (.get "k") (.ok (.value (.bool true))) :: [])
    { unsaved with total := 2 } := by
  have dropped : Step unsavedWriting [.dropped 0] unsaved :=
    @Step.drop unsavedWriting [] [] ⟨0, .set "k" (.bool true), 0, .asked (.write "k" 1)⟩ rfl
  have fresh : unsaved.memory.fresh? "k" unsaved.now = some (.bool true) :=
    Memory.fresh?_of_find? Memory.find?_insert_same rfl
  have begun : Step unsaved [.begun 1 (.get "k") 0] unsavedReading :=
    .enter (.get "k") (by rw [Memory.begin_get, fresh]) (.served _)
  have ended : Step unsavedReading [.ended 1 (.get "k") (.ok (.value (.bool true)))] { unsaved with total := 2 } :=
    @Step.answer unsavedReading [] [] ⟨1, .get "k", 0, .answered .pass (.ok (.value (.bool true)))⟩ _ _ _ _ rfl rfl rfl
  exact .next (.next (.next .nil dropped) begun) ended

theorem unsavedAbandoned : Abandoned 0 "k"
    ([.dropped 0, .begun 1 (.get "k") 0] ++ .ended 1 (.get "k") (.ok (.value (.bool true))) :: []) where
  dropped := List.mem_cons_self
  unanswered := by simp
  untouched := by
    refine ⟨fun n op time mem => ?_, by simp⟩
    obtain ⟨-, rfl, -⟩ : n = 1 ∧ op = .get "k" ∧ time = 0 := by simpa using mem
    exact List.not_mem_nil

theorem unsavedValueServed : ∃ s₁ s, Step (start {} fun _ => none) [.begun 0 (.set "k" (.bool true)) 0] s₁ ∧
    Run s₁ ([.dropped 0, .begun 1 (.get "k") 0] ++ .ended 1 (.get "k") (.ok (.value (.bool true))) :: []) s ∧
    Abandoned 0 "k" ([.dropped 0, .begun 1 (.get "k") 0] ++ .ended 1 (.get "k") (.ok (.value (.bool true))) :: []) ∧
    ¬ Truthful (s.shelf "k") (.get "k") (.ok (.value (.bool true))) := by
  refine ⟨_, _, unsavedBegins, unsavedServed, unsavedAbandoned, fun truthful => ?_⟩
  have same := truthful (some (.bool true)) rfl
  cases same

theorem unsavedUntilExpiry : ({ unsaved with total := 2 } : Front).shelf "k" = (start {} fun _ => none).shelf "k" ∧
    ((0 : Instant) < 0 + Span.ofSeconds 300 →
      (.ok (.value (.bool true)) : Except Error Answer) = .ok (recalled (.bool true) (.get "k"))) ∧
    (Truthful none (.get "k") (.ok (.value (.bool true))) ↔
      0 + Span.ofSeconds 300 ≤ 0 ∨ Truthful none (.get "k") (.ok (recalled (.bool true) (.get "k")))) :=
  readsAfterAbandonedWrite rfl .nil unsavedBegins unsavedServed unsavedAbandoned
    (List.mem_cons_of_mem _ List.mem_cons_self) (.inl rfl)

end Switchyard.State.Front
