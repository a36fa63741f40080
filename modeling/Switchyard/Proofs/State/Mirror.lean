import Switchyard.Proofs.State.Agreement
import Switchyard.Proofs.State.Overtaking
/-!
A cache without batching whose calls come one after another. Between the calls memory has nothing, fresh or expired, but
what the store holds; so the answers are those of the store, but where the store itself fails.
-/
namespace Switchyard.State

namespace Shelf

variable {s : Shelf} {op : Op} {key : String} {value : Json}

/-- What is answered when an operation has been done; a missing key is as good as deleted. -/
def reply (s : Shelf) : Op → Except Error Answer
  | .delete _ => .ok .done
  | op => s.answer op

theorem apply_twice : (s.apply op).apply op = s.apply op := by
  funext k
  by_cases written : k ∈ op.written
  · exact apply_present written
  · exact apply_absent written

theorem answer_reply : s.answer op = (s.apply op).reply op ∨
    (∃ key, op = .delete key) ∧ ∃ e, s.answer op = .error e ∧ e.isNotFound = true := by
  cases op with
  | has | get | set | batchSet => exact .inl rfl
  | delete key =>
    cases held : s key with
    | some v =>
      left
      simp [answer, reply, held]
    | none => exact .inr ⟨⟨key, rfl⟩, .notFound key, by simp [answer, held], rfl⟩

theorem held_of_reply (replied : s.reply (.get key) = .ok (.value value)) : s key = some value := by
  cases held : s key with
  | none => simp [reply, answer, held] at replied
  | some v => simpa [reply, answer, held] using replied

end Shelf

namespace Front

variable {config : CacheConfig} {shelf : Shelf} {ms new : List Mark} {s s' : Front} {k : String} {e : Entry} {n : Nat}

/-- A call begins when no other is under way, and none is given up. -/
structure InTurn (s : Front) (new : List Mark) (s' : Front) : Prop where
  step : Step s new s'
  alone : ∀ n op time, .begun n op time ∈ new → s.calls = []
  kept : ∀ n, .dropped n ∉ new

theorem InTurn.run (run : Runs InTurn (start config shelf) ms s) : Run (start config shelf) ms s :=
  run.mono fun _ _ _ turn => turn.step

/-- An entry is as the store has it, or is that of the write under way. -/
def Stage.Mirrors (shelf : Shelf) (op : Op) (k : String) (e : Entry) : Stage → Prop
  | .asked p => k ∉ op.written ∧ shelf k = some e.value ∨ op = .set k e.value ∧ p = .write k e.version
  | .placing _ _ => False
  | .answered p r => shelf k = some e.value ∨ p = .write k e.version ∧ ∃ err, r = .error err

def Failed (ms : List Mark) (n : Nat) (r : Except Error Answer) : Prop :=
  ∃ e, r = .error e ∧ e.isNotFound = false ∧ .failed n ∈ ms

/-- The store has done it, unless it has failed. -/
def Stage.Told (ms : List Mark) (n : Nat) (shelf : Shelf) (op : Op) : Stage → Prop
  | .asked _ => True
  | .placing _ _ => False
  | .answered _ r => shelf.apply op = shelf ∧ (r = shelf.reply op ∨
      (∃ key, op = .delete key) ∧ ∃ e, r = .error e ∧ e.isNotFound = true) ∨ Failed ms n r

inductive Mirrored (ms : List Mark) (s : Front) : Prop where
  | idle (free : s.calls = []) (same : ∀ k e, (k, e) ∈ s.memory.entries → s.shelf k = some e.value)
  | busy {c} (only : s.calls = [c]) (mirrors : ∀ k e, (k, e) ∈ s.memory.entries → c.stage.Mirrors s.shelf c.op k e)
      (told : c.stage.Told ms c.number s.shelf c.op)

theorem Failed.later {r : Except Error Answer} (failed : Failed ms n r) : Failed (ms ++ new) n r :=
  failed.imp fun _ failed => ⟨failed.1, failed.2.1, List.mem_append_left _ failed.2.2⟩

theorem Stage.Told.later {op : Op} {stage : Stage} (told : stage.Told ms n shelf op) :
    stage.Told (ms ++ new) n shelf op := by
  cases stage with
  | asked => trivial
  | placing => exact told
  | answered p r => exact told.imp_right .later

/-! ### The beginning of a call -/

theorem servedReply {m memory : Memory} {op : Op} {now : Instant} {a : Answer}
    (begins : m.begin config op now = (memory, .served a))
    (same : ∀ k e, (k, e) ∈ m.entries → shelf k = some e.value) : .ok a = shelf.reply op := by
  cases op with
  | get key =>
    rw [Memory.begin_get] at begins
    split at begins <;> cases begins
    obtain ⟨e, mem, -, rfl⟩ := Memory.exists_of_fresh? ‹_›
    simp [Shelf.reply, Shelf.answer, same key e mem]
  | has key =>
    rw [Memory.begin_has] at begins
    split at begins <;> cases begins
    obtain ⟨e, mem, -, rfl⟩ := Memory.exists_of_fresh? ‹_›
    simp [Shelf.reply, Shelf.answer, same key e mem]
  | set | delete | batchSet => cases servedRead begins

theorem unqueued {m memory : Memory} {op : Op} {now : Instant} {item : KeyValue} {p : Pending}
    (off : config.batch = false) (begins : m.begin config op now = (memory, .queue item p)) : False := by
  rw [queuedItem begins] at begins
  simp [Memory.begin, off] at begins

theorem enterMirrored {m memory : Memory} {op : Op} {now : Instant} {begun : Begun} {channel channel' : Channel}
    {stage : Stage} {marks : List Mark} (off : config.batch = false)
    (begins : m.begin config op now = (memory, begun)) (enters : Enters channel n begun channel' stage marks)
    (same : ∀ k e, (k, e) ∈ m.entries → shelf k = some e.value) :
    (∀ k e, (k, e) ∈ memory.entries → stage.Mirrors shelf op k e) ∧ stage.Told ms n shelf op := by
  cases enters with
  | served a =>
    refine ⟨fun k e mem => .inl ?_, .inl ⟨?_, .inl (servedReply begins same)⟩⟩
    · rcases beginEntries begins mem with ⟨-, there⟩ | ⟨rfl, -⟩
      · exact same k e there
      · cases servedRead begins
    · exact Shelf.apply_read (servedRead begins)
  | asks p =>
    refine ⟨fun k e mem => ?_, trivial⟩
    exact (beginEntries begins mem).imp (fun ⟨away, there⟩ => ⟨away, same k e there⟩) fun ⟨sets, own, _⟩ => ⟨sets, own⟩
  | accepted | waits | refused => exact (unqueued off begins).elim

/-! ### The answer of the store -/

theorem moveMirrored {shelf' : Shelf} {channel channel' : Channel} {queued : List KeyValue} {marks : List Mark}
    {op : Op} {was stage : Stage} (moves : Moves shelf channel queued n op was marks shelf' channel' stage)
    (told : was.Told ms n shelf op) :
    (∀ k e, was.Mirrors shelf op k e → stage.Mirrors shelf' op k e) ∧ stage.Told (ms ++ marks) n shelf' op := by
  cases moves with
  | lands p =>
    refine ⟨?_, .inl ⟨Shelf.apply_twice, Shelf.answer_reply⟩⟩
    rintro k e (⟨away, same⟩ | ⟨rfl, -⟩)
    · exact .inl ((Shelf.apply_absent away).trans same)
    · exact .inl Shelf.put_same
  | fails p err other =>
    refine ⟨?_, .inr ⟨err, rfl, other, by simp⟩⟩
    rintro k e (⟨-, same⟩ | ⟨-, own⟩)
    · exact .inl same
    · exact .inr ⟨own, err, rfl⟩
  | accepted | refused => exact told.elim

/-! ### The end of a call -/

theorem readMirrored {m memory : Memory} {now : Instant} {key : String} {seen : Nat} {r' : Except Error Answer}
    (finished : m.finish config (.read key seen) (shelf.reply (.get key)) now = (memory, r'))
    (same : ∀ k e, (k, e) ∈ m.entries → shelf k = some e.value) :
    (∀ k e, (k, e) ∈ memory.entries → shelf k = some e.value) ∧ r' = shelf.reply (.get key) := by
  generalize replied : shelf.reply (.get key) = r at finished ⊢
  cases Memory.finishes finished with
  | remembered served =>
    obtain ⟨e, mem, -, rfl⟩ := Memory.exists_of_fresh? served
    cases (Shelf.held_of_reply replied).symm.trans (same key e mem)
    exact ⟨same, rfl⟩
  | stored missed =>
    refine ⟨fun k e mem => ?_, rfl⟩
    rcases Memory.mem_insert.mp mem with ⟨there, -⟩ | ⟨rfl, rfl⟩
    · exact same k e there
    · exact Shelf.held_of_reply replied
  | passed => exact ⟨same, rfl⟩

theorem finishMirrored {m memory : Memory} {op : Op} {now : Instant} {p : Pending} {r r' : Except Error Answer}
    (matched : Matches op p) (finished : m.finish config p r now = (memory, r'))
    (mirrors : ∀ k e, (k, e) ∈ m.entries → (Stage.answered p r).Mirrors shelf op k e)
    (told : (Stage.answered p r).Told ms n shelf op) :
    (∀ k e, (k, e) ∈ memory.entries → shelf k = some e.value) ∧
    (shelf.apply op = shelf ∧ r' = shelf.reply op ∨ Failed ms n r') := by
  have same (other : ∀ k version, p ≠ .write k version) (k : String) (e : Entry) (mem : (k, e) ∈ m.entries) :
      shelf k = some e.value := (mirrors k e mem).resolve_right fun own => other _ _ own.1
  cases matched with
  | served op reads =>
    cases finished
    refine ⟨same nofun, told.imp_left fun ⟨stands, done⟩ => ⟨stands, done.resolve_right ?_⟩⟩
    rintro ⟨⟨key, rfl⟩, -⟩
    cases reads
  | batchSet items =>
    cases finished
    refine ⟨same nofun, told.imp_left fun ⟨stands, done⟩ => ⟨stands, done.resolve_right ?_⟩⟩
    rintro ⟨⟨key, other⟩, -⟩
    cases other
  | get key seen =>
    rcases told with ⟨stands, rfl | ⟨⟨key', other⟩, -⟩⟩ | ⟨err, rfl, other, failed⟩
    · obtain ⟨entries, done⟩ := readMirrored finished (same nofun)
      exact ⟨entries, .inl ⟨stands, done⟩⟩
    · cases other
    · cases finished
      exact ⟨same nofun, .inr ⟨err, rfl, other, failed⟩⟩
  | set key value version =>
    rcases told with ⟨stands, rfl | ⟨⟨key', other⟩, -⟩⟩ | ⟨err, rfl, other, failed⟩
    · cases finished
      refine ⟨fun k e mem => (mirrors k e mem).resolve_right ?_, .inl ⟨stands, rfl⟩⟩
      rintro ⟨-, err, failed⟩
      cases failed
    · cases other
    · cases finished
      refine ⟨fun k e mem => ?_, .inr ⟨err, rfl, other, failed⟩⟩
      obtain ⟨there, others⟩ := List.mem_filter.mp mem
      rcases mirrors k e there with same | ⟨own, -⟩
      · exact same
      · cases own
        simp at others
  | delete key =>
    rcases told with ⟨stands, rfl | ⟨-, err, rfl, absent⟩⟩ | ⟨err, rfl, other, failed⟩
    · cases finished
      exact ⟨same nofun, .inl ⟨stands, rfl⟩⟩
    · simp only [Memory.finish, absent] at finished
      cases finished
      exact ⟨same nofun, .inl ⟨stands, rfl⟩⟩
    · simp only [Memory.finish, other] at finished
      cases finished
      exact ⟨same nofun, .inr ⟨err, rfl, other, failed⟩⟩

/-! ### One call after another -/

theorem lone {calls before after : List Call} {c d : Call} (only : calls = [c])
    (stands : calls = before ++ d :: after) : before = [] ∧ d = c ∧ after = [] := by
  rw [only] at stands
  cases before with
  | nil =>
    cases stands
    exact ⟨rfl, rfl, rfl⟩
  | cons => simp at stands

namespace Mirrored

theorem move (mirrored : Mirrored ms s) {before after : List Call} {c : Call} {shelf : Shelf} {channel : Channel}
    {stage : Stage} {marks : List Mark} (stands : s.calls = before ++ c :: after)
    (moves : Moves s.shelf s.channel s.backlog c.number c.op c.stage marks shelf channel stage) :
    Mirrored (ms ++ marks) { s with shelf, channel, calls := before ++ { c with stage } :: after } := by
  cases mirrored with
  | idle free => simp [free] at stands
  | busy only mirrors told =>
    obtain ⟨rfl, rfl, rfl⟩ := lone only stands
    obtain ⟨mirrors', told'⟩ := moveMirrored moves told
    exact .busy rfl (fun k e mem => mirrors' k e (mirrors k e mem)) told'

theorem answer (mirrored : Mirrored ms s) (sound : Sound config s) {before after : List Call} {c : Call} {p : Pending}
    {r r' : Except Error Answer} {memory : Memory} (stands : s.calls = before ++ c :: after)
    (answered : c.stage = .answered p r) (finished : s.memory.finish s.config p r s.now = (memory, r')) :
    before ++ after = [] ∧ (∀ k e, (k, e) ∈ memory.entries → s.shelf k = some e.value) ∧
    (s.shelf.apply c.op = s.shelf ∧ r' = s.shelf.reply c.op ∨ Failed ms c.number r') := by
  have matched := (sound.fits c (by simp [stands])).matched
  cases mirrored with
  | idle free => simp [free] at stands
  | busy only mirrors told =>
    obtain ⟨rfl, rfl, rfl⟩ := lone only stands
    rw [answered] at matched mirrors told
    exact ⟨rfl, finishMirrored matched finished mirrors told⟩

/-- No call goes on, and memory has got nothing new. -/
theorem aside (mirrored : Mirrored ms s) (calls : s'.calls = s.calls) (shelf : s'.shelf = s.shelf)
    (entries : ∀ k e, (k, e) ∈ s'.memory.entries → (k, e) ∈ s.memory.entries) : Mirrored (ms ++ new) s' := by
  cases mirrored with
  | idle free same => exact .idle (calls.trans free) fun k e mem => shelf ▸ same k e (entries k e mem)
  | busy only mirrors told =>
    exact .busy (calls.trans only) (fun k e mem => shelf ▸ mirrors k e (entries k e mem)) (shelf ▸ told.later)

end Mirrored

theorem stepMirrored (off : config.batch = false) (turn : InTurn s new s') (sound : Sound config s)
    (mirrored : Mirrored ms s) : Mirrored (ms ++ new) s' := by
  obtain ⟨step, alone, kept⟩ := turn
  cases step with
  | enter op begins enters =>
    have free := alone _ _ _ List.mem_cons_self
    have settings := sound.settings
    cases mirrored with
    | idle _ same =>
      obtain ⟨mirrors, told⟩ := enterMirrored (settings ▸ off) begins enters same
      exact .busy (congrArg (· ++ [_]) free) mirrors told
    | busy only => simp [free] at only
  | move stands moves => exact mirrored.move stands moves
  | answer stands answered finished =>
    obtain ⟨free, same, -⟩ := mirrored.answer sound stands answered finished
    exact .idle free same
  | drop => exact absurd List.mem_cons_self (kept _)
  | pass | stop => exact mirrored.aside rfl rfl fun _ _ mem => mem
  | sweep => exact mirrored.aside rfl rfl fun k e mem => (List.mem_filter.mp mem).1
  | work works =>
    rw [sound.alone off] at works
    exact absurd works workAlone

theorem runMirrored (off : config.batch = false) (run : Runs InTurn (start config shelf) ms s) : Mirrored ms s := by
  induction run with
  | nil => exact .idle rfl nofun
  | next earlier last ih => exact stepMirrored off last (runSound (InTurn.run earlier)) ih

/-- A call under way can come to its end. -/
theorem canEnd (off : config.batch = false) (run : Runs InTurn (start config shelf) ms s) {c : Call}
    (underWay : c ∈ s.calls) : ∃ more s' r s'', Runs InTurn s more s' ∧ InTurn s' [.ended c.number c.op r] s'' := by
  obtain ⟨before, after, stands⟩ := List.append_of_mem underWay
  cases runMirrored off run with
  | idle free => simp [free] at stands
  | busy only mirrors told =>
    obtain ⟨rfl, rfl, rfl⟩ := lone only stands
    obtain ⟨n, op, began, stage⟩ := c
    cases stage with
    | asked p =>
      have lands : InTurn s _ _ := ⟨.move stands (.lands p), by simp, by simp⟩
      exact ⟨_, _, _, _, Runs.nil.next lands,
        @Step.answer _ [] [] ⟨n, op, began, .answered p (s.shelf.answer op)⟩ p _ _ _ rfl rfl rfl, by simp, by simp⟩
    | answered p r => exact ⟨_, _, _, _, .nil, .answer stands rfl rfl, by simp, by simp⟩
    | placing => exact told.elim

/-- Without batching, over a store that nobody else changes and that fails with any error but that of a missing key, for
calls that come one after another: while there is none, every entry of memory has what the store has for its key; and a
call ends with the answer of the store, where the operation then stands and a missing key may be deleted, unless the
store has failed on it. -/
theorem answersAsStore (off : config.batch = false) (run : Runs InTurn (start config shelf) ms s) :
    (s.calls = [] → ∀ k e, (k, e) ∈ s.memory.entries → s.shelf k = some e.value) ∧
    ∀ n op r s', InTurn s [.ended n op r] s' → s'.calls = [] ∧
      (s'.shelf.apply op = s'.shelf ∧ r = s'.shelf.reply op ∨ Failed ms n r) := by
  have mirrored := runMirrored off run
  have sound := runSound (InTurn.run run)
  refine ⟨fun free => ?_, fun n op r s' turn => ?_⟩
  · cases mirrored with
    | idle _ same => exact same
    | busy only => simp [free] at only
  · obtain ⟨step, -, -⟩ := turn
    generalize said : [Mark.ended n op r] = marks at step
    cases step with
    | answer stands answered finished =>
      cases said
      obtain ⟨none, -, told⟩ := mirrored.answer sound stands answered finished
      exact ⟨none, told⟩
    | move stands moves => exact absurd (said ▸ List.mem_cons_self) (moveUnended moves n op r)
    | work works => exact absurd (said ▸ List.mem_cons_self) (workUnasked works).2
    | _ => cases said

/-! ### A write that fails, and one that is forgotten -/

def mendedLoss : Error := .internal "connection refused" none

def mendedMarks : List Mark :=
  [.begun 0 (.set "k" (.bool true)) 0, .failed 0, .ended 0 (.set "k" (.bool true)) (.error mendedLoss),
   .begun 1 (.delete "k") 0, .landed 1 (.delete "k") [], .ended 1 (.delete "k") (.ok .done),
   .begun 2 (.set "k" (.bool true)) 0, .landed 2 (.set "k" (.bool true)) [],
   .ended 2 (.set "k" (.bool true)) (.ok .done), .begun 3 (.get "k") (Span.ofSeconds 300), .landed 3 (.get "k") []]

/-- The entry of the second write has expired when the read begins. -/
theorem mendedRun : ∃ s s', Runs InTurn (start {} fun _ => none) mendedMarks s ∧
    InTurn s [.ended 3 (.get "k") (.ok (.value (.bool true)))] s' := by
  have begins : Runs InTurn (start {} fun _ => none) [] _ := .nil
  have sets := begins.next
    ⟨.enter (.set "k" (.bool true)) rfl (.asks (.write "k" 1)), fun _ _ _ _ => rfl, by simp⟩
  have fails := sets.next ⟨@Step.move _ [] [] _ _ _ _ _ rfl (.fails _ mendedLoss rfl), by simp, by simp⟩
  have told := fails.next ⟨@Step.answer _ [] [] _ _ _ _ _ rfl rfl rfl, by simp, by simp⟩
  have deletes := told.next ⟨.enter (.delete "k") rfl (.asks .deletion), fun _ _ _ _ => rfl, by simp⟩
  have missing := deletes.next ⟨@Step.move _ [] [] _ _ _ _ _ rfl (.lands _), by simp, by simp⟩
  have done := missing.next ⟨@Step.answer _ [] [] _ _ _ _ _ rfl rfl rfl, by simp, by simp⟩
  have setsAgain := done.next
    ⟨.enter (.set "k" (.bool true)) rfl (.asks (.write "k" 3)), fun _ _ _ _ => rfl, by simp⟩
  have lands := setsAgain.next ⟨@Step.move _ [] [] _ _ _ _ _ rfl (.lands _), by simp, by simp⟩
  have written := lands.next ⟨@Step.answer _ [] [] _ _ _ _ _ rfl rfl rfl, by simp, by simp⟩
  have later := written.next ⟨.pass (Span.ofSeconds 300) (Nat.zero_le _), nofun, nofun⟩
  have reads := later.next ⟨.enter (.get "k") rfl (.asks (.read "k" 3)), fun _ _ _ _ => rfl, by simp⟩
  have found := reads.next ⟨@Step.move _ [] [] _ _ _ _ _ rfl (.lands _), by simp, by simp⟩
  let answered : Stage := .answered (.read "k" 3) (.ok (.value (.bool true)))
  exact ⟨_, _, found, @Step.answer _ [] [] ⟨3, .get "k", Span.ofSeconds 300, answered⟩ _ _ _ _ rfl rfl rfl, by simp,
    by simp⟩

theorem mendedAnswers : ∃ s s', Runs InTurn (start {} fun _ => none) mendedMarks s ∧
    InTurn s [.ended 3 (.get "k") (.ok (.value (.bool true)))] s' ∧ s'.calls = [] ∧
    (s'.shelf.apply (.get "k") = s'.shelf ∧ .ok (.value (.bool true)) = s'.shelf.reply (.get "k") ∨
      Failed mendedMarks 3 (.ok (.value (.bool true)))) := by
  obtain ⟨s, s', run, ends⟩ := mendedRun
  exact ⟨s, s', run, ends, (answersAsStore rfl run).2 _ _ _ _ ends⟩

end Front
end Switchyard.State
