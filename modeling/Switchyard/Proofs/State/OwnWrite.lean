import Switchyard.Proofs.State.Agreement
import Switchyard.Proofs.State.Overtaking
/-!
Reads of a key after a write through the batch writer. The write is answered when its item is accepted, and until its
window is written the value stands in memory only, as long as its entry lasts. A read that reaches the store in between
finds the value from before the write, and may put it into memory, where it outlives the item's arrival.
-/
namespace Switchyard.State.Front

variable {config : CacheConfig} {k : String} {n : Nat} {value : Json} {ms new : List Mark} {s s' : Front}

theorem write_aside {shelf : Shelf} {items : List KeyValue} {op : Op} (away : k ∉ op.written) :
    (shelf.apply op).write items k = shelf.write items k := by
  by_cases mem : k ∈ items.map (·.key)
  · exact Shelf.write_present mem
  · rw [Shelf.write_absent mem, Shelf.write_absent mem, Shelf.apply_absent away]

theorem write_last {shelf : Shelf} {items : List KeyValue} {item : KeyValue} :
    shelf.write (items ++ [item]) k = if k = item.key then some item.value else shelf.write items k := by
  rw [Shelf.write_append]
  rfl

theorem moveUnasked {shelf shelf' : Shelf} {channel channel' : Channel} {queued : List KeyValue} {marks : List Mark}
    {op : Op} {was stage : Stage} (moves : Moves shelf channel queued n op was marks shelf' channel' stage)
    (p : Pending) : stage ≠ .asked p := by
  rintro rfl
  cases moves

def Accepted (n : Nat) (ms : List Mark) : Prop := ∃ item, .accepted n item ∈ ms

theorem Accepted.later (accepted : Accepted n ms) (new : List Mark) : Accepted n (ms ++ new) := by
  obtain ⟨item, mem⟩ := accepted
  exact ⟨item, List.mem_append_left _ mem⟩

/-- The call is the only one that may write the key, and once its item is accepted, the store has the value as soon as
all that is on its way has arrived. -/
structure Carried (k : String) (n : Nat) (value : Json) (ms : List Mark) (s : Front) : Prop where
  number : n < s.total
  writers : ∀ c ∈ s.calls, k ∈ c.op.written → c.number = n
  own : ∀ c ∈ s.calls, c.number = n → c.op = .set k value ∧ ∀ p, c.stage ≠ .asked p
  arrives : Accepted n ms → s.shelf.write s.backlog k = some value

namespace Carried

theorem unaccepted (new : List Mark) (none : ∀ item, Mark.accepted n item ∉ new) (accepted : Accepted n (ms ++ new)) :
    Accepted n ms := by
  obtain ⟨item, mem⟩ := accepted
  exact ⟨item, (List.mem_append.mp mem).resolve_right (none item)⟩

theorem enter (carried : Carried k n value ms s) {op : Op} {memory : Memory} {begun : Begun} {channel : Channel}
    {stage : Stage} {marks : List Mark} (begins : s.memory.begin s.config op s.now = (memory, begun))
    (enters : Enters s.channel s.total begun channel stage marks) (away : k ∉ op.written) :
    Carried k n value (ms ++ .begun s.total op s.now :: marks)
      { s with memory, channel, calls := s.calls ++ [⟨s.total, op, s.now, stage⟩], total := s.total + 1 } where
  number := Nat.lt_succ_of_lt carried.number
  writers := List.forall_mem_append.mpr
    ⟨carried.writers, List.forall_mem_singleton.mpr fun written => absurd written away⟩
  own := List.forall_mem_append.mpr ⟨carried.own, List.forall_mem_singleton.mpr fun same =>
    absurd same (Nat.ne_of_gt carried.number)⟩
  arrives := by
    intro accepted
    have before : s.shelf.write s.backlog k = some value := by
      refine carried.arrives (unaccepted _ (fun item mem => ?_) accepted)
      have other : n ≠ s.total := Nat.ne_of_lt carried.number
      cases enters <;> simp [other] at mem
    rw [← before]
    cases enters with
    | served | asks => rfl
    | waits item p full => simp only [backlog, (Channel.reserveKeeps full).1]
    | refused item p closed => simp only [backlog, (Channel.reserveKeeps closed).1]
    | accepted item p given =>
      have other : k ≠ item.key := by simpa [queuedItem begins, Op.written] using away
      simp only [backlog, Channel.push, (Channel.reserveKeeps given).1, ← List.append_assoc, write_last, if_neg other]

theorem moveArrives {shelf shelf' : Shelf} {channel channel' : Channel} {window : List KeyValue} {marks : List Mark}
    {c : Call} {stage : Stage}
    (moves : Moves shelf channel (window ++ channel.queue) c.number c.op c.stage marks shelf' channel' stage)
    (placed : ∀ item p, c.stage = .placing item p → c.op = .set item.key item.value)
    (writer : k ∈ c.op.written → c.number = n)
    (own : c.number = n → c.op = .set k value ∧ ∀ p, c.stage ≠ .asked p)
    (before : Accepted n ms → shelf.write (window ++ channel.queue) k = some value)
    (accepted : Accepted n (ms ++ marks)) : shelf'.write (window ++ channel'.queue) k = some value := by
  obtain ⟨j, op, began, was⟩ := c
  cases moves with
  | lands p =>
    have away : k ∉ op.written := fun written => (own (writer written)).2 p rfl
    rw [write_aside away]
    exact before (unaccepted _ (by simp) accepted)
  | fails => exact before (unaccepted _ (by simp) accepted)
  | refused item p closed =>
    rw [(Channel.claimKeeps closed).1]
    exact before (unaccepted [] (by simp) accepted)
  | accepted item p given =>
    obtain rfl := placed item p rfl
    rw [Channel.push, (Channel.claimKeeps given).1, ← List.append_assoc, write_last]
    by_cases mine : j = n
    · obtain ⟨same, -⟩ := own mine
      injection same with key same
      rw [if_pos key.symm, same]
    · have other : k ≠ item.key := fun same => mine (writer (by simp [Op.written, same]))
      rw [if_neg other]
      exact before (unaccepted _ (by simpa using Ne.symm mine) accepted)

theorem move (carried : Carried k n value ms s) (sound : Sound config s) {before after : List Call} {c : Call}
    {shelf : Shelf} {channel : Channel} {stage : Stage} {marks : List Mark} (stands : s.calls = before ++ c :: after)
    (moves : Moves s.shelf s.channel s.backlog c.number c.op c.stage marks shelf channel stage) :
    Carried k n value (ms ++ marks)
      { s with shelf, channel, calls := before ++ { c with stage } :: after } := by
  have fits := sound.fits c (by simp [stands])
  obtain ⟨number, writers, own, arrives⟩ := carried
  rw [stands, List.forall_mem_append, List.forall_mem_cons] at writers own
  refine ⟨number, List.forall_mem_append.mpr ⟨writers.1, List.forall_mem_cons.mpr writers.2⟩,
    List.forall_mem_append.mpr ⟨own.1, List.forall_mem_cons.mpr ⟨fun mine => ⟨(own.2.1 mine).1, ?_⟩, own.2.2⟩⟩,
    moveArrives moves fits.placed writers.2.1 own.2.1 arrives⟩
  exact moveUnasked moves

theorem fewer (carried : Carried k n value ms s) {before after : List Call} {c : Call} {memory : Memory}
    {channel : Channel} (stands : s.calls = before ++ c :: after) (queue : channel.queue = s.channel.queue)
    (none : ∀ item, Mark.accepted n item ∉ new) :
    Carried k n value (ms ++ new) { s with memory, channel, calls := before ++ after } := by
  obtain ⟨number, writers, own, arrives⟩ := carried
  rw [stands, List.forall_mem_append, List.forall_mem_cons] at writers own
  refine ⟨number, List.forall_mem_append.mpr ⟨writers.1, writers.2.2⟩, List.forall_mem_append.mpr ⟨own.1, own.2.2⟩,
    fun accepted => ?_⟩
  simpa only [backlog, queue] using arrives (unaccepted _ none accepted)

theorem aside (carried : Carried k n value ms s) (calls : s'.calls = s.calls) (total : s'.total = s.total)
    (written : s'.shelf.write s'.backlog = s.shelf.write s.backlog) (none : ∀ item, Mark.accepted n item ∉ new) :
    Carried k n value (ms ++ new) s' where
  number := total ▸ carried.number
  writers := calls ▸ carried.writers
  own := calls ▸ carried.own
  arrives := fun accepted => written ▸ carried.arrives (unaccepted _ none accepted)

end Carried

/-- The store does all that it is asked for. -/
structure Untroubled (ms : List Mark) : Prop where
  answered : ∀ j, Mark.failed j ∉ ms
  written : ∀ window, Mark.lost window ∉ ms

theorem Untroubled.append {xs ys : List Mark} (untroubled : Untroubled (xs ++ ys)) : Untroubled xs ∧ Untroubled ys := by
  obtain ⟨answered, written⟩ := untroubled
  simp only [List.mem_append, not_or, forall_and] at answered written
  exact ⟨⟨answered.1, written.1⟩, ⟨answered.2, written.2⟩⟩

theorem workFlawless {now : Instant} {stopping : Bool} {channel channel' : Channel} {shelf shelf' : Shelf}
    {marks : List Mark} {worker worker' : Worker}
    (works : Works config now stopping channel shelf worker marks worker' channel' shelf')
    (untroubled : Untroubled marks) : Flawless marks where
  answered := untroubled.answered
  kept := by cases works <;> simp
  written := untroubled.written

theorem stepCarried (step : Step s new s') (sound : Sound config s) (carried : Carried k n value ms s)
    (quiet : Quiet k new) (untroubled : Untroubled new) : Carried k n value (ms ++ new) s' := by
  cases step with
  | enter op begins enters => exact carried.enter begins enters (quiet _ _ _ List.mem_cons_self)
  | move stands moves => exact carried.move sound stands moves
  | answer stands answered finished => exact carried.fewer stands rfl (by simp)
  | @drop before after c stands => exact carried.fewer stands (Stage.leaveKeeps _ _ _).1 (by simp)
  | pass | sweep => exact carried.aside rfl rfl rfl (by simp)
  | stop => exact carried.aside rfl rfl rfl (by simp)
  | work works =>
    refine carried.aside rfl rfl (Orderly.workOrder works (workFlawless works untroubled)) fun item mem => ?_
    cases List.filterMap_eq_nil_iff.mp (Orderly.workQuiet works).2.1 _ mem

/-- No read of the key that has begun after the call reaches the store while the item of the call is on its way. -/
def Arrived (k : String) (n : Nat) (past ms : List Mark) : Prop :=
  ∀ before j queued after, ms = before ++ .landed j (.get k) queued :: after → n < j →
    Accepted n (past ++ before) ∧ k ∉ queued.map (·.key)

theorem moveQueued {shelf shelf' : Shelf} {channel channel' : Channel} {queued queued' : List KeyValue}
    {marks : List Mark} {i j : Nat} {op op' : Op} {was stage : Stage}
    (moves : Moves shelf channel queued i op was marks shelf' channel' stage)
    (landed : Mark.landed j op' queued' ∈ marks) : queued' = queued := by
  cases moves with
  | lands =>
    cases List.mem_singleton.mp landed
    rfl
  | fails | accepted => simp at landed
  | refused => cases landed

theorem landsQueued {j : Nat} {op : Op} {queued : List KeyValue} (step : Step s new s')
    (landed : Mark.landed j op queued ∈ new) : queued = s.backlog := by
  cases step with
  | enter op begins enters => cases enters <;> simp at landed
  | move stands moves => exact moveQueued moves landed
  | work works => exact absurd landed (workUnasked works).1
  | answer | drop | stop => simp at landed
  | pass | sweep => cases landed

theorem runCarried {init : Front} {past : List Mark} {latest : Nat} (run : Run init ms s) (sound : Sound config init)
    (carried : Carried k n value past init) (agrees : Agrees k (some value) (After k n) latest [] init)
    (quiet : Quiet k ms) (untroubled : Untroubled ms) (arrived : Arrived k n past ms) :
    Sound config s ∧ Carried k n value (past ++ ms) s ∧ Agrees k (some value) (After k n) latest ms s ∧
    ∀ j op r, Mark.ended j op r ∈ ms → After k n j op → Right (some value) ms j op r := by
  induction run with
  | nil =>
    rw [List.append_nil]
    exact ⟨sound, carried, agrees, by simp⟩
  | @next ms s new s' earlier last ih =>
    obtain ⟨before, now⟩ := Quiet.append.mp quiet
    obtain ⟨well, well'⟩ := untroubled.append
    obtain ⟨sound', carried', agrees', right⟩ := ih before well fun front j queued after split later =>
      arrived front j queued (after ++ new) (by simp [split]) later
    have home : ∀ j op queued, Mark.landed j op queued ∈ new → After k n j op → s.shelf k = some value := by
      rintro j op queued landed ⟨rfl, later⟩
      obtain ⟨rfl, -⟩ := landsAlone last landed
      obtain rfl := landsQueued last landed
      obtain ⟨accepted, absent⟩ := arrived ms j s.backlog [] rfl later
      rw [← carried'.arrives accepted, Shelf.write_absent absent]
    obtain ⟨agrees'', right'⟩ := stepAgrees last sound' (fun _ _ h => .inl h.1) agrees' now home
    rw [← List.append_assoc]
    refine ⟨stepSound last sound', stepCarried last sound' carried' now well', agrees'', fun j op r mem after => ?_⟩
    rcases List.mem_append.mp mem with old | old
    · exact (right j op r old after).later new
    · exact (right' j op r old after).later new

theorem setCarried {s₀ s₁ : Front} {time : Instant} {marks : List Mark} (on : config.batch = true)
    (sound : Sound config s₀) (free : ∀ c ∈ s₀.calls, k ∉ c.op.written)
    (begins : Step s₀ (.begun n (.set k value) time :: marks) s₁) : Carried k n value marks s₁ := by
  have settings := sound.settings
  generalize said : Mark.begun n (.set k value) time :: marks = new at begins
  cases begins with
  | enter op begins enters =>
    cases said
    have others : ∀ c ∈ s₀.calls, c.number ≠ s₀.total := fun c mem => Nat.ne_of_lt (sound.numbers c mem)
    subst settings
    simp only [Memory.begin, Prod.mk.injEq, if_pos on] at begins
    obtain ⟨-, rfl⟩ := begins
    refine ⟨Nat.lt_succ_self _, List.forall_mem_append.mpr ⟨fun c mem written => absurd written (free c mem),
      List.forall_mem_singleton.mpr fun _ => rfl⟩, List.forall_mem_append.mpr ⟨fun c mem same =>
      absurd same (others c mem), List.forall_mem_singleton.mpr fun _ => ⟨rfl, fun p asked => ?_⟩⟩, fun accepted => ?_⟩
    · subst asked
      cases enters
    · cases enters with
      | accepted item p given =>
        simp only [backlog, Channel.push, ← List.append_assoc, write_last, if_pos]
      | waits | refused =>
        obtain ⟨item, mem⟩ := accepted
        cases mem
  | move stands moves => exact absurd (said ▸ List.mem_cons_self) (moveSilent moves n _ time)
  | work works => exact absurd (said ▸ List.mem_cons_self) (workSilent works n _ time)
  | _ => cases said

/-- With batching, when a write has begun while no other of its key is under way and none begins later, and the store
does all that it is asked for: each read of the key that begins after the write is answered with its value, provided
that none of them reaches the store while the item of the write is on its way. Once the item has been accepted and
nothing for the key is on its way, the store has the value. -/
theorem readsOwnWrite {shelf : Shelf} {past more : List Mark} {s₀ s₁ : Front} {time : Instant}
    (on : config.batch = true) (earlier : Run (start config shelf) past s₀) (free : ∀ c ∈ s₀.calls, k ∉ c.op.written)
    (begins : Step s₀ (.begun n (.set k value) time :: more) s₁) (later : Run s₁ ms s) (quiet : Quiet k ms)
    (untroubled : Untroubled ms) (arrived : Arrived k n more ms) :
    (∀ j r, n < j → .ended j (.get k) r ∈ ms → r = .ok (.value value)) ∧
    (Accepted n (more ++ ms) → k ∉ s.backlog.map (·.key) → s.shelf k = some value) := by
  have sound₀ : Sound config s₀ := runSound earlier
  have agrees : Agrees k (some value) (After k n) (s₀.memory.writes + 1) [] s₁ := by
    refine writeAgrees sound₀ begins (List.mem_singleton.mpr rfl) ?_
    rintro v ⟨⟩
    rfl
  obtain ⟨-, carried, -, right⟩ :=
    runCarried later (stepSound begins sound₀) (setCarried on sound₀ free begins) agrees quiet untroubled arrived
  refine ⟨fun j r after ended => ?_, fun accepted absent => ?_⟩
  · exact (right j _ r ended ⟨rfl, after⟩).resolve_right fun failed => untroubled.answered j failed.2
  · rw [← carried.arrives accepted, Shelf.write_absent absent]

/-! ### An entry that expires before its window is written, and one that expires after -/

def lateItem : KeyValue := ⟨"k", .bool true⟩

def lateShelf : Shelf := Shelf.put (fun _ => none) "k" (.bool false)

def lateConfig (expiration buffer : Span) : CacheConfig := { batch := true, expiration, buffer }

def late (config : CacheConfig) (now : Instant) (entries : List (String × Entry)) (shelf : Shelf) (worker : Worker)
    (calls : List Call) (total : Nat) : Front where
  config := config
  now := now
  memory := ⟨entries, 1⟩
  shelf := shelf
  channel := .ofCapacity 1024
  worker := worker
  stopping := false
  calls := calls
  total := total

def lateOwn (expiration : Span) : Entry := ⟨.bool true, 0 + expiration, 1⟩

def lateStage : Stage := .answered (.write "k" 1) (.ok .done)

def lateQueued (expiration buffer : Span) : Front :=
  { late (lateConfig expiration buffer) 0 [("k", lateOwn expiration)] lateShelf .idle
      [⟨0, .set "k" (.bool true), 0, lateStage⟩] 1 with channel := ⟨[lateItem], 1023, [], [], false⟩ }

def lateRead (n : Nat) (began : Instant) (stage : Stage) : Call := ⟨n, .get "k", began, stage⟩

section Late

variable {expiration buffer : Span} {now : Instant} {entries entries' kept : List (String × Entry)} {shelf : Shelf}
  {worker : Worker} {v : Json}

theorem lateBegins : Step (start (lateConfig expiration buffer) lateShelf)
    [.begun 0 (.set "k" (.bool true)) 0, .accepted 0 lateItem] (lateQueued expiration buffer) :=
  @Step.enter _ (.set "k" (.bool true)) _ _ _ _ _ rfl
    (@Enters.accepted _ _ lateItem (.write "k" 1) ⟨[], 1023, [], [], false⟩ rfl)

/-- The write has returned, and its window is open. -/
theorem lateReturned : Run (lateQueued expiration buffer) [.ended 0 (.set "k" (.bool true)) (.ok .done)]
    (late (lateConfig expiration buffer) 0 [("k", lateOwn expiration)] lateShelf (.gathering [lateItem] (0 + buffer)) []
      1) := by
  have ended : Step (lateQueued expiration buffer) [.ended 0 (.set "k" (.bool true)) (.ok .done)]
      { lateQueued expiration buffer with calls := [] } :=
    @Step.answer _ [] [] ⟨0, .set "k" (.bool true), 0, lateStage⟩ _ _ _ _ rfl rfl rfl
  have opened : Step { lateQueued expiration buffer with calls := [] } []
      (late (lateConfig expiration buffer) 0 [("k", lateOwn expiration)] lateShelf
        (.gathering [lateItem] (0 + buffer)) [] 1) :=
    .work (.opens rfl rfl)
  exact (Runs.nil.next ended).next opened

theorem lateFlushed (n : Nat) (due : 0 + buffer ≤ now) :
    Run (late (lateConfig expiration buffer) now entries lateShelf (.gathering [lateItem] (0 + buffer)) [] n)
      [.flushed [lateItem]]
      (late (lateConfig expiration buffer) now entries (lateShelf.apply (.batchSet [lateItem])) .idle [] n) := by
  have begun : Step (late (lateConfig expiration buffer) now entries lateShelf
        (.gathering [lateItem] (0 + buffer)) [] n) []
      (late (lateConfig expiration buffer) now entries lateShelf (.flushing [lateItem] .again) [] n) :=
    .work (.due _ _ due)
  have written : Step (late (lateConfig expiration buffer) now entries lateShelf (.flushing [lateItem] .again) [] n)
      [.flushed [lateItem]]
      (late (lateConfig expiration buffer) now entries (lateShelf.apply (.batchSet [lateItem])) (.resting .again) []
        n) :=
    .work (.writes [lateItem] .again)
  have rested : Step (late (lateConfig expiration buffer) now entries (lateShelf.apply (.batchSet [lateItem]))
        (.resting .again) [] n) []
      (late (lateConfig expiration buffer) now entries (lateShelf.apply (.batchSet [lateItem])) .idle [] n) :=
    .work .goesOn
  exact ((Runs.nil.next begun).next written).next rested

theorem lateReads (n : Nat)
    (misses : (⟨entries, 1⟩ : Memory).begin config (.get "k") now = (⟨entries', 1⟩, .ask (.read "k" 1)))
    (held : shelf "k" = some v)
    (keeps : (⟨entries', 1⟩ : Memory).finish config (.read "k" 1) (.ok (.value v)) now =
      (⟨kept, 1⟩, .ok (.value v))) :
    Run (late config now entries shelf worker [] n)
      [.begun n (.get "k") now, .landed n (.get "k") (worker.window ++ []), .ended n (.get "k") (.ok (.value v))]
      (late config now kept shelf worker [] (n + 1)) := by
  have begun : Step (late config now entries shelf worker [] n) [.begun n (.get "k") now]
      (late config now entries' shelf worker [lateRead n now (.asked (.read "k" 1))] (n + 1)) :=
    .enter (.get "k") misses (.asks (.read "k" 1))
  have found : shelf.answer (.get "k") = .ok (.value v) := by rw [Shelf.answer, held]
  have landed : Step (late config now entries' shelf worker [lateRead n now (.asked (.read "k" 1))] (n + 1))
      [.landed n (.get "k") (worker.window ++ [])]
      (late config now entries' shelf worker [lateRead n now (.answered (.read "k" 1) (.ok (.value v)))] (n + 1)) := by
    rw [← found]
    exact @Step.move _ [] [] (lateRead n now (.asked (.read "k" 1))) _ _ _ _ rfl (.lands (.read "k" 1))
  have ended : Step
      (late config now entries' shelf worker [lateRead n now (.answered (.read "k" 1) (.ok (.value v)))] (n + 1))
      [.ended n (.get "k") (.ok (.value v))] (late config now kept shelf worker [] (n + 1)) :=
    @Step.answer _ [] [] (lateRead n now (.answered (.read "k" 1) (.ok (.value v)))) _ _ _ _ rfl rfl keeps
  exact ((Runs.nil.next begun).next landed).next ended

theorem lateServed (n : Nat)
    (hits : (⟨entries, 1⟩ : Memory).begin config (.get "k") now = (⟨entries, 1⟩, .served (.value v))) :
    Run (late config now entries shelf worker [] n)
      [.begun n (.get "k") now, .ended n (.get "k") (.ok (.value v))]
      (late config now entries shelf worker [] (n + 1)) := by
  have begun : Step (late config now entries shelf worker [] n) [.begun n (.get "k") now]
      (late config now entries shelf worker [lateRead n now (.answered .pass (.ok (.value v)))] (n + 1)) :=
    .enter (.get "k") hits (.served (.value v))
  have ended : Step (late config now entries shelf worker [lateRead n now (.answered .pass (.ok (.value v)))] (n + 1))
      [.ended n (.get "k") (.ok (.value v))] (late config now entries shelf worker [] (n + 1)) :=
    @Step.answer _ [] [] (lateRead n now (.answered .pass (.ok (.value v)))) _ _ _ _ rfl rfl rfl
  exact (Runs.nil.next begun).next ended

theorem latePasses (n : Nat) {later : Instant} (le : now ≤ later) :
    Run (late config now entries shelf worker [] n) [] (late config later entries shelf worker [] n) :=
  Runs.nil.next (.pass later le)

end Late

/-- A window that outlasts the entry: a read in between, and another that comes after the window is written. -/
def lateMarks : List Mark :=
  [.begun 1 (.get "k") 1000, .landed 1 (.get "k") [lateItem], .ended 1 (.get "k") (.ok (.value (.bool false))),
   .flushed [lateItem], .begun 2 (.get "k") 1500, .ended 2 (.get "k") (.ok (.value (.bool false)))]

theorem lateLost : ∃ s₁ s, Step (start (lateConfig 1000 1500) lateShelf)
      [.begun 0 (.set "k" (.bool true)) 0, .accepted 0 lateItem] s₁ ∧
    Run s₁ (.ended 0 (.set "k" (.bool true)) (.ok .done) :: lateMarks) s ∧ Quiet "k" lateMarks ∧ Untroubled lateMarks ∧
    s.shelf "k" = some (.bool true) := by
  have stale := ((@lateReturned 1000 1500).trans (latePasses 1 (Nat.zero_le 1000))).trans
    (@lateReads (lateConfig 1000 1500) _ _ [] [("k", ⟨.bool false, 2000, 0⟩)] _ _ _ 1 rfl rfl rfl)
  have written := (stale.trans (latePasses 2 (by decide : 1000 ≤ 1500))).trans
    (lateFlushed 2 (by decide : 0 + 1500 ≤ 1500))
  refine ⟨_, _, lateBegins, written.trans (lateServed 2 rfl), fun j op time mem => ?_,
    ⟨by simp [lateMarks], by simp [lateMarks]⟩, rfl⟩
  obtain ⟨-, rfl, -⟩ | ⟨-, rfl, -⟩ :
      (j = 1 ∧ op = .get "k" ∧ time = 1000) ∨ (j = 2 ∧ op = .get "k" ∧ time = 1500) := by
    simpa [lateMarks] using mem
  · exact List.not_mem_nil
  · exact List.not_mem_nil

/-- An entry that outlasts the window: the read finds it expired, and the value in the store. -/
def timelyMarks : List Mark :=
  [.ended 0 (.set "k" (.bool true)) (.ok .done), .flushed [lateItem], .begun 1 (.get "k") 1500,
   .landed 1 (.get "k") [], .ended 1 (.get "k") (.ok (.value (.bool true)))]

def timelyEnd : Front :=
  late (lateConfig 1500 1000) 1500 [("k", ⟨.bool true, 3000, 0⟩)] (lateShelf.apply (.batchSet [lateItem])) .idle [] 2

theorem timelyRun : Run (lateQueued 1500 1000) timelyMarks timelyEnd := by
  have written := ((@lateReturned 1500 1000).trans (latePasses 1 (Nat.zero_le 1000))).trans
    (lateFlushed 1 (by decide : 0 + 1000 ≤ 1000))
  exact (written.trans (latePasses 1 (by decide : 1000 ≤ 1500))).trans
    (@lateReads (lateConfig 1500 1000) _ _ [] [("k", ⟨.bool true, 3000, 0⟩)] _ _ _ 1 rfl rfl rfl)

theorem timelyKept : (∀ j r, 0 < j → .ended j (.get "k") r ∈ timelyMarks → r = .ok (.value (.bool true))) ∧
    (Accepted 0 ([.accepted 0 lateItem] ++ timelyMarks) → "k" ∉ timelyEnd.backlog.map (·.key) →
      timelyEnd.shelf "k" = some (.bool true)) := by
  refine readsOwnWrite rfl .nil nofun lateBegins timelyRun (fun j op time mem => ?_)
    ⟨by simp [timelyMarks], by simp [timelyMarks]⟩ fun before j queued after split later => ?_
  · obtain ⟨-, rfl, -⟩ : j = 1 ∧ op = .get "k" ∧ time = 1500 := by simpa [timelyMarks] using mem
    exact List.not_mem_nil
  · have mem : Mark.landed j (.get "k") queued ∈ timelyMarks := split ▸ by simp
    obtain ⟨-, rfl⟩ : j = 1 ∧ queued = [] := by simpa [timelyMarks] using mem
    exact ⟨⟨lateItem, List.mem_cons_self⟩, List.not_mem_nil⟩

end Switchyard.State.Front
