import Switchyard.Proofs.State.Abandonment
import Switchyard.Proofs.State.Channel
/-!
When memory and the store agree about a key. Once no write of the key begins any more, memory has nothing else for it
than what the store will hold, as long as no read that came after the last write has seen the store before it settled;
and once nothing is on its way to the key, the store keeps what it holds.
-/
namespace Switchyard.State

def Mark.Stores (k : String) : Mark → Prop
  | .landed _ op _ => k ∈ op.written
  | .flushed window => k ∈ window.map (·.key)
  | _ => False

namespace Front

open Memory (Keeps)

variable {config : CacheConfig} {k : String} {ms new more : List Mark} {s s' init final : Front}

/-! ### What reaches the store -/

def Quiet (k : String) (ms : List Mark) : Prop := ∀ n op time, Mark.begun n op time ∈ ms → k ∉ op.written

theorem Quiet.nil : Quiet k [] := fun _ _ _ mem => absurd mem List.not_mem_nil

theorem Quiet.append {xs ys : List Mark} : Quiet k (xs ++ ys) ↔ Quiet k xs ∧ Quiet k ys := by
  simp only [Quiet, List.mem_append, or_imp, forall_and]

theorem enterStoresNot {channel channel' : Channel} {n : Nat} {begun : Begun} {stage : Stage} {marks : List Mark}
    (enters : Enters channel n begun channel' stage marks) : ∀ m ∈ marks, ¬ m.Stores k := by
  cases enters <;> simp [Mark.Stores]

/-- The writer is no call. -/
theorem workUnasked {now : Instant} {stopping : Bool} {channel channel' : Channel} {shelf shelf' : Shelf}
    {marks : List Mark} {worker worker' : Worker}
    (works : Works config now stopping channel shelf worker marks worker' channel' shelf') :
    (∀ {j op queued}, Mark.landed j op queued ∉ marks) ∧ ∀ {j op r}, Mark.ended j op r ∉ marks := by
  cases works <;> exact ⟨by simp, by simp⟩

theorem moveUnended {shelf shelf' : Shelf} {channel channel' : Channel} {queued : List KeyValue} {marks : List Mark}
    {n : Nat} {op : Op} {was stage : Stage} (moves : Moves shelf channel queued n op was marks shelf' channel' stage)
    (j : Nat) (op' : Op) (r : Except Error Answer) : Mark.ended j op' r ∉ marks := by
  cases moves <;> simp

theorem moveStores {shelf shelf' : Shelf} {channel channel' : Channel} {queued : List KeyValue} {marks : List Mark}
    {n : Nat} {op : Op} {was stage : Stage} (moves : Moves shelf channel queued n op was marks shelf' channel' stage)
    (none : ∀ m ∈ marks, ¬ m.Stores k) : shelf' k = shelf k := by
  cases moves with
  | lands => exact Shelf.apply_absent (none _ List.mem_cons_self)
  | fails | accepted | refused => rfl

theorem moveStored {shelf shelf' : Shelf} {channel channel' : Channel} {queued : List KeyValue} {marks : List Mark}
    {n : Nat} {op : Op} {was stage : Stage} (moves : Moves shelf channel queued n op was marks shelf' channel' stage) :
    ∀ m ∈ marks, m.Stores k → k ∈ op.written := by
  cases moves with
  | lands => exact List.forall_mem_singleton.mpr id
  | fails | accepted => exact List.forall_mem_singleton.mpr False.elim
  | refused => exact List.forall_mem_nil _

theorem workStores {now : Instant} {stopping : Bool} {channel channel' : Channel} {shelf shelf' : Shelf}
    {marks : List Mark} {worker worker' : Worker}
    (works : Works config now stopping channel shelf worker marks worker' channel' shelf')
    (none : ∀ m ∈ marks, ¬ m.Stores k) : shelf' k = shelf k := by
  cases works with
  | writes window after =>
    have same : shelf.apply (.batchSet (dedupe window)) = shelf.write window := Shelf.write_dedupe
    rw [same]
    exact Shelf.write_absent (none _ List.mem_cons_self)
  | opens | takes | due | halts | loses | breaks | goesOn | closes | ends => rfl

theorem stepStores (step : Step s new s') (none : ∀ m ∈ new, ¬ m.Stores k) : s'.shelf k = s.shelf k := by
  cases step with
  | move stands moves => exact moveStores moves none
  | work works => exact workStores works none
  | enter | answer | drop | pass | sweep | stop => rfl

theorem runStores (run : Run init ms s) (none : ∀ m ∈ ms, ¬ m.Stores k) : s.shelf k = init.shelf k := by
  induction run with
  | nil => rfl
  | next earlier last ih =>
    rw [List.forall_mem_append] at none
    exact (stepStores last none.2).trans (ih none.1)

theorem moveLands {shelf shelf' : Shelf} {channel channel' : Channel} {queued queued' : List KeyValue}
    {marks : List Mark} {n j : Nat} {op op' : Op} {was stage : Stage}
    (moves : Moves shelf channel queued n op was marks shelf' channel' stage)
    (landed : Mark.landed j op' queued' ∈ marks) :
    marks = [.landed j op' queued'] ∧ j = n ∧ op' = op ∧ shelf' = shelf.apply op' := by
  cases moves with
  | lands =>
    cases List.mem_singleton.mp landed
    exact ⟨rfl, rfl, rfl, rfl⟩
  | fails | accepted => simp at landed
  | refused => cases landed

theorem landsAlone {j : Nat} {op : Op} {queued : List KeyValue} (step : Step s new s')
    (landed : Mark.landed j op queued ∈ new) : new = [.landed j op queued] ∧ s'.shelf = s.shelf.apply op := by
  cases step with
  | enter op begins enters => cases enters <;> simp at landed
  | move stands moves =>
    obtain ⟨alone, -, -, shelf⟩ := moveLands moves landed
    exact ⟨alone, shelf⟩
  | work works => exact absurd landed (workUnasked works).1
  | answer | drop | stop => simp at landed
  | pass | sweep => cases landed

/-! ### Nothing on its way to a key -/

/-- No call under way writes the key, and the batch writer has no item for it. -/
def Idle (k : String) (s : Front) : Prop :=
  (∀ c ∈ s.calls, k ∉ c.op.written) ∧ (s.worker = .gone ∨ k ∉ s.backlog.map (·.key))

theorem enterBacklog {channel channel' : Channel} {n : Nat} {begun : Begun} {stage : Stage} {marks : List Mark}
    {m memory : Memory} {op : Op} {now : Instant} (begins : m.begin config op now = (memory, begun))
    (enters : Enters channel n begun channel' stage marks) (away : k ∉ op.written)
    (absent : k ∉ channel.queue.map (·.key)) : k ∉ channel'.queue.map (·.key) := by
  cases enters with
  | served | asks => exact absent
  | waits item p full => rwa [(Channel.reserveKeeps full).1]
  | refused item p closed => rwa [(Channel.reserveKeeps closed).1]
  | accepted item p given =>
    have other : k ≠ item.key := by simpa [queuedItem begins, Op.written] using away
    rw [Channel.push, (Channel.reserveKeeps given).1]
    simpa [other] using absent

theorem moveBacklog {shelf shelf' : Shelf} {channel channel' : Channel} {queued : List KeyValue} {marks : List Mark}
    {c : Call} {stage : Stage} (moves : Moves shelf channel queued c.number c.op c.stage marks shelf' channel' stage)
    (placed : ∀ item p, c.stage = .placing item p → c.op = .set item.key item.value) (away : k ∉ c.op.written)
    (absent : k ∉ channel.queue.map (·.key)) : k ∉ channel'.queue.map (·.key) := by
  obtain ⟨n, op, began, was⟩ := c
  cases moves with
  | lands | fails => exact absent
  | refused item p closed => rwa [(Channel.claimKeeps closed).1]
  | accepted item p given =>
    obtain rfl := placed item p rfl
    have other : k ≠ item.key := by simpa [Op.written] using away
    rw [Channel.push, (Channel.claimKeeps given).1]
    simpa [other] using absent

theorem workStored {now : Instant} {stopping : Bool} {channel channel' : Channel} {shelf shelf' : Shelf}
    {marks : List Mark} {worker worker' : Worker}
    (works : Works config now stopping channel shelf worker marks worker' channel' shelf') :
    ∀ m ∈ marks, m.Stores k → k ∈ worker.window.map (·.key) := by
  cases works with
  | writes => exact List.forall_mem_singleton.mpr id
  | loses | breaks => exact List.forall_mem_singleton.mpr False.elim
  | opens | takes | due | halts | goesOn | closes | ends => exact List.forall_mem_nil _

theorem workBacklog {now : Instant} {stopping : Bool} {channel channel' : Channel} {shelf shelf' : Shelf}
    {marks : List Mark} {worker worker' : Worker}
    (works : Works config now stopping channel shelf worker marks worker' channel' shelf') :
    ∀ i ∈ worker'.window ++ channel'.queue, i ∈ worker.window ++ channel.queue := by
  cases works with
  | opens goesOn found | takes window due found =>
    rw [(Channel.receiveFirst found).1]
    simp [Worker.window]
  | due | halts | goesOn | ends => exact fun i mem => mem
  | writes | loses | breaks => exact fun i mem => List.mem_append_right _ mem
  | closes last taken =>
    obtain ⟨rfl, empty, -⟩ := Channel.drainClosed taken
    rw [empty, List.append_nil]
    intro i mem
    refine List.mem_append_right _ ?_
    split at mem
    · cases mem
    · exact mem

theorem stepIdle (step : Step s new s') (sound : Sound config s) (quiet : Quiet k new) (idle : Idle k s) :
    Idle k s' ∧ ∀ m ∈ new, ¬ m.Stores k := by
  obtain ⟨calls, backlog⟩ := idle
  rw [Front.backlog, List.map_append, List.mem_append, not_or] at backlog
  cases step with
  | enter op begins enters =>
    have away : k ∉ op.written := quiet _ _ _ List.mem_cons_self
    refine ⟨⟨List.forall_mem_append.mpr ⟨calls, List.forall_mem_singleton.mpr away⟩, ?_⟩,
      List.forall_mem_cons.mpr ⟨id, enterStoresNot enters⟩⟩
    simp only [Front.backlog, List.map_append, List.mem_append, not_or]
    exact backlog.imp_right fun absent => ⟨absent.1, enterBacklog begins enters away absent.2⟩
  | @move before after c marks shelf channel stage stands moves =>
    have fits := sound.fits c (by simp [stands])
    rw [stands, List.forall_mem_append, List.forall_mem_cons] at calls
    refine ⟨⟨List.forall_mem_append.mpr ⟨calls.1, List.forall_mem_cons.mpr calls.2⟩, ?_⟩, ?_⟩
    · simp only [Front.backlog, List.map_append, List.mem_append, not_or]
      exact backlog.imp_right fun absent => ⟨absent.1, moveBacklog moves fits.placed calls.2.1 absent.2⟩
    · exact fun m mem stores => calls.2.1 (moveStored moves m mem stores)
  | answer stands answered finished =>
    rw [stands, List.forall_mem_append, List.forall_mem_cons] at calls
    refine ⟨⟨List.forall_mem_append.mpr ⟨calls.1, calls.2.2⟩, ?_⟩, List.forall_mem_singleton.mpr id⟩
    simpa [Front.backlog] using backlog
  | @drop before after c stands =>
    rw [stands, List.forall_mem_append, List.forall_mem_cons] at calls
    refine ⟨⟨List.forall_mem_append.mpr ⟨calls.1, calls.2.2⟩, ?_⟩, List.forall_mem_singleton.mpr id⟩
    simpa [Front.backlog, Stage.leaveKeeps] using backlog
  | pass | sweep => exact ⟨⟨calls, by simpa [Front.backlog] using backlog⟩, List.forall_mem_nil _⟩
  | stop => exact ⟨⟨calls, by simpa [Front.backlog] using backlog⟩, List.forall_mem_singleton.mpr id⟩
  | work works =>
    have fewer := workBacklog works
    have absent : k ∉ (s.worker.window ++ s.channel.queue).map (·.key) := by
      rcases backlog with gone | absent
      · rw [gone] at works
        exact absurd works workAlone
      · simpa using absent
    refine ⟨⟨calls, .inr fun mem => ?_⟩, ?_⟩
    · obtain ⟨i, there, same⟩ := List.mem_map.mp mem
      exact absent (List.mem_map.mpr ⟨i, fewer i there, same⟩)
    · intro m mem stores
      rw [List.map_append, List.mem_append, not_or] at absent
      exact absent.1 (workStored works m mem stores)

theorem runIdle (run : Run init ms s) (sound : Sound config init) (quiet : Quiet k ms) (idle : Idle k init) :
    Sound config s ∧ Idle k s ∧ ∀ m ∈ ms, ¬ m.Stores k := by
  induction run with
  | nil => exact ⟨sound, idle, List.forall_mem_nil _⟩
  | next earlier last ih =>
    obtain ⟨before, now⟩ := Quiet.append.mp quiet
    obtain ⟨sound', idle', none⟩ := ih before
    obtain ⟨idle'', none'⟩ := stepIdle last sound' now idle'
    exact ⟨stepSound last sound', idle'', List.forall_mem_append.mpr ⟨none, none'⟩⟩

/-! ### Memory and the store -/

/-- The call has the answer of the store, or the store has failed on it. -/
def Right (home : Option Json) (ms : List Mark) (n : Nat) (op : Op) (r : Except Error Answer) : Prop :=
  r = Shelf.answer (fun _ => home) op ∨ (∃ e, r = .error e) ∧ .failed n ∈ ms

theorem answerHome {shelf : Shelf} {op : Op} (reads : Reads k op) :
    Shelf.answer (fun _ => shelf k) op = shelf.answer op := by
  rcases reads with rfl | rfl <;> rfl

theorem recalledHome {op : Op} {w : Json} (reads : Reads k op) :
    Shelf.answer (fun _ => some w) op = .ok (recalled w op) := by
  rcases reads with rfl | rfl <;> rfl

theorem Right.later {home : Option Json} {n : Nat} {op : Op} {r : Except Error Answer} (right : Right home ms n op r)
    (new : List Mark) : Right home (ms ++ new) n op r :=
  right.imp_right fun failed => ⟨failed.1, List.mem_append_left _ failed.2⟩

/-- What memory has for the key is what the store is to hold, the reads that are watched have been answered so, and no
other read can put anything there, for it has begun before the newest write. -/
structure Agrees (k : String) (home : Option Json) (watched : Nat → Op → Prop) (latest : Nat) (ms : List Mark)
    (s : Front) : Prop where
  covers : ∀ j, s.total ≤ j → watched j (.get k)
  newest : latest ≤ s.memory.writes
  entries : ∀ e, (k, e) ∈ s.memory.entries → home = some e.value
  readers : ∀ c ∈ s.calls, ∀ seen, c.stage.pending = .read k seen → seen < latest ∨ watched c.number c.op
  answers : ∀ c ∈ s.calls, watched c.number c.op → ∀ p r, c.stage = .answered p r → Right home ms c.number c.op r

namespace Agrees

variable {home : Option Json} {watched watched' : Nat → Op → Prop} {latest : Nat}

theorem widen (agrees : Agrees k home watched latest ms s) (wider : ∀ j op, watched j op → watched' j op)
    (same : ∀ c ∈ s.calls, watched' c.number c.op → watched c.number c.op) : Agrees k home watched' latest ms s where
  covers := fun j later => wider j _ (agrees.covers j later)
  newest := agrees.newest
  entries := agrees.entries
  readers := fun c mem seen reading => (agrees.readers c mem seen reading).imp_right (wider _ _)
  answers := fun c mem watching => agrees.answers c mem (same c mem watching)

theorem served (agrees : Agrees k home watched latest ms s) {w : Json} (served : s.memory.fresh? k s.now = some w) :
    home = some w := by
  obtain ⟨e, mem, -, rfl⟩ := Memory.exists_of_fresh? served
  exact agrees.entries e mem

theorem enter (agrees : Agrees k home watched latest ms s) (reads : ∀ j op, watched j op → Reads k op) {op : Op}
    {memory : Memory} {begun : Begun} {channel : Channel} {stage : Stage} {marks : List Mark}
    (begins : s.memory.begin s.config op s.now = (memory, begun))
    (enters : Enters s.channel s.total begun channel stage marks) (away : k ∉ op.written) :
    Agrees k home watched latest (ms ++ .begun s.total op s.now :: marks)
      { s with memory, channel, calls := s.calls ++ [⟨s.total, op, s.now, stage⟩], total := s.total + 1 } where
  covers := fun j later => agrees.covers j (Nat.le_of_succ_le later)
  newest := Nat.le_trans agrees.newest (Memory.beginWrites begins)
  entries := fun e mem => agrees.entries e ((Memory.beginKeeps begins away).entries e mem)
  readers := by
    refine List.forall_mem_append.mpr ⟨agrees.readers, List.forall_mem_singleton.mpr fun seen reading => .inr ?_⟩
    have fits : Call.Fits memory.writes ⟨s.total, op, s.now, stage⟩ := enterFits begins enters
    have matched := fits.matched
    rw [reading] at matched
    obtain rfl := matched.read
    exact agrees.covers _ (Nat.le_refl _)
  answers := by
    refine List.forall_mem_append.mpr ⟨fun c mem watching p r answered => ?_, List.forall_mem_singleton.mpr ?_⟩
    · exact (agrees.answers c mem watching p r answered).later _
    · intro watching p r answered
      have read := reads _ _ watching
      obtain ⟨w, fresh, rfl⟩ | ⟨-, p', rfl⟩ := enterReads begins enters read
      · cases answered
        rw [agrees.served fresh]
        exact .inl (recalledHome read).symm
      · cases answered

theorem move (agrees : Agrees k home watched latest ms s) (sound : Sound config s)
    (reads : ∀ j op, watched j op → Reads k op) {before after : List Call} {c : Call} {shelf : Shelf}
    {channel : Channel} {stage : Stage} {marks : List Mark} (stands : s.calls = before ++ c :: after)
    (moves : Moves s.shelf s.channel s.backlog c.number c.op c.stage marks shelf channel stage)
    (settled : ∀ j op queued, Mark.landed j op queued ∈ marks → watched j op → s.shelf k = home) :
    Agrees k home watched latest (ms ++ marks)
      { s with shelf, channel, calls := before ++ { c with stage } :: after } := by
  have fits := sound.fits c (by simp [stands])
  obtain ⟨covers, newest, entries, readers, answers⟩ := agrees
  rw [stands, List.forall_mem_append, List.forall_mem_cons] at readers answers
  refine ⟨covers, newest, entries, ?_, ?_⟩
  · refine List.forall_mem_append.mpr ⟨readers.1, List.forall_mem_cons.mpr ⟨fun seen reading => ?_, readers.2.2⟩⟩
    exact readers.2.1 seen (movePending moves ▸ reading)
  · refine List.forall_mem_append.mpr ⟨?_, List.forall_mem_cons.mpr ⟨?_, ?_⟩⟩
    · exact fun d mem watching p r answered => (answers.1 d mem watching p r answered).later _
    · rintro watching p r rfl
      have read := reads _ _ watching
      obtain ⟨n, op, began, was⟩ := c
      cases moves with
      | lands =>
        rw [← settled _ _ _ List.mem_cons_self watching]
        exact .inl (answerHome read).symm
      | fails p e other => exact .inr ⟨⟨e, rfl⟩, by simp⟩
      | accepted item | refused item =>
        obtain rfl := fits.placed item p rfl
        rcases read with same | same <;> cases same
    · exact fun d mem watching p r answered => (answers.2.2 d mem watching p r answered).later _

theorem answerMemory (agrees : Agrees k home watched latest ms s) (sound : Sound config s) {c : Call} {p : Pending}
    {r r' : Except Error Answer} {memory : Memory} (mem : c ∈ s.calls) (answered : c.stage = .answered p r)
    (finished : s.memory.finish s.config p r s.now = (memory, r')) :
    ∀ e, (k, e) ∈ memory.entries → home = some e.value := by
  have pending : c.stage.pending = p := by rw [answered]; rfl
  cases Memory.finishes finished with
  | remembered | missing | passed => exact agrees.entries
  | takenBack => exact fun e he => agrees.entries e (List.mem_filter.mp he).1
  | @stored key v missed =>
    intro e he
    rcases Memory.mem_insert.mp he with ⟨he, -⟩ | ⟨rfl, rfl⟩
    · exact agrees.entries e he
    · -- the read has seen the newest write, so it has begun after it
      have watching := (agrees.readers c mem _ pending).resolve_left (Nat.not_lt.mpr agrees.newest)
      have matched := (sound.fits c mem).matched
      rw [pending] at matched
      rcases agrees.answers c mem watching _ _ answered with right | ⟨⟨e, failed⟩, -⟩
      · rw [matched.read] at right
        cases home with
        | none => cases right
        | some w =>
          cases right
          rfl
      · cases failed

theorem answerRight (agrees : Agrees k home watched latest ms s) (sound : Sound config s)
    (reads : ∀ j op, watched j op → Reads k op) {c : Call} {p : Pending} {r r' : Except Error Answer} {memory : Memory}
    (mem : c ∈ s.calls) (answered : c.stage = .answered p r)
    (finished : s.memory.finish s.config p r s.now = (memory, r')) (watching : watched c.number c.op) :
    Right home ms c.number c.op r' := by
  have right := agrees.answers c mem watching p r answered
  have read := reads _ _ watching
  have matched := (sound.fits c mem).matched
  rw [answered, Stage.pending] at matched
  cases Memory.finishes finished with
  | stored | takenBack | passed => exact right
  | @remembered key seen v w served =>
    rw [matched.read] at read ⊢
    obtain rfl : key = k := by simpa [Reads] using read
    rw [agrees.served served]
    exact .inl rfl
  | missing =>
    obtain ⟨key, same⟩ := matched.deletion
    rw [same] at read
    rcases read with other | other <;> cases other

theorem fewer (agrees : Agrees k home watched latest ms s) {before after : List Call} {c : Call} {memory : Memory}
    {channel : Channel} (stands : s.calls = before ++ c :: after) (writes : latest ≤ memory.writes)
    (entries : ∀ e, (k, e) ∈ memory.entries → home = some e.value) :
    Agrees k home watched latest (ms ++ new) { s with memory, channel, calls := before ++ after } := by
  obtain ⟨covers, -, -, readers, answers⟩ := agrees
  rw [stands, List.forall_mem_append, List.forall_mem_cons] at readers answers
  exact ⟨covers, writes, entries, List.forall_mem_append.mpr ⟨readers.1, readers.2.2⟩, List.forall_mem_append.mpr
    ⟨fun d mem watching p r answered => (answers.1 d mem watching p r answered).later _,
      fun d mem watching p r answered => (answers.2.2 d mem watching p r answered).later _⟩⟩

theorem aside (agrees : Agrees k home watched latest ms s) (same : s'.calls = s.calls) (total : s'.total = s.total)
    (keeps : Keeps s.memory k s.now s'.memory) (writes : s'.memory.writes = s.memory.writes) :
    Agrees k home watched latest (ms ++ new) s' where
  covers := fun j later => agrees.covers j (total ▸ later)
  newest := writes ▸ agrees.newest
  entries := fun e mem => agrees.entries e (keeps.entries e mem)
  readers := fun c mem => agrees.readers c (same ▸ mem)
  answers := fun c mem watching p r answered => (agrees.answers c (same ▸ mem) watching p r answered).later _

end Agrees

variable {home : Option Json} {watched : Nat → Op → Prop} {latest : Nat}

theorem stepAgrees (step : Step s new s') (sound : Sound config s) (reads : ∀ j op, watched j op → Reads k op)
    (agrees : Agrees k home watched latest ms s) (quiet : Quiet k new)
    (settled : ∀ j op queued, Mark.landed j op queued ∈ new → watched j op → s.shelf k = home) :
    Agrees k home watched latest (ms ++ new) s' ∧
    ∀ j op r, Mark.ended j op r ∈ new → watched j op → Right home ms j op r := by
  cases step with
  | enter op begins enters =>
    refine ⟨agrees.enter reads begins enters (quiet _ _ _ List.mem_cons_self), fun j op' r mem => ?_⟩
    cases enters <;> simp at mem
  | move stands moves =>
    exact ⟨agrees.move sound reads stands moves settled, fun j op r mem => absurd mem (moveUnended moves j op r)⟩
  | @answer before after c p r memory r' stands answered finished =>
    have mem : c ∈ s.calls := by simp [stands]
    refine ⟨agrees.fewer stands ?_ (agrees.answerMemory sound mem answered finished), fun j op r'' ended watching => ?_⟩
    · rw [Memory.finishWrites finished]
      exact agrees.newest
    · cases List.mem_singleton.mp ended
      exact agrees.answerRight sound reads mem answered finished watching
  | drop stands => exact ⟨agrees.fewer stands agrees.newest agrees.entries, by simp⟩
  | pass => exact ⟨agrees.aside rfl rfl .refl rfl, by simp⟩
  | sweep => exact ⟨agrees.aside rfl rfl .purge rfl, by simp⟩
  | stop => exact ⟨agrees.aside rfl rfl .refl rfl, by simp⟩
  | work works =>
    exact ⟨agrees.aside rfl rfl .refl rfl, fun j op r mem => absurd mem (workUnasked works).2⟩

/-- No watched read has seen the store before the key was settled there. -/
def Settled (k : String) (home : Option Json) (watched : Nat → Op → Prop) (ms : List Mark) (final : Front) : Prop :=
  ∀ before j op queued after, ms = before ++ .landed j op queued :: after → watched j op →
    final.shelf k = home ∧ ∀ m ∈ after, ¬ m.Stores k

theorem runAgrees (run : Run init ms s) (rest : Run s more final) (sound : Sound config init)
    (reads : ∀ j op, watched j op → Reads k op) {past : List Mark} (agrees : Agrees k home watched latest past init)
    (quiet : Quiet k ms) (settled : Settled k home watched (ms ++ more) final) :
    Sound config s ∧ Agrees k home watched latest (past ++ ms) s ∧
    ∀ j op r, Mark.ended j op r ∈ ms → watched j op → Right home (past ++ ms) j op r := by
  induction run generalizing more with
  | nil =>
    rw [List.append_nil]
    exact ⟨sound, agrees, by simp⟩
  | @next ms s new s' earlier last ih =>
    obtain ⟨before, now⟩ := Quiet.append.mp quiet
    obtain ⟨sound', agrees', right⟩ := ih (.trans (.next .nil last) rest) before (by simpa using settled)
    have home' : ∀ j op queued, Mark.landed j op queued ∈ new → watched j op → s.shelf k = home := by
      intro j op queued landed watching
      obtain ⟨rfl, shelf⟩ := landsAlone last landed
      obtain ⟨same, none⟩ := settled ms j op queued more (by simp) watching
      have unread : s'.shelf k = s.shelf k := by
        rw [shelf]
        rcases reads j op watching with rfl | rfl <;> rfl
      rw [← same, runStores rest none, unread]
    obtain ⟨agrees'', right'⟩ := stepAgrees last sound' reads agrees' now home'
    rw [← List.append_assoc]
    refine ⟨stepSound last sound', agrees'', fun j op r mem watching => ?_⟩
    rcases List.mem_append.mp mem with old | old
    · exact (right j op r old watching).later new
    · exact (right' j op r old watching).later new

/-! ### From the last write on -/

def After (k : String) (n : Nat) (j : Nat) (op : Op) : Prop := op = .get k ∧ n < j

theorem mem_eraseAll {items : List KeyValue} {m : Memory} {e : Entry}
    (mem : (k, e) ∈ (items.foldl (fun m i => m.erase i.key) m).entries) :
    (k, e) ∈ m.entries ∧ k ∉ items.map (·.key) := by
  induction items generalizing m with
  | nil => exact ⟨mem, List.not_mem_nil⟩
  | cons i rest ih =>
    obtain ⟨erased, others⟩ := ih mem
    obtain ⟨there, other⟩ := List.mem_filter.mp erased
    exact ⟨there, by simpa using ⟨by simpa using other, by simpa using others⟩⟩

/-- A write leaves nothing for its keys in memory but the value that it sets. -/
theorem beginWritten {m memory : Memory} {op : Op} {now : Instant} {begun : Begun}
    (begins : m.begin config op now = (memory, begun)) (written : k ∈ op.written) :
    memory.writes = m.writes + 1 ∧ ∀ e, (k, e) ∈ memory.entries → op = .set k e.value := by
  cases op with
  | has | get => cases written
  | set key value =>
    obtain rfl : k = key := by simpa [Op.written] using written
    cases begins
    refine ⟨rfl, fun e mem => ?_⟩
    rcases Memory.mem_insert.mp mem with ⟨-, other⟩ | ⟨-, rfl⟩
    · exact absurd rfl other
    · rfl
  | delete key =>
    obtain rfl : k = key := by simpa [Op.written] using written
    cases begins
    refine ⟨rfl, fun e mem => ?_⟩
    simp [Memory.erase] at mem
  | batchSet items =>
    cases begins
    exact ⟨Memory.writes_eraseAll, fun e mem => absurd written (mem_eraseAll mem).2⟩

/-- An entry was there before, for a key that is not written, or is that of the write. -/
theorem beginEntries {m memory : Memory} {op : Op} {now : Instant} {begun : Begun} {e : Entry}
    (begins : m.begin config op now = (memory, begun)) (mem : (k, e) ∈ memory.entries) :
    k ∉ op.written ∧ (k, e) ∈ m.entries ∨
      op = .set k e.value ∧ begun.pending = .write k e.version ∧ e.expires = now + config.expiration := by
  by_cases written : k ∈ op.written
  · obtain rfl := (beginWritten begins written).2 e mem
    right
    cases begins
    rcases Memory.mem_insert.mp mem with ⟨-, other⟩ | ⟨-, own⟩
    · exact absurd rfl other
    · have version : e.version = m.writes + 1 := congrArg Entry.version own
      rw [version]
      exact ⟨rfl, by split <;> rfl, congrArg Entry.expires own⟩
  · exact .inl ⟨written, (Memory.beginKeeps begins written).entries e mem⟩

theorem writeAgrees {s₀ s₁ : Front} {n : Nat} {op : Op} {time : Instant} {marks : List Mark} (sound : Sound config s₀)
    (begins : Step s₀ (.begun n op time :: marks) s₁) (written : k ∈ op.written)
    (kept : ∀ v, op = .set k v → home = some v) :
    Agrees k home (After k n) (s₀.memory.writes + 1) [] s₁ := by
  generalize said : Mark.begun n op time :: marks = new at begins
  cases begins with
  | enter op begins enters =>
    cases said
    obtain ⟨writes, entries⟩ := beginWritten begins written
    have fits : Call.Fits _ ⟨s₀.total, op, s₀.now, _⟩ := enterFits begins enters
    have matched := fits.matched
    refine ⟨fun j later => ⟨rfl, later⟩, Nat.le_of_eq writes.symm, fun e mem => kept _ (entries e mem), ?_, ?_⟩
    · refine List.forall_mem_append.mpr ⟨fun c mem seen reading => .inl ?_, List.forall_mem_singleton.mpr ?_⟩
      · have stamp := (sound.fits c mem).stamp
        rw [reading] at stamp
        exact Nat.lt_succ_of_le stamp
      · intro seen reading
        rw [reading] at matched
        have same : op = .get k := matched.read
        rw [same] at written
        cases written
    · refine List.forall_mem_append.mpr ⟨fun c mem watching => ?_, List.forall_mem_singleton.mpr fun watching => ?_⟩
      · exact absurd (sound.numbers c mem) (Nat.lt_asymm watching.2)
      · exact absurd watching.2 (Nat.lt_irrefl _)
  | move stands moves => exact absurd (said ▸ List.mem_cons_self) (moveSilent moves n op time)
  | work works => exact absurd (said ▸ List.mem_cons_self) (workSilent works n op time)
  | _ => cases said

theorem runNumbers (run : Run init ms s) :
    init.total ≤ s.total ∧ ∀ j op time, Mark.begun j op time ∈ ms → init.total ≤ j := by
  induction run with
  | nil => exact ⟨Nat.le_refl _, nofun⟩
  | @next ms s new s' earlier last ih =>
    obtain ⟨total, numbers⟩ := ih
    suffices now : s.total ≤ s'.total ∧ ∀ j op time, Mark.begun j op time ∈ new → j = s.total by
      refine ⟨Nat.le_trans total now.1, fun j op time mem => ?_⟩
      rcases List.mem_append.mp mem with old | old
      · exact numbers j op time old
      · exact now.2 j op time old ▸ total
    cases last with
    | enter op begins enters =>
      refine ⟨Nat.le_succ _, fun j op' time mem => ?_⟩
      cases enters <;> simp at mem <;> exact mem.1
    | move stands moves => exact ⟨Nat.le_refl _, fun j op time mem => absurd mem (moveSilent moves j op time)⟩
    | work works => exact ⟨Nat.le_refl _, fun j op time mem => absurd mem (workSilent works j op time)⟩
    | answer | drop | stop => exact ⟨Nat.le_refl _, by simp⟩
    | pass | sweep => exact ⟨Nat.le_refl _, nofun⟩

end Front
end Switchyard.State
