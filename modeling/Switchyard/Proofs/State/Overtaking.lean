import Switchyard.Proofs.State.Front
import Switchyard.Proofs.State.Channel
/-!
Writes through the batch writer, one call after another. An accepted item reaches the store with its window, after
deletions and batch writes that were called later; so a deletion or a batch write counts only for the keys that have no
item on its way when it takes effect.
-/
namespace Switchyard.State

def Op.isRead : Op → Bool
  | .has _ | .get _ => true
  | _ => false

/-- A write that took effect, or the item of one that was accepted, with the items that were on their way then. -/
structure Effect where
  op : Op
  queued : List KeyValue

def Mark.effect? : Mark → Option Effect
  | .accepted _ item => some ⟨.set item.key item.value, []⟩
  | .landed _ op queued => if op.isRead then none else some ⟨op, queued⟩
  | _ => none

def Mark.write? : Mark → Option Op
  | .begun _ op _ => if op.isRead then none else some op
  | _ => none

def Worker.isFinal : Worker → Prop
  | gone | flushing _ .stop | resting .stop => True
  | _ => False

def Worker.isHalting : Worker → Prop
  | flushing _ .close | resting .close => True
  | _ => False

/-- A write counts for the keys without an item on its way. -/
def Shelf.settle (s : Shelf) (e : Effect) : Shelf := fun k =>
  if k ∈ e.queued.map (·.key) then s k else s.apply e.op k

namespace Shelf

variable {s t : Shelf} {op : Op} {k : String}

theorem apply_congr (same : s k = t k) : s.apply op k = t.apply op k := by
  by_cases mem : k ∈ op.written
  · exact apply_present mem
  · rw [apply_absent mem, apply_absent mem, same]

theorem apply_read (reads : op.isRead = true) : s.apply op = s := by
  cases op <;> first | rfl | cases reads

/-- The items on their way are written over what the store has done in the meantime. -/
theorem write_over (queued : List KeyValue) : (s.apply op).write queued = (s.write queued).settle ⟨op, queued⟩ := by
  funext k
  unfold settle
  split
  · rename_i mem
    exact write_present mem
  · rename_i free
    rw [write_absent free]
    exact apply_congr (write_absent free).symm

theorem settle_free {e : Effect} (free : ∀ k ∈ e.op.written, k ∉ e.queued.map (·.key)) : s.settle e = s.apply e.op := by
  funext k
  unfold settle
  split
  · rename_i mem
    exact (apply_absent fun written => free k written mem).symm
  · rfl

theorem settleAll_free {es : List Effect} (free : ∀ e ∈ es, ∀ k ∈ e.op.written, k ∉ e.queued.map (·.key)) :
    es.foldl settle s = (es.map (·.op)).foldl apply s := by
  induction es generalizing s with
  | nil => rfl
  | cons e rest ih =>
    rw [List.forall_mem_cons] at free
    rw [List.foldl_cons, settle_free free.1]
    exact ih free.2

end Shelf

namespace Front

def effects (ms : List Mark) : List Effect := ms.filterMap Mark.effect?

def called (ms : List Mark) : List Op := ms.filterMap Mark.write?

def Returned (past : List Mark) : Prop :=
  ∀ n op time, Mark.begun n op time ∈ past → ∃ r, Mark.ended n op r ∈ past

/-- A call begins when all others have returned, and the shutdown after the last has. -/
def OneByOne (past : List Mark) : Mark → Prop
  | .begun _ _ _ => Returned past ∧ Mark.stopping ∉ past
  | .stopping => Returned past
  | _ => True

/-- The store neither fails nor takes too long, and no call is given up. -/
structure Flawless (ms : List Mark) : Prop where
  answered : ∀ n, Mark.failed n ∉ ms
  kept : ∀ n, Mark.dropped n ∉ ms
  written : ∀ window, Mark.lost window ∉ ms

def Call.owed? (c : Call) : Option Op :=
  match c.stage with
  | .asked _ | .placing _ _ => if c.op.isRead then none else some c.op
  | .answered _ _ => none

@[simp] theorem effects_append (xs ys : List Mark) : effects (xs ++ ys) = effects xs ++ effects ys := by simp [effects]
@[simp] theorem called_append (xs ys : List Mark) : called (xs ++ ys) = called xs ++ called ys := by simp [called]

theorem effects_quiet {ms new : List Mark} (quiet : effects new = []) : effects (ms ++ new) = effects ms := by
  rw [effects_append, quiet, List.append_nil]

theorem called_quiet {ms new : List Mark} (quiet : called new = []) : called (ms ++ new) = called ms := by
  rw [called_append, quiet, List.append_nil]

theorem effects_landed (n : Nat) (op : Op) (queued : List KeyValue) :
    effects [.landed n op queued] = if op.isRead then [] else [⟨op, queued⟩] := by
  cases read : op.isRead <;> simp [effects, Mark.effect?, read]

theorem owed_single (c : Call) : [c].filterMap Call.owed? = c.owed?.toList := by
  cases h : c.owed? <;> simp [h]

structure Orderly (init : Shelf) (ms : List Mark) (s : Front) : Prop where
  single : s.calls.length ≤ 1
  pending : ∀ c ∈ s.calls, Mark.begun c.number c.op c.began ∈ ms ∧ ∀ op r, Mark.ended c.number op r ∉ ms
  past : ∀ n op r, Mark.ended n op r ∈ ms → n < s.total
  after : s.stopping = true → s.calls = [] ∧ Mark.stopping ∈ ms
  closed : s.channel.closed = true → s.stopping = true
  halting : s.worker.isHalting → s.stopping = true
  final : s.worker.isFinal → s.channel.closed = true ∧ s.channel.queue = []
  pace : called ms = (effects ms).map (·.op) ++ s.calls.filterMap Call.owed?
  written : s.shelf.write s.backlog = (effects ms).foldl Shelf.settle init

namespace Orderly

variable {init : Shelf} {ms : List Mark} {s : Front} {config : CacheConfig}

theorem idle (orderly : Orderly init ms s) (returned : Returned ms) : s.calls = [] := by
  cases calls : s.calls with
  | nil => rfl
  | cons c rest =>
    obtain ⟨begun, notEnded⟩ := orderly.pending c (by simp [calls])
    obtain ⟨r, ended⟩ := returned _ _ _ begun
    exact absurd ended (notEnded _ r)

theorem alone (orderly : Orderly init ms s) {before after : List Call} {c : Call}
    (stands : s.calls = before ++ c :: after) : before = [] ∧ after = [] := by
  have single := orderly.single
  rw [stands, List.length_append, List.length_cons] at single
  exact ⟨List.length_eq_zero_iff.mp (by omega), List.length_eq_zero_iff.mp (by omega)⟩

theorem notStopping (orderly : Orderly init ms s) {c : Call} (called : c ∈ s.calls) : s.stopping = false := by
  cases stopping : s.stopping with
  | false => rfl
  | true =>
    rw [(orderly.after stopping).1] at called
    cases called

theorem open_of_notStopping (orderly : Orderly init ms s) (goesOn : s.stopping = false) : s.channel.closed = false := by
  cases closed : s.channel.closed with
  | false => rfl
  | true =>
    rw [orderly.closed closed] at goesOn
    cases goesOn

theorem notFinal_of_notStopping (orderly : Orderly init ms s) (goesOn : s.stopping = false) : ¬ s.worker.isFinal := by
  intro final
  have closed := (orderly.final final).1
  rw [orderly.open_of_notStopping goesOn] at closed
  cases closed

end Orderly

theorem servedRead {m memory : Memory} {config : CacheConfig} {op : Op} {now : Instant} {a : Answer}
    (begins : m.begin config op now = (memory, .served a)) : op.isRead = true := by
  cases op with
  | set key value =>
    simp only [Memory.begin, Prod.mk.injEq] at begins
    obtain ⟨-, kept⟩ := begins
    split at kept <;> cases kept
  | get | has => rfl
  | delete | batchSet => cases begins

theorem enterMarks {channel channel' : Channel} {n : Nat} {begun : Begun} {stage : Stage} {marks : List Mark}
    (enters : Enters channel n begun channel' stage marks) :
    (∀ j op r, Mark.ended j op r ∉ marks) ∧ channel'.closed = channel.closed := by
  cases enters with
  | served | asks => exact ⟨by simp, rfl⟩
  | accepted item p given => exact ⟨by simp, (Channel.reserveKeeps given).2⟩
  | waits item p full => exact ⟨by simp, (Channel.reserveKeeps full).2⟩
  | refused item p closed => exact ⟨by simp, (Channel.reserveKeeps closed).2⟩

theorem enterPace {m memory : Memory} {config : CacheConfig} {op : Op} {now : Instant} {begun : Begun}
    {channel channel' : Channel} {n : Nat} {stage : Stage} {marks : List Mark}
    (begins : m.begin config op now = (memory, begun)) (enters : Enters channel n begun channel' stage marks)
    (goesOn : channel.closed = false) :
    called (.begun n op now :: marks) =
      (effects (.begun n op now :: marks)).map (·.op) ++ [(⟨n, op, now, stage⟩ : Call)].filterMap Call.owed? := by
  cases enters with
  | served a =>
    have read := servedRead begins
    simp [called, effects, Mark.write?, Mark.effect?, Call.owed?, read]
  | asks p =>
    cases read : op.isRead <;> simp [called, effects, Mark.write?, Mark.effect?, Call.owed?, read]
  | accepted item p given =>
    rw [queuedItem begins]
    rfl
  | waits item p full =>
    rw [queuedItem begins]
    rfl
  | refused item p closed =>
    rw [Channel.reserveRefused closed] at goesOn
    cases goesOn

theorem enterWritten {shelf : Shelf} {window : List KeyValue} {channel channel' : Channel} {n : Nat} {begun : Begun}
    {stage : Stage} {marks : List Mark} {op : Op} {now : Instant}
    (enters : Enters channel n begun channel' stage marks) :
    shelf.write (window ++ channel'.queue) =
      (effects (.begun n op now :: marks)).foldl Shelf.settle (shelf.write (window ++ channel.queue)) := by
  cases enters with
  | served | asks => rfl
  | waits item p full => rw [(Channel.reserveKeeps full).1]; rfl
  | refused item p closed => rw [(Channel.reserveKeeps closed).1]; rfl
  | accepted item p given =>
    rw [Channel.push, (Channel.reserveKeeps given).1, ← List.append_assoc, Shelf.write_append]
    exact (Shelf.settle_free (e := ⟨.set item.key item.value, []⟩) (by simp)).symm

/-- A write that was owed is accepted or done, and nothing else changes what is owed. -/
theorem movePace {shelf shelf' : Shelf} {channel channel' : Channel} {window : List KeyValue} {marks : List Mark}
    {c : Call} {stage : Stage}
    (moves : Moves shelf channel (window ++ channel.queue) c.number c.op c.stage marks shelf' channel' stage)
    (placed : ∀ item p, c.stage = .placing item p → c.op = .set item.key item.value) (opened : channel.closed = false)
    (flawless : Flawless marks) :
    c.owed?.toList = (effects marks).map (·.op) ++ ({ c with stage } : Call).owed?.toList ∧
    shelf'.write (window ++ channel'.queue) =
      (effects marks).foldl Shelf.settle (shelf.write (window ++ channel.queue)) ∧
    channel'.closed = false ∧ (∀ j op r, Mark.ended j op r ∉ marks) ∧ called marks = [] := by
  obtain ⟨n, op, began, was⟩ := c
  cases moves with
  | lands p =>
    rw [effects_landed]
    refine ⟨?_, ?_, opened, by simp, rfl⟩
    · cases read : op.isRead <;> simp [Call.owed?, read]
    · cases read : op.isRead with
      | true => rw [Shelf.apply_read read]; rfl
      | false => exact Shelf.write_over _
  | fails p e => exact absurd List.mem_cons_self (flawless.answered n)
  | accepted item p given =>
    obtain ⟨queue, closed⟩ := Channel.claimKeeps given
    obtain rfl := placed item p rfl
    refine ⟨rfl, ?_, closed.trans opened, by simp, rfl⟩
    rw [Channel.push, queue, ← List.append_assoc, Shelf.write_append]
    exact (Shelf.settle_free (e := ⟨.set item.key item.value, []⟩) (by simp)).symm
  | refused item p closed =>
    rw [Channel.claimRefused closed] at opened
    cases opened

namespace Orderly

variable {init : Shelf} {ms : List Mark} {s : Front}

theorem enter (orderly : Orderly init ms s) {op : Op} {memory : Memory} {begun : Begun} {channel : Channel}
    {stage : Stage} {marks : List Mark} (begins : s.memory.begin s.config op s.now = (memory, begun))
    (enters : Enters s.channel s.total begun channel stage marks) (returned : Returned ms)
    (before : Mark.stopping ∉ ms) :
    Orderly init (ms ++ .begun s.total op s.now :: marks)
      { s with memory, channel, calls := s.calls ++ [⟨s.total, op, s.now, stage⟩], total := s.total + 1 } := by
  have idle := orderly.idle returned
  have goesOn : s.stopping = false := by
    cases stopping : s.stopping with
    | false => rfl
    | true => exact absurd (orderly.after stopping).2 before
  have opened := orderly.open_of_notStopping goesOn
  obtain ⟨noEnd, closed⟩ := enterMarks enters
  have notEnded : ∀ j op' r, Mark.ended j op' r ∈ ms ++ .begun s.total op s.now :: marks → Mark.ended j op' r ∈ ms := by
    intro j op' r mem
    rcases List.mem_append.mp mem with old | new
    · exact old
    · exact absurd new (by simp [noEnd])
  refine ⟨by simp [idle], ?_, ?_, ?_, ?_, orderly.halting, fun final => ?_, ?_, ?_⟩
  · rw [idle]
    refine List.forall_mem_singleton.mpr ⟨by simp, fun op' r mem => ?_⟩
    exact absurd (orderly.past _ _ _ (notEnded _ _ _ mem)) (Nat.lt_irrefl _)
  · intro j op' r mem
    exact Nat.lt_succ_of_lt (orderly.past j op' r (notEnded _ _ _ mem))
  · intro stopping
    rw [goesOn] at stopping
    cases stopping
  · intro isClosed
    rw [closed, opened] at isClosed
    cases isClosed
  · exact absurd final (orderly.notFinal_of_notStopping goesOn)
  · have pace := orderly.pace
    rw [idle, List.filterMap_nil, List.append_nil] at pace
    rw [called_append, pace, enterPace begins enters opened, effects_append, List.map_append, idle, List.append_assoc]
    rfl
  · rw [effects_append, List.foldl_append, ← orderly.written]
    exact enterWritten enters

theorem move (orderly : Orderly init ms s) (sound : ∀ c ∈ s.calls, c.Fits s.memory.writes) {before after : List Call}
    {c : Call} {shelf : Shelf} {channel : Channel} {stage : Stage} {marks : List Mark}
    (stands : s.calls = before ++ c :: after)
    (moves : Moves s.shelf s.channel s.backlog c.number c.op c.stage marks shelf channel stage)
    (flawless : Flawless marks) :
    Orderly init (ms ++ marks) { s with shelf, channel, calls := before ++ { c with stage } :: after } := by
  obtain ⟨rfl, rfl⟩ := orderly.alone stands
  have mem : c ∈ s.calls := by simp [stands]
  have goesOn := orderly.notStopping mem
  have opened := orderly.open_of_notStopping goesOn
  obtain ⟨begun, notEnded⟩ := orderly.pending c mem
  obtain ⟨owed, written, closed, noEnd, noCall⟩ := movePace moves (sound c mem).placed opened flawless
  refine ⟨Nat.le_refl _, ?_, ?_, ?_, ?_, orderly.halting, fun final => ?_, ?_, ?_⟩
  · refine List.forall_mem_singleton.mpr ⟨List.mem_append_left _ begun, fun op r mem => ?_⟩
    rcases List.mem_append.mp mem with old | new
    · exact notEnded op r old
    · exact noEnd _ _ _ new
  · intro j op r mem
    rcases List.mem_append.mp mem with old | new
    · exact orderly.past j op r old
    · exact absurd new (noEnd _ _ _)
  · intro stopping
    rw [goesOn] at stopping
    cases stopping
  · intro isClosed
    rw [closed] at isClosed
    cases isClosed
  · exact absurd final (orderly.notFinal_of_notStopping goesOn)
  · have pace := orderly.pace
    rw [stands, List.nil_append, owed_single, owed] at pace
    rw [called_quiet noCall, pace, effects_append, List.map_append, List.append_assoc, List.nil_append, owed_single]
  · rw [effects_append, List.foldl_append, ← orderly.written]
    exact written

theorem answer (orderly : Orderly init ms s) (numbers : ∀ c ∈ s.calls, c.number < s.total) {before after : List Call}
    {c : Call} {p : Pending} {r r' : Except Error Answer} {memory : Memory} (stands : s.calls = before ++ c :: after)
    (answered : c.stage = .answered p r) :
    Orderly init (ms ++ [.ended c.number c.op r']) { s with memory, calls := before ++ after } := by
  obtain ⟨rfl, rfl⟩ := orderly.alone stands
  have noCall : called [.ended c.number c.op r'] = [] := rfl
  have noEffect : effects [.ended c.number c.op r'] = [] := rfl
  have owed : c.owed? = none := by rw [Call.owed?, answered]
  have pace := orderly.pace
  rw [stands, List.nil_append, owed_single, owed] at pace
  refine ⟨Nat.zero_le _, List.forall_mem_nil _, ?_, fun stopping => ⟨rfl, ?_⟩, orderly.closed, orderly.halting,
    orderly.final, ?_, ?_⟩
  · intro j op r mem
    rcases List.mem_append.mp mem with old | new
    · exact orderly.past j op r old
    · obtain ⟨rfl, -, -⟩ : j = c.number ∧ op = c.op ∧ r = r' := by simpa using new
      exact numbers c (by simp [stands])
  · exact List.mem_append_left _ (orderly.after stopping).2
  · rw [called_quiet noCall, effects_quiet noEffect]
    exact pace
  · rw [effects_quiet noEffect]
    exact orderly.written

theorem stop (orderly : Orderly init ms s) (returned : Returned ms) :
    Orderly init (ms ++ [.stopping]) { s with stopping := true } := by
  have noCall : called [.stopping] = [] := rfl
  have noEffect : effects [.stopping] = [] := rfl
  have idle := orderly.idle returned
  refine ⟨orderly.single, ?_, ?_, fun _ => ⟨idle, by simp⟩, fun _ => rfl, fun _ => rfl, orderly.final, ?_, ?_⟩
  · rw [idle]
    exact List.forall_mem_nil _
  · intro j op r mem
    exact orderly.past j op r (by simpa using mem)
  · rw [called_quiet noCall, effects_quiet noEffect]
    exact orderly.pace
  · rw [effects_quiet noEffect]
    exact orderly.written

/-- A turn of the writer moves items on without another order, and what it writes are the first of those on their
way. -/
theorem workOrder {config : CacheConfig} {now : Instant} {stopping : Bool} {channel channel' : Channel}
    {shelf shelf' : Shelf} {marks : List Mark} {worker worker' : Worker}
    (works : Works config now stopping channel shelf worker marks worker' channel' shelf') (flawless : Flawless marks) :
    shelf'.write (worker'.window ++ channel'.queue) = shelf.write (worker.window ++ channel.queue) := by
  cases works with
  | opens goesOn found =>
    rw [(Channel.receiveFirst found).1]
    rfl
  | takes window due found =>
    rw [(Channel.receiveFirst found).1]
    simp [Worker.window]
  | due | halts | goesOn | ends => rfl
  | writes window after =>
    have same : shelf.apply (.batchSet (dedupe window)) = shelf.write window := Shelf.write_dedupe
    rw [same]
    exact Shelf.write_append.symm
  | loses window | breaks window => exact absurd List.mem_cons_self (flawless.written window)
  | closes last taken =>
    obtain ⟨rfl, empty, -⟩ := Channel.drainClosed taken
    have nothing : worker.window = [] := by rcases last with rfl | ⟨rfl, -⟩ <;> rfl
    rw [nothing, empty, List.append_nil, List.nil_append]
    cases channel.queue <;> rfl

theorem workEnd {config : CacheConfig} {now : Instant} {stopping : Bool} {channel channel' : Channel}
    {shelf shelf' : Shelf} {marks : List Mark} {worker worker' : Worker}
    (works : Works config now stopping channel shelf worker marks worker' channel' shelf') (flawless : Flawless marks)
    (closed : channel.closed = true → stopping = true) (halting : worker.isHalting → stopping = true)
    (final : worker.isFinal → channel.closed = true ∧ channel.queue = []) :
    (channel'.closed = true → stopping = true) ∧ (worker'.isHalting → stopping = true) ∧
    (worker'.isFinal → channel'.closed = true ∧ channel'.queue = []) := by
  cases works with
  | opens goesOn found =>
    rw [(Channel.receiveFirst found).2]
    exact ⟨closed, nofun, nofun⟩
  | takes window due found =>
    rw [(Channel.receiveFirst found).2]
    exact ⟨closed, nofun, nofun⟩
  | due window due passed => exact ⟨closed, nofun, nofun⟩
  | halts window due stops => exact ⟨closed, fun _ => stops, nofun⟩
  | writes window after =>
    cases after with
    | again | close | stop => exact ⟨closed, halting, final⟩
  | loses window | breaks window => exact absurd List.mem_cons_self (flawless.written window)
  | goesOn => exact ⟨closed, nofun, nofun⟩
  | closes last taken =>
    obtain ⟨rfl, empty, isClosed⟩ := Channel.drainClosed taken
    have stops : stopping = true := by
      rcases last with rfl | ⟨-, stops⟩
      · exact halting trivial
      · exact stops
    exact ⟨fun _ => stops, fun _ => stops, fun _ => ⟨isClosed, empty⟩⟩
  | ends => exact ⟨closed, nofun, final⟩

theorem workQuiet {config : CacheConfig} {now : Instant} {stopping : Bool} {channel channel' : Channel}
    {shelf shelf' : Shelf} {marks : List Mark} {worker worker' : Worker}
    (works : Works config now stopping channel shelf worker marks worker' channel' shelf') :
    called marks = [] ∧ effects marks = [] ∧ ∀ n op r, Mark.ended n op r ∉ marks := by
  cases works <;> exact ⟨rfl, rfl, by simp⟩

theorem work (orderly : Orderly init ms s) {marks : List Mark} {worker : Worker} {channel : Channel} {shelf : Shelf}
    (works : Works s.config s.now s.stopping s.channel s.shelf s.worker marks worker channel shelf)
    (flawless : Flawless marks) : Orderly init (ms ++ marks) { s with worker, channel, shelf } := by
  obtain ⟨noCall, noEffect, noEnd⟩ := workQuiet works
  obtain ⟨closed, halting, final⟩ := workEnd works flawless orderly.closed orderly.halting orderly.final
  have notEnded : ∀ n op r, Mark.ended n op r ∈ ms ++ marks → Mark.ended n op r ∈ ms := by
    intro n op r mem
    exact (List.mem_append.mp mem).resolve_right (noEnd n op r)
  refine ⟨orderly.single, ?_, ?_, fun stopping => ?_, closed, halting, final, ?_, ?_⟩
  · intro c hc
    obtain ⟨begun, open'⟩ := orderly.pending c hc
    exact ⟨List.mem_append_left _ begun, fun op r mem => open' op r (notEnded _ op r mem)⟩
  · exact fun n op r mem => orderly.past n op r (notEnded n op r mem)
  · obtain ⟨idle, before⟩ := orderly.after stopping
    exact ⟨idle, List.mem_append_left _ before⟩
  · rw [called_quiet noCall, effects_quiet noEffect]
    exact orderly.pace
  · rw [effects_quiet noEffect, ← orderly.written]
    exact workOrder works flawless

theorem aside (orderly : Orderly init ms s) {now : Instant} {memory : Memory} :
    Orderly init (ms ++ []) { s with now, memory } := by
  rw [List.append_nil]
  exact { orderly with }

end Orderly

theorem Flawless.append {xs ys : List Mark} (flawless : Flawless (xs ++ ys)) : Flawless xs ∧ Flawless ys := by
  obtain ⟨answered, kept, written⟩ := flawless
  simp only [List.mem_append, not_or, forall_and] at answered kept written
  exact ⟨⟨answered.1, kept.1, written.1⟩, ⟨answered.2, kept.2, written.2⟩⟩

theorem stepOrderly {config : CacheConfig} {init : Shelf} {ms new : List Mark} {s s' : Front} (step : Step s new s')
    (sound : Sound config s) (orderly : Orderly init ms s) (oneByOne : Lawful OneByOne ms new)
    (flawless : Flawless new) : Orderly init (ms ++ new) s' := by
  cases step with
  | enter op begins enters => exact orderly.enter begins enters oneByOne.1.1 oneByOne.1.2
  | move stands moves => exact orderly.move sound.fits stands moves flawless
  | answer stands answered finished => exact orderly.answer sound.numbers stands answered
  | @drop _ _ c stands => exact absurd List.mem_cons_self (flawless.kept c.number)
  | pass | sweep => exact orderly.aside
  | stop => exact orderly.stop oneByOne.1
  | work works => exact orderly.work works flawless

theorem startOrderly {config : CacheConfig} (init : Shelf) (on : config.batch = true) :
    Orderly init [] (start config init) := by
  have idle : (start config init).worker = .idle := by simp [start, on]
  refine ⟨Nat.zero_le _, ?_, ?_, ?_, ?_, ?_, ?_, rfl, ?_⟩
  · simp [start]
  · simp
  · simp [start]
  · simp [start, Channel.ofCapacity]
  · rw [idle]
    exact False.elim
  · rw [idle]
    exact False.elim
  · rw [backlog, idle]
    rfl

theorem runOrderly {config : CacheConfig} {init : Shelf} {ms : List Mark} {s : Front} (on : config.batch = true)
    (run : Run (start config init) ms s) (oneByOne : Lawful OneByOne [] ms) (flawless : Flawless ms) :
    Orderly init ms s := by
  induction run with
  | nil => exact startOrderly init on
  | next earlier last ih =>
    obtain ⟨before, now⟩ := Lawful.append.mp oneByOne
    obtain ⟨flawlessBefore, flawlessNow⟩ := flawless.append
    exact stepOrderly last (runSound earlier) (ih before flawlessBefore) (by simpa using now) flawlessNow

/-- With batching, when writes are called one after another over a store that does all it is asked, and the writer has
ended after the shutdown: the store holds what the writes make of what it held, in the order in which they were called,
but a deletion or a batch write does not count for the keys for which an earlier item was still on its way. Where there
are none such, the store holds what the writes make of it in that order. -/
theorem batchedWritesSettle {config : CacheConfig} {shelf : Shelf} {ms : List Mark} {s : Front}
    (on : config.batch = true) (run : Run (start config shelf) ms s) (oneByOne : Lawful OneByOne [] ms)
    (flawless : Flawless ms) (ended : s.worker = .gone) :
    (effects ms).map (·.op) = called ms ∧ s.shelf = (effects ms).foldl Shelf.settle shelf ∧
    ((∀ e ∈ effects ms, ∀ k ∈ e.op.written, k ∉ e.queued.map (·.key)) →
      s.shelf = (called ms).foldl Shelf.apply shelf) := by
  have orderly := runOrderly on run oneByOne flawless
  have final : s.worker.isFinal := by rw [ended]; trivial
  obtain ⟨closed, empty⟩ := orderly.final final
  have idle := (orderly.after (orderly.closed closed)).1
  have ops : (effects ms).map (·.op) = called ms := by
    have pace := orderly.pace
    rw [idle, List.filterMap_nil, List.append_nil] at pace
    exact pace.symm
  have settled : s.shelf = (effects ms).foldl Shelf.settle shelf := by
    have written := orderly.written
    rw [backlog, ended, empty] at written
    exact written
  refine ⟨ops, settled, fun free => ?_⟩
  rw [settled, ← ops]
  exact Shelf.settleAll_free free

/-! ### A deletion that is overtaken -/

def overtakenItem : KeyValue := ⟨"k", .bool true⟩

def overtakenQueued : Front :=
  { start { batch := true } (fun _ => none) with
    memory := Memory.empty.beginWrite.insert "k" ⟨.bool true, Span.ofSeconds 300, 1⟩
    channel := ⟨[overtakenItem], 1023, [], [], false⟩
    total := 1 }

def overtakenDeleted : Front :=
  { overtakenQueued with
    memory := overtakenQueued.memory.beginWrite.erase "k"
    shelf := Shelf.remove (fun _ => none) "k"
    total := 2 }

def overtakenEnded : Front :=
  { overtakenDeleted with
    shelf := overtakenDeleted.shelf.apply (.batchSet (dedupe [overtakenItem]))
    channel := ⟨[], 1024, [], [], true⟩
    worker := .gone
    stopping := true }

def overtakenMarks : List Mark :=
  [.begun 0 (.set "k" (.bool true)) 0, .accepted 0 overtakenItem, .ended 0 (.set "k" (.bool true)) (.ok .done),
   .begun 1 (.delete "k") 0, .landed 1 (.delete "k") [overtakenItem], .ended 1 (.delete "k") (.ok .done), .stopping,
   .flushed [overtakenItem]]

theorem overtakenRun : Run (start { batch := true } fun _ => none) overtakenMarks overtakenEnded := by
  have begins : (start { batch := true } fun _ => none).memory.begin { batch := true } (.set "k" (.bool true)) 0 =
      (overtakenQueued.memory, .queue overtakenItem (.write "k" 1)) := rfl
  have given : (start { batch := true } fun _ => none).channel.reserve 0 = (⟨[], 1023, [], [], false⟩, .granted) := rfl
  have accepted : Step (start { batch := true } fun _ => none)
      [.begun 0 (.set "k" (.bool true)) 0, .accepted 0 overtakenItem]
      { overtakenQueued with calls := [⟨0, .set "k" (.bool true), 0, .answered (.write "k" 1) (.ok .done)⟩] } :=
    .enter (.set "k" (.bool true)) begins (.accepted overtakenItem (.write "k" 1) given)
  have set : Step { overtakenQueued with
        calls := [⟨0, .set "k" (.bool true), 0, .answered (.write "k" 1) (.ok .done)⟩] }
      [.ended 0 (.set "k" (.bool true)) (.ok .done)] overtakenQueued :=
    @Step.answer _ [] [] ⟨0, .set "k" (.bool true), 0, .answered (.write "k" 1) (.ok .done)⟩ _ _ _ _ rfl rfl rfl
  have asked : Step overtakenQueued [.begun 1 (.delete "k") 0]
      { overtakenQueued with
        memory := overtakenQueued.memory.beginWrite.erase "k"
        calls := [⟨1, .delete "k", 0, .asked .deletion⟩]
        total := 2 } :=
    .enter (.delete "k") rfl (.asks .deletion)
  have landed : Step { overtakenQueued with
        memory := overtakenQueued.memory.beginWrite.erase "k"
        calls := [⟨1, .delete "k", 0, .asked .deletion⟩]
        total := 2 }
      [.landed 1 (.delete "k") [overtakenItem]]
      { overtakenDeleted with calls := [⟨1, .delete "k", 0, .answered .deletion (.error (.notFound "k"))⟩] } :=
    @Step.move _ [] [] ⟨1, .delete "k", 0, .asked .deletion⟩ _ _ _ _ rfl (.lands .deletion)
  have deleted : Step
      { overtakenDeleted with calls := [⟨1, .delete "k", 0, .answered .deletion (.error (.notFound "k"))⟩] }
      [.ended 1 (.delete "k") (.ok .done)] overtakenDeleted :=
    @Step.answer _ [] [] ⟨1, .delete "k", 0, .answered .deletion (.error (.notFound "k"))⟩ _ _ _ _ rfl rfl rfl
  have closed : Step { overtakenDeleted with stopping := true } []
      { overtakenDeleted with
        channel := ⟨[], 1024, [], [], true⟩
        worker := .flushing [overtakenItem] .stop
        stopping := true } :=
    .work (.closes (.inr ⟨rfl, rfl⟩) rfl)
  have flushed : Step
      { overtakenDeleted with
        channel := ⟨[], 1024, [], [], true⟩
        worker := .flushing [overtakenItem] .stop
        stopping := true }
      [.flushed [overtakenItem]] { overtakenEnded with worker := .resting .stop } :=
    .work (.writes [overtakenItem] .stop)
  have ended : Step { overtakenEnded with worker := .resting .stop } [] overtakenEnded := .work .ends
  exact .next (.next (.next (.next (.next (.next (.next (.next (.next .nil accepted) set) asked) landed) deleted) .stop)
    closed) flushed) ended

theorem overtakenOneByOne : Lawful OneByOne [] overtakenMarks := by
  refine ⟨⟨nofun, nofun⟩, trivial, trivial, ⟨?_, by simp⟩, trivial, trivial, ?_, trivial, trivial⟩
  · intro n op time begun
    obtain ⟨rfl, rfl, rfl⟩ : n = 0 ∧ op = .set "k" (.bool true) ∧ time = 0 := by simpa using begun
    exact ⟨.ok .done, by simp⟩
  · intro n op time begun
    obtain ⟨rfl, rfl, rfl⟩ | ⟨rfl, rfl, rfl⟩ :
        (n = 0 ∧ op = .set "k" (.bool true) ∧ time = 0) ∨ (n = 1 ∧ op = .delete "k" ∧ time = 0) := by
      simpa using begun
    · exact ⟨.ok .done, by simp⟩
    · exact ⟨.ok .done, by simp⟩

theorem overtakenFlawless : Flawless overtakenMarks :=
  ⟨by simp [overtakenMarks], by simp [overtakenMarks], by simp [overtakenMarks]⟩

theorem deletionOvertaken : Run (start { batch := true } fun _ => none) overtakenMarks overtakenEnded ∧
    Lawful OneByOne [] overtakenMarks ∧ Flawless overtakenMarks ∧
    (∀ n op e, Mark.ended n op (.error e) ∉ overtakenMarks) ∧ overtakenEnded.worker = .gone ∧
    overtakenEnded.shelf "k" = some (.bool true) ∧
    (called overtakenMarks).foldl Shelf.apply (fun _ => none) "k" = none :=
  ⟨overtakenRun, overtakenOneByOne, overtakenFlawless, by simp [overtakenMarks], rfl, rfl, rfl⟩

theorem overtakenSettles : overtakenEnded.worker = .gone ∧
    overtakenEnded.shelf = (effects overtakenMarks).foldl Shelf.settle fun _ => none :=
  ⟨rfl, (batchedWritesSettle rfl overtakenRun overtakenOneByOne overtakenFlawless rfl).2.1⟩

end Front
end Switchyard.State
