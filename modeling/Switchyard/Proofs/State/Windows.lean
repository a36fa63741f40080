import Switchyard.Proofs.State.Agreement
import Switchyard.Proofs.State.Overtaking
/-!
The windows in which the batch writer hands on what it was given. Laid end to end they are the items that were accepted,
in the order in which they were, but for those still on their way; and a writer that has ended has left none behind, as
long as the store did not panic under it.
-/
namespace Switchyard.State

def Mark.accepted? : Mark → Option (Nat × KeyValue)
  | .accepted n item => some (n, item)
  | _ => none

def Mark.window? : Mark → Option (List KeyValue)
  | .flushed window | .lost window => some window
  | _ => none

/-- The window that the store has at present. -/
def Worker.handed : Worker → List (List KeyValue)
  | flushing window _ => [window]
  | _ => []

def Worker.gathered : Worker → List KeyValue
  | gathering window _ => window
  | _ => []

namespace Front

variable {config : CacheConfig} {ms new : List Mark} {s s' init : Front}

/-- The items that were accepted, each with the number of its call. -/
def intake (ms : List Mark) : List (Nat × KeyValue) := ms.filterMap Mark.accepted?

def items (ms : List Mark) : List KeyValue := (intake ms).map (·.2)

/-- The windows of the flushes that are over, as they were gathered. -/
def windows (ms : List Mark) : List (List KeyValue) := ms.filterMap Mark.window?

/-- All windows that were handed to the store. -/
def handed (ms : List Mark) (s : Front) : List (List KeyValue) := windows ms ++ s.worker.handed

/-- The store does not panic while it has a window, which would end the writer. -/
def Calm (s : Front) (ms : List Mark) (s' : Front) : Prop :=
  Step s ms s' ∧ ∀ window after, s.worker = .flushing window after → s'.worker ≠ .gone

theorem Calm.run (run : Runs Calm init ms s) : Run init ms s := run.mono fun _ _ _ calm => calm.1

@[simp] theorem intake_append (xs ys : List Mark) : intake (xs ++ ys) = intake xs ++ intake ys := by simp [intake]
@[simp] theorem items_append (xs ys : List Mark) : items (xs ++ ys) = items xs ++ items ys := by simp [items]
@[simp] theorem windows_append (xs ys : List Mark) : windows (xs ++ ys) = windows xs ++ windows ys := by simp [windows]

/-! ### What comes in goes out, or is on its way -/

theorem enterConveys {channel channel' : Channel} {n : Nat} {begun : Begun} {stage : Stage} {marks : List Mark}
    (enters : Enters channel n begun channel' stage marks) :
    channel'.queue = channel.queue ++ items marks ∧ windows marks = [] := by
  cases enters with
  | served | asks => exact ⟨(List.append_nil _).symm, rfl⟩
  | accepted item p given => exact ⟨congrArg (· ++ [item]) (Channel.reserveKeeps given).1, rfl⟩
  | waits item p full => exact ⟨(Channel.reserveKeeps full).1.trans (List.append_nil _).symm, rfl⟩
  | refused item p closed => exact ⟨(Channel.reserveKeeps closed).1.trans (List.append_nil _).symm, rfl⟩

theorem moveConveys {shelf shelf' : Shelf} {channel channel' : Channel} {queued : List KeyValue} {marks : List Mark}
    {n : Nat} {op : Op} {was stage : Stage} (moves : Moves shelf channel queued n op was marks shelf' channel' stage) :
    channel'.queue = channel.queue ++ items marks ∧ windows marks = [] := by
  cases moves with
  | lands | fails => exact ⟨(List.append_nil _).symm, rfl⟩
  | accepted item p given => exact ⟨congrArg (· ++ [item]) (Channel.claimKeeps given).1, rfl⟩
  | refused item p closed => exact ⟨(Channel.claimKeeps closed).1.trans (List.append_nil _).symm, rfl⟩

theorem workConveys {now : Instant} {stopping : Bool} {channel channel' : Channel} {shelf shelf' : Shelf}
    {marks : List Mark} {worker worker' : Worker}
    (works : Works config now stopping channel shelf worker marks worker' channel' shelf') :
    worker.window ++ channel.queue = (windows marks).flatten ++ (worker'.window ++ channel'.queue) ∧
    intake marks = [] := by
  refine ⟨?_, by cases works <;> rfl⟩
  cases works with
  | opens goesOn found | takes window due found =>
    rw [(Channel.receiveFirst found).1]
    simp [Worker.window, windows]
  | due | halts | goesOn | ends => rfl
  | writes | loses | breaks => simp [Worker.window, windows, Mark.window?, Channel.close]
  | closes last taken =>
    obtain ⟨rfl, empty, -⟩ := Channel.drainClosed taken
    have nothing : worker.window = [] := by rcases last with rfl | ⟨rfl, -⟩ <;> rfl
    rw [nothing, empty]
    cases queue : channel.close.1.queue <;> simp_all [Worker.window, windows, Channel.close]

theorem stepConveys (step : Step s new s') : s.backlog ++ items new = (windows new).flatten ++ s'.backlog := by
  cases step with
  | @enter op memory begun channel stage marks begins enters =>
    obtain ⟨queue, none⟩ := enterConveys enters
    show s.backlog ++ items marks = (windows marks).flatten ++ (s.worker.window ++ channel.queue)
    rw [none, backlog, queue, List.append_assoc]
    rfl
  | @move before after c _ shelf channel stage stands moves =>
    obtain ⟨queue, none⟩ := moveConveys moves
    show s.backlog ++ items new = (windows new).flatten ++ (s.worker.window ++ channel.queue)
    rw [none, backlog, queue, List.append_assoc]
    rfl
  | @drop before after c stands =>
    show s.backlog ++ [] = s.worker.window ++ (c.stage.leave c.number s.channel).queue
    rw [(Stage.leaveKeeps c.number s.channel c.stage).1, List.append_nil]
    rfl
  | work works =>
    obtain ⟨same, none⟩ := workConveys works
    rw [items, none, List.map_nil, List.append_nil]
    exact same
  | answer | pass | sweep | stop => exact List.append_nil _

/-- What was on its way and what was accepted since are the windows that went out and what is on its way now. -/
theorem runConveys (run : Run init ms s) : init.backlog ++ items ms = (windows ms).flatten ++ s.backlog := by
  induction run with
  | nil => exact List.append_nil _
  | @next ms s new s' earlier last ih =>
    calc init.backlog ++ items (ms ++ new)
      _ = (windows ms).flatten ++ (s.backlog ++ items new) := by
        rw [items_append, ← List.append_assoc, ih, List.append_assoc]
      _ = (windows (ms ++ new)).flatten ++ s'.backlog := by
        rw [stepConveys last, windows_append, List.flatten_append, List.append_assoc]

/-! ### The writer leaves nothing behind -/

/-- A writer that has taken what was left has closed the channel, and nothing comes in after it. -/
def Final (s : Front) : Prop := s.worker.isFinal → s.channel.closed = true ∧ s.channel.queue = []

theorem enterShut {channel channel' : Channel} {n : Nat} {begun : Begun} {stage : Stage} {marks : List Mark}
    (enters : Enters channel n begun channel' stage marks) (shut : channel.closed = true ∧ channel.queue = []) :
    channel'.closed = true ∧ channel'.queue = [] := by
  cases enters with
  | served | asks => exact shut
  | accepted item p given =>
    rw [Channel.reserveGranted given] at shut
    cases shut.1
  | waits item p asked | refused item p asked =>
    obtain ⟨queue, closed⟩ := Channel.reserveKeeps asked
    exact ⟨closed.trans shut.1, queue.trans shut.2⟩

theorem moveShut {shelf shelf' : Shelf} {channel channel' : Channel} {queued : List KeyValue} {marks : List Mark}
    {n : Nat} {op : Op} {was stage : Stage} (moves : Moves shelf channel queued n op was marks shelf' channel' stage)
    (shut : channel.closed = true ∧ channel.queue = []) : channel'.closed = true ∧ channel'.queue = [] := by
  cases moves with
  | lands | fails => exact shut
  | accepted item p given =>
    rw [Channel.claimGranted given] at shut
    cases shut.1
  | refused item p asked =>
    obtain ⟨queue, closed⟩ := Channel.claimKeeps asked
    exact ⟨closed.trans shut.1, queue.trans shut.2⟩

theorem workFinal {now : Instant} {stopping : Bool} {channel channel' : Channel} {shelf shelf' : Shelf}
    {marks : List Mark} {worker worker' : Worker}
    (works : Works config now stopping channel shelf worker marks worker' channel' shelf')
    (calm : ∀ window after, worker = .flushing window after → worker' ≠ .gone)
    (final : worker.isFinal → channel.closed = true ∧ channel.queue = []) :
    worker'.isFinal → channel'.closed = true ∧ channel'.queue = [] := by
  cases works with
  | opens | takes | due | halts | goesOn => nofun
  | writes window after | loses window after =>
    cases after with
    | again | close | stop => exact final
  | breaks window after => exact absurd rfl (calm window after rfl)
  | closes last taken =>
    obtain ⟨-, empty, closed⟩ := Channel.drainClosed taken
    exact fun _ => ⟨closed, empty⟩
  | ends => exact fun _ => final trivial

theorem stepFinal (step : Calm s new s') (final : Final s) : Final s' := by
  obtain ⟨step, calm⟩ := step
  cases step with
  | enter op begins enters => exact fun last => enterShut enters (final last)
  | move stands moves => exact fun last => moveShut moves (final last)
  | @drop before after c stands =>
    obtain ⟨queue, closed⟩ := Stage.leaveKeeps c.number s.channel c.stage
    exact fun last => ⟨closed.trans (final last).1, queue.trans (final last).2⟩
  | answer | pass | sweep | stop => exact final
  | work works => exact workFinal works calm final

theorem runFinal (run : Runs Calm init ms s) (final : Final init) : Final s := by
  induction run with
  | nil => exact final
  | next earlier last ih => exact stepFinal last ih

theorem startFinal {shelf : Shelf} (on : config.batch = true) : Final (start config shelf) := by
  have idle : (start config shelf).worker = .idle := by simp [start, on]
  intro last
  rw [idle] at last
  cases last

/-! ### The items of the calls -/

/-- The item of a call is accepted once: not while the call waits for a place, and by the time the call is told so. -/
def Call.Booked (ms : List Mark) (c : Call) : Prop :=
  match c.stage with
  | .asked _ => ∀ key value, c.op ≠ .set key value
  | .placing _ _ => ∀ item, (c.number, item) ∉ intake ms
  | .answered _ (.ok _) => ∀ key value, c.op = .set key value → (c.number, ⟨key, value⟩) ∈ intake ms
  | .answered _ (.error _) => True

structure Register (ms : List Mark) (s : Front) : Prop where
  distinct : (s.calls.map (·.number)).Nodup
  known : ∀ n item, (n, item) ∈ intake ms → n < s.total
  once : ((intake ms).map (·.1)).Nodup
  booked : ∀ c ∈ s.calls, c.Booked ms
  told : ∀ n key value a, .ended n (.set key value) (.ok a) ∈ ms → (n, ⟨key, value⟩) ∈ intake ms

theorem enterIntake {channel channel' : Channel} {n : Nat} {begun : Begun} {stage : Stage} {marks : List Mark}
    (enters : Enters channel n begun channel' stage marks) :
    intake marks = [] ∨ ∃ item, intake marks = [(n, item)] := by
  cases enters with
  | served | asks | waits | refused => exact .inl rfl
  | accepted item p given => exact .inr ⟨item, rfl⟩

theorem moveIntake {shelf shelf' : Shelf} {channel channel' : Channel} {queued : List KeyValue} {marks : List Mark}
    {n : Nat} {op : Op} {was stage : Stage} (moves : Moves shelf channel queued n op was marks shelf' channel' stage) :
    intake marks = [] ∨ ∃ item p, was = .placing item p ∧ intake marks = [(n, item)] := by
  cases moves with
  | lands | fails | refused => exact .inl rfl
  | accepted item p given => exact .inr ⟨item, p, rfl, rfl⟩

theorem Call.Booked.later {c : Call} (booked : c.Booked ms) (others : ∀ item, (c.number, item) ∉ intake new) :
    c.Booked (ms ++ new) := by
  obtain ⟨n, op, began, stage⟩ := c
  rcases stage with p | ⟨item, p⟩ | ⟨p, e | a⟩
  · exact booked
  · intro item mem
    rw [intake_append] at mem
    exact (List.mem_append.mp mem).elim (booked item) (others item)
  · trivial
  · intro key value set
    rw [intake_append]
    exact List.mem_append_left _ (booked key value set)

theorem enterBooked {m memory : Memory} {op : Op} {now began : Instant} {begun : Begun} {channel channel' : Channel}
    {n : Nat} {stage : Stage} {marks : List Mark} (on : config.batch = true)
    (begins : m.begin config op now = (memory, begun)) (enters : Enters channel n begun channel' stage marks)
    (fresh : ∀ item, (n, item) ∉ intake ms) : Call.Booked (ms ++ .begun n op now :: marks) ⟨n, op, began, stage⟩ := by
  cases enters with
  | served a =>
    rintro key value rfl
    cases servedRead begins
  | asks p =>
    rintro key value rfl
    simp [Memory.begin, on] at begins
  | accepted item p given =>
    intro key value set
    rw [queuedItem begins] at set
    cases set
    rw [intake_append]
    exact List.mem_append_right _ (List.mem_singleton.mpr rfl)
  | waits item p full =>
    intro i mem
    rw [intake_append] at mem
    exact (List.mem_append.mp mem).elim (fresh i) (List.not_mem_nil)
  | refused => trivial

theorem moveBooked {shelf shelf' : Shelf} {channel channel' : Channel} {queued : List KeyValue} {marks : List Mark}
    {c : Call} {stage : Stage}
    (moves : Moves shelf channel queued c.number c.op c.stage marks shelf' channel' stage)
    (placed : ∀ item p, c.stage = .placing item p → c.op = .set item.key item.value) (booked : c.Booked ms) :
    Call.Booked (ms ++ marks) { c with stage } := by
  obtain ⟨n, op, began, was⟩ := c
  cases moves with
  | lands p =>
    have other : ∀ key value, op ≠ .set key value := booked
    cases shelf.answer op with
    | ok a => exact fun key value set => absurd set (other key value)
    | error e => trivial
  | fails | refused => trivial
  | accepted item p given =>
    intro key value set
    cases (placed item p rfl).symm.trans set
    rw [intake_append]
    exact List.mem_append_right _ (List.mem_singleton.mpr rfl)

theorem finishedOk {m memory : Memory} {now : Instant} {key : String} {value : Json} {p : Pending}
    {r : Except Error Answer} {a : Answer} (matched : Matches (.set key value) p)
    (finished : m.finish config p r now = (memory, .ok a)) : ∃ a, r = .ok a := by
  cases matched with
  | served _ reads => cases reads
  | set =>
    cases r with
    | ok a => exact ⟨a, rfl⟩
    | error e => cases finished

namespace Register

theorem once_append (once : ((intake ms).map (·.1)).Nodup)
    (more : intake new = [] ∨ ∃ n item, intake new = [(n, item)] ∧ ∀ i, (n, i) ∉ intake ms) :
    ((intake (ms ++ new)).map (·.1)).Nodup := by
  rcases more with none | ⟨n, item, one, fresh⟩
  · rwa [intake_append, none, List.append_nil]
  · rw [intake_append, one, List.map_append]
    refine List.nodup_append.mpr ⟨once, by simp, fun a ha b hb same => ?_⟩
    obtain ⟨⟨j, i⟩, mem, rfl⟩ := List.mem_map.mp ha
    obtain rfl : b = n := by simpa using hb
    exact fresh i (same ▸ mem)

theorem told_quiet (told : ∀ n key value a, Mark.ended n (.set key value) (.ok a) ∈ ms → (n, ⟨key, value⟩) ∈ intake ms)
    (none : ∀ n op r, Mark.ended n op r ∉ new) :
    ∀ n key value a, Mark.ended n (.set key value) (.ok a) ∈ ms ++ new → (n, ⟨key, value⟩) ∈ intake (ms ++ new) := by
  intro n key value a mem
  rw [intake_append]
  exact List.mem_append_left _ (told n key value a ((List.mem_append.mp mem).resolve_right (none _ _ _)))

theorem fresh (register : Register ms s) (item : KeyValue) : (s.total, item) ∉ intake ms := fun mem =>
  Nat.lt_irrefl _ (register.known _ _ mem)

theorem enter (register : Register ms s) (sound : Sound config s) (on : config.batch = true) {op : Op} {memory : Memory}
    {begun : Begun} {channel : Channel} {stage : Stage} {marks : List Mark}
    (begins : s.memory.begin s.config op s.now = (memory, begun))
    (enters : Enters s.channel s.total begun channel stage marks) :
    Register (ms ++ .begun s.total op s.now :: marks)
      { s with memory, channel, calls := s.calls ++ [⟨s.total, op, s.now, stage⟩], total := s.total + 1 } := by
  have same : intake (.begun s.total op s.now :: marks) = intake marks := rfl
  have only : ∀ n item, (n, item) ∈ intake marks → n = s.total := by
    intro n item mem
    rcases enterIntake enters with none | ⟨i, one⟩
    · rw [none] at mem
      cases mem
    · rw [one] at mem
      cases List.mem_singleton.mp mem
      rfl
  have other : ∀ c ∈ s.calls, c.number ≠ s.total := fun c hc => Nat.ne_of_lt (sound.numbers c hc)
  refine ⟨?_, ?_, ?_, List.forall_mem_append.mpr ⟨fun c hc => ?_, List.forall_mem_singleton.mpr ?_⟩, ?_⟩
  · rw [List.map_append]
    refine List.nodup_append.mpr ⟨register.distinct, by simp, fun a ha b hb same => ?_⟩
    obtain ⟨c, hc, rfl⟩ := List.mem_map.mp ha
    exact other c hc (same.trans (List.mem_singleton.mp hb))
  · intro n item mem
    rw [intake_append, same] at mem
    rcases List.mem_append.mp mem with old | new
    · exact Nat.lt_succ_of_lt (register.known n item old)
    · exact only n item new ▸ Nat.lt_succ_self _
  · refine once_append register.once ?_
    rw [same]
    exact (enterIntake enters).imp_right fun ⟨item, one⟩ => ⟨_, item, one, register.fresh⟩
  · exact (register.booked c hc).later fun item mem => other c hc (only _ item (same ▸ mem))
  · have settings := sound.settings
    exact enterBooked (settings ▸ on) begins enters register.fresh
  · exact told_quiet register.told (by simp [(enterMarks enters).1])

theorem move (register : Register ms s) (sound : Sound config s) {before after : List Call} {c : Call} {shelf : Shelf}
    {channel : Channel} {stage : Stage} {marks : List Mark} (stands : s.calls = before ++ c :: after)
    (moves : Moves s.shelf s.channel s.backlog c.number c.op c.stage marks shelf channel stage) :
    Register (ms ++ marks) { s with shelf, channel, calls := before ++ { c with stage } :: after } := by
  have mem : c ∈ s.calls := by simp [stands]
  have fits := sound.fits c mem
  have only : ∀ n item, (n, item) ∈ intake marks → n = c.number := by
    intro n item mem
    rcases moveIntake moves with none | ⟨i, p, -, one⟩
    · rw [none] at mem
      cases mem
    · rw [one] at mem
      cases List.mem_singleton.mp mem
      rfl
  have distinct := register.distinct
  have booked := register.booked
  rw [stands, List.map_append, List.map_cons] at distinct
  rw [stands, List.forall_mem_append, List.forall_mem_cons] at booked
  obtain ⟨-, rest, apart⟩ := List.nodup_append.mp distinct
  obtain ⟨out, -⟩ := List.nodup_cons.mp rest
  refine ⟨?_, ?_, once_append register.once ?_, List.forall_mem_append.mpr ⟨fun d hd => ?_,
    List.forall_mem_cons.mpr ⟨moveBooked moves fits.placed booked.2.1, fun d hd => ?_⟩⟩,
    told_quiet register.told (moveUnended moves)⟩
  · rwa [List.map_append, List.map_cons]
  · intro n item mem
    rw [intake_append] at mem
    rcases List.mem_append.mp mem with old | new
    · exact register.known n item old
    · exact only n item new ▸ sound.numbers c ‹_›
  · rcases moveIntake moves with none | ⟨item, p, waits, one⟩
    · exact .inl none
    · have unbooked := booked.2.1
      rw [Call.Booked, waits] at unbooked
      exact .inr ⟨_, item, one, unbooked⟩
  · refine (booked.1 d hd).later fun item mem => ?_
    exact apart _ (List.mem_map_of_mem hd) _ List.mem_cons_self (only _ item mem)
  · refine (booked.2.2 d hd).later fun item mem => ?_
    exact out (List.mem_map.mpr ⟨d, hd, only _ item mem⟩)

/-- One call less, and nothing accepted. -/
theorem fewer (register : Register ms s) {before after : List Call} {c : Call} {memory : Memory} {channel : Channel}
    (stands : s.calls = before ++ c :: after) (none : intake new = [])
    (told : ∀ n key value a, Mark.ended n (.set key value) (.ok a) ∈ new → (n, ⟨key, value⟩) ∈ intake ms) :
    Register (ms ++ new) { s with memory, channel, calls := before ++ after } := by
  have same : intake (ms ++ new) = intake ms := by rw [intake_append, none, List.append_nil]
  have rest : (before ++ after).Sublist s.calls := stands ▸ sublist_without _ _ _
  refine ⟨register.distinct.sublist (rest.map _), same ▸ register.known, same ▸ register.once, fun d hd => ?_, ?_⟩
  · exact (register.booked d (rest.subset hd)).later (by simp [none])
  · intro n key value a mem
    rw [same]
    exact (List.mem_append.mp mem).elim (register.told n key value a) (told n key value a)

/-- Nothing happens to the calls. -/
theorem aside (register : Register ms s) {t : Front} (calls : t.calls = s.calls) (total : t.total = s.total)
    (none : intake new = []) (quiet : ∀ n op r, Mark.ended n op r ∉ new) : Register (ms ++ new) t := by
  have same : intake (ms ++ new) = intake ms := by rw [intake_append, none, List.append_nil]
  refine ⟨calls ▸ register.distinct, ?_, same ▸ register.once, ?_, told_quiet register.told quiet⟩
  · rw [same, total]
    exact register.known
  · rw [calls]
    exact fun c hc => (register.booked c hc).later (by simp [none])

end Register

theorem stepRegister (step : Step s new s') (sound : Sound config s) (on : config.batch = true)
    (register : Register ms s) : Register (ms ++ new) s' := by
  cases step with
  | enter op begins enters => exact register.enter sound on begins enters
  | move stands moves => exact register.move sound stands moves
  | @answer before after c p r memory r' stands answered finished =>
    refine register.fewer stands rfl fun n key value a mem => ?_
    obtain ⟨rfl, set, rfl⟩ : n = c.number ∧ .set key value = c.op ∧ .ok a = r' := by simpa using mem
    have matched := (sound.fits c (by simp [stands])).matched
    have booked := register.booked c (by simp [stands])
    rw [← set, answered] at matched
    obtain ⟨a', rfl⟩ := finishedOk matched finished
    rw [Call.Booked, answered] at booked
    exact booked key value set.symm
  | drop stands => exact register.fewer stands rfl (by simp)
  | pass | sweep => exact register.aside rfl rfl rfl (by simp)
  | stop => exact register.aside rfl rfl rfl (by simp)
  | work works => exact register.aside rfl rfl (workConveys works).2 fun _ _ _ => (workUnasked works).2

theorem runRegister {shelf : Shelf} (on : config.batch = true) (run : Run (start config shelf) ms s) :
    Register ms s := by
  induction run with
  | nil => exact ⟨List.nodup_nil, nofun, List.nodup_nil, List.forall_mem_nil _, by simp⟩
  | next earlier last ih => exact stepRegister last (runSound earlier) on ih

/-! ### Windows and items -/

/-- What the parts of a list are made of can be told again from whole to part. -/
theorem parcels {α β : Type} {f : α → β} {xss : List (List β)} {ys : List α} (pre : xss.flatten <+: ys.map f) :
    ∃ zss : List (List α), zss.map (·.map f) = xss ∧ zss.flatten <+: ys := by
  induction xss generalizing ys with
  | nil => exact ⟨[], rfl, List.nil_prefix⟩
  | cons xs rest ih =>
    obtain ⟨more, whole⟩ := pre
    rw [List.flatten_cons, List.append_assoc] at whole
    obtain ⟨first, later, rfl, rfl, rest'⟩ := List.map_eq_append_iff.mp whole.symm
    obtain ⟨zss, same, pre⟩ := ih ⟨more, rest'.symm⟩
    exact ⟨first :: zss, by simp [same], by simpa using pre⟩

theorem items_handed {shelf : Shelf} (run : Run (start config shelf) ms s) :
    items ms = (handed ms s).flatten ++ (s.worker.gathered ++ s.channel.queue) := by
  have nothing : (start config shelf).backlog = [] := by
    rw [backlog, start]
    split <;> rfl
  have window : s.worker.window = s.worker.handed.flatten ++ s.worker.gathered := by
    cases s.worker <;> simp [Worker.window, Worker.handed, Worker.gathered]
  have conveyed := runConveys run
  rwa [nothing, List.nil_append, backlog, window, List.append_assoc, ← List.append_assoc, ← List.flatten_append]
    at conveyed

theorem items_gone {shelf : Shelf} (on : config.batch = true) (run : Runs Calm (start config shelf) ms s)
    (gone : s.worker = .gone) : items ms = (handed ms s).flatten := by
  have final : s.worker.isFinal := gone ▸ trivial
  have empty := (runFinal run (startFinal on) final).2
  rw [items_handed (Calm.run run), gone, empty]
  exact List.append_nil _

/-- With batching, over a store that does not panic in a flush: every item that was accepted, each once, stands in one
window at most, and the windows are handed on so that end to end they are the first of the items in the order of their
acceptance; they are all of them once the writer has ended; and the item of a write that was told so was accepted. -/
theorem windowsInOrder {shelf : Shelf} (on : config.batch = true) (run : Runs Calm (start config shelf) ms s) :
    ((intake ms).map (·.1)).Nodup ∧
    (∃ parcels : List (List (Nat × KeyValue)), parcels.map (·.map (·.2)) = handed ms s ∧
      parcels.flatten <+: intake ms ∧ (s.worker = .gone → parcels.flatten = intake ms)) ∧
    ∀ n key value a, .ended n (.set key value) (.ok a) ∈ ms → (n, ⟨key, value⟩) ∈ intake ms := by
  have register := runRegister on (Calm.run run)
  have pre : (handed ms s).flatten <+: (intake ms).map (·.2) := ⟨_, (items_handed (Calm.run run)).symm⟩
  obtain ⟨parcels, same, first⟩ := parcels pre
  refine ⟨register.once, ⟨parcels, same, first, fun gone => first.eq_of_length ?_⟩, register.told⟩
  have all : items ms = (parcels.map (·.map (·.2))).flatten := same ▸ items_gone on run gone
  calc parcels.flatten.length
    _ = ((parcels.map (·.map (·.2))).flatten).length := by rw [← List.map_flatten, List.length_map]
    _ = (intake ms).length := by rw [← all, items, List.length_map]

/-! ### A channel with one place -/

def crowdedItem (key : String) : KeyValue := ⟨key, .bool true⟩

def crowdedMarks : List Mark :=
  [.begun 0 (.set "a" (.bool true)) 0, .accepted 0 (crowdedItem "a"), .ended 0 (.set "a" (.bool true)) (.ok .done),
   .begun 1 (.set "b" (.bool true)) 0, .begun 2 (.set "c" (.bool true)) 0, .dropped 2, .accepted 1 (crowdedItem "b"),
   .ended 1 (.set "b" (.bool true)) (.ok .done), .lost [crowdedItem "a"], .stopping, .flushed [crowdedItem "b"]]

def crowdedConfig : CacheConfig := { batch := true, capacity := 1, buffer := 5 }

theorem Calm.of_free (step : Step s new s') (free : ∀ window after, s.worker ≠ .flushing window after) :
    Calm s new s' := ⟨step, fun window after stands => absurd stands (free window after)⟩

/-- The writer takes the first item, the second gets its place, the third is given up; the first window fails, and the
second is what a shutdown finds. -/
theorem crowdedRun : ∃ s, Runs Calm (start crowdedConfig fun _ => none) crowdedMarks s ∧ s.worker = .gone := by
  have begins : Runs Calm (start crowdedConfig fun _ => none) [] _ := .nil
  have accepted := begins.next
    (.of_free (.enter (.set "a" (.bool true)) rfl (.accepted (crowdedItem "a") (.write "a" 1) rfl)) nofun)
  have told := accepted.next (.of_free (@Step.answer _ [] [] _ _ _ _ _ rfl rfl rfl) nofun)
  have waits := told.next
    (.of_free (.enter (.set "b" (.bool true)) rfl (.waits (crowdedItem "b") (.write "b" 2) rfl)) nofun)
  have waitsToo := waits.next
    (.of_free (.enter (.set "c" (.bool true)) rfl (.waits (crowdedItem "c") (.write "c" 3) rfl)) nofun)
  have dropped := waitsToo.next (.of_free (@Step.drop _ [_] [] _ rfl) nofun)
  have taken := dropped.next (.of_free (.work (.opens rfl rfl)) nofun)
  have placed := taken.next (.of_free (@Step.move _ [] [] _ _ _ _ _ rfl (.accepted (crowdedItem "b") _ rfl)) nofun)
  have toldToo := placed.next (.of_free (@Step.answer _ [] [] _ _ _ _ _ rfl rfl rfl) nofun)
  have later := toldToo.next (.of_free (.pass 5 (Nat.zero_le _)) nofun)
  have handed := later.next (.of_free (.work (.due _ _ (Nat.le_refl _))) nofun)
  have lost := handed.next ⟨.work (.loses _ _), nofun⟩
  have idle := lost.next (.of_free (.work .goesOn) nofun)
  have stops := idle.next (.of_free .stop nofun)
  have closes := stops.next (.of_free (.work (.closes (.inr ⟨rfl, rfl⟩) rfl)) nofun)
  have flushed := closes.next ⟨.work (.writes [crowdedItem "b"] .stop), nofun⟩
  exact ⟨_, flushed.next (.of_free (.work .ends) nofun), rfl⟩

theorem crowdedInOrder : ∃ s, Runs Calm (start crowdedConfig fun _ => none) crowdedMarks s ∧ s.worker = .gone ∧
    ∃ parcels : List (List (Nat × KeyValue)), parcels.map (·.map (·.2)) = [[crowdedItem "a"], [crowdedItem "b"]] ∧
      parcels.flatten = [(0, crowdedItem "a"), (1, crowdedItem "b")] := by
  obtain ⟨s, run, gone⟩ := crowdedRun
  obtain ⟨-, ⟨parcels, same, -, whole⟩, -⟩ := windowsInOrder rfl run
  refine ⟨s, run, gone, parcels, ?_, whole gone⟩
  rw [same, handed, gone]
  rfl

end Front
end Switchyard.State
