import Switchyard.Proofs.Breaker.Isolation
import Switchyard.Proofs.State.Agreement
import Switchyard.Proofs.State.Evidence
/-!
What turns to the store of a service while its breaker is open. Nobody has been let in since it opened, so of the
callers only those who were inside before can still do so; but the batch writer does not ask the breaker, and hands on
what they have left it.
-/
namespace Switchyard.Breaker

open Gate (moves)

variable {b b' : Breaker} {now : Instant} {changes : List Transition} {success : Bool}

namespace Gate

def Opening (ms : List Mark) : Prop := ∃ m ∈ ms, m.opens?.isSome = true

def LetIn (n : Nat) (ms : List Mark) : Prop := ∃ tag time, .asked n (.ok tag) time ∈ ms

end Gate

open Gate (Opening LetIn)

theorem Refreshes.opened (refreshed : Refreshes b now b' changes) (opened : b'.phase = .opened) :
    b.phase = .opened ∨ Opening (moves changes now) := by
  cases refreshed with
  | early | renewed | extended => exact .inl opened
  | probes => cases opened
  | overdue => exact .inr ⟨_, List.mem_cons_self, rfl⟩

theorem Records.opened (recorded : Records b now success b' changes) (opened : b'.phase = .opened) :
    b.phase = .opened ∨ Opening (moves changes now) := by
  cases recorded with
  | ignored | succeeded | failed | advanced => exact .inl opened
  | tripped | reopens => exact .inr ⟨_, List.mem_cons_self, rfl⟩
  | closes => cases opened

namespace Gate

variable {config : Config} {began : Instant} {ms new : List Mark} {s s' : Gate}

theorem Opening.mono {xs ys : List Mark} (opening : Opening xs) (sub : xs ⊆ ys) : Opening ys := by
  obtain ⟨m, mem, opens⟩ := opening
  exact ⟨m, sub mem, opens⟩

theorem LetIn.mono {n : Nat} {xs ys : List Mark} (letIn : LetIn n xs) (sub : xs ⊆ ys) : LetIn n ys := by
  obtain ⟨tag, time, mem⟩ := letIn
  exact ⟨tag, time, sub mem⟩

/-- A breaker that is open after a step was so before, or opens in it, and lets nobody in. -/
theorem stepOpened (step : Step s new s') (opened : s'.breaker.phase = .opened) :
    (∀ n, ¬ LetIn n new) ∧ (s.breaker.phase = .opened ∨ Opening new) := by
  cases step with
  | letIn asked =>
    obtain ⟨b₁, totals, -, ⟨room, -, rfl⟩ | ⟨-, error, -⟩⟩ := acquires asked
    · have shut : b₁.phase = .opened := opened
      simp [hasRoom, shut] at room
    · cases error
  | turnAway asked =>
    obtain ⟨b₁, totals, refreshed, ⟨-, ok, -⟩ | ⟨-, -, rfl⟩⟩ := acquires asked
    · cases ok
    · refine ⟨by simp [LetIn, moves], (refreshed.opened opened).imp_right fun opening => ?_⟩
      exact opening.mono (List.subset_append_left _ _)
  | settle o stands settled =>
    refine ⟨by simp [LetIn, moves], ?_⟩
    obtain ⟨b₁, first, totals, refreshed, ⟨-, rfl, rfl⟩ | ⟨-, more, recorded, rfl⟩⟩ := settles settled
    · exact (refreshed.opened opened).imp_right fun opening => opening.mono (List.subset_cons_self _ _)
    · rw [moves, List.map_append]
      rcases recorded.opened opened with open₁ | opening
      · refine (refreshed.opened open₁).imp_right fun opening => opening.mono ?_
        exact List.Subset.trans (List.subset_append_left _ _) (List.subset_cons_self _ _)
      · exact .inr (opening.mono (List.Subset.trans (List.subset_append_right _ _) (List.subset_cons_self _ _)))
  | abandon stands abandoned =>
    obtain ⟨b₁, refreshed, rfl⟩ := abandons abandoned
    have open₁ : b₁.phase = .opened := by
      split at opened <;> exact opened
    refine ⟨by simp [LetIn, moves], (refreshed.opened open₁).imp_right fun opening => ?_⟩
    exact opening.mono (List.subset_cons_self _ _)
  | look refreshed => exact ⟨by simp [LetIn, moves], (refreshes refreshed).opened opened⟩
  | reset forced =>
    obtain ⟨rfl, -⟩ := forces forced
    cases opened
  | forceOpen forced => exact ⟨by simp [LetIn, moves], .inr ⟨_, List.mem_cons_self, rfl⟩⟩
  | pass => exact ⟨by simp [LetIn], .inl opened⟩

/-- Nobody is let in after a breaker opens, as long as it stays so. -/
theorem runOpened (run : Run (start config began) ms s) (opened : s.breaker.phase = .opened) :
    ∃ before m after, ms = before ++ m :: after ∧ m.opens?.isSome = true ∧ ∀ n, ¬ LetIn n after := by
  induction run with
  | nil => cases opened
  | @next ms s new s' earlier last ih =>
    obtain ⟨none, wasOpen | ⟨m, mem, opens⟩⟩ := stepOpened last opened
    · obtain ⟨before, m, after, rfl, opens, noneAfter⟩ := ih wasOpen
      refine ⟨before, m, after ++ new, by simp, opens, fun n letIn => ?_⟩
      obtain ⟨tag, time, mem⟩ := letIn
      rcases List.mem_append.mp mem with old | new
      · exact noneAfter n ⟨tag, time, old⟩
      · exact none n ⟨tag, time, new⟩
    · obtain ⟨xs, ys, rfl⟩ := List.append_of_mem mem
      refine ⟨ms ++ xs, m, ys, (List.append_assoc ..).symm, opens, fun n letIn => none n (letIn.mono ?_)⟩
      exact List.Subset.trans (List.subset_cons_self _ _) (List.subset_append_right _ _)

end Gate
end Switchyard.Breaker

namespace Switchyard.State.Desk

open Breaker.Gate (moves)

/-- A call of the store. -/
inductive Contact where
  | caller (n : Nat) (op : Op)
  /-- The batch writer hands on a window. -/
  | writer (window : List KeyValue)

def Call.contact? (c : Call) : Option Contact :=
  match c.stage with
  | .inside (.asked _) => some (.caller c.number c.op)
  | _ => none

def flushing? (proxy : Proxy) : Option Contact :=
  match proxy.worker with
  | .flushing window _ => some (.writer window)
  | _ => none

/-- The calls of the store that are under way. -/
def contacts (s : Desk) : List Contact := s.calls.filterMap Call.contact? ++ (s.proxy.bind flushing?).toList

def Starts (s s' : Desk) (x : Contact) : Prop := x ∈ s'.contacts ∧ x ∉ s.contacts

def LetIn (n : Nat) (ms : List Mark) : Prop := Breaker.Gate.LetIn n (gateMarks ms)

/-- An item that a caller has left to the batch writer. -/
def Left (ms : List Mark) (item : KeyValue) : Prop := ∃ n, LetIn n ms ∧ .cache (.accepted n item) ∈ ms

variable {config : ServiceConfig} {began : Instant} {ms new : List Mark} {s s' : Desk} {x : Contact} {n : Nat}
  {proxy : Proxy} {proxy' : Option Proxy} {calls before after : List Call} {c : Call}

theorem LetIn.later (letIn : LetIn n ms) (new : List Mark) : LetIn n (ms ++ new) := by
  rw [LetIn, gateMarks_append]
  exact letIn.mono (List.subset_append_left _ _)

theorem Left.later {item : KeyValue} (left : Left ms item) (new : List Mark) : Left (ms ++ new) item := by
  obtain ⟨n, letIn, accepted⟩ := left
  exact ⟨n, letIn.later new, List.mem_append_left _ accepted⟩

/-! ### The items of the writer -/

/-- What the writer has and is to have was left to it, and its windows are not empty. -/
structure Stocked (ms : List Mark) (proxy : Proxy) : Prop where
  batched : proxy.config.batch = false → proxy.worker = .gone
  items : ∀ item ∈ proxy.worker.window ++ proxy.channel.queue, Left ms item
  gathered : ∀ window due, proxy.worker = .gathering window due → window ≠ []

theorem Stocked.refill (stocked : Stocked ms proxy) {memory : Memory} {channel : Channel} {stopping : Bool}
    (queue : ∀ item ∈ channel.queue, item ∈ proxy.channel.queue ∨ Left (ms ++ new) item) :
    Stocked (ms ++ new) { proxy with memory, channel, stopping } where
  batched := stocked.batched
  items := by
    intro item mem
    have old : ∀ item ∈ proxy.worker.window ++ proxy.channel.queue, Left (ms ++ new) item := fun item mem =>
      (stocked.items item mem).later new
    rcases List.mem_append.mp mem with held | waits
    · exact old item (List.mem_append_left _ held)
    · exact (queue item waits).elim (fun waits => old item (List.mem_append_right _ waits)) id
  gathered := stocked.gathered

theorem enterQueue {channel channel' : Channel} {begun : Begun} {stage : Front.Stage} {marks : List State.Mark}
    (enters : Front.Enters channel n begun channel' stage marks) :
    ∀ item ∈ channel'.queue, item ∈ channel.queue ∨ .accepted n item ∈ marks := by
  cases enters with
  | served | asks => exact fun item => .inl
  | waits item p full => exact fun item mem => .inl ((Channel.reserveKeeps full).1 ▸ mem)
  | refused item p closed => exact fun item mem => .inl ((Channel.reserveKeeps closed).1 ▸ mem)
  | accepted item p given =>
    rw [Channel.push, (Channel.reserveKeeps given).1]
    exact List.forall_mem_append.mpr ⟨fun item => .inl, by simp⟩

theorem moveQueue {shelf shelf' : Shelf} {channel channel' : Channel} {queued : List KeyValue}
    {marks : List State.Mark} {op : Op} {was stage : Front.Stage}
    (moves : Front.Moves shelf channel queued n op was marks shelf' channel' stage) :
    ∀ item ∈ channel'.queue, item ∈ channel.queue ∨ .accepted n item ∈ marks := by
  cases moves with
  | lands | fails => exact fun item => .inl
  | refused item p closed => exact fun item mem => .inl ((Channel.claimKeeps closed).1 ▸ mem)
  | accepted item p given =>
    rw [Channel.push, (Channel.claimKeeps given).1]
    exact List.forall_mem_append.mpr ⟨fun item => .inl, by simp⟩

theorem workFull {cache : CacheConfig} {now : Instant} {stopping : Bool} {channel channel' : Channel}
    {shelf shelf' : Shelf} {marks : List State.Mark} {worker worker' : Worker}
    (works : Front.Works cache now stopping channel shelf worker marks worker' channel' shelf')
    (gathered : ∀ window due, worker = .gathering window due → window ≠ []) :
    (∀ window due, worker' = .gathering window due → window ≠ []) ∧
    ∀ window after, worker' = .flushing window after → window ≠ [] := by
  cases works with
  | opens | takes => exact ⟨by simp, nofun⟩
  | due window due | halts window due =>
    refine ⟨nofun, ?_⟩
    rintro window after ⟨⟩
    exact gathered _ _ rfl
  | writes | loses | breaks | goesOn | ends => exact ⟨nofun, nofun⟩
  | closes last taken =>
    split
    · exact ⟨nofun, nofun⟩
    · rename_i some
      refine ⟨nofun, ?_⟩
      rintro window after ⟨⟩ rfl
      exact some rfl

theorem Stocked.work {shelf shelf' : Shelf} {channel : Channel} {marks : List State.Mark} {worker : Worker}
    {now : Instant} (stocked : Stocked ms proxy)
    (works : Front.Works proxy.config now proxy.stopping proxy.channel shelf proxy.worker marks worker channel shelf') :
    Stocked (ms ++ new) { proxy with worker, channel } where
  batched := by
    intro off
    rw [stocked.batched off] at works
    exact absurd works Front.workAlone
  items := fun item mem => (stocked.items item (Front.workBacklog works item mem)).later new
  gathered := (workFull works stocked.gathered).1

structure Supplied (config : ServiceConfig) (ms : List Mark) (proxy : Option Proxy) (calls : List Call) : Prop where
  settings : proxy.map (·.config) = config.cache
  known : ∀ c ∈ calls, LetIn c.number ms
  stocked : ∀ p, proxy = some p → Stocked ms p

namespace Supplied

theorem later (supplied : Supplied config ms proxy' calls) (new : List Mark) :
    Supplied config (ms ++ new) proxy' calls where
  settings := supplied.settings
  known := fun c mem => (supplied.known c mem).later new
  stocked := fun p there => (supplied.stocked p there).refill fun _ => .inl

theorem join (supplied : Supplied config ms proxy' calls) (letIn : LetIn c.number ms) :
    Supplied config ms proxy' (calls ++ [c]) :=
  { supplied with known := List.forall_mem_append.mpr ⟨supplied.known, List.forall_mem_singleton.mpr letIn⟩ }

theorem leave (supplied : Supplied config ms proxy' (before ++ c :: after)) :
    Supplied config ms proxy' (before ++ after) :=
  { supplied with known := fun d mem => supplied.known d ((sublist_without before after c).subset mem) }

theorem restage (supplied : Supplied config ms proxy' (before ++ c :: after)) (stage : Stage) :
    Supplied config ms proxy' (before ++ { c with stage } :: after) := by
  have known := supplied.known
  rw [List.forall_mem_append, List.forall_mem_cons] at known
  exact { supplied with known := List.forall_mem_append.mpr ⟨known.1, List.forall_mem_cons.mpr known.2⟩ }

theorem refill (supplied : Supplied config ms (some proxy) calls) {memory : Memory} {channel : Channel}
    {stopping : Bool} (queue : ∀ item ∈ channel.queue, item ∈ proxy.channel.queue ∨ Left (ms ++ new) item) :
    Supplied config (ms ++ new) (some { proxy with memory, channel, stopping }) calls where
  settings := supplied.settings
  known := fun c mem => (supplied.known c mem).later new
  stocked := by
    rintro p ⟨⟩
    exact (supplied.stocked proxy rfl).refill queue

end Supplied

theorem goesSupplied {stage : Stage} {marks : List Mark} (goes : Goes s c proxy' stage marks)
    (supplied : Supplied config ms s.proxy calls) (letIn : LetIn c.number ms) :
    Supplied config (ms ++ marks) proxy' calls := by
  have left {item : KeyValue} {marks : List Mark} (accepted : Mark.cache (.accepted c.number item) ∈ marks) :
      Left (ms ++ marks) item := ⟨c.number, letIn.later marks, List.mem_append_right _ accepted⟩
  cases goes with
  | asks fresh bare =>
    rw [bare] at supplied
    exact supplied.later []
  | replied => exact supplied.later _
  | enters fresh cached begins enters =>
    rw [cached] at supplied
    refine supplied.refill fun item mem => (enterQueue enters item mem).imp_right fun accepted => left ?_
    exact List.mem_append_right _ (List.mem_map_of_mem accepted)
  | placed waits cached moves =>
    rw [cached] at supplied
    exact supplied.refill fun item mem => (moveQueue moves item mem).imp_right fun accepted =>
      left (List.mem_map_of_mem accepted)

theorem leaveSupplied (supplied : Supplied config ms s.proxy calls) (c : Call) (new : List Mark) :
    Supplied config (ms ++ new) (s.leave c) calls := by
  unfold Desk.leave
  split
  · exact supplied.later new
  · cases cached : s.proxy with
    | none =>
      rw [cached] at supplied
      exact supplied.later new
    | some proxy =>
      rw [cached] at supplied
      exact supplied.refill fun _ mem => .inl ((Front.Stage.leaveKeeps ..).1 ▸ mem)

theorem endsSupplied {o : Outcome Unit} {marks : List Mark} (ends : Ends s c proxy' o marks)
    (supplied : Supplied config ms s.proxy calls) : Supplied config (ms ++ marks) proxy' calls := by
  cases ends with
  | answered answered bare =>
    rw [bare] at supplied
    exact supplied.later []
  | finished answered cached finished =>
    rw [cached] at supplied
    exact supplied.refill fun item => .inl
  | panicked => exact supplied.later _
  | cancelled => exact leaveSupplied supplied c []

theorem stepSupplied (step : Step s new s') (supplied : Supplied config ms s.proxy s.calls) :
    Supplied config (ms ++ new) s'.proxy s'.calls := by
  cases step with
  | @letIn op breaker changes tag busy asked =>
    refine (supplied.later _).join ⟨tag, s.now, ?_⟩
    rw [gateMarks_append, gateMarks_gate]
    simp
  | turnAway => exact supplied.later _
  | @go before after c proxy stage marks stands goes =>
    have letIn := supplied.known c (by simp [stands])
    rw [stands] at supplied
    exact (goesSupplied goes supplied letIn).restage stage
  | settle stands ends settled =>
    rw [stands] at supplied
    rw [← List.append_assoc]
    exact (endsSupplied ends supplied.leave).later _
  | abandon stands abandoned =>
    rw [stands] at supplied
    exact leaveSupplied supplied.leave _ _
  | look | reset | forceOpen | pass => exact supplied.later _
  | sweep cached | stop cached =>
    rw [cached] at supplied
    exact supplied.refill fun item => .inl
  | work cached works =>
    rw [cached] at supplied
    refine ⟨supplied.settings, fun c mem => (supplied.known c mem).later _, ?_⟩
    rintro p ⟨⟩
    exact (supplied.stocked _ rfl).work works

theorem runSupplied (run : Run (start config began) ms s) : Supplied config ms s.proxy s.calls := by
  induction run with
  | nil =>
    refine ⟨?_, List.forall_mem_nil _, fun p there => ?_⟩
    · cases cache : config.cache <;> simp [start, Proxy.start, cache]
    · obtain ⟨cache, -, rfl⟩ := Option.map_eq_some_iff.mp there
      refine ⟨fun off => ?_, ?_, ?_⟩
      · have plain : cache.batch = false := off
        simp [Proxy.start, plain]
      · cases on : cache.batch <;> simp [Proxy.start, on, Worker.window, Channel.ofCapacity]
      · cases on : cache.batch <;> simp [Proxy.start, on]
  | next earlier last ih => exact stepSupplied last ih

/-! ### Who turns to the store -/

/-- A caller who was let in, or the writer with what such callers have left to it. -/
inductive Owed (config : ServiceConfig) (ms : List Mark) (inside : Nat → Prop) : Contact → Prop where
  | caller {n : Nat} (op : Op) (letIn : inside n) : Owed config ms inside (.caller n op)
  | writer {cache window} (cached : config.cache = some cache) (batch : cache.batch = true) (some : window ≠ [])
      (each : ∀ item ∈ window, ∃ n, inside n ∧ .cache (.accepted n item) ∈ ms) :
      Owed config ms inside (.writer window)

theorem mem_contacts :
    x ∈ s.contacts ↔ (∃ c ∈ s.calls, c.contact? = some x) ∨ s.proxy.bind flushing? = some x := by
  simp [contacts]

theorem goesFlushing {stage : Stage} {marks : List Mark} (goes : Goes s c proxy' stage marks) :
    proxy'.bind flushing? = s.proxy.bind flushing? := by
  cases goes with
  | asks fresh bare => rw [bare]
  | replied => rfl
  | enters fresh cached | placed waits cached =>
    rw [cached]
    rfl

theorem leaveFlushing (s : Desk) (c : Call) : (s.leave c).bind flushing? = s.proxy.bind flushing? := by
  unfold Desk.leave
  split
  · rfl
  · cases s.proxy <;> rfl

theorem endsFlushing {o : Outcome Unit} {marks : List Mark} (ends : Ends s c proxy' o marks) :
    proxy'.bind flushing? = s.proxy.bind flushing? := by
  cases ends with
  | answered answered bare => rw [bare]
  | finished answered cached =>
    rw [cached]
    rfl
  | panicked => rfl
  | cancelled => exact leaveFlushing s c

theorem workFlushing {cache : CacheConfig} {now : Instant} {stopping : Bool} {channel channel' : Channel}
    {shelf shelf' : Shelf} {marks : List State.Mark} {worker worker' : Worker} {window : List KeyValue}
    {after : Rehearsal.AfterFlush}
    (works : Front.Works cache now stopping channel shelf worker marks worker' channel' shelf')
    (begins : worker' = .flushing window after) : ∀ item ∈ window, item ∈ worker.window ++ channel.queue := by
  subst begins
  intro item mem
  exact Front.workBacklog works item (List.mem_append_left _ mem)

theorem askedOwed {c : Call} {stage : Stage} (letIn : LetIn c.number ms)
    (same : Call.contact? { c with stage } = some x) : Owed config ms (LetIn · ms) x := by
  cases stage with
  | admitted => cases same
  | inside stage =>
    cases stage with
    | asked =>
      cases same
      exact .caller c.op letIn
    | placing | answered => cases same

theorem workOwed {proxy : Proxy} {shelf shelf' : Shelf} {marks : List State.Mark} {worker : Worker} {channel : Channel}
    (supplied : Supplied config ms s.proxy s.calls) (cached : s.proxy = some proxy)
    (works : Front.Works proxy.config s.now proxy.stopping proxy.channel shelf proxy.worker marks worker channel shelf')
    (same : flushing? { proxy with worker, channel } = some x) : Owed config ms (LetIn · ms) x := by
  have stocked := supplied.stocked proxy cached
  have settings : config.cache = some proxy.config := by rw [← supplied.settings, cached]; rfl
  have on : proxy.config.batch = true := by
    cases batch : proxy.config.batch with
    | true => rfl
    | false =>
      rw [stocked.batched batch] at works
      exact absurd works Front.workAlone
  cases worker with
  | flushing window after =>
    cases same
    exact .writer settings on ((workFull works stocked.gathered).2 _ _ rfl) fun item mem =>
      stocked.items item (workFlushing works rfl item mem)
  | gone | idle | gathering | resting => cases same

/-- A call of the store that starts is one that is owed. -/
theorem stepStarts (step : Step s new s') (starts : Starts s s' x) (supplied : Supplied config ms s.proxy s.calls) :
    Owed config ms (LetIn · ms) x := by
  obtain ⟨there, fresh⟩ := starts
  have old {c : Call} (mem : c ∈ s.calls) (same : c.contact? = some x) : False :=
    fresh (mem_contacts.mpr (.inl ⟨c, mem, same⟩))
  have held (same : s.proxy.bind flushing? = some x) : False := fresh (mem_contacts.mpr (.inr same))
  rw [mem_contacts] at there
  cases step with
  | letIn op busy asked =>
    rcases there with ⟨c, mem, same⟩ | same
    · rcases List.mem_append.mp mem with mem | mem
      · exact (old mem same).elim
      · cases List.mem_singleton.mp mem
        cases same
    · exact (held same).elim
  | turnAway | look | reset | forceOpen | pass => exact (there.elim (fun ⟨_, mem, same⟩ => old mem same) held).elim
  | @go before after c proxy stage marks stands goes =>
    rcases there with ⟨d, mem, same⟩ | same
    · rcases List.mem_append.mp mem with mem | mem
      · exact (old (by simp [stands, mem]) same).elim
      · rcases List.mem_cons.mp mem with rfl | mem
        · exact askedOwed (supplied.known c (by simp [stands])) same
        · exact (old (by simp [stands, mem]) same).elim
    · exact (held (goesFlushing goes ▸ same)).elim
  | settle stands ends settled =>
    rcases there with ⟨d, mem, same⟩ | same
    · exact (old (stands ▸ (sublist_without _ _ _).subset mem) same).elim
    · exact (held (endsFlushing ends ▸ same)).elim
  | abandon stands abandoned =>
    rcases there with ⟨d, mem, same⟩ | same
    · exact (old (stands ▸ (sublist_without _ _ _).subset mem) same).elim
    · exact (held (leaveFlushing s _ ▸ same)).elim
  | sweep cached | stop cached =>
    rcases there with ⟨d, mem, same⟩ | same
    · exact (old mem same).elim
    · rw [cached] at held
      exact (held same).elim
  | @work proxy shelf marks worker channel shelf' cached works =>
    rcases there with ⟨d, mem, same⟩ | same
    · exact (old mem same).elim
    · exact workOwed supplied cached works same

/-- Of the calls that the store is given while the breaker is open, those of callers come from callers who were let in
before it opened, and all others from the batch writer, of items that such callers have left to it. -/
theorem startsWhileOpen (run : Run (start config began) ms s) (opened : s.breaker.phase = .opened)
    (step : Step s new s') (starts : Starts s s' x) :
    ∃ before m after, ms = before ++ .gate m :: after ∧ m.opens?.isSome = true ∧ (∀ n, ¬ LetIn n after) ∧
      Owed config ms (LetIn · before) x := by
  obtain ⟨xs, m, ys, split, opens, none⟩ := Breaker.Gate.runOpened (runGate run) opened
  obtain ⟨before, after, rfl, rfl, rfl⟩ := gateMarks_split split
  refine ⟨before, m, after, rfl, opens, none, ?_⟩
  have earlier {n : Nat} (letIn : LetIn n (before ++ .gate m :: after)) : LetIn n before := by
    obtain ⟨tag, time, mem⟩ := letIn
    rw [split] at mem
    rcases List.mem_append.mp mem with old | new
    · exact ⟨tag, time, old⟩
    · rcases List.mem_cons.mp new with rfl | new
      · cases opens
      · exact absurd ⟨tag, time, new⟩ (none n)
  cases stepStarts step starts (runSupplied run) with
  | caller op letIn => exact .caller op (earlier letIn)
  | writer cached batch some each =>
    refine .writer cached batch some fun item mem => ?_
    obtain ⟨n, letIn, accepted⟩ := each item mem
    exact ⟨n, earlier letIn, accepted⟩

/-! ### A window that comes due in a break -/

def bufferedCache : CacheConfig := { batch := true, buffer := 30 }

def bufferedConfig : ServiceConfig :=
  { breaker := { breakFor := 60, failureCount := 1 }, cache := some bufferedCache }

def bufferedItem : KeyValue := ⟨"k", .bool true⟩

def buffered (queue : List KeyValue) (worker : Worker) : Proxy where
  config := bufferedCache
  memory := Memory.empty.beginWrite.insert "k" ⟨.bool true, Span.ofSeconds 300, 1⟩
  channel := ⟨queue, 1024 - queue.length, [], [], false⟩
  worker := worker
  stopping := false

def bufferedClosed (counts : Breaker.Counts) (totals : Breaker.Totals) : Breaker :=
  { Breaker.make bufferedConfig.breaker 0 with counts, totals }

def bufferedOpen : Breaker := ⟨bufferedConfig.breaker, .opened, 1, .zero, some 60, ⟨2, 1, 1, 0⟩⟩

def bufferedMarks : List Mark :=
  [.gate (.asked 0 (.ok 0) 0), .cache (.accepted 0 bufferedItem), .gate (.ended 0 0 (.value ()) 0),
   .gate (.asked 1 (.ok 0) 0), .replied 1 (.failure spareLoss), .gate (.ended 1 0 (.failure spareLoss) 0),
   .gate (.moved (.closed, .opened) 0)]

theorem loneAccepted {b : Breaker} {now : Instant} {m : Memory} {channel : Channel} {tag : Nat} {op : Op}
    {item : KeyValue} {p : Pending} (begins : proxy.memory.begin proxy.config op now = (m, .queue item p))
    (given : proxy.channel.reserve n = (channel, .granted)) :
    Step ⟨b, now, some proxy, [⟨n, tag, op, .admitted⟩], n + 1⟩ [.cache (.accepted n item)]
      ⟨b, now, some { proxy with memory := m, channel := channel.push item },
        [⟨n, tag, op, .inside (.answered p (.ok .done))⟩], n + 1⟩ :=
  @Step.go _ [] [] ⟨n, tag, op, .admitted⟩ _ _ _ rfl (.enters rfl rfl begins (.accepted item p given))

theorem bufferedWaits : Run (start bufferedConfig 0) bufferedMarks
    ⟨bufferedOpen, 30, some (buffered [] (.gathering [bufferedItem] 30)), [], 2⟩ := by
  have write : Step (start bufferedConfig 0) [.gate (.asked 0 (.ok 0) 0)]
      ⟨bufferedClosed ⟨1, 0, 0, 0, 0⟩ ⟨1, 0, 0, 0⟩, 0, some (.start bufferedCache),
        [⟨0, 0, .set "k" (.bool true), .admitted⟩], 1⟩ :=
    @Step.letIn _ (.set "k" (.bool true)) _ [] 0 rfl rfl
  have accepted : Step ⟨bufferedClosed ⟨1, 0, 0, 0, 0⟩ ⟨1, 0, 0, 0⟩, 0, some (.start bufferedCache),
        [⟨0, 0, .set "k" (.bool true), .admitted⟩], 1⟩
      [.cache (.accepted 0 bufferedItem)]
      ⟨bufferedClosed ⟨1, 0, 0, 0, 0⟩ ⟨1, 0, 0, 0⟩, 0, some (buffered [bufferedItem] .idle),
        [⟨0, 0, .set "k" (.bool true), .inside (.answered (.write "k" 1) (.ok .done))⟩], 1⟩ :=
    @loneAccepted 0 (.start bufferedCache) _ _ _ ⟨[], 1023, [], [], false⟩ _ _ bufferedItem (.write "k" 1) rfl rfl
  have read : Step ⟨bufferedClosed ⟨1, 1, 0, 1, 0⟩ ⟨1, 1, 0, 0⟩, 0, some (buffered [bufferedItem] .idle), [], 1⟩
      [.gate (.asked 1 (.ok 0) 0)]
      ⟨bufferedClosed ⟨2, 1, 0, 1, 0⟩ ⟨2, 1, 0, 0⟩, 0, some (buffered [bufferedItem] .idle),
        [⟨1, 0, .has "j", .admitted⟩], 2⟩ :=
    @Step.letIn _ (.has "j") _ [] 0 rfl rfl
  have written := ((Runs.nil.next write).next accepted).next (loneEnds rfl rfl)
  have tripped : Run (start bufferedConfig 0) bufferedMarks
      ⟨bufferedOpen, 0, some (buffered [bufferedItem] .idle), [], 2⟩ :=
    (((written.next read).next (loneAsks _ rfl)).next (loneReplies _ (.error spareLoss))).next (loneEnds rfl rfl)
  have opened : Step ⟨bufferedOpen, 0, some (buffered [bufferedItem] .idle), [], 2⟩ []
      ⟨bufferedOpen, 0, some (buffered [] (.gathering [bufferedItem] 30)), [], 2⟩ :=
    @Step.work _ (buffered [bufferedItem] .idle) (fun _ => none) [] _ _ _ rfl (.opens rfl rfl)
  exact (tripped.next opened).next (.pass 30 (Nat.zero_le _))

theorem bufferedDue : Step ⟨bufferedOpen, 30, some (buffered [] (.gathering [bufferedItem] 30)), [], 2⟩ []
    ⟨bufferedOpen, 30, some (buffered [] (.flushing [bufferedItem] .again)), [], 2⟩ :=
  @Step.work _ (buffered [] (.gathering [bufferedItem] 30)) (fun _ => none) [] _ _ _ rfl (.due _ _ (Nat.le_refl _))

theorem bufferedStarts : Starts ⟨bufferedOpen, 30, some (buffered [] (.gathering [bufferedItem] 30)), [], 2⟩
    ⟨bufferedOpen, 30, some (buffered [] (.flushing [bufferedItem] .again)), [], 2⟩ (.writer [bufferedItem]) :=
  ⟨List.mem_singleton.mpr rfl, List.not_mem_nil⟩

/-- The store is given a call in the midst of a break. -/
theorem flushedInBreak : ∃ s s', Run (start bufferedConfig 0) bufferedMarks s ∧ s.breaker.phase = .opened ∧
    s.breaker.isDue s.now = false ∧ Step s [] s' ∧ Starts s s' (.writer [bufferedItem]) :=
  ⟨_, _, bufferedWaits, rfl, rfl, bufferedDue, bufferedStarts⟩

theorem bufferedOwed : ∃ before m after, bufferedMarks = before ++ .gate m :: after ∧ m.opens?.isSome = true ∧
    (∀ n, ¬ LetIn n after) ∧ Owed bufferedConfig bufferedMarks (LetIn · before) (.writer [bufferedItem]) :=
  startsWhileOpen bufferedWaits rfl bufferedDue bufferedStarts

end Switchyard.State.Desk
