import Switchyard.Proofs.State.Windows
/-!
Shutdowns of a cache. A shutdown tells the background tasks to stop, takes what handles there are, and waits for one
task after another; a caller may give it up at any moment. There is one handle for each task, so the first shutdown
waits for all of them and any other for none: when the first returns, the tasks have ended and nothing is left to hand
to the store, and nothing of the kind is known when another does.
-/
namespace Switchyard.State

/-- What runs in the background. -/
inductive Errand where
  | sweeper
  | writer

/-- A cache and those who shut it down. -/
structure Closing where
  front : Front
  sweeping : Bool
  /-- The tasks that nobody has come for. -/
  handles : List Errand
  /-- The shutdowns under way, with the tasks that each has still to wait for. -/
  callers : List (Nat × List Errand)
  /-- How many shutdowns there were. -/
  asked : Nat

namespace Closing

inductive Mark where
  | cache (m : State.Mark)
  | called (n : Nat)
  | returned (n : Nat)
  | abandoned (n : Nat)

def Mark.cache? : Mark → Option State.Mark
  | .cache m => some m
  | _ => none

def cacheMarks (ms : List Mark) : List State.Mark := ms.filterMap Mark.cache?

def start (config : CacheConfig) (shelf : Shelf) : Closing where
  front := .start config shelf
  sweeping := config.cleanup != 0
  handles := (if config.cleanup != 0 then [.sweeper] else []) ++ if config.batch then [.writer] else []
  callers := []
  asked := 0

def Busy (s : Closing) : Errand → Prop
  | .sweeper => s.sweeping = true
  | .writer => s.front.worker ≠ .gone

/-- A shutdown begins. -/
def summon (s : Closing) : Closing where
  front := { s.front with stopping := true }
  sweeping := s.sweeping
  handles := []
  callers := s.callers ++ [(s.asked, s.handles)]
  asked := s.asked + 1

inductive Step (s : Closing) : List Mark → Closing → Prop where
  | goesOn {ms front} (step : Front.Calm s.front ms front) : Step s (ms.map .cache) { s with front }
  | ends (stops : s.front.stopping = true) : Step s [] { s with sweeping := false }
  | call : Step s [.called s.asked, .cache .stopping] s.summon
  | joins {before after n task rest} (stands : s.callers = before ++ (n, task :: rest) :: after)
      (ended : ¬ s.Busy task) : Step s [] { s with callers := before ++ (n, rest) :: after }
  | returns {before after n} (stands : s.callers = before ++ (n, []) :: after) :
      Step s [.returned n] { s with callers := before ++ after }
  | gives {before after n tasks} (stands : s.callers = before ++ (n, tasks) :: after) :
      Step s [.abandoned n] { s with callers := before ++ after }

abbrev Run (config : CacheConfig) (shelf : Shelf) := Runs Step (start config shelf)

variable {config : CacheConfig} {shelf : Shelf} {ms new : List Mark} {s s' : Closing} {n : Nat} {task : Errand}

@[simp] theorem cacheMarks_append (xs ys : List Mark) : cacheMarks (xs ++ ys) = cacheMarks xs ++ cacheMarks ys := by
  simp [cacheMarks]

@[simp] theorem cacheMarks_cache (ms : List State.Mark) : cacheMarks (ms.map .cache) = ms := by
  simp [cacheMarks, List.filterMap_map, Function.comp_def, Mark.cache?]

theorem mem_cacheMarks {m : State.Mark} : m ∈ cacheMarks ms ↔ .cache m ∈ ms := by
  refine mem_project fun c m => ?_
  cases c <;> simp [Mark.cache?]

/-- What happens to the cache alone. -/
theorem cacheRun (run : Run config shelf ms s) :
    Runs Front.Calm (.start config shelf) (cacheMarks ms) s.front := by
  induction run with
  | nil => exact .nil
  | @next ms s new s' earlier last ih =>
    rw [cacheMarks_append]
    cases last with
    | goesOn step =>
      rw [cacheMarks_cache]
      exact ih.next step
    | call => exact ih.next ⟨.stop, fun _ _ flushing gone => nomatch flushing.symm.trans gone⟩
    | ends | joins => rwa [show cacheMarks [] = [] from rfl, List.append_nil]
    | returns | gives => rwa [show cacheMarks [_] = [] from rfl, List.append_nil]

/-! ### Who waits for what -/

theorem stepGone {front front' : Front} {marks : List State.Mark} (step : Front.Step front marks front')
    (gone : front.worker = .gone) : front'.worker = .gone := by
  cases step with
  | work works =>
    rw [gone] at works
    exact absurd works Front.workAlone
  | _ => exact gone

/-- A task that has ended does not start again. -/
theorem stepEnded (step : Step s new s') (runs : s'.Busy task) : s.Busy task := by
  cases step with
  | goesOn step =>
    cases task with
    | sweeper => exact runs
    | writer => exact fun gone => runs (stepGone step.1 gone)
  | ends =>
    cases task with
    | sweeper => cases runs
    | writer => exact runs
  | call | joins | returns | gives => cases task <;> exact runs

theorem stepStopping (step : Step s new s') (stopping : s.front.stopping = true) : s'.front.stopping = true := by
  cases step with
  | goesOn calm => cases calm.1 <;> first | exact stopping | rfl
  | call => rfl
  | ends | joins | returns | gives => exact stopping

/-- The first shutdown has the handles, and no other. -/
structure Kept (ms : List Mark) (s : Closing) : Prop where
  numbers : ∀ c ∈ s.callers, c.1 < s.asked
  unasked : s.asked = 0 → ∀ task, s.Busy task → task ∈ s.handles
  taken : s.asked ≠ 0 → s.handles = []
  stopping : s.asked ≠ 0 → s.front.stopping = true
  first : ∀ tasks, (0, tasks) ∈ s.callers → ∀ task, s.Busy task → task ∈ tasks
  later : ∀ n tasks, (n, tasks) ∈ s.callers → n ≠ 0 → tasks = []
  returned : .returned 0 ∈ ms → ∀ task, ¬ s.Busy task

theorem startKept : Kept [] (start config shelf) := by
  refine ⟨nofun, fun _ task runs => ?_, absurd rfl, absurd rfl, nofun, nofun, nofun⟩
  cases task with
  | sweeper =>
    have sweeps : (config.cleanup != 0) = true := runs
    simp [start, sweeps]
  | writer =>
    cases batch : config.batch with
    | true => simp [start, batch]
    | false =>
      refine absurd ?_ runs
      simp [start, Front.start, batch]

namespace Kept

theorem call (kept : Kept ms s) : Kept (ms ++ [.called s.asked, .cache .stopping]) s.summon := by
  have runs : ∀ task, s.summon.Busy task → s.Busy task := fun task => stepEnded .call
  refine ⟨?_, nofun, fun _ => rfl, fun _ => rfl, fun tasks mem task running => ?_, fun n tasks mem later => ?_,
    fun mem task => ?_⟩
  · exact List.forall_mem_append.mpr ⟨fun c hc => Nat.lt_succ_of_lt (kept.numbers c hc),
      List.forall_mem_singleton.mpr (Nat.lt_succ_self _)⟩
  · rcases List.mem_append.mp mem with old | own
    · exact kept.first tasks old task (runs task running)
    · obtain ⟨first, rfl⟩ := Prod.mk.inj (List.mem_singleton.mp own)
      exact kept.unasked first.symm task (runs task running)
  · rcases List.mem_append.mp mem with old | own
    · exact kept.later n tasks old later
    · obtain ⟨rfl, rfl⟩ := Prod.mk.inj (List.mem_singleton.mp own)
      exact kept.taken later
  · have old : .returned 0 ∈ ms := by simpa using mem
    exact fun running => kept.returned old task (runs task running)

/-- The cache, the sweeper or the callers go on; nobody comes new. -/
theorem goOn (kept : Kept ms s) (step : Step s new s') (asked : s'.asked = s.asked) (handles : s'.handles = s.handles)
    (callers : ∀ n tasks, (n, tasks) ∈ s'.callers → ∃ more, (n, more) ∈ s.callers ∧
      (∀ task, s'.Busy task → task ∈ more → task ∈ tasks) ∧ (more = [] → tasks = []))
    (returned : .returned 0 ∈ new → (0, []) ∈ s.callers) : Kept (ms ++ new) s' where
  numbers := by
    rintro ⟨n, tasks⟩ mem
    obtain ⟨more, there, -⟩ := callers n tasks mem
    exact asked ▸ kept.numbers (n, more) there
  unasked := fun first task runs => handles ▸ kept.unasked (asked ▸ first) task (stepEnded step runs)
  taken := fun later => handles ▸ kept.taken (asked ▸ later)
  stopping := fun later => stepStopping step (kept.stopping (asked ▸ later))
  first := by
    intro tasks mem task runs
    obtain ⟨more, mem, same, -⟩ := callers 0 tasks mem
    exact same task runs (kept.first more mem task (stepEnded step runs))
  later := by
    intro n tasks mem later
    obtain ⟨more, mem, -, done⟩ := callers n tasks mem
    exact done (kept.later n more mem later)
  returned := by
    intro mem task runs
    rcases List.mem_append.mp mem with old | now
    · exact kept.returned old task (stepEnded step runs)
    · exact absurd (kept.first [] (returned now) task (stepEnded step runs)) List.not_mem_nil

end Kept

theorem stepKept (step : Step s new s') (kept : Kept ms s) : Kept (ms ++ new) s' := by
  cases step with
  | call => exact kept.call
  | goesOn calm =>
    exact kept.goOn (.goesOn calm) rfl rfl (fun _ tasks mem => ⟨tasks, mem, fun _ _ h => h, id⟩) (by simp)
  | ends stops => exact kept.goOn (.ends stops) rfl rfl (fun _ tasks mem => ⟨tasks, mem, fun _ _ h => h, id⟩) nofun
  | @joins before after n task rest stands ended =>
    refine kept.goOn (.joins stands ended) rfl rfl (fun m tasks mem => ?_) nofun
    rcases List.mem_append.mp mem with old | old
    · exact ⟨tasks, by simp [stands, old], fun _ _ h => h, id⟩
    · rcases List.mem_cons.mp old with own | old
      · obtain ⟨rfl, rfl⟩ := Prod.mk.inj own
        refine ⟨task :: tasks, by simp [stands], fun other running mem => ?_, nofun⟩
        rcases List.mem_cons.mp mem with rfl | mem
        · exact absurd (stepEnded (.joins stands ended) running) ended
        · exact mem
      · exact ⟨tasks, by simp [stands, old], fun _ _ h => h, id⟩
  | @returns before after n stands =>
    have rest : (before ++ after).Sublist s.callers := stands ▸ sublist_without _ _ _
    refine kept.goOn (.returns stands) rfl rfl (fun m tasks mem => ⟨tasks, rest.subset mem, fun _ _ h => h, id⟩) ?_
    intro mem
    obtain rfl : 0 = n := by simpa using mem
    simp [stands]
  | @gives before after n tasks stands =>
    have rest : (before ++ after).Sublist s.callers := stands ▸ sublist_without _ _ _
    exact kept.goOn (.gives stands) rfl rfl (fun m tasks mem => ⟨tasks, rest.subset mem, fun _ _ h => h, id⟩) (by simp)

theorem runKept (run : Run config shelf ms s) : Kept ms s := by
  induction run with
  | nil => exact startKept
  | next earlier last ih => exact stepKept last ih

/-! ### What a shutdown tells its caller -/

/-- No task runs, every item that was accepted was handed to the store, and so was the item of every write that was
told so. -/
structure Settled (ms : List Mark) (s : Closing) : Prop where
  ended : ∀ task, ¬ s.Busy task
  handed : (Front.handed (cacheMarks ms) s.front).flatten = Front.items (cacheMarks ms)
  told : ∀ j key value a, .cache (.ended j (.set key value) (.ok a)) ∈ ms →
    ∃ window ∈ Front.handed (cacheMarks ms) s.front, ⟨key, value⟩ ∈ window

theorem settled (on : config.batch = true) (run : Run config shelf ms s) (ended : ∀ task, ¬ s.Busy task) :
    Settled ms s := by
  have gone : s.front.worker = .gone := Classical.not_not.mp (ended .writer)
  have cache := cacheRun run
  have handed := Front.items_gone on cache gone
  refine ⟨ended, handed.symm, fun j key value a mem => ?_⟩
  have taken := (Front.runRegister on (Front.Calm.run cache)).told j key value a (mem_cacheMarks.mpr mem)
  have item : ⟨key, value⟩ ∈ Front.items (cacheMarks ms) := List.mem_map_of_mem (f := (·.2)) taken
  rw [handed] at item
  exact List.mem_flatten.mp item

theorem returning (step : Step s [.returned n] s') : (n, []) ∈ s.callers := by
  generalize said : [Mark.returned n] = marks at step
  cases step with
  | returns stands =>
    cases said
    simp [stands]
  | @goesOn marks => cases marks <;> cases said
  | _ => cases said

/-- With batching, over a store that does not panic in a flush: when the first shutdown returns, or any after it has,
everything is settled; another waits for no task, and what it leaves behind is settled if the tasks happen to have
ended. -/
theorem firstShutdownSettles (on : config.batch = true) (run : Run config shelf ms s)
    (returns : Step s [.returned n] s') :
    (n = 0 ∨ .returned 0 ∈ ms → Settled ms s) ∧ (Settled ms s ↔ ∀ task, ¬ s.Busy task) ∧
    ∀ m tasks, (m, tasks) ∈ s.callers → m ≠ 0 → tasks = [] := by
  have kept := runKept run
  refine ⟨?_, ⟨Settled.ended, settled on run⟩, kept.later⟩
  rintro (rfl | earlier)
  · exact settled on run fun task running => List.not_mem_nil (kept.first [] (returning returns) task running)
  · exact settled on run (kept.returned earlier)

/-! ### Every shutdown can return -/

theorem goesFree {front : Front} {marks : List State.Mark} (step : Front.Step s.front marks front)
    (free : ∀ window after, s.front.worker ≠ .flushing window after) :
    Step s (marks.map .cache) { s with front } :=
  .goesOn (.of_free step free)

theorem flushes {window : List KeyValue} {after : Rehearsal.AfterFlush}
    (flushing : s.front.worker = .flushing window after) :
    Step s [.cache (.flushed window)]
      { s with front := { s.front with worker := .resting after,
                                       shelf := s.front.shelf.apply (.batchSet (dedupe window)) } } := by
  have writes : Front.Step s.front [.flushed window] { s.front with
      worker := .resting after, shelf := s.front.shelf.apply (.batchSet (dedupe window)) } := by
    refine .work ?_
    rw [flushing]
    exact .writes window after
  exact .goesOn ⟨writes, fun _ _ _ => nofun⟩

/-- The tasks can end, and nothing else need happen. -/
def Stops (s : Closing) : Prop := ∃ ms s', Runs Step s ms s' ∧ (∀ task, ¬ s'.Busy task) ∧ s'.callers = s.callers

theorem Stops.of_step (step : Step s new s') (callers : s'.callers = s.callers) (stops : Stops s') : Stops s := by
  obtain ⟨ms, s'', run, ended, same⟩ := stops
  exact ⟨new ++ ms, s'', (Runs.nil.next step).trans run, ended, same.trans callers⟩

theorem stopsGone (stopping : s.front.stopping = true) (gone : s.front.worker = .gone) : Stops s := by
  refine ⟨_, _, Runs.nil.next (.ends stopping), fun task running => ?_, rfl⟩
  cases task with
  | sweeper => cases running
  | writer => exact running gone

theorem stopsFlushed {window : List KeyValue} {after : Rehearsal.AfterFlush} (stopping : s.front.stopping = true)
    (flushing : s.front.worker = .flushing window after)
    (rests : ∀ {s' : Closing}, s'.front.stopping = true → s'.front.worker = .resting after → Stops s') : Stops s :=
  .of_step (flushes flushing) rfl (rests stopping rfl)

theorem stopsLast (stopping : s.front.stopping = true) (rests : s.front.worker = .resting .stop) : Stops s := by
  have ends : Front.Step s.front [] { s.front with worker := .gone } := by
    refine .work ?_
    rw [rests]
    exact .ends
  exact .of_step (goesFree ends (by simp [rests])) rfl (stopsGone stopping rfl)

theorem stopsClosing (stopping : s.front.stopping = true)
    (last : s.front.worker = .resting .close ∨ s.front.worker = .idle) : Stops s := by
  have closes := Front.Step.work (s := s.front) (.closes (last.imp_right fun idle => ⟨idle, stopping⟩) rfl)
  have free : ∀ window after, s.front.worker ≠ .flushing window after := by
    rcases last with rests | rests <;> simp [rests]
  cases queue : s.front.channel.queue with
  | nil =>
    refine .of_step (goesFree closes free) rfl (stopsGone stopping ?_)
    simp [Channel.close, queue]
  | cons item rest =>
    have left : (if s.front.channel.close.1.queue.isEmpty then .gone
        else .flushing s.front.channel.close.1.queue .stop) = Worker.flushing (item :: rest) .stop := by
      simp [Channel.close, queue]
    exact .of_step (goesFree closes free) rfl (stopsFlushed stopping left stopsLast)

theorem stopsResting {after : Rehearsal.AfterFlush} (stopping : s.front.stopping = true)
    (rests : s.front.worker = .resting after) : Stops s := by
  cases after with
  | again =>
    have goesOn : Front.Step s.front [] { s.front with worker := .idle } := by
      refine .work ?_
      rw [rests]
      exact .goesOn
    exact .of_step (goesFree goesOn (by simp [rests])) rfl (stopsClosing stopping (.inr rfl))
  | close => exact stopsClosing stopping (.inl rests)
  | stop => exact stopsLast stopping rests

theorem stops (stopping : s.front.stopping = true) : Stops s := by
  cases worker : s.front.worker with
  | gone => exact stopsGone stopping worker
  | idle => exact stopsClosing stopping (.inr worker)
  | resting after => exact stopsResting stopping worker
  | flushing window after => exact stopsFlushed stopping worker stopsResting
  | gathering window due =>
    have halts : Front.Step s.front [] { s.front with worker := .flushing window .close } := by
      refine .work ?_
      rw [worker]
      exact .halts window due stopping
    exact .of_step (goesFree halts (by simp [worker])) rfl (stopsFlushed stopping rfl stopsResting)

theorem joinsAll {before after : List (Nat × List Errand)} {tasks : List Errand}
    (stands : s.callers = before ++ (n, tasks) :: after) (ended : ∀ task, ¬ s.Busy task) :
    ∃ s', Runs Step s [] s' ∧ s'.callers = before ++ (n, []) :: after := by
  induction tasks generalizing s with
  | nil => exact ⟨s, .nil, stands⟩
  | cons task rest ih =>
    have joins : Step s [] { s with callers := before ++ (n, rest) :: after } := .joins stands (ended task)
    obtain ⟨s', run, callers⟩ := ih (s := { s with callers := before ++ (n, rest) :: after }) rfl
      fun task running => ended task (stepEnded joins running)
    exact ⟨s', (Runs.nil.next joins).trans run, callers⟩

/-- A shutdown that is not given up can come to its end, over a store that does its part. -/
theorem canReturn {tasks : List Errand} (run : Run config shelf ms s) (waits : (n, tasks) ∈ s.callers) :
    ∃ more s' s'', Runs Step s more s' ∧ Step s' [.returned n] s'' := by
  have kept := runKept run
  have asked : s.asked ≠ 0 := Nat.ne_of_gt (Nat.zero_lt_of_lt (kept.numbers _ waits))
  obtain ⟨more, s₁, ends, ended, same⟩ := stops (kept.stopping asked)
  obtain ⟨before, after, stands⟩ := List.append_of_mem waits
  obtain ⟨s₂, joined, callers⟩ := joinsAll (same.trans stands) ended
  exact ⟨_, _, _, ends.trans joined, .returns callers⟩

/-! ### Two shutdowns during a flush -/

def promptItem (key : String) : KeyValue := ⟨key, .bool true⟩

def promptConfig : CacheConfig := { batch := true, buffer := 10 }

/-- One window is in the hands of the store, another item waits, and two shutdowns are called. -/
def promptMarks : List Mark :=
  [.cache (.begun 0 (.set "a" (.bool true)) 0), .cache (.accepted 0 (promptItem "a")),
   .cache (.ended 0 (.set "a" (.bool true)) (.ok .done)), .cache (.begun 1 (.set "b" (.bool true)) 10),
   .cache (.accepted 1 (promptItem "b")), .cache (.ended 1 (.set "b" (.bool true)) (.ok .done)),
   .called 0, .cache .stopping, .called 1, .cache .stopping]

theorem promptRun : ∃ s, Run promptConfig (fun _ => none) promptMarks s ∧
    s.callers = [(0, [.sweeper, .writer]), (1, [])] ∧
    s.front.worker = .flushing [promptItem "a"] .again ∧ s.front.channel.queue = [promptItem "b"] ∧
    s.front.stopping = true := by
  have begins : Run promptConfig (fun _ => none) [] _ := .nil
  have accepted := begins.next
    (goesFree (.enter (.set "a" (.bool true)) rfl (.accepted (promptItem "a") (.write "a" 1) rfl)) nofun)
  have told := accepted.next (goesFree (@Front.Step.answer _ [] [] _ _ _ _ _ rfl rfl rfl) nofun)
  have taken := told.next (goesFree (.work (.opens rfl rfl)) nofun)
  have later := taken.next (goesFree (.pass 10 (Nat.zero_le _)) nofun)
  have handed := later.next (goesFree (.work (.due _ _ (Nat.le_refl _))) nofun)
  have acceptedToo := handed.next (.goesOn
    ⟨.enter (.set "b" (.bool true)) rfl (.accepted (promptItem "b") (.write "b" 2) rfl), nofun⟩)
  have toldToo := acceptedToo.next (.goesOn ⟨@Front.Step.answer _ [] [] _ _ _ _ _ rfl rfl rfl, nofun⟩)
  exact ⟨_, (toldToo.next .call).next .call, rfl, rfl, rfl, rfl⟩

/-- The second shutdown returns at once, with the writer at work and an item in the channel that its caller was told
about. -/
theorem promptReturn : ∃ s s', Run promptConfig (fun _ => none) promptMarks s ∧ Step s [.returned 1] s' ∧
    s.Busy .writer ∧
    (∃ before after, promptMarks = before ++ .called 1 :: after ∧
      .cache (.ended 1 (.set "b" (.bool true)) (.ok .done)) ∈ before) ∧
    ∀ window ∈ Front.handed (cacheMarks promptMarks) s.front, promptItem "b" ∉ window := by
  obtain ⟨s, run, callers, flushing, queue, stopping⟩ := promptRun
  have returns : Step s [.returned 1] _ := @Step.returns _ [(0, [.sweeper, .writer])] [] 1 callers
  refine ⟨s, _, run, returns, fun gone => (nomatch flushing.symm.trans gone), ⟨promptMarks.take 8, _, rfl, ?_⟩, ?_⟩
  · simp [promptMarks]
  · simp [Front.handed, flushing, Front.windows, cacheMarks, promptMarks, Mark.cache?, Mark.window?, Worker.handed,
      promptItem]

theorem promptSettled : ∃ ms s s', Run promptConfig (fun _ => none) (promptMarks ++ ms) s ∧ Step s [.returned 0] s' ∧
    Settled (promptMarks ++ ms) s := by
  obtain ⟨s, run, callers, -⟩ := promptRun
  obtain ⟨ms, s', s'', more, returns⟩ := canReturn run (callers ▸ List.mem_cons_self)
  exact ⟨ms, s', s'', run.trans more, returns, (firstShutdownSettles rfl (run.trans more) returns).1 (.inl rfl)⟩

end Closing
end Switchyard.State
