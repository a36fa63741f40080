import Switchyard.Proofs.Breaker.Slots
/-!
What the callbacks of a breaker are told. An operation changes the phase first and tells of it afterwards, and while it
tells, a callback may look at the breaker, which may change it again. What is told is what has changed, in that order:
an operation makes no second change before it has told of the first, and changes back and forth are told as they come.
-/
namespace Switchyard.Breaker

variable {b b' : Breaker} {now : Instant} {changes : List Transition} {success : Bool}

def between (b b' : Breaker) : List Transition := if b.phase = b'.phase then [] else [(b.phase, b'.phase)]

theorem between_same (same : b.phase = b'.phase) : between b b' = [] := if_pos same

theorem between_other (other : b.phase ≠ b'.phase) : between b b' = [(b.phase, b'.phase)] := if_neg other

/-- What an operation has to tell is what it has changed, and no breaker that was closed is half-open after it. -/
structure Alters (b b' : Breaker) (changes : List Transition) : Prop where
  exact : changes = between b b'
  tried : (.closed, .halfOpen) ∉ changes

theorem Refreshes.alters (refreshed : Refreshes b now b' changes) : Alters b b' changes := by
  cases refreshed with
  | early | renewed | extended => exact ⟨(between_same rfl).symm, List.not_mem_nil⟩
  | probes opened =>
    refine ⟨?_, by simp⟩
    rw [between_other (by simp [opened, renew]), opened]
    rfl
  | overdue half =>
    refine ⟨?_, by simp⟩
    rw [between_other (by simp [half, renew]), half]
    rfl

theorem Records.alters (recorded : Records b now success b' changes) : Alters b b' changes := by
  cases recorded with
  | ignored | succeeded | failed | advanced => exact ⟨(between_same rfl).symm, List.not_mem_nil⟩
  | tripped closed =>
    refine ⟨?_, by simp⟩
    rw [between_other (by simp [closed, renew]), closed]
    rfl
  | closes half | reopens half =>
    refine ⟨?_, by simp⟩
    rw [between_other (by simp [half, renew]), half]
    rfl

theorem forced_alters {phase : Phase} (tried : phase ≠ .halfOpen) (forced : b.force phase now = (b', changes)) :
    Alters b b' changes := by
  obtain ⟨rfl, rfl⟩ := forces forced
  refine ⟨rfl, fun mem => ?_⟩
  split at mem
  · cases mem
  · exact tried (congrArg Prod.snd (List.mem_singleton.mp mem)).symm

/-- The changes lead from one phase to another, each from where the one before has led. -/
def Leads : Phase → List Transition → Phase → Prop
  | was, [], phase => was = phase
  | was, change :: rest, phase => change.1 = was ∧ change.1 ≠ change.2 ∧ Leads change.2 rest phase

theorem Leads.append {was phase later : Phase} {cs ds : List Transition} (first : Leads was cs phase)
    (rest : Leads phase ds later) : Leads was (cs ++ ds) later := by
  induction cs generalizing was with
  | nil =>
    subst first
    exact rest
  | cons change cs ih =>
    obtain ⟨start, moves, leads⟩ := first
    exact ⟨start, moves, ih leads⟩

theorem Leads.split {was later : Phase} {cs ds : List Transition} (leads : Leads was (cs ++ ds) later) :
    ∃ phase, Leads was cs phase ∧ Leads phase ds later := by
  induction cs generalizing was with
  | nil => exact ⟨was, rfl, leads⟩
  | cons change cs ih =>
    obtain ⟨start, moves, leads⟩ := leads
    obtain ⟨phase, first, rest⟩ := ih leads
    exact ⟨phase, ⟨start, moves, first⟩, rest⟩

theorem Alters.leads (alters : Alters b b' changes) : Leads b.phase changes b'.phase := by
  rw [alters.exact]
  by_cases same : b.phase = b'.phase
  · rw [between_same same]
    exact same
  · rw [between_other same]
    exact ⟨rfl, same, rfl⟩

theorem Alters.once (alters : Alters b b' changes) : changes.length ≤ 1 := by
  rw [alters.exact]
  unfold between
  split
  · exact Nat.zero_le _
  · exact Nat.le_refl _

namespace Gate

def Mark.change? : Mark → Option Transition
  | .moved change _ => some change
  | _ => none

def tidings (ms : List Mark) : List Transition := ms.filterMap Mark.change?

theorem tidings_append (xs ys : List Mark) : tidings (xs ++ ys) = tidings xs ++ tidings ys := List.filterMap_append

theorem tidings_moves (cs : List Transition) : tidings (moves cs now) = cs := by
  induction cs with
  | nil => rfl
  | cons change rest ih => exact congrArg (change :: ·) ih

theorem stepAlters {past ms : List Mark} {s s' : Gate} (step : Step s ms s') (fair : Fair past s) :
    Alters s.breaker s'.breaker (tidings ms) := by
  cases step with
  | letIn asked | turnAway asked =>
    rw [tidings_append, tidings_moves]
    obtain ⟨b₁, totals, refreshed, ⟨-, -, rfl⟩ | ⟨-, -, rfl⟩⟩ := acquires asked <;>
    · obtain ⟨exact, tried⟩ := refreshed.alters
      exact ⟨(List.append_nil _).trans exact, by simpa [tidings, Mark.change?] using tried⟩
  | settle o stands settled =>
    have told (cs : List Transition) : tidings (moves cs s.now) = cs := tidings_moves cs
    -- a call whose phase is over only looks, and the outcome of another finds nothing due
    obtain ⟨totals, ⟨b₁, refreshed, -, rfl⟩ | ⟨-, -, expiry, -, recorded⟩⟩ := fair.settles stands settled
    · obtain ⟨exact, tried⟩ := refreshed.alters
      exact ⟨(told _).trans exact, (told _).symm ▸ tried⟩
    · obtain ⟨exact, tried⟩ := recorded.alters
      exact ⟨(told _).trans exact, (told _).symm ▸ tried⟩
  | abandon stands abandoned =>
    have told (cs : List Transition) : tidings (moves cs s.now) = cs := tidings_moves cs
    obtain ⟨b₁, refreshed, rfl⟩ := abandons abandoned
    obtain ⟨exact, tried⟩ := refreshed.alters
    refine ⟨(told _).trans (exact.trans ?_), (told _).symm ▸ tried⟩
    split <;> rfl
  | look refreshed =>
    rw [tidings_moves]
    exact (refreshes refreshed).alters
  | reset forced | forceOpen forced =>
    have told (cs : List Transition) : tidings (moves cs s.now) = cs := tidings_moves cs
    obtain ⟨exact, tried⟩ := forced_alters (by decide) forced
    exact ⟨(told _).trans exact, (told _).symm ▸ tried⟩
  | pass => exact ⟨(between_same rfl).symm, List.not_mem_nil⟩

end Gate

/-! ### Telling -/

namespace Herald

/-- An operation that reads the state and the counts looks at the breaker once for each, and tells in between. -/
inductive Stage where
  | only
  | state
  | counts
  deriving DecidableEq, Repr

/-- How many changes an operation can have made by then. -/
def Stage.most : Stage → Nat
  | only | state => 1
  | counts => 2

theorem Stage.most_pos (stage : Stage) : 1 ≤ stage.most := by cases stage <;> decide

/-- An operation that has done something to the breaker and tells of it. -/
structure Notice where
  /-- A callback has been called and has not returned. -/
  calling : Bool
  left : List Transition
  /-- How many changes the operation has made itself. -/
  made : Nat
  stage : Stage
  deriving DecidableEq, Repr

inductive Word where
  | changed (change : Transition)
  | told (change : Transition)
  deriving DecidableEq, Repr

end Herald

open Herald in
structure Herald where
  gate : Gate
  /-- The operations under way, the last to begin first. -/
  notices : List Notice

namespace Herald

def start (config : Config) (now : Instant) : Herald := ⟨.start config now, []⟩

/-- No operation is under way, or a callback is. -/
def Free (s : Herald) : Prop := ∀ n ∈ s.notices.head?, n.calling = true

def say (changes : List Transition) : List Word := changes.map .changed

inductive Step (s : Herald) : List Word → Herald → Prop where
  | operate {ms gate} (idle : s.notices = []) (step : Gate.Step s.gate ms gate) :
      Step s (say (Gate.tidings ms)) ⟨gate, [⟨false, Gate.tidings ms, (Gate.tidings ms).length, .only⟩]⟩
  /-- A caller or a callback reads the state, or the counts. -/
  | look {breaker changes} (free : s.Free) (refreshed : s.gate.breaker.refresh s.gate.now = (breaker, changes)) :
      Step s (say changes) ⟨{ s.gate with breaker }, ⟨false, changes, changes.length, .only⟩ :: s.notices⟩
  | readState {breaker changes} (free : s.Free)
      (refreshed : s.gate.breaker.refresh s.gate.now = (breaker, changes)) :
      Step s (say changes) ⟨{ s.gate with breaker }, ⟨false, changes, changes.length, .state⟩ :: s.notices⟩
  | readCounts {made outer breaker changes} (stands : s.notices = ⟨false, [], made, .state⟩ :: outer)
      (refreshed : s.gate.breaker.refresh s.gate.now = (breaker, changes)) :
      Step s (say changes) ⟨{ s.gate with breaker }, ⟨false, changes, made + changes.length, .counts⟩ :: outer⟩
  | wait (now : Instant) (later : s.gate.now ≤ now) : Step s [] { s with gate := { s.gate with now } }
  | tell {change left made stage outer} (stands : s.notices = ⟨false, change :: left, made, stage⟩ :: outer) :
      Step s [.told change] { s with notices := ⟨true, left, made, stage⟩ :: outer }
  | answer {left made stage outer} (stands : s.notices = ⟨true, left, made, stage⟩ :: outer) :
      Step s [] { s with notices := ⟨false, left, made, stage⟩ :: outer }
  | finish {made stage outer} (stands : s.notices = ⟨false, [], made, stage⟩ :: outer) (last : stage ≠ .state) :
      Step s [] { s with notices := outer }

abbrev Run (init : Herald) : List Word → Herald → Prop := Runs Step init

def changed (ws : List Word) : List Transition :=
  ws.filterMap fun
    | .changed change => some change
    | .told _ => none

def told (ws : List Word) : List Transition :=
  ws.filterMap fun
    | .told change => some change
    | .changed _ => none

variable {config : Config} {began : Instant} {ws new : List Word} {s s' : Herald}

theorem changed_append (xs ys : List Word) : changed (xs ++ ys) = changed xs ++ changed ys := List.filterMap_append

theorem told_append (xs ys : List Word) : told (xs ++ ys) = told xs ++ told ys := List.filterMap_append

theorem changed_say (changes : List Transition) : changed (say changes) = changes := by
  induction changes with
  | nil => rfl
  | cons change rest ih => exact congrArg (change :: ·) ih

theorem told_say (changes : List Transition) : told (say changes) = [] := by
  induction changes with
  | nil => rfl
  | cons change rest ih => exact ih

theorem runGate (run : Run (start config began) ws s) : ∃ ms, Gate.Run (.start config began) ms s.gate := by
  induction run with
  | nil => exact ⟨[], .nil⟩
  | next earlier last ih =>
    obtain ⟨ms, run⟩ := ih
    cases last with
    | operate idle step => exact ⟨_, run.next step⟩
    | look _ refreshed | readState _ refreshed | readCounts _ refreshed => exact ⟨_, run.next (.look refreshed)⟩
    | wait now later => exact ⟨_, run.next (.pass now later)⟩
    | tell | answer | finish => exact ⟨ms, run⟩

theorem stepAlters (run : Run (start config began) ws s) (step : Step s new s') :
    Alters s.gate.breaker s'.gate.breaker (changed new) := by
  cases step with
  | operate idle step =>
    obtain ⟨ms, gate⟩ := runGate run
    rw [changed_say]
    exact Gate.stepAlters step (Gate.runFair gate)
  | look _ refreshed | readState _ refreshed | readCounts _ refreshed =>
    rw [changed_say]
    exact (refreshes refreshed).alters
  | wait | tell | answer | finish => exact ⟨(between_same rfl).symm, List.not_mem_nil⟩

/-- What has changed and was not told. -/
def late (s : Herald) : List Transition := (s.notices.head?.map (·.left)).getD []

/-- Only the operation that began last can have something to tell, and no more than one change; the others have called
their callbacks and have nothing left. -/
structure Orderly (ws : List Word) (s : Herald) : Prop where
  behind : changed ws = told ws ++ s.late
  single : s.late.length ≤ 1
  called : ∀ n ∈ s.notices, n.calling = true → n.left = []
  outer : ∀ n ∈ s.notices.tail, n.calling = true
  made : ∀ n ∈ s.notices, n.made ≤ n.stage.most

namespace Orderly

theorem punctual (orderly : Orderly ws s) (free : s.Free) : s.late = [] := by
  cases stands : s.notices with
  | nil => simp [late, stands]
  | cons n outer =>
    have called := orderly.called n (by simp [stands]) (free n (by simp [stands]))
    simp [late, stands, called]

/-- A new operation has nobody before it who has still something to tell. -/
theorem begin (orderly : Orderly ws s) (free : s.Free) {gate : Gate} {changes : List Transition} {stage : Stage}
    (once : changes.length ≤ 1) :
    Orderly (ws ++ say changes) ⟨gate, ⟨false, changes, changes.length, stage⟩ :: s.notices⟩ := by
  have caughtUp := orderly.behind
  rw [orderly.punctual free, List.append_nil] at caughtUp
  refine ⟨?_, once, ?_, fun n mem => ?_, ?_⟩
  · rw [changed_append, changed_say, told_append, told_say, caughtUp, List.append_nil]
    rfl
  · exact List.forall_mem_cons.mpr ⟨nofun, orderly.called⟩
  · have among : n ∈ s.notices := mem
    cases stands : s.notices with
    | nil => simp [stands] at among
    | cons m outer =>
      rw [stands] at among
      rcases List.mem_cons.mp among with rfl | inner
      · exact free n (by simp [stands])
      · exact orderly.outer n (by simpa [stands] using inner)
  · exact List.forall_mem_cons.mpr ⟨Nat.le_trans once stage.most_pos, orderly.made⟩

end Orderly

theorem stepOrderly (run : Run (start config began) ws s) (step : Step s new s') (orderly : Orderly ws s) :
    Orderly (ws ++ new) s' := by
  have once := (stepAlters run step).once
  obtain ⟨behind, single, called, outer, made⟩ := id orderly
  cases step with
  | @operate ms gate idle step =>
    rw [changed_say] at once
    have free : s.Free := by simp [Free, idle]
    exact idle ▸ orderly.begin free once
  | look free | readState free =>
    rw [changed_say] at once
    exact orderly.begin free once
  | readCounts stands =>
    rw [changed_say] at once
    simp only [late, stands, List.head?_cons, List.tail_cons, List.forall_mem_cons] at behind called outer made
    refine ⟨?_, once, List.forall_mem_cons.mpr ⟨nofun, called.2⟩, outer, List.forall_mem_cons.mpr ⟨?_, made.2⟩⟩
    · simpa [changed_append, changed_say, told_append, told_say, late] using behind
    · exact Nat.add_le_add made.1 once
  | wait =>
    rw [List.append_nil]
    exact ⟨behind, single, called, outer, made⟩
  | @tell change left made' stage above stands =>
    simp only [late, stands, List.head?_cons, List.tail_cons, List.forall_mem_cons] at behind single called outer made
    -- the callback may start operations of its own, and this one has nothing left to tell after theirs
    obtain rfl : left = [] := List.eq_nil_of_length_eq_zero (by simpa using single)
    refine ⟨?_, Nat.zero_le _, List.forall_mem_cons.mpr ⟨fun _ => rfl, called.2⟩, outer, List.forall_mem_cons.mpr made⟩
    simpa [changed_append, told_append, changed, told, late] using behind
  | answer stands =>
    simp only [late, stands, List.head?_cons, List.tail_cons, List.forall_mem_cons] at behind single called outer made
    rw [List.append_nil]
    exact ⟨behind, single, List.forall_mem_cons.mpr ⟨nofun, called.2⟩, outer, List.forall_mem_cons.mpr made⟩
  | @finish made' stage above stands =>
    simp only [late, stands, List.head?_cons, List.tail_cons, List.forall_mem_cons] at behind single called outer made
    -- whoever is below waits for its callback
    have none : ({ s with notices := above } : Herald).late = [] := by
      cases above with
      | nil => rfl
      | cons n above => exact called.2 n List.mem_cons_self (outer n List.mem_cons_self)
    rw [List.append_nil]
    refine ⟨?_, by simp [none], called.2, fun n mem => outer n (List.mem_of_mem_tail mem), made.2⟩
    simpa [none] using behind

theorem runOrderly (run : Run (start config began) ws s) : Orderly ws s := by
  induction run with
  | nil => exact ⟨rfl, Nat.zero_le _, nofun, nofun, nofun⟩
  | next earlier last ih => exact stepOrderly earlier last ih

theorem runLeads (run : Run (start config began) ws s) :
    Leads .closed (changed ws) s.gate.breaker.phase ∧ (.closed, .halfOpen) ∉ changed ws := by
  induction run with
  | nil => exact ⟨rfl, List.not_mem_nil⟩
  | next earlier last ih =>
    have alters := stepAlters earlier last
    rw [changed_append]
    refine ⟨ih.1.append alters.leads, fun mem => ?_⟩
    exact (List.mem_append.mp mem).elim ih.2 alters.tried

/-- Whatever callers and callbacks do: callbacks are told of the changes of the phase, each once and in order, and all
of them by the time one is called or the operations have ended; what they are told leads from closed, each change from
where the one before has led, and never from closed to half-open. One operation makes one change at most, and the one
that reads both the state and the counts one for each; what a step changes is what the phase was and what it is. -/
theorem toldAsChanged (run : Run (start config began) ws s) :
    (∃ late, changed ws = told ws ++ late ∧ late.length ≤ 1 ∧ (s.Free → late = [])) ∧
    (∃ phase, Leads .closed (told ws) phase ∧ (s.Free → phase = s.gate.breaker.phase)) ∧
    (.closed, .halfOpen) ∉ told ws ∧ (∀ n ∈ s.notices, n.made ≤ n.stage.most) ∧
    ∀ new s', Step s new s' → changed new = between s.gate.breaker s'.gate.breaker := by
  have orderly := runOrderly run
  obtain ⟨leads, tried⟩ := runLeads run
  rw [orderly.behind] at leads tried
  refine ⟨⟨s.late, orderly.behind, orderly.single, orderly.punctual⟩, ?_, ?_, orderly.made,
    fun new s' step => (stepAlters run step).exact⟩
  · obtain ⟨phase, first, rest⟩ := leads.split
    refine ⟨phase, first, fun free => ?_⟩
    rwa [orderly.punctual free] at rest
  · exact fun mem => tried (List.mem_append_left _ mem)

/-! ### A break that is over at once -/

def briefConfig : Config := { failureCount := 1, breakFor := 0 }

def briefTripped : Breaker := (((make briefConfig 0).acquire 0).1.settle 0 false 0).1

def briefProbing : Breaker := (briefTripped.refresh 0).1

/-- A call fails, and the callback that is told looks at the breaker. -/
def briefWords : List Word :=
  [.changed (.closed, .opened), .told (.closed, .opened), .changed (.opened, .halfOpen), .told (.opened, .halfOpen)]

theorem briefRun : Run (start briefConfig 0) briefWords ⟨⟨briefProbing, 0, [], 1⟩, []⟩ := by
  have init : Run (start briefConfig 0) [] _ := .nil
  have asked := init.next (.operate rfl (@Gate.Step.letIn _ ((make briefConfig 0).acquire 0).1 [] 0 rfl))
  have letIn := asked.next (@Step.finish _ _ .only [] rfl (by decide))
  have fails := letIn.next (.operate rfl (@Gate.Step.settle _ [] [] ⟨0, 0⟩ briefTripped [(.closed, .opened)]
    (.panic "lost") rfl rfl))
  have told := fails.next (.tell rfl)
  have looks := told.next (@Step.look _ briefProbing [(.opened, .halfOpen)] (by simp [Free]) rfl)
  have nested := looks.next (.tell rfl)
  have ends := (nested.next (.answer rfl)).next (.finish rfl (by decide))
  exact (ends.next (.answer rfl)).next (.finish rfl (by decide))

theorem briefTold : Leads .closed (told briefWords) .halfOpen := by
  obtain ⟨-, ⟨phase, leads, reached⟩, -⟩ := toldAsChanged briefRun
  obtain rfl : phase = .halfOpen := reached nofun
  exact leads

/-- While a call is out, the breaker is asked for its state and its counts at once: it opens and is half-open again. -/
theorem briefMovedTwice : ∃ s, Run (start briefConfig 0) (briefWords ++
      [.changed (.halfOpen, .opened), .told (.halfOpen, .opened), .changed (.opened, .halfOpen)]) s ∧
    ∃ n ∈ s.notices, ¬ n.made ≤ 1 := by
  have asked := briefRun.next (.operate rfl (@Gate.Step.letIn _ (briefProbing.acquire 0).1 [] 2 rfl))
  have letIn := asked.next (@Step.finish _ _ .only [] rfl (by decide))
  have state := letIn.next (@Step.readState _ _ [(.halfOpen, .opened)] (by simp [Free]) rfl)
  have told := (state.next (.tell rfl)).next (.answer rfl)
  have counts := told.next (@Step.readCounts _ 1 [] _ [(.opened, .halfOpen)] rfl rfl)
  exact ⟨_, counts, _, List.mem_cons_self, by decide⟩

end Herald
end Switchyard.Breaker
