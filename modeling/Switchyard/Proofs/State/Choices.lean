import Switchyard.Proofs.State.TakingBack
/-!
The cache among its callers as it answers to the choices of others: of the callers, of the store and of time. What comes
of a choice is computed, and told with the calls of the store; the steps of the system are what comes of the choices.
-/
namespace Switchyard.State.Front

inductive Labor where
  | opens | takes | due | halts | writes | loses | breaks | goesOn | closes | ends
  deriving DecidableEq, Repr

/-- Calls under way are chosen by their place. -/
inductive Choice where
  | enter (op : Op)
  /-- The store does what it is asked. -/
  | land (i : Nat)
  | fail (i : Nat) (e : Error) (shelf : Shelf)
  /-- A call that waits for room is told about it. -/
  | place (i : Nat)
  | answer (i : Nat)
  | drop (i : Nat)
  | pass (now : Instant)
  | sweep
  | stop
  | work (labor : Labor)

inductive Happening where
  | noted (m : Mark)
  /-- The store is called. -/
  | asks (op : Op)

def Happening.mark? : Happening → Option Mark
  | noted m => some m
  | asks _ => none

def marks (hs : List Happening) : List Mark := hs.filterMap Happening.mark?

def enroll (channel : Channel) (n : Nat) (op : Op) : Begun → List Happening × Channel × Stage
  | .served a => ([], channel, .answered .pass (.ok a))
  | .ask p => ([.asks op], channel, .asked p)
  | .queue item p =>
    match channel.reserve n with
    | (channel, .granted) => ([.noted (.accepted n item)], channel.push item, .answered p (.ok .done))
    | (channel, .wait) => ([], channel, .placing item p)
    | (channel, .refused) => ([], channel, .answered p (.error writerStopped))

def goOn (s : Front) (i : Nat) (f : Call → Option (List Happening × Shelf × Channel × Stage)) :
    Option (List Happening × Front) := do
  let c ← s.calls[i]?
  let (hs, shelf, channel, stage) ← f c
  return (hs, { s with shelf, channel, calls := s.calls.set i { c with stage } })

def leave (s : Front) (i : Nat) (f : Call → Option (List Happening × Memory × Channel)) :
    Option (List Happening × Front) := do
  let c ← s.calls[i]?
  let (hs, memory, channel) ← f c
  return (hs, { s with memory, channel, calls := s.calls.eraseIdx i })

def flush (window : List KeyValue) : Happening := .asks (.batchSet (dedupe window))

/-- The writer closes the channel and takes what is left in it. -/
def windUp (s : Front) : List Happening × Worker × Channel × Shelf :=
  let (channel, left) := s.channel.close.1.drain
  if left.isEmpty then ([], .gone, channel, s.shelf) else ([flush left], .flushing left .stop, channel, s.shelf)

def toil (s : Front) : Labor → Option (List Happening × Worker × Channel × Shelf)
  | .opens =>
    match s.worker, s.stopping, s.channel.receive with
    | .idle, false, some (item, channel, _) => some ([], .gathering [item] (s.now + s.config.buffer), channel, s.shelf)
    | _, _, _ => none
  | .takes =>
    match s.worker, s.channel.receive with
    | .gathering window due, some (item, channel, _) => some ([], .gathering (window ++ [item]) due, channel, s.shelf)
    | _, _ => none
  | .due =>
    match s.worker with
    | .gathering window due =>
      if due ≤ s.now then some ([flush window], .flushing window .again, s.channel, s.shelf) else none
    | _ => none
  | .halts =>
    match s.worker, s.stopping with
    | .gathering window _, true => some ([flush window], .flushing window .close, s.channel, s.shelf)
    | _, _ => none
  | .writes =>
    match s.worker with
    | .flushing window after =>
      some ([.noted (.flushed window)], .resting after, s.channel, s.shelf.apply (.batchSet (dedupe window)))
    | _ => none
  | .loses =>
    match s.worker with
    | .flushing window after => some ([.noted (.lost window)], .resting after, s.channel, s.shelf)
    | _ => none
  | .breaks =>
    match s.worker with
    | .flushing window _ => some ([.noted (.lost window)], .gone, s.channel.close.1, s.shelf)
    | _ => none
  | .goesOn =>
    match s.worker with
    | .resting .again => some ([], .idle, s.channel, s.shelf)
    | _ => none
  | .closes =>
    match s.worker, s.stopping with
    | .resting .close, _ | .idle, true => some s.windUp
    | _, _ => none
  | .ends =>
    match s.worker with
    | .resting .stop => some ([], .gone, s.channel, s.shelf)
    | _ => none

def act (s : Front) : Choice → Option (List Happening × Front)
  | .enter op =>
    let (memory, begun) := s.memory.begin s.config op s.now
    let (hs, channel, stage) := enroll s.channel s.total op begun
    some (.noted (.begun s.total op s.now) :: hs,
      { s with memory, channel, calls := s.calls ++ [⟨s.total, op, s.now, stage⟩], total := s.total + 1 })
  | .land i => s.goOn i fun c =>
    match c.stage with
    | .asked p => some ([.noted (.landed c.number c.op s.backlog)], s.shelf.apply c.op, s.channel,
        .answered p (s.shelf.answer c.op))
    | _ => none
  | .fail i e shelf => s.goOn i fun c =>
    match c.stage with
    | .asked p => some ([.noted (.failed c.number)], shelf, s.channel, .answered p (.error e))
    | _ => none
  | .place i => s.goOn i fun c =>
    match c.stage with
    | .placing item p =>
      match s.channel.claim c.number with
      | (channel, .granted) =>
        some ([.noted (.accepted c.number item)], s.shelf, channel.push item, .answered p (.ok .done))
      | (channel, .refused) => some ([], s.shelf, channel, .answered p (.error writerStopped))
      | (_, .wait) => none
    | _ => none
  | .answer i => s.leave i fun c =>
    match c.stage with
    | .answered p r =>
      let (memory, r) := s.memory.finish s.config p r s.now
      some ([.noted (.ended c.number c.op r)], memory, s.channel)
    | _ => none
  | .drop i => s.leave i fun c => some ([.noted (.dropped c.number)], s.memory, c.stage.leave c.number s.channel)
  | .pass now => if s.now ≤ now then some ([], { s with now }) else none
  | .sweep => some ([], { s with memory := (s.memory.purge s.now).1 })
  | .stop => some ([.noted .stopping], { s with stopping := true })
  | .work labor => do
    let (hs, worker, channel, shelf) ← s.toil labor
    return (hs, { s with worker, channel, shelf })

def acts (s : Front) : List Choice → Option (List Happening × Front)
  | [] => some ([], s)
  | choice :: rest => do
    let (hs, s) ← s.act choice
    let (more, s) ← acts s rest
    return (hs ++ more, s)

variable {s s' : Front} {hs : List Happening} {ms : List Mark} {choice : Choice}

theorem marks_append (xs ys : List Happening) : marks (xs ++ ys) = marks xs ++ marks ys := List.filterMap_append

/-! ### Choices and steps -/

theorem splitAt {α : Type} {xs : List α} {i : Nat} {x : α} (found : xs[i]? = some x) :
    ∃ before after, xs = before ++ x :: after ∧ (∀ y, xs.set i y = before ++ y :: after) ∧
      xs.eraseIdx i = before ++ after := by
  obtain ⟨within, rfl⟩ := List.getElem?_eq_some_iff.mp found
  refine ⟨xs.take i, xs.drop (i + 1), ?_, fun y => ?_, ?_⟩
  · simp
  · simp [List.set_eq_take_append_cons_drop, within]
  · exact List.eraseIdx_eq_take_drop_succ xs i

theorem placed {α : Type} (before after : List α) (x : α) :
    (before ++ x :: after)[before.length]? = some x ∧
      (∀ y, (before ++ x :: after).set before.length y = before ++ y :: after) ∧
      (before ++ x :: after).eraseIdx before.length = before ++ after := by
  refine ⟨by simp, fun y => by simp, ?_⟩
  simp [List.eraseIdx_append_of_length_le]

theorem goesOn {i : Nat} {f : Call → Option (List Happening × Shelf × Channel × Stage)}
    (goes : s.goOn i f = some (hs, s')) :
    ∃ before c after shelf channel stage, s.calls = before ++ c :: after ∧ f c = some (hs, shelf, channel, stage) ∧
      s' = { s with shelf, channel, calls := before ++ { c with stage } :: after } := by
  simp only [goOn, Option.bind_eq_bind, Option.bind_eq_some_iff, Option.pure_def, Option.some.injEq] at goes
  obtain ⟨c, found, ⟨_, shelf, channel, stage⟩, done, same⟩ := goes
  cases same
  obtain ⟨before, after, stands, put, -⟩ := splitAt found
  exact ⟨before, c, after, shelf, channel, stage, stands, done, by rw [put]⟩

theorem leaves {i : Nat} {f : Call → Option (List Happening × Memory × Channel)}
    (goes : s.leave i f = some (hs, s')) :
    ∃ before c after memory channel, s.calls = before ++ c :: after ∧ f c = some (hs, memory, channel) ∧
      s' = { s with memory, channel, calls := before ++ after } := by
  simp only [leave, Option.bind_eq_bind, Option.bind_eq_some_iff, Option.pure_def, Option.some.injEq] at goes
  obtain ⟨c, found, ⟨_, memory, channel⟩, done, same⟩ := goes
  cases same
  obtain ⟨before, after, stands, -, out⟩ := splitAt found
  exact ⟨before, c, after, memory, channel, stands, done, by rw [out]⟩

theorem enrolls {channel channel' : Channel} {n : Nat} {op : Op} {begun : Begun} {stage : Stage}
    (enrolled : enroll channel n op begun = (hs, channel', stage)) : Enters channel n begun channel' stage (marks hs) := by
  cases begun with
  | served a =>
    cases enrolled
    exact .served a
  | ask p =>
    cases enrolled
    exact .asks p
  | queue item p =>
    simp only [enroll] at enrolled
    split at enrolled <;> rename_i reserved <;> cases enrolled
    · exact .accepted item p reserved
    · exact .waits item p reserved
    · exact .refused item p reserved

theorem windsUp {worker : Worker} {channel : Channel} {shelf : Shelf}
    (last : s.worker = .resting .close ∨ (s.worker = .idle ∧ s.stopping = true))
    (done : s.windUp = (hs, worker, channel, shelf)) :
    Works s.config s.now s.stopping s.channel s.shelf s.worker (marks hs) worker channel shelf := by
  unfold windUp at done
  generalize taken : s.channel.close.1.drain = drained at done
  obtain ⟨closed, left⟩ := drained
  have closes := @Works.closes s.config s.now s.stopping s.channel s.shelf _ _ _ last taken
  dsimp only at done
  split at done <;> rename_i empty <;> cases done
  · rwa [if_pos empty] at closes
  · rwa [if_neg empty] at closes

theorem toils {labor : Labor} {worker : Worker} {channel : Channel} {shelf : Shelf}
    (done : s.toil labor = some (hs, worker, channel, shelf)) :
    Works s.config s.now s.stopping s.channel s.shelf s.worker (marks hs) worker channel shelf := by
  cases labor <;> simp only [toil] at done
  case opens =>
    split at done <;> cases done
    rename_i idle goesOn found
    exact idle ▸ .opens goesOn found
  case takes =>
    split at done <;> cases done
    rename_i gathering found
    exact gathering ▸ .takes _ _ found
  case due =>
    split at done
    · split at done <;> cases done
      rename_i gathering passed
      exact gathering ▸ .due _ _ passed
    · cases done
  case halts =>
    split at done <;> cases done
    rename_i gathering stops
    exact gathering ▸ .halts _ _ stops
  case writes | loses | breaks | goesOn | ends =>
    split at done <;> cases done
    rename_i stands
    rw [stands]
    constructor
  case closes =>
    split at done
    · exact windsUp (.inl ‹_›) (Option.some.inj done)
    · exact windsUp (.inr ⟨‹_›, ‹_›⟩) (Option.some.inj done)
    · cases done

/-- What comes of a choice is a step. -/
theorem actSteps (acted : s.act choice = some (hs, s')) : Erring s (marks hs) s' := by
  cases choice with
  | enter op =>
    simp only [act] at acted
    generalize begins : s.memory.begin s.config op s.now = started at acted
    obtain ⟨memory, begun⟩ := started
    generalize enrolled : enroll s.channel s.total op begun = place at acted
    obtain ⟨said, channel, stage⟩ := place
    cases acted
    exact .step (.enter op begins (enrolls enrolled))
  | land i =>
    obtain ⟨before, c, after, shelf, channel, stage, stands, goes, rfl⟩ := goesOn acted
    split at goes <;> cases goes
    rename_i p asked
    exact .step (.move stands (asked ▸ .lands p))
  | fail i e shelf =>
    obtain ⟨before, c, after, shelf, channel, stage, stands, goes, rfl⟩ := goesOn acted
    split at goes <;> cases goes
    exact .fails e shelf stands ‹_›
  | place i =>
    obtain ⟨before, c, after, shelf, channel, stage, stands, goes, rfl⟩ := goesOn acted
    split at goes
    · rename_i item p placing
      split at goes <;> rename_i claimed <;> cases goes
      · exact .step (.move stands (placing ▸ .accepted item p claimed))
      · exact .step (.move stands (placing ▸ .refused item p claimed))
    · cases goes
  | answer i =>
    obtain ⟨before, c, after, memory, channel, stands, goes, rfl⟩ := leaves acted
    split at goes
    · cases goes
      exact .step (.answer stands ‹_› rfl)
    · cases goes
  | drop i =>
    obtain ⟨before, c, after, memory, channel, stands, goes, rfl⟩ := leaves acted
    cases goes
    exact .step (.drop stands)
  | pass now =>
    simp only [act] at acted
    split at acted <;> cases acted
    exact .step (.pass now ‹_›)
  | sweep =>
    cases acted
    exact .step .sweep
  | stop =>
    cases acted
    exact .step .stop
  | work labor =>
    simp only [act, Option.bind_eq_bind, Option.bind_eq_some_iff, Option.pure_def, Option.some.injEq] at acted
    obtain ⟨⟨_, worker, channel, shelf⟩, done, same⟩ := acted
    cases same
    exact .step (.work (toils done))

theorem goOnAt {before after : List Call} {c : Call} {shelf : Shelf} {channel : Channel} {stage : Stage}
    {f : Call → Option (List Happening × Shelf × Channel × Stage)} (stands : s.calls = before ++ c :: after)
    (done : f c = some (hs, shelf, channel, stage)) :
    s.goOn before.length f = some (hs, { s with shelf, channel, calls := before ++ { c with stage } :: after }) := by
  obtain ⟨found, put, -⟩ := placed before after c
  rw [← stands] at found put
  simp [goOn, found, done, put]

theorem leaveAt {before after : List Call} {c : Call} {memory : Memory} {channel : Channel}
    {f : Call → Option (List Happening × Memory × Channel)} (stands : s.calls = before ++ c :: after)
    (done : f c = some (hs, memory, channel)) :
    s.leave before.length f = some (hs, { s with memory, channel, calls := before ++ after }) := by
  obtain ⟨found, -, out⟩ := placed before after c
  rw [← stands] at found out
  simp [leave, found, done, out]

theorem enrolled {channel channel' : Channel} {n : Nat} {begun : Begun} {stage : Stage} (op : Op)
    (enters : Enters channel n begun channel' stage ms) :
    ∃ hs, enroll channel n op begun = (hs, channel', stage) ∧ marks hs = ms := by
  cases enters with
  | served | asks => exact ⟨_, rfl, rfl⟩
  | accepted item p reserved | waits item p reserved | refused item p reserved =>
    simp only [enroll, reserved]
    exact ⟨_, rfl, rfl⟩

theorem toiled {worker : Worker} {channel : Channel} {shelf : Shelf}
    (works : Works s.config s.now s.stopping s.channel s.shelf s.worker ms worker channel shelf) :
    ∃ labor hs, s.toil labor = some (hs, worker, channel, shelf) ∧ marks hs = ms := by
  generalize stands : s.worker = was at works
  cases works with
  | opens goesOn found => exact ⟨.opens, [], by simp [toil, stands, goesOn, found], rfl⟩
  | takes window due found => exact ⟨.takes, [], by simp [toil, stands, found], rfl⟩
  | due window due passed => exact ⟨.due, [flush window], by simp [toil, stands, passed], rfl⟩
  | halts window due stops => exact ⟨.halts, [flush window], by simp [toil, stands, stops], rfl⟩
  | writes window after => exact ⟨.writes, [.noted (.flushed window)], by simp only [toil, stands], rfl⟩
  | loses window after => exact ⟨.loses, [.noted (.lost window)], by simp only [toil, stands], rfl⟩
  | breaks window after => exact ⟨.breaks, [.noted (.lost window)], by simp only [toil, stands], rfl⟩
  | goesOn => exact ⟨.goesOn, [], by simp only [toil, stands], rfl⟩
  | @closes _ channel left last taken =>
    have wound : s.toil .closes = some s.windUp := by
      rcases last with last | ⟨idle, stops⟩
      · simp only [toil, stands, last]
      · simp only [toil, stands, idle, stops]
    cases empty : left.isEmpty with
    | true => exact ⟨.closes, [], by simp [wound, windUp, taken, empty], rfl⟩
    | false => exact ⟨.closes, [flush left], by simp [wound, windUp, taken, empty], rfl⟩
  | ends => exact ⟨.ends, [], by simp only [toil, stands], rfl⟩

/-- Every step comes of a choice. -/
theorem stepActs (step : Erring s ms s') : ∃ choice hs, s.act choice = some (hs, s') ∧ marks hs = ms := by
  cases step with
  | @fails before after c p e shelf stands asked =>
    exact ⟨.fail before.length e shelf, [.noted (.failed c.number)], goOnAt stands (by simp only [asked]), rfl⟩
  | step step =>
    cases step with
    | enter op begins enters =>
      obtain ⟨hs, enrolled, rfl⟩ := enrolled op enters
      exact ⟨.enter op, .noted (.begun s.total op s.now) :: hs, by simp only [act, begins, enrolled], rfl⟩
    | @move before after c _ shelf channel stage stands moves =>
      generalize waits : c.stage = was at moves
      cases moves with
      | lands p => exact ⟨.land before.length, _, goOnAt stands (by rw [waits]), rfl⟩
      | fails p e => exact ⟨.fail before.length e s.shelf, _, goOnAt stands (by rw [waits]), rfl⟩
      | accepted item p given | refused item p given =>
        exact ⟨.place before.length, _, goOnAt stands (by simp only [waits, given]; rfl), rfl⟩
    | @answer before after c p r memory r' stands answered finished =>
      exact ⟨.answer before.length, _, leaveAt stands (by simp only [answered, finished]; rfl), rfl⟩
    | @drop before after c stands => exact ⟨.drop before.length, _, leaveAt stands rfl, rfl⟩
    | pass now later => exact ⟨.pass now, [], if_pos later, rfl⟩
    | sweep => exact ⟨.sweep, [], rfl, rfl⟩
    | stop => exact ⟨.stop, _, rfl, rfl⟩
    | work works =>
      obtain ⟨labor, hs, done, rfl⟩ := toiled works
      exact ⟨.work labor, hs, by simp [act, done], rfl⟩

/-- What comes of one choice after another is a run, and every run comes of some choices. -/
theorem actsRun {init : Front} {choices : List Choice} (acted : init.acts choices = some (hs, s)) :
    Runs Erring init (marks hs) s := by
  induction choices generalizing init hs with
  | nil =>
    cases acted
    exact .nil
  | cons choice rest ih =>
    simp only [acts, Option.bind_eq_bind, Option.bind_eq_some_iff, Option.pure_def, Option.some.injEq] at acted
    obtain ⟨⟨said, s₁⟩, first, ⟨more, s₂⟩, others, same⟩ := acted
    cases same
    rw [marks_append]
    exact .trans (.next .nil (actSteps first)) (ih others)

theorem actsConcat {init : Front} {xs ys : List Choice} {more : List Happening} (first : init.acts xs = some (hs, s))
    (rest : s.acts ys = some (more, s')) : init.acts (xs ++ ys) = some (hs ++ more, s') := by
  induction xs generalizing init hs with
  | nil =>
    cases first
    exact rest
  | cons choice xs ih =>
    simp only [acts, Option.bind_eq_bind, Option.bind_eq_some_iff, Option.pure_def, Option.some.injEq] at first
    obtain ⟨⟨said, s₁⟩, once, ⟨others, s₂⟩, later, same⟩ := first
    cases same
    simp [acts, once, ih later]

theorem runActs {init : Front} (run : Runs Erring init ms s) :
    ∃ choices hs, init.acts choices = some (hs, s) ∧ marks hs = ms := by
  induction run with
  | nil => exact ⟨[], [], rfl, rfl⟩
  | @next ms s new s' earlier last ih =>
    obtain ⟨choices, hs, acted, rfl⟩ := ih
    obtain ⟨choice, more, next, rfl⟩ := stepActs last
    refine ⟨choices ++ [choice], hs ++ more, ?_, marks_append hs more⟩
    exact actsConcat acted (by simp [acts, next])

end Switchyard.State.Front
