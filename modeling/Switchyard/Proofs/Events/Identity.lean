import Switchyard.Proofs.Events.Answers
import Switchyard.Proofs.Events.Stage
/-!
How the messaging side knows an event again. The envelope is made anew at every attempt, and yet it says of an event
what was written on it when it was added, and of the time only when the drain that makes the attempt began.
-/
namespace Switchyard.Events

variable {β α : Type}

/-- A message says of an event what is written on it. -/
structure Bears (e : Event β) (m : Message) : Prop where
  id : e.metadata.id = some m.id
  topic : e.metadata.topic = m.topic
  createdAt : e.metadata.createdAt = some m.createdAt

theorem Event.dated {e : Event β} {m : Message} {now : Stamp} (made : e.message now = .ok m) :
    m.publishedAt = e.metadata.publishedAt := by
  unfold message at made
  split at made <;> cases made
  rfl

theorem Event.bears {e : Event β} {m : Message} {now : Stamp} {id : Ident} {createdAt : Stamp}
    (known : e.metadata.id = some id) (created : e.metadata.createdAt = some createdAt)
    (made : e.message now = .ok m) : Bears e m := by
  unfold message Event.id at made
  rw [known, created] at made
  split at made <;> cases made
  exact ⟨known, rfl, created⟩

theorem Bears.of_core {e e' : Event β} {m : Message} (same : e'.core = e.core) (bears : Bears e m) : Bears e' m := by
  have id : e'.core.metadata.id = e.core.metadata.id := by rw [same]
  have topic : e'.core.metadata.topic = e.core.metadata.topic := by rw [same]
  have createdAt : e'.core.metadata.createdAt = e.core.metadata.createdAt := by rw [same]
  exact ⟨id.trans bears.id, topic.trans bears.topic, createdAt.trans bears.createdAt⟩

namespace Traffic

/-! ### A drain and its start -/

def Call.Early : Call β → Prop
  | waiting _ | admitted | leaving => True
  | _ => False

/-- The call is that of a drain that began at `started`. The event in hand says so, and the message on its way was made
of that event. -/
def Call.Began (started : Stamp) : Call β → Prop
  | waiting _ | admitted => False
  | draining d => d.started = started
  | notifying d e | handling d e => d.started = started ∧ e.metadata.publishedAt = some started
  | sending d e m | transmitting d e m =>
    d.started = started ∧ e.metadata.publishedAt = some started ∧ ∃ now, e.message now = .ok m
  | leaving => True

variable {b b' : Bus (Nat × β)} {c c' : Call β} {ms : List (Mark β)} {d : Bus.Drain} {e : Posted β}
  {now started : Stamp} {lines : List Log.Line}

theorem outwardBegan (start : d.started = started) (dated : e.metadata.publishedAt = some started) :
    (Call.ofNext d (b.outward d e now lines).next).Began started := by
  unfold Bus.outward
  split
  · split
    · split
      · rename_i m made
        exact ⟨start, dated, now, made⟩
      · trivial
    · exact start
  · exact start

theorem notifiedBegan (start : d.started = started) (dated : e.metadata.publishedAt = some started)
    (r : Except Error Unit) : (Call.ofNext d (b.notified d e r now).next).Began started := by
  have delivered : e.delivered.metadata.publishedAt = some started := dated
  unfold Bus.notified
  split
  · exact outwardBegan start delivered
  · split
    · exact outwardBegan start delivered
    · trivial

theorem sentBegan (start : d.started = started) (r : Except Error Unit) :
    (Call.ofNext d (b.sent d e r).next).Began started := by
  cases r with
  | ok => exact start
  | error => trivial

theorem advanceBegan (start : d.started = started) (check : Except Error Unit) :
    (Call.ofNext d (b.advance d check now).next).Began started := by
  have taken (e : Posted β) : (e.takenUp d.started).metadata.publishedAt = some started := congrArg some start
  unfold Bus.advance
  split
  · trivial
  · split
    · trivial
    · dsimp only
      split
      · exact outwardBegan start (taken _)
      · exact ⟨start, taken _⟩

theorem movesBegan (moves : Moves b c ms b' c') (began : c.Began started) : c'.Began started := by
  cases moves with
  | turnedAway | begins => exact began.elim
  | advances d check now stands =>
    subst stands
    exact advanceBegan began check
  | refused d e err now stands | handled d e o now stands =>
    subst stands
    exact notifiedBegan began.1 began.2 _
  | invokes | offers => exact began
  | withheld d e m err stands | replied d e m o stands | interrupted d e m err stands =>
    subst stands
    exact sentBegan began.1 _
  | restores => trivial

theorem departing_unoffered (e : Option (Posted β)) (next : Bus.Next (Nat × β)) (k : Nat) (m : Message) :
    .offered k m ∉ departing e next := by
  cases next <;> cases e <;> simp [departing]

theorem movesOffer {k : Nat} {m : Message} (moves : Moves b c ms b' c') (offered : .offered k m ∈ ms) :
    ∃ d e, c = .sending d e m ∧ e.number = k := by
  cases moves with
  | turnedAway | begins | invokes | restores => simp at offered
  | advances | withheld | interrupted => exact absurd offered (departing_unoffered _ _ k m)
  | refused | handled | replied => simp [departing_unoffered] at offered
  | offers d e m =>
    obtain ⟨rfl, rfl⟩ : k = e.number ∧ _ = m := by simpa using offered
    exact ⟨d, e, rfl, rfl⟩

theorem earlyMoves (moves : Moves b c ms b' c') (early : c.Early) (goesOn : c' ≠ .leaving) :
    c = .admitted ∧ ms = [] ∧ b' = b ∧ b.queue ≠ [] ∧ ∃ ctx started, c' = .draining ⟨ctx, started, 0⟩ := by
  cases moves with
  | turnedAway | restores => exact absurd rfl goesOn
  | begins ctx started filled => exact ⟨rfl, rfl, rfl, filled, ctx, started, rfl⟩
  | _ => exact early.elim

/-- An event is added with the identity that it had already, or else with a fresh one, and likewise with its time. -/
theorem runStamped {init s : Traffic β} {ms : List (Mark β)} (run : Run init ms s) {e : Posted β}
    (added : .added e ∈ ms) : ∃ (given : Event β) (id : Ident) (now : Stamp), e = (given.stamp id now).numbered e.number := by
  induction run with
  | nil => cases added
  | next earlier step ih =>
    rcases List.mem_append.mp added with added | added
    · exact ih added
    · cases step with
      | add given id now stamped =>
        subst stamped
        cases List.mem_singleton.mp added
        exact ⟨given, id, now, rfl⟩
      | move stands moves =>
        have mem : e ∈ Traffic.added _ := List.mem_filterMap.mpr ⟨_, added, rfl⟩
        rw [movesAdd moves] at mem
        cases mem
      | _ => cases added

end Traffic

namespace Sending

variable {init s s' t : Sending β α} {ms new xs : List (Mark β α)} {n : Nat} {started : Stamp} {c c' : Caller β α}

/-- The drain of a call begins. -/
inductive Begins (n : Nat) (started : Stamp) (s : Sending β α) : Sending β α → Prop where
  | begins {before after role} (ctx : Context) (stands : s.callers = before ++ ⟨n, role, .admitted⟩ :: after)
      (filled : s.bus.queue ≠ []) :
      Begins n started s { s with callers := before ++ ⟨n, role, .draining ⟨ctx, started, 0⟩⟩ :: after }

/-- On the way the drain of a call began. -/
def Opened (init : Sending β α) (n : Nat) (started : Stamp) (ms : List (Mark β α)) (s : Sending β α) : Prop :=
  ∃ before s₁ s₂ after, Run init before s₁ ∧ Begins n started s₁ s₂ ∧ Run s₂ after s ∧ ms = before ++ after

def At (n : Nat) (started : Stamp) (s : Sending β α) : Prop := ∃ c ∈ s.callers, c.number = n ∧ c.call.Began started

theorem Begins.step (begins : Begins n started s s') : Step s [] s' := by
  cases begins with
  | begins ctx stands filled => exact .move stands (.begins ctx started filled) nofun

theorem Opened.next (opened : Opened init n started ms s) (step : Step s new s') :
    Opened init n started (ms ++ new) s' := by
  obtain ⟨before, s₁, s₂, after, earlier, begins, later, rfl⟩ := opened
  exact ⟨before, s₁, s₂, after ++ new, earlier, begins, later.next step, List.append_assoc ..⟩

theorem stepAt (named : Named s) (began : At n started s) (step : Step s new s') : At n started s' ∨ Over s' n := by
  obtain ⟨c, mem, rfl, began⟩ := began
  rcases stepCall named step mem with done | ⟨c', mem', number, same | ⟨k, waits, -⟩ | ⟨moved, moves⟩⟩
  · exact .inr done
  · exact .inl ⟨c', mem', number, same ▸ began⟩
  · rw [waits] at began
    exact began.elim
  · exact .inl ⟨c', mem', number, Traffic.movesBegan moves began⟩

/-- What a drain offers to the messaging side is dated from its start. -/
theorem offeredAt (named : Named s) (began : At n started s) (step : Step s new s') {k : Nat} {m : Message}
    (offered : .did n (.offered k m) ∈ new) : m.publishedAt = some started := by
  obtain ⟨role, _, moved, _, _, stands, moves, all⟩ := did_moves step offered
  obtain ⟨d, e, rfl, -⟩ := Traffic.movesOffer moves ((all n _).mp offered).2
  obtain ⟨c, mem, number, began⟩ := began
  cases named.alone mem stands number
  obtain ⟨-, dated, now, made⟩ := began
  exact (Event.dated made).trans dated

theorem runAt (named : Named s) (began : At n started s) (run : Run s xs t) :
    (At n started t ∨ Over t n) ∧ ∀ k m, .did n (.offered k m) ∈ xs → m.publishedAt = some started := by
  induction run with
  | nil => exact ⟨.inl began, nofun⟩
  | next earlier step ih =>
    obtain ⟨stands, dated⟩ := ih
    have named := runNamed earlier named
    refine ⟨stands.elim (stepAt named · step) (.inr <| stepOver step ·), fun k m offered => ?_⟩
    rcases List.mem_append.mp offered with offered | offered
    · exact dated k m offered
    · rcases stands with began | done
      · exact offeredAt named began step offered
      · exact absurd offered (done.silent step)

theorem Begins.at (begins : Begins n started s s') : At n started s' := by
  cases begins with
  | begins => exact ⟨_, List.mem_append_right _ List.mem_cons_self, rfl, rfl⟩

theorem Opened.at (named : Named init) (opened : Opened init n started ms s) : At n started s ∨ Over s n := by
  obtain ⟨before, s₁, s₂, after, earlier, begins, later, -⟩ := opened
  exact (runAt (stepNamed begins.step (runNamed earlier named)) begins.at later).1

/-- A call that neither waits for its drain to begin nor is done with it is one whose drain began on the way. -/
def Traced (init : Sending β α) (ms : List (Mark β α)) (s : Sending β α) (c : Caller β α) : Prop :=
  c.call.Early ∨ ∃ started, Opened init c.number started ms s ∧ c.call.Began started

theorem stepTraced (run : Run init ms s) (step : Step s new s') (traced : ∀ c ∈ s.callers, Traced init ms s c) :
    ∀ c ∈ s'.callers, Traced init (ms ++ new) s' c := by
  have old (c : Caller β α) (mem : c ∈ s.callers) : Traced init (ms ++ new) s' c := by
    rcases traced c mem with early | ⟨started, opened, began⟩
    · exact .inl early
    · exact .inr ⟨started, opened.next step, began⟩
  have others {before after x} (stands : s.callers = before ++ x :: after) :
      ∀ c ∈ before ++ after, Traced init (ms ++ new) s' c :=
    fun c mem => old c (stands ▸ mem_beside x mem)
  cases step with
  | add | enter | quit | reach | skip => exact old
  | take | ask | line => exact List.forall_mem_append.mpr ⟨old, List.forall_mem_singleton.mpr (.inl trivial)⟩
  | granted stands | close stands | restore stands =>
    obtain ⟨first, last⟩ := List.forall_mem_append.mp (others stands)
    exact List.forall_mem_append.mpr ⟨first, List.forall_mem_cons.mpr ⟨.inl trivial, last⟩⟩
  | leave stands | letGo stands => exact others stands
  | @move before after n role call moved bus call' stands moves goesOn =>
    obtain ⟨first, last⟩ := List.forall_mem_append.mp (others stands)
    refine List.forall_mem_append.mpr ⟨first, List.forall_mem_cons.mpr ⟨.inr ?_, last⟩⟩
    rcases traced ⟨n, role, call⟩ (by simp [stands]) with early | ⟨started, opened, began⟩
    · obtain ⟨rfl, rfl, rfl, filled, ctx, started, rfl⟩ := Traffic.earlyMoves moves early goesOn
      exact ⟨started, ⟨ms, s, _, [], run, .begins ctx stands filled, .nil, rfl⟩, rfl⟩
    · exact ⟨started, opened.next (.move stands moves goesOn), Traffic.movesBegan moves began⟩

theorem runTraced (run : Run init ms s) (early : ∀ c ∈ init.callers, c.call.Early) :
    ∀ c ∈ s.callers, Traced init ms s c := by
  induction run with
  | nil => exact fun c mem => .inl (early c mem)
  | next earlier step ih => exact stepTraced earlier step ih

theorem runOpened (run : Run init ms s) (named : Named init) (early : ∀ c ∈ init.callers, c.call.Early) {k : Nat}
    {m : Message} (offered : .did n (.offered k m) ∈ ms) :
    ∃ started, Opened init n started ms s ∧ m.publishedAt = some started := by
  induction run with
  | nil => cases offered
  | next earlier step ih =>
    rcases List.mem_append.mp offered with offered | offered
    · obtain ⟨started, opened, dated⟩ := ih offered
      exact ⟨started, opened.next step, dated⟩
    · obtain ⟨role, _, _, _, _, stands, moves, all⟩ := did_moves step offered
      obtain ⟨d, e, rfl, -⟩ := Traffic.movesOffer moves ((all n _).mp offered).2
      obtain ⟨started, opened, began⟩ := (runTraced earlier early _ stands).resolve_left id
      exact ⟨started, opened.next step, offeredAt (runNamed earlier named) ⟨_, stands, rfl, began⟩ step offered⟩

section Started

variable {ignoreMissing messaging : Bool} {logger : Log.Logger}

theorem startEarly : ∀ c ∈ (start (β := β) (α := α) ignoreMissing messaging logger).callers, c.call.Early := by
  simp [start]

/-- A drain that has not begun has offered nothing. -/
theorem unbegun (run : Run (start ignoreMissing messaging logger) ms s) (begins : Begins n started s s') {k : Nat}
    {m : Message} : .did n (.offered k m) ∉ ms := by
  intro offered
  have named := runNamed run (startNamed _ _ _)
  obtain ⟨started', opened, -⟩ := runOpened run (startNamed _ _ _) startEarly offered
  cases begins with
  | @begins before after role ctx stands =>
    have mem : (⟨n, role, .admitted⟩ : Caller β α) ∈ s.callers := by simp [stands]
    rcases opened.at (startNamed _ _ _) with ⟨c, mem', number, began⟩ | done
    · cases named.alone mem mem' number.symm
      exact began
    · exact done.2 (List.mem_append_left _ (List.mem_map_of_mem mem))

theorem runBears (run : Run (start ignoreMissing messaging logger) ms s) {k : Nat} {m : Message}
    (offered : .did n (.offered k m) ∈ ms) : ∃ e, .added e ∈ seen ms ∧ e.number = k ∧ Bears e m := by
  induction run with
  | nil => cases offered
  | next earlier step ih =>
    rw [seen_append]
    rcases List.mem_append.mp offered with offered | offered
    · obtain ⟨e, added, rest⟩ := ih offered
      exact ⟨e, List.mem_append_left _ added, rest⟩
    · obtain ⟨role, _, _, _, _, stands, moves, all⟩ := did_moves step offered
      obtain ⟨d, held, rfl, rfl⟩ := Traffic.movesOffer moves ((all n _).mp offered).2
      obtain ⟨started, -, -, -, now, made⟩ := (runTraced earlier startEarly _ stands).resolve_left id
      obtain ⟨e, added, core⟩ := heldAdded earlier stands rfl
      obtain ⟨given, id, time, stamped⟩ := Traffic.runStamped (runTraffic earlier) added
      have known : e.core.metadata.id = some (given.metadata.id.getD id) := by rw [stamped]; rfl
      have created : e.core.metadata.createdAt = some (given.metadata.createdAt.getD time) := by rw [stamped]; rfl
      have number : e.core.number = held.core.number := by rw [core]
      rw [core] at known created
      exact ⟨e, List.mem_append_left _ added, number, .of_core core (Event.bears known created made)⟩

/-- Whatever drains run into: every attempt to hand an event to the messaging side says of it the identity, the topic and
the time of creation that it had when it was added, the identity being its own if it had one; and it is dated from the
start of the drain that makes it, like all others of that drain. What is written as published in process stays so. -/
theorem identityStays (run : Run (start ignoreMissing messaging logger) ms s) :
    (∀ e, .added e ∈ seen ms →
      (∃ (given : Event β) (id : Ident) (now : Stamp), e = (given.stamp id now).numbered e.number ∧
        e.metadata.id = some (given.metadata.id.getD id)) ∧
      ∀ n m, .did n (.offered e.number m) ∈ ms → Bears e m) ∧
    (∀ n k m, .did n (.offered k m) ∈ ms → (∃ e, .added e ∈ seen ms ∧ e.number = k) ∧
      ∃ started, Opened (start ignoreMissing messaging logger) n started ms s ∧ m.publishedAt = some started) ∧
    (∀ n started s' after t, Begins n started s s' → Run s' after t → ∀ k m, .did n (.offered k m) ∉ ms ∧
      (.did n (.offered k m) ∈ after → m.publishedAt = some started)) ∧
    ∀ e ∈ s.traffic.pending, e.metadata.published = true → ∀ xs t, Run s xs t → ∀ e' ∈ t.traffic.pending,
      e'.number = e.number → e'.metadata.published = true := by
  have named := runNamed run (startNamed _ _ _)
  refine ⟨fun e added => ⟨?_, fun n m offered => ?_⟩, fun n k m offered => ⟨?_, ?_⟩, ?_, ?_⟩
  · obtain ⟨given, id, now, stamped⟩ := Traffic.runStamped (runTraffic run) added
    exact ⟨given, id, now, stamped, by rw [stamped]; rfl⟩
  · obtain ⟨e', added', number, bears⟩ := runBears run offered
    rwa [Traffic.added_unique (runTraffic run) added added' number.symm]
  · obtain ⟨e, added, number, -⟩ := runBears run offered
    exact ⟨e, added, number⟩
  · exact runOpened run (startNamed _ _ _) startEarly offered
  · intro n started s' after t begins later k m
    exact ⟨unbegun run begins, (runAt (stepNamed begins.step named) begins.at later).2 k m⟩
  · intro e pending published xs t later e' pending' number
    have faithful := (Traffic.runFaithful (runTraffic run)).1
    have faithful' := (Traffic.runFaithful (runTraffic (run.trans later))).1
    rw [faithful'.flags e' pending', number, seen_append]
    exact ((faithful.flags e pending).mp published).mono

end Started

/-! ### The greeting is dropped at the messaging side, and goes out with the next drain -/

open Traffic (greeting greetingDrain greetingMessage)

def againDrain : Bus.Drain := { greetingDrain with started := .reading 5 }

def againMessage : Message := { greetingMessage with publishedAt := some (.reading 5) }

/-- The greeting as it comes back, published in process. -/
def returned : Posted Unit := greeted.delivered

def outwardState (n : Nat) (queue : List (Posted Unit)) (call : Traffic.Call Unit) : Sending Unit Unit :=
  ⟨⟨queue, ⟨true, []⟩, false, true, .plain⟩, [⟨n, .plain, call⟩], [], 1, n + 1⟩

theorem greetingDropped : Run (start (α := Unit) false true .plain)
    [.added greeting, .did 0 (.invoked 0), .did 0 (.handled 0 (.value ())), .did 0 (.answered 0 (.ok ())),
      .did 0 (.offered 0 greetingMessage)]
    ⟨(Bus.make false true .plain).restore returned, [], [], 1, 1⟩ := by
  have posted : Run (start (α := Unit) false true .plain) [.added greeting]
      ⟨(Bus.make false true .plain).add greeting, [], [], 1, 0⟩ := .next .nil (.add _ _ _ rfl)
  have asked : Run (start false true .plain) [.added greeting] (outwardState 0 [greeting] .admitted) :=
    .next posted (.ask rfl)
  have begun : Run (start false true .plain) [.added greeting]
      (outwardState 0 [greeting] (.draining greetingDrain)) :=
    .next asked (.only rfl (.begins _ _ (List.cons_ne_nil _ _)) nofun)
  have advanced : Run (start false true .plain) [.added greeting]
      (outwardState 0 [] (.notifying greetingDrain greeted)) :=
    .next begun (.only rfl (.advances greetingDrain (.ok ()) (.reading 2) rfl) nofun)
  have invoked : Run (start false true .plain) [.added greeting, .did 0 (.invoked 0)]
      (outwardState 0 [] (.handling greetingDrain greeted)) :=
    .next advanced (.only rfl (.invokes greetingDrain greeted) nofun)
  have handled : Run (start false true .plain)
      [.added greeting, .did 0 (.invoked 0), .did 0 (.handled 0 (.value ())), .did 0 (.answered 0 (.ok ()))]
      (outwardState 0 [] (.sending greetingDrain returned greetingMessage)) :=
    .next invoked (.only rfl (.handled greetingDrain greeted (.value ()) (.reading 3) rfl) nofun)
  have offered : Run (start false true .plain)
      [.added greeting, .did 0 (.invoked 0), .did 0 (.handled 0 (.value ())), .did 0 (.answered 0 (.ok ())),
        .did 0 (.offered 0 greetingMessage)]
      (outwardState 0 [] (.transmitting greetingDrain returned greetingMessage)) :=
    .next handled (.only rfl (.offers greetingDrain returned greetingMessage) nofun)
  have dropped : Step (outwardState 0 [] (.transmitting greetingDrain returned greetingMessage)) []
      (outwardState 0 [returned] .leaving) :=
    @Step.restore _ _ _ [] [] 0 .plain (.transmitting greetingDrain returned greetingMessage) _ rfl rfl
  have unlocked : Step (outwardState 0 [returned] .leaving) []
      ⟨(Bus.make false true .plain).restore returned, [], [], 1, 1⟩ :=
    @Step.letGo _ _ _ [] [] 0 .plain .leaving rfl rfl rfl
  exact (offered.next dropped).next unlocked

def offeredTwice : List (Mark Unit Unit) :=
  [.added greeting, .did 0 (.invoked 0), .did 0 (.handled 0 (.value ())), .did 0 (.answered 0 (.ok ())),
    .did 0 (.offered 0 greetingMessage), .did 1 (.offered 0 againMessage)]

theorem greetingOfferedTwice : Run (start false true .plain) offeredTwice
    (outwardState 1 [] (.transmitting againDrain (returned.takenUp (.reading 5)) againMessage)) := by
  have asked := greetingDropped.next (.ask rfl)
  have begun := asked.next
    (.only (n := 1) rfl (.begins againDrain.ctx againDrain.started (List.cons_ne_nil _ _)) nofun)
  have advanced := begun.next (.only rfl (.advances againDrain (.ok ()) (.reading 6) rfl) nofun)
  exact advanced.next (.only rfl (.offers againDrain (returned.takenUp (.reading 5)) againMessage) nofun)

theorem greetingKnownAgain : Bears greeting greetingMessage ∧ Bears greeting againMessage ∧
    ∃ started, Opened (start false true .plain) 1 started offeredTwice
      (outwardState 1 [] (.transmitting againDrain (returned.takenUp (.reading 5)) againMessage)) ∧
      againMessage.publishedAt = some started := by
  obtain ⟨bears, dated, -⟩ := identityStays greetingOfferedTwice
  have same := (bears greeting (by simp [offeredTwice])).2
  exact ⟨same 0 _ (by simp [offeredTwice, greeting, Event.number, Event.numbered]),
    same 1 _ (by simp [offeredTwice, greeting, Event.number, Event.numbered]),
    (dated 1 0 _ (by simp [offeredTwice])).2⟩

end Sending
end Switchyard.Events
