import Switchyard.Proofs.Breaker.Trials
import Switchyard.Proofs.State.Desk
/-!
What the breaker of a service closes on. Each call that counts for it was answered by the store, or by the cache in place
of the store, or was cut short by its context.
-/
namespace Switchyard.State.Desk

open Breaker.Gate (moves)

variable {config : ServiceConfig} {began : Instant} {ms : List Mark} {s s' : Desk} {n : Nat}

def Healthy : Outcome Answer → Prop
  | .value _ => True
  | .failure e => e.kind = .notFound ∨ e.kind = .badRequest
  | .panic _ => False

def Answered (period : List Mark) (n : Nat) : Prop := ∃ o, .replied n o ∈ period ∧ Healthy o

/-- The cache has answered the call in place of the store. -/
def Spared (config : ServiceConfig) (period : List Mark) (n : Nat) : Prop :=
  ∃ cache, config.cache = some cache ∧
    ((∃ a, .served n a ∈ period) ∨ (cache.batch = true ∧ ∃ item, .cache (.accepted n item) ∈ period))

def CutShort (period : List Mark) (n : Nat) : Prop :=
  ∃ tag e time, .gate (.ended n tag (.failure e) time) ∈ period ∧ e.kind = .cancelled

def Ran (period : List Mark) (n : Nat) : Prop :=
  ∃ tag o before after, .gate (.asked n (.ok tag) before) ∈ period ∧ .gate (.ended n tag o after) ∈ period

/-- Since the breaker began to probe, as many calls as it has places were let in and have ended, each as asked for. -/
def Evidence (limit : Nat) (good : List Mark → Nat → Prop) (past : List Mark) : Prop :=
  ∃ earlier time period, ∃ ns : List Nat, past = earlier ++ .gate (.moved (.opened, .halfOpen) time) :: period ∧
    (∀ change t, .gate (.moved change t) ∉ period) ∧ ns.Nodup ∧ limit ≤ ns.length ∧
    ∀ n ∈ ns, Ran period n ∧ good period n

/-! ### Where an answer comes from -/

inductive Source (config : ServiceConfig) (ms : List Mark) (n : Nat) : Except Error Answer → Prop where
  | store (r : Except Error Answer) (replied : .replied n (said r) ∈ ms) : Source config ms n r
  | memory {cache a} (cached : config.cache = some cache) (served : .served n a ∈ ms) : Source config ms n (.ok a)
  | channel {cache} (item : KeyValue) (cached : config.cache = some cache) (batch : cache.batch = true)
      (accepted : .cache (.accepted n item) ∈ ms) : Source config ms n (.ok .done)
  | refused : Source config ms n (.error writerStopped)

def Backed (config : ServiceConfig) (past : List Mark) (n : Nat) (o : Outcome Unit) : Prop :=
  Answered past n ∨ Spared config past n ∨ ∃ e, o = .failure e ∧ e.kind = .cancelled

theorem Source.later {r : Except Error Answer} (source : Source config ms n r) (new : List Mark) :
    Source config (ms ++ new) n r := by
  cases source with
  | store r replied => exact .store r (List.mem_append_left _ replied)
  | memory cached served => exact .memory cached (List.mem_append_left _ served)
  | channel item cached batch accepted => exact .channel item cached batch (List.mem_append_left _ accepted)
  | refused => exact .refused

theorem healthyKinds {e : Error} (well : Breaker.countsAsFailure e = false) :
    e.kind = .notFound ∨ e.kind = .badRequest ∨ e.kind = .cancelled := by
  unfold Breaker.countsAsFailure at well
  split at well
  · exact .inl ‹_›
  · exact .inr (.inr ‹_›)
  · exact .inr (.inl ‹_›)
  · cases well

theorem Source.backs {r : Except Error Answer} (default : config.breaker.isFailure = Breaker.countsAsFailure)
    (source : Source config ms n r) (well : config.breaker.succeeds (verdict r) = true) :
    Backed config ms n (verdict r) := by
  cases source with
  | memory cached served => exact .inr (.inl ⟨_, cached, .inl ⟨_, served⟩⟩)
  | channel item cached batch accepted => exact .inr (.inl ⟨_, cached, .inr ⟨batch, item, accepted⟩⟩)
  | refused => simp [Breaker.Config.succeeds, verdict, default, Breaker.countsAsFailure, writerStopped, Error.kind] at well
  | store r replied =>
    cases r with
    | ok a => exact .inl ⟨_, replied, trivial⟩
    | error e =>
      have fine : Breaker.countsAsFailure e = false := by
        simpa [Breaker.Config.succeeds, verdict, default] using well
      rcases healthyKinds fine with missing | bad | cancelled
      · exact .inl ⟨_, replied, .inl missing⟩
      · exact .inl ⟨_, replied, .inr bad⟩
      · exact .inr (.inr ⟨e, rfl, cancelled⟩)

/-- The cache lets the answer through, but that a missing key is as good as deleted. -/
theorem Source.finishes {m m' : Memory} {cache : CacheConfig} {now : Instant} {p : Pending} {r r' : Except Error Answer}
    (default : config.breaker.isFailure = Breaker.countsAsFailure) (source : Source config ms n r)
    (finished : m.finish cache p r now = (m', r')) (well : config.breaker.succeeds (verdict r') = true) :
    Backed config ms n (verdict r') := by
  cases Memory.finishes finished with
  | remembered | stored | takenBack | passed =>
    have backed := source.backs default well
    exact backed
  | @missing e absent =>
    have kind : e.kind = .notFound := by simpa [Error.isNotFound] using absent
    have fine : config.breaker.succeeds (verdict (.error e)) = true := by
      simp [Breaker.Config.succeeds, verdict, default, Breaker.countsAsFailure, kind]
    rcases source.backs default fine with answered | spared | ⟨e', same, cancelled⟩
    · exact .inl answered
    · exact .inr (.inl spared)
    · cases same
      rw [kind] at cancelled
      cases cancelled

/-! ### What the service keeps of it -/

inductive Staged (config : ServiceConfig) (ms : List Mark) (n : Nat) : Stage → Prop where
  | admitted : Staged config ms n .admitted
  | asked (p : Pending) : Staged config ms n (.inside (.asked p))
  | placing {cache} (item : KeyValue) (p : Pending) (cached : config.cache = some cache) (batch : cache.batch = true) :
      Staged config ms n (.inside (.placing item p))
  | answered {r} (p : Pending) (source : Source config ms n r) : Staged config ms n (.inside (.answered p r))

theorem Staged.later {stage : Stage} (staged : Staged config ms n stage) (new : List Mark) :
    Staged config (ms ++ new) n stage := by
  cases staged with
  | admitted => exact .admitted
  | asked p => exact .asked p
  | placing item p cached batch => exact .placing item p cached batch
  | answered p source => exact .answered p (source.later new)

structure Sourced (config : ServiceConfig) (ms : List Mark) (proxy : Option Proxy) (calls : List Call) (total : Nat) :
    Prop where
  settings : proxy.map (·.config) = config.cache
  numbers : ∀ n r t, .gate (.asked n r t) ∈ ms → n < total
  known : ∀ c ∈ calls, ∃ t, .gate (.asked c.number (.ok c.tag) t) ∈ ms
  staged : ∀ c ∈ calls, Staged config ms c.number c.stage

/-- Whoever asks is new, whatever is done for a call is done after it was let in, and a call that counts is backed. -/
def Vouched (config : ServiceConfig) (past : List Mark) : Mark → Prop
  | .gate (.asked n _ _) => ∀ r t, .gate (.asked n r t) ∉ past
  | .gate (.ended n _ o _) => config.breaker.succeeds o = true → Backed config past n o
  | .replied n _ | .served n _ | .cache (.accepted n _) => ∃ tag t, .gate (.asked n (.ok tag) t) ∈ past
  | _ => True

variable {proxy proxy' : Option Proxy} {calls : List Call} {total : Nat}

theorem Sourced.note (sourced : Sourced config ms proxy calls total) {new : List Mark}
    (unasked : ∀ n r t, .gate (.asked n r t) ∉ new) (same : proxy'.map (·.config) = proxy.map (·.config)) :
    Sourced config (ms ++ new) proxy' calls total := by
  refine ⟨same.trans sourced.settings, fun n r t mem => ?_, fun c mem => ?_, fun c mem => (sourced.staged c mem).later new⟩
  · exact sourced.numbers n r t ((List.mem_append.mp mem).resolve_right (unasked n r t))
  · obtain ⟨t, asked⟩ := sourced.known c mem
    exact ⟨t, List.mem_append_left _ asked⟩

theorem Sourced.ask (sourced : Sourced config ms proxy calls total) (r : Except Error Nat) (t : Instant) :
    Sourced config (ms ++ [.gate (.asked total r t)]) proxy calls (total + 1) := by
  refine ⟨sourced.settings, fun n r' t' mem => ?_, fun c mem => ?_, fun c mem => (sourced.staged c mem).later _⟩
  · rcases List.mem_append.mp mem with old | new
    · exact Nat.lt_succ_of_lt (sourced.numbers n r' t' old)
    · cases List.mem_singleton.mp new
      exact Nat.lt_succ_self _
  · obtain ⟨t', asked⟩ := sourced.known c mem
    exact ⟨t', List.mem_append_left _ asked⟩

theorem Sourced.join (sourced : Sourced config ms proxy calls total) {tag : Nat} (op : Op)
    (asked : ∃ t, .gate (.asked n (.ok tag) t) ∈ ms) :
    Sourced config ms proxy (calls ++ [⟨n, tag, op, .admitted⟩]) total :=
  { sourced with
    known := List.forall_mem_append.mpr ⟨sourced.known, List.forall_mem_singleton.mpr asked⟩
    staged := List.forall_mem_append.mpr ⟨sourced.staged, List.forall_mem_singleton.mpr .admitted⟩ }

theorem Sourced.leave {before after : List Call} {c : Call}
    (sourced : Sourced config ms proxy (before ++ c :: after) total) :
    Sourced config ms proxy (before ++ after) total := by
  have fewer := (sublist_without before after c).subset
  exact { sourced with
    known := fun c mem => sourced.known c (fewer mem)
    staged := fun c mem => sourced.staged c (fewer mem) }

theorem unaskedMoves {changes : List Breaker.Transition} {now : Instant} (n : Nat) (r : Except Error Nat) (t : Instant) :
    .gate (.asked n r t) ∉ (moves changes now).map Mark.gate := by
  simp [moves]

theorem lawfulMoves {past : List Mark} {changes : List Breaker.Transition} {now : Instant} :
    Lawful (Vouched config) past ((moves changes now).map .gate) :=
  .of_free (List.forall_mem_map.mpr (Breaker.Gate.forall_moves fun _ _ => trivial))

theorem Sourced.restage {before after : List Call} {c : Call} {stage : Stage}
    (sourced : Sourced config ms proxy (before ++ c :: after) total) (staged : Staged config ms c.number stage) :
    Sourced config ms proxy (before ++ { c with stage } :: after) total := by
  have known := sourced.known
  have others := sourced.staged
  rw [List.forall_mem_append, List.forall_mem_cons] at known others
  exact { sourced with
    known := List.forall_mem_append.mpr ⟨known.1, List.forall_mem_cons.mpr known.2⟩
    staged := List.forall_mem_append.mpr ⟨others.1, List.forall_mem_cons.mpr ⟨staged, others.2.2⟩⟩ }

theorem queuedBatch {m memory : Memory} {cache : CacheConfig} {op : Op} {now : Instant} {item : KeyValue} {p : Pending}
    (begins : m.begin cache op now = (memory, .queue item p)) : cache.batch = true := by
  cases op with
  | set key value =>
    simp only [Memory.begin, Prod.mk.injEq] at begins
    obtain ⟨-, kept⟩ := begins
    split at kept
    · assumption
    · cases kept
  | get key =>
    rw [Memory.begin_get] at begins
    split at begins <;> cases begins
  | has key =>
    rw [Memory.begin_has] at begins
    split at begins <;> cases begins
  | delete | batchSet => cases begins

theorem goesSourced {c : Call} {stage : Stage} {marks : List Mark} {before after : List Call}
    (goes : Goes s c proxy stage marks) (stands : s.calls = before ++ c :: after)
    (sourced : Sourced config ms s.proxy s.calls s.total) :
    Lawful (Vouched config) ms marks ∧
    Sourced config (ms ++ marks) proxy (before ++ { c with stage } :: after) s.total := by
  rw [stands] at sourced
  obtain ⟨t, asked⟩ := sourced.known c (by simp)
  have settings := sourced.settings
  cases goes with
  | asks fresh bare =>
    rw [List.append_nil, ← bare]
    exact ⟨trivial, sourced.restage (.asked .pass)⟩
  | @replied p waits r =>
    refine ⟨⟨⟨_, t, asked⟩, trivial⟩, (sourced.note (by simp) rfl).restage (.answered p (.store r (by simp)))⟩
  | @enters cache memory begun channel stage marks fresh cached begins enters =>
    have cacheThere : config.cache = some cache.config := by rw [← settings, cached]; rfl
    have same : (some { cache with memory, channel }).map (·.config) = s.proxy.map (·.config) := by rw [cached]; rfl
    cases enters with
    | served a =>
      refine ⟨⟨⟨_, t, asked⟩, trivial⟩, (sourced.note (by simp [told]) same).restage ?_⟩
      exact .answered .pass (.memory cacheThere (by simp [told]))
    | asks p => exact ⟨trivial, (sourced.note (by simp [told]) same).restage (.asked p)⟩
    | accepted item p given =>
      refine ⟨⟨⟨_, t, asked⟩, trivial⟩, (sourced.note (by simp [told]) same).restage ?_⟩
      exact .answered p (.channel item cacheThere (queuedBatch begins) (by simp [told]))
    | waits item p full =>
      exact ⟨trivial, (sourced.note (by simp [told]) same).restage (.placing item p cacheThere (queuedBatch begins))⟩
    | refused item p closed =>
      exact ⟨trivial, (sourced.note (by simp [told]) same).restage (.answered p .refused)⟩
  | @placed cache item p shelf queued marks shelf' channel stage waits cached moves =>
    have same : (some { cache with channel }).map (·.config) = s.proxy.map (·.config) := by rw [cached]; rfl
    have staged := sourced.staged c (by simp)
    rw [waits] at staged
    cases staged with
    | placing _ _ cacheThere batch =>
      cases moves with
      | accepted _ _ given =>
        refine ⟨⟨⟨_, t, asked⟩, trivial⟩, (sourced.note (by simp) same).restage ?_⟩
        exact .answered p (.channel item cacheThere batch (by simp))
      | refused _ _ closed => exact ⟨trivial, (sourced.note (by simp) same).restage (.answered p .refused)⟩

theorem lawfulWorks {past : List Mark} {cache : CacheConfig} {now : Instant} {stopping : Bool}
    {channel channel' : Channel} {shelf shelf' : Shelf} {marks : List State.Mark} {worker worker' : Worker}
    (works : Front.Works cache now stopping channel shelf worker marks worker' channel' shelf') :
    Lawful (Vouched config) past (marks.map .cache) := by
  cases works with
  | writes | loses | breaks => exact ⟨trivial, trivial⟩
  | opens | takes | due | halts | goesOn | closes | ends => trivial

theorem leaveConfig (s : Desk) (c : Call) : (s.leave c).map (·.config) = s.proxy.map (·.config) := by
  unfold leave
  split
  · rfl
  · cases s.proxy <;> rfl

theorem endsBacked {c : Call} {o : Outcome Unit} {marks : List Mark}
    (default : config.breaker.isFailure = Breaker.countsAsFailure) (ends : Ends s c proxy o marks)
    (asked : ∃ t, .gate (.asked c.number (.ok c.tag) t) ∈ ms) (staged : Staged config ms c.number c.stage) :
    Lawful (Vouched config) ms marks ∧ (∀ n r t, .gate (.asked n r t) ∉ marks) ∧
    proxy.map (·.config) = s.proxy.map (·.config) ∧
    (config.breaker.succeeds o = true → Backed config (ms ++ marks) c.number o) := by
  obtain ⟨t, asked⟩ := asked
  cases ends with
  | answered answered bare =>
    rw [answered] at staged
    cases staged with
    | answered _ source => exact ⟨trivial, by simp, bare ▸ rfl, (source.later []).backs default⟩
  | finished answered cached finished =>
    rw [answered] at staged
    cases staged with
    | answered _ source => exact ⟨trivial, by simp, cached ▸ rfl, (source.later []).finishes default finished⟩
  | panicked => exact ⟨⟨⟨_, t, asked⟩, trivial⟩, by simp, rfl, nofun⟩
  | cancelled e kind => exact ⟨trivial, by simp, leaveConfig s c, fun _ => .inr (.inr ⟨e, rfl, kind⟩)⟩

theorem stepSourced {new : List Mark} (default : config.breaker.isFailure = Breaker.countsAsFailure)
    (step : Step s new s') (sourced : Sourced config ms s.proxy s.calls s.total) :
    Lawful (Vouched config) ms new ∧ Sourced config (ms ++ new) s'.proxy s'.calls s'.total := by
  cases step with
  | @letIn op breaker changes tag busy asked =>
    have moved : Sourced config (ms ++ (moves changes s.now).map .gate) s.proxy s.calls s.total :=
      sourced.note unaskedMoves rfl
    rw [List.map_append, ← List.append_assoc]
    refine ⟨Lawful.append.mpr ⟨lawfulMoves, fun r t mem => Nat.lt_irrefl _ (moved.numbers _ r t mem), trivial⟩, ?_⟩
    exact (moved.ask (.ok tag) s.now).join op ⟨s.now, by simp⟩
  | @turnAway op breaker changes e busy asked =>
    have moved : Sourced config (ms ++ (moves changes s.now).map .gate) s.proxy s.calls s.total :=
      sourced.note unaskedMoves rfl
    rw [List.map_append, ← List.append_assoc]
    refine ⟨Lawful.append.mpr ⟨lawfulMoves, fun r t mem => Nat.lt_irrefl _ (moved.numbers _ r t mem), trivial⟩, ?_⟩
    exact moved.ask (.error e) s.now
  | go stands goes =>
    have gone := goesSourced goes stands sourced
    exact gone
  | @settle before after c proxy o marks breaker changes stands ends settled =>
    rw [stands] at sourced
    obtain ⟨lawful, unasked, same, backed⟩ := endsBacked default ends (sourced.known c (by simp)) (sourced.staged c (by simp))
    have left := sourced.leave.note unasked same
    refine ⟨Lawful.append.mpr ⟨lawful, backed, lawfulMoves⟩, ?_⟩
    rw [← List.append_assoc]
    exact left.note (by simp [moves]) rfl
  | @abandon before after c breaker changes stands abandoned =>
    rw [stands] at sourced
    exact ⟨⟨trivial, lawfulMoves⟩, sourced.leave.note (by simp [moves]) (leaveConfig s c)⟩
  | look => exact ⟨lawfulMoves, sourced.note unaskedMoves rfl⟩
  | reset | forceOpen => exact ⟨⟨trivial, lawfulMoves⟩, sourced.note (by simp [moves]) rfl⟩
  | pass => exact ⟨trivial, sourced.note (by simp) rfl⟩
  | sweep cached => exact ⟨trivial, sourced.note (by simp) (cached ▸ rfl)⟩
  | stop cached => exact ⟨⟨trivial, trivial⟩, sourced.note (by simp) (cached ▸ rfl)⟩
  | work cached works => exact ⟨lawfulWorks works, sourced.note (by simp) (cached ▸ rfl)⟩

theorem runSourced (default : config.breaker.isFailure = Breaker.countsAsFailure) (run : Run (start config began) ms s) :
    Lawful (Vouched config) [] ms ∧ Sourced config ms s.proxy s.calls s.total := by
  induction run with
  | nil =>
    refine ⟨trivial, ?_, by simp, List.forall_mem_nil _, List.forall_mem_nil _⟩
    unfold start
    cases config.cache <;> rfl
  | next earlier last ih =>
    obtain ⟨lawful, sourced⟩ := ih
    obtain ⟨allowed, sourced'⟩ := stepSourced default last sourced
    exact ⟨Lawful.append.mpr ⟨lawful, allowed⟩, sourced'⟩

/-! ### Since the breaker began to probe -/

/-- The call for which something was done. -/
def Mark.about : Mark → Option Nat
  | .replied n _ | .served n _ | .cache (.accepted n _) => some n
  | _ => none

theorem Vouched.about {past : List Mark} {m : Mark} (vouched : Vouched config past m) (about : m.about = some n) :
    ∃ tag t, .gate (.asked n (.ok tag) t) ∈ past := by
  cases m with
  | gate => cases about
  | replied | served =>
    cases about
    exact vouched
  | cache m =>
    cases m with
    | accepted =>
      cases about
      exact vouched
    | _ => cases about

theorem newLately {earlier lately : List Mark} (lawful : Lawful (Vouched config) [] (earlier ++ lately))
    {r : Except Error Nat} {t : Instant} (asked : .gate (.asked n r t) ∈ lately) (r' : Except Error Nat) (t' : Instant) :
    .gate (.asked n r' t') ∉ earlier := by
  obtain ⟨before, after, rfl⟩ := List.append_of_mem asked
  rw [← List.append_assoc] at lawful
  have fresh : Vouched config (earlier ++ before) (.gate (.asked n r t)) := lawful.split
  exact fun old => fresh r' t' (List.mem_append_left _ old)

/-- What is done for a call that was let in lately is done lately. -/
theorem doneLately {earlier lately : List Mark} (lawful : Lawful (Vouched config) [] (earlier ++ lately))
    {r : Except Error Nat} {t : Instant} (asked : .gate (.asked n r t) ∈ lately) {m : Mark} (about : m.about = some n)
    (done : m ∈ earlier ++ lately) : m ∈ lately := by
  refine (List.mem_append.mp done).resolve_left fun old => ?_
  obtain ⟨before, after, rfl⟩ := List.append_of_mem old
  have vouched : Vouched config before m := (Lawful.append.mp lawful).1.split
  obtain ⟨tag, t', first⟩ := vouched.about about
  exact newLately lawful asked _ t' (List.mem_append_left _ first)

theorem backedLately {earlier lately : List Mark} {o : Outcome Unit} {tag : Nat} {t t' : Instant}
    (lawful : Lawful (Vouched config) [] (earlier ++ lately)) (asked : .gate (.asked n (.ok tag) t) ∈ lately)
    (ended : .gate (.ended n tag o t') ∈ lately) (well : config.breaker.succeeds o = true) :
    Answered lately n ∨ Spared config lately n ∨ CutShort lately n := by
  obtain ⟨before, after, rfl⟩ := List.append_of_mem ended
  have backed : Backed config (earlier ++ before) n o := by
    rw [← List.append_assoc] at lawful
    exact lawful.split well
  have done {m : Mark} (about : m.about = some n) (mem : m ∈ earlier ++ before) := by
    refine doneLately lawful asked about ?_
    rw [← List.append_assoc]
    exact List.mem_append_left _ mem
  rcases backed with ⟨o', replied, healthy⟩ | ⟨cache, there, ⟨a, served⟩ | ⟨batch, item, accepted⟩⟩ | ⟨e, rfl, kind⟩
  · exact .inl ⟨o', done rfl replied, healthy⟩
  · exact .inr (.inl ⟨cache, there, .inl ⟨a, done rfl served⟩⟩)
  · exact .inr (.inl ⟨cache, there, .inr ⟨batch, item, done rfl accepted⟩⟩)
  · exact .inr (.inr ⟨tag, e, t', ended, kind⟩)

/-- Where nobody has reset it, a breaker with the failures that are usual closes after as many calls as it has places, let
in since it began to probe, each of them answered well by the store, answered by the cache in its place, or cut short. -/
theorem closesOnEvidence {before after : List Mark} {time : Instant}
    (default : config.breaker.isFailure = Breaker.countsAsFailure)
    (run : Run (start config began) (before ++ .gate (.moved (.halfOpen, .closed) time) :: after) s)
    (unforced : ∀ t, .gate (.forced .closed t) ∉ before) :
    Evidence config.breaker.limit (fun period n => Answered period n ∨ Spared config period n ∨ CutShort period n)
      before := by
  have lawful := (Lawful.append.mp (runSourced default run).1).1
  have closing : Breaker.Gate.Tests config.breaker (gateMarks before) (.moved (.halfOpen, .closed) time) := by
    have tests := (Breaker.Gate.runTally (runGate run)).1
    rw [gateMarks_append] at tests
    exact tests.split
  rcases closing with reset | ⟨_, since, _, passed, split, quiet, distinct, enough, each⟩
  · exact absurd (mem_gateMarks.mp (List.mem_of_getLast? reset)) (unforced time)
  · obtain ⟨earlier, period, rfl, -, rfl⟩ := gateMarks_split split
    refine ⟨earlier, since, period, passed, rfl, fun change t mem => ?_, distinct, enough, fun n mem => ?_⟩
    · cases quiet _ (mem_gateMarks.mpr mem)
    · obtain ⟨tag, o, t, t', asked, ended, well⟩ := each n mem
      rw [mem_gateMarks] at asked ended
      rw [List.append_cons] at lawful
      exact ⟨⟨tag, o, t, t', asked, ended⟩, backedLately lawful asked ended well⟩

/-! ### A service with a cache that is asked for one thing after the other -/

section Lone

variable {init : Desk} {b b₁ b₂ : Breaker} {now : Instant} {proxy : Proxy} {m₁ m₂ : Memory} {tag : Nat} {p : Pending}
  {r r' : Except Error Answer} {opening closing : List Breaker.Transition} {op : Op}

theorem loneAsks (b : Breaker) (begins : proxy.memory.begin proxy.config op now = (m₁, .ask p)) :
    Step ⟨b, now, some proxy, [⟨n, tag, op, .admitted⟩], n + 1⟩ []
      ⟨b, now, some { proxy with memory := m₁ }, [⟨n, tag, op, .inside (.asked p)⟩], n + 1⟩ :=
  @Step.go _ [] [] ⟨n, tag, op, .admitted⟩ _ _ _ rfl (.enters rfl rfl begins (.asks p))

theorem loneServed {a : Answer} (b : Breaker) (begins : proxy.memory.begin proxy.config op now = (m₁, .served a)) :
    Step ⟨b, now, some proxy, [⟨n, tag, op, .admitted⟩], n + 1⟩ [.served n a]
      ⟨b, now, some { proxy with memory := m₁ }, [⟨n, tag, op, .inside (.answered .pass (.ok a))⟩], n + 1⟩ :=
  @Step.go _ [] [] ⟨n, tag, op, .admitted⟩ _ _ _ rfl (.enters rfl rfl begins (.served a))

theorem loneReplies (b : Breaker) (r : Except Error Answer) :
    Step ⟨b, now, some proxy, [⟨n, tag, op, .inside (.asked p)⟩], n + 1⟩ [.replied n (said r)]
      ⟨b, now, some proxy, [⟨n, tag, op, .inside (.answered p r)⟩], n + 1⟩ :=
  @Step.go _ [] [] ⟨n, tag, op, .inside (.asked p)⟩ _ _ _ rfl (.replied rfl r)

theorem loneEnds (finished : proxy.memory.finish proxy.config p r now = (m₁, r'))
    (settled : b.settle tag (b.config.succeeds (verdict r')) now = (b₁, closing)) :
    Step ⟨b, now, some proxy, [⟨n, tag, op, .inside (.answered p r)⟩], n + 1⟩
      ((.ended n tag (verdict r') now :: moves closing now).map .gate)
      ⟨b₁, now, some { proxy with memory := m₁ }, [], n + 1⟩ :=
  @Step.settle _ [] [] ⟨n, tag, op, .inside (.answered p r)⟩ _ _ _ _ _ rfl (.finished rfl rfl finished) settled

theorem loneCut {e : Error} (kind : e.kind = .cancelled)
    (settled : b.settle tag (b.config.succeeds (.failure e : Outcome Unit)) now = (b₁, closing)) :
    Step ⟨b, now, some proxy, [⟨n, tag, op, .admitted⟩], n + 1⟩
      ((.ended n tag (.failure e) now :: moves closing now).map .gate) ⟨b₁, now, some proxy, [], n + 1⟩ :=
  @Step.settle _ [] [] ⟨n, tag, op, .admitted⟩ _ _ _ _ _ rfl (.cancelled e kind) settled

end Lone

/-! The breaker trips on a read after a write. Of its two trials one is cut short before it has begun, and the other is
answered from memory, so that the store hears of neither. -/

def spareConfig : ServiceConfig :=
  { breaker := { halfOpenMax := 2, breakFor := 60, failureCount := 1 }, cache := some {} }

def spareProxy : Proxy :=
  { Proxy.start {} with memory := Memory.empty.beginWrite.insert "k" ⟨.bool true, Span.ofSeconds 300, 1⟩ }

def spareLoss : Error := .internal "connection refused" none

def spareClosed (counts : Breaker.Counts) (totals : Breaker.Totals) : Breaker :=
  { Breaker.make spareConfig.breaker 0 with counts, totals }

def spareOpen : Breaker := ⟨spareConfig.breaker, .opened, 1, .zero, some 60, ⟨2, 1, 1, 0⟩⟩

def spareHalf (counts : Breaker.Counts) (totals : Breaker.Totals) : Breaker :=
  ⟨spareConfig.breaker, .halfOpen, 2, counts, some 120, totals⟩

def spareEarlier : List Mark :=
  [.gate (.asked 0 (.ok 0) 0), .replied 0 (.value .done), .gate (.ended 0 0 (.value ()) 0),
   .gate (.asked 1 (.ok 0) 0), .replied 1 (.failure spareLoss), .gate (.ended 1 0 (.failure spareLoss) 0),
   .gate (.moved (.closed, .opened) 0)]

def sparePeriod : List Mark :=
  [.gate (.asked 2 (.ok 2) 60), .gate (.ended 2 2 (.failure (.cancelled "context cancelled")) 60),
   .gate (.asked 3 (.ok 2) 60), .served 3 (.flag true), .gate (.ended 3 2 (.value ()) 60)]

theorem spareTrips : Run (start spareConfig 0) spareEarlier ⟨spareOpen, 0, some spareProxy, [], 2⟩ := by
  have write : Step (start spareConfig 0) [.gate (.asked 0 (.ok 0) 0)]
      ⟨spareClosed ⟨1, 0, 0, 0, 0⟩ ⟨1, 0, 0, 0⟩, 0, some (.start {}), [⟨0, 0, .set "k" (.bool true), .admitted⟩], 1⟩ :=
    @Step.letIn _ (.set "k" (.bool true)) _ [] 0 rfl rfl
  have written := (((Runs.nil.next write).next (loneAsks _ rfl)).next (loneReplies _ (.ok .done))).next (loneEnds rfl rfl)
  have read : Step ⟨spareClosed ⟨1, 1, 0, 1, 0⟩ ⟨1, 1, 0, 0⟩, 0, some spareProxy, [], 1⟩ [.gate (.asked 1 (.ok 0) 0)]
      ⟨spareClosed ⟨2, 1, 0, 1, 0⟩ ⟨2, 1, 0, 0⟩, 0, some spareProxy, [⟨1, 0, .has "j", .admitted⟩], 2⟩ :=
    @Step.letIn _ (.has "j") _ [] 0 rfl rfl
  exact (((written.next read).next (loneAsks _ rfl)).next (loneReplies _ (.error spareLoss))).next (loneEnds rfl rfl)

def spareMarks : List Mark := spareEarlier ++ .gate (.moved (.opened, .halfOpen) 60) :: sparePeriod

theorem spareCloses : ∃ s, Run (start spareConfig 0) (spareMarks ++ [.gate (.moved (.halfOpen, .closed) 60)]) s := by
  have waited := spareTrips.next (.pass 60 (Nat.zero_le _))
  have probe : Step ⟨spareOpen, 60, some spareProxy, [], 2⟩
      [.gate (.moved (.opened, .halfOpen) 60), .gate (.asked 2 (.ok 2) 60)]
      ⟨spareHalf ⟨1, 0, 0, 0, 0⟩ ⟨3, 1, 1, 0⟩, 60, some spareProxy, [⟨2, 2, .has "k", .admitted⟩], 3⟩ :=
    @Step.letIn _ (.has "k") _ [(.opened, .halfOpen)] 2 rfl rfl
  have read : Step ⟨spareHalf ⟨1, 1, 0, 1, 0⟩ ⟨3, 2, 1, 0⟩, 60, some spareProxy, [], 3⟩ [.gate (.asked 3 (.ok 2) 60)]
      ⟨spareHalf ⟨2, 1, 0, 1, 0⟩ ⟨4, 2, 1, 0⟩, 60, some spareProxy, [⟨3, 2, .has "k", .admitted⟩], 4⟩ :=
    @Step.letIn _ (.has "k") _ [] 2 rfl rfl
  have cut := (waited.next probe).next (@loneCut _ _ _ _ _ _ [] _ (.cancelled "context cancelled") rfl rfl)
  exact ⟨_, ((cut.next read).next (loneServed _ rfl)).next (@loneEnds _ _ _ _ _ _ _ _ _ _ [(.halfOpen, .closed)] _ rfl rfl)⟩

theorem closedUnheard : ∃ s, Run (start spareConfig 0) (spareMarks ++ [.gate (.moved (.halfOpen, .closed) 60)]) s ∧
    spareConfig.breaker.isFailure = Breaker.countsAsFailure ∧ (∀ t, .gate (.forced .closed t) ∉ spareMarks) ∧
    ¬ Evidence spareConfig.breaker.limit Answered spareMarks := by
  obtain ⟨s, run⟩ := spareCloses
  refine ⟨s, run, rfl, by simp [spareMarks, spareEarlier, sparePeriod], ?_⟩
  rintro ⟨earlier, time, period, ns, split, -, -, enough, each⟩
  obtain ⟨n, mem⟩ := List.exists_mem_of_length_pos (Nat.lt_of_lt_of_le (Breaker.Config.limit_pos _) enough)
  obtain ⟨-, o, replied, -⟩ := each n mem
  -- the breaker has begun to probe only once, and nothing was answered by the store after that
  have late : .replied n o ∈ sparePeriod := by
    rcases List.append_eq_append_iff.mp split with ⟨as, -, rest⟩ | ⟨bs, front, rest⟩
    · cases as with
      | nil =>
        cases rest
        exact replied
      | cons x as =>
        have tail : sparePeriod = as ++ _ := List.tail_eq_of_cons_eq rest
        exact tail ▸ List.mem_append_right as (List.mem_cons_of_mem _ replied)
    · cases bs with
      | nil =>
        cases rest
        exact replied
      | cons y bs =>
        cases rest
        have probing : .gate (.moved (.opened, .halfOpen) time) ∈ spareEarlier := front ▸ by simp
        simp [spareEarlier] at probing
  simp [sparePeriod] at late

theorem spareEvidence : Evidence 2
    (fun period n => Answered period n ∨ Spared spareConfig period n ∨ CutShort period n) spareMarks := by
  obtain ⟨s, run⟩ := spareCloses
  exact closesOnEvidence rfl run (by simp [spareMarks, spareEarlier, sparePeriod])

end Switchyard.State.Desk
