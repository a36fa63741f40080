import Switchyard.Proofs.State.Provenance
/-!
Memory among threads. It is a counter of writes and a table of entries, with no lock around both: a call takes its
number, reads the clock, and looks at entries and changes them by single accesses, and those of other calls may come in
between. Only a read that is about to store what the store gave it has the entry of its key to itself, from its look at
the counter on. So the latest write of a key is the one that changed the table last, and not always the one with the
highest number.
-/
namespace Switchyard.State

namespace Contention

/-! ### Calls and their accesses -/

inductive Stage where
  | entered
  /-- A set has its number. -/
  | numbered (version : Nat)
  | dated (version : Nat) (reading : Instant)
  /-- A deletion or a batch has its number, and has these keys to erase yet. -/
  | clearing (keys : List String)
  | looking (reading : Instant)
  /-- There was no fresh entry. -/
  | missing (reading : Instant)
  | counting
  | asked (p : Pending)
  | answered (p : Pending) (r : Except Error Answer)
  | filling (key : String) (value : Json) (seen : Nat) (reading : Instant)
  /-- The counter was as before, and nobody else gets at the entry of the key. -/
  | storing (key : String) (value : Json) (reading : Instant)

inductive Mark where
  | timed (n : Nat) (reading : Instant)
  | numbered (n : Nat) (op : Op)
  | put (n : Nat) (key : String) (e : Entry)
  | erased (n : Nat) (key : String)
  | counted (n : Nat) (key : String)
  | compared (n : Nat) (key : String)
  | kept (n : Nat) (key : String) (e : Entry)
  | recalled (n : Nat) (key : String) (a : Answer) (reading : Instant)
  | ended (n : Nat) (op : Op) (r : Except Error Answer)
  | dropped (n : Nat)

/-- How a write goes on once it has its number. -/
def Stage.ofWrite (version : Nat) : Op → Option Stage
  | .set _ _ => some (.numbered version)
  | .delete key => some (.clearing [key])
  | .batchSet items => some (.clearing (items.map (·.key)))
  | .has _ | .get _ => none

def clearedTo : Op → Pending
  | .delete _ => .deletion
  | _ => .pass

def Stage.ofRead : Op → Stage
  | .get _ => .counting
  | _ => .asked .pass

/-- What is left to do with memory when the store has answered. -/
def Busy : Pending → Except Error Answer → Prop
  | .read _ _, .ok (.value _) | .write _ _, .error _ => True
  | _, _ => False

/-- One access of a call, and where it stands then, unless it has returned. The entry of a key can be had while it is
`free`. -/
inductive Turn (config : CacheConfig) (now : Instant) (m : Memory) (n : Nat) (free : String → Prop) :
    Op → Stage → List Mark → Memory → Option Stage → Prop where
  | numbers {op stage} (writes : Stage.ofWrite m.beginWrite.writes op = some stage) :
      Turn config now m n free op .entered [.numbered n op] m.beginWrite (some stage)
  | dates (key : String) (value : Json) (version : Nat) :
      Turn config now m n free (.set key value) (.numbered version) [.timed n now] m (some (.dated version now))
  | puts {key value version reading e} (made : ⟨value, reading + config.expiration, version⟩ = e) (alone : free key) :
      Turn config now m n free (.set key value) (.dated version reading) [.put n key e] (m.insert key e)
        (some (.asked (.write key version)))
  | erases {op key keys} (alone : free key) :
      Turn config now m n free op (.clearing (key :: keys)) [.erased n key] (m.erase key) (some (.clearing keys))
  | cleared (op : Op) : Turn config now m n free op (.clearing []) [] m (some (.asked (clearedTo op)))
  | looks {op key} (reads : Front.Reads key op) :
      Turn config now m n free op .entered [.timed n now] m (some (.looking now))
  | finds {op key v reading} (reads : Front.Reads key op) (alone : free key) (found : m.fresh? key reading = some v) :
      Turn config now m n free op (.looking reading)
        [.recalled n key (Front.recalled v op) reading, .ended n op (.ok (Front.recalled v op))] m none
  | misses {op key reading} (reads : Front.Reads key op) (alone : free key) (missed : m.fresh? key reading = none) :
      Turn config now m n free op (.looking reading) [] m (some (.missing reading))
  | discards {op key reading} (reads : Front.Reads key op) (alone : free key) :
      Turn config now m n free op (.missing reading) [] (m.eraseIf key fun e => !e.isFresh reading)
        (some (Stage.ofRead op))
  | counts (key : String) :
      Turn config now m n free (.get key) .counting [.counted n key] m (some (.asked (.read key m.writes)))
  /-- Whatever the store or the batch writer answers. -/
  | hears (op : Op) (p : Pending) (r : Except Error Answer) :
      Turn config now m n free op (.asked p) [] m (some (.answered p r))
  | returns {op p r} (done : ¬ Busy p r) :
      Turn config now m n free op (.answered p r) [.ended n op (m.finish config p r now).2] m none
  | takesBack {op key version e} (alone : free key) :
      Turn config now m n free op (.answered (.write key version) (.error e)) [.ended n op (.error e)]
        (m.eraseIf key (·.version = version)) none
  | fills (op : Op) (key : String) (v : Json) (seen : Nat) :
      Turn config now m n free op (.answered (.read key seen) (.ok (.value v))) [.timed n now] m
        (some (.filling key v seen now))
  | remembers {op key v w seen reading} (alone : free key) (found : m.fresh? key reading = some w) :
      Turn config now m n free op (.filling key v seen reading)
        [.recalled n key (.value w) reading, .ended n op (.ok (.value w))] m none
  | passes {op key v seen reading} (alone : free key) (missed : m.fresh? key reading = none) (newer : m.writes ≠ seen) :
      Turn config now m n free op (.filling key v seen reading) [.ended n op (.ok (.value v))] m none
  | compares {op key v seen reading} (alone : free key) (missed : m.fresh? key reading = none) (same : m.writes = seen) :
      Turn config now m n free op (.filling key v seen reading) [.compared n key] m (some (.storing key v reading))
  | stores {op key v reading e} (made : ⟨v, reading + config.expiration, 0⟩ = e) :
      Turn config now m n free op (.storing key v reading) [.kept n key e, .ended n op (.ok (.value v))] (m.insert key e)
        none

structure Call where
  number : Nat
  op : Op
  stage : Stage

end Contention

open Contention in
structure Contention where
  config : CacheConfig
  now : Instant
  memory : Memory
  calls : List Call
  total : Nat

namespace Contention

def start (config : CacheConfig) : Contention := ⟨config, 0, .empty, [], 0⟩

def Free (s : Contention) (key : String) : Prop := ∀ c ∈ s.calls, ∀ v reading, c.stage ≠ .storing key v reading

inductive Step (s : Contention) : List Mark → Contention → Prop where
  | enter (op : Op) : Step s [] { s with calls := s.calls ++ [⟨s.total, op, .entered⟩], total := s.total + 1 }
  | turn {before after n op was marks memory stage} (stands : s.calls = before ++ ⟨n, op, was⟩ :: after)
      (turns : Turn s.config s.now s.memory n s.Free op was marks memory stage) :
      Step s marks { s with memory, calls := before ++ stage.elim after (⟨n, op, ·⟩ :: after) }
  /-- Dropped, or ended by a panic, while it waits. -/
  | drop {before after n op p} (stands : s.calls = before ++ ⟨n, op, .asked p⟩ :: after) :
      Step s [.dropped n] { s with calls := before ++ after }
  | pass (now : Instant) (later : s.now ≤ now) : Step s [] { s with now }
  /-- A sweep comes to a key, with the time that it read when it began. -/
  | sweep (key : String) (reading : Instant) (past : reading ≤ s.now) (alone : s.Free key) :
      Step s [] { s with memory := s.memory.eraseIf key fun e => !e.isFresh reading }

abbrev Run (init : Contention) : List Mark → Contention → Prop := Runs Step init

variable {config : CacheConfig} {init s s' : Contention} {ms new marks : List Mark} {k key : String} {e : Entry} {n w : Nat}
  {op : Op} {m memory : Memory} {now stored reading : Instant} {free : String → Prop} {was : Stage}
  {stage : Option Stage} {readings : List Instant}

/-! ### A call that nobody interrupts -/

section Alone

variable {before after : List Call} {begun : Begun} {p : Pending} {r r' : Except Error Answer}

theorem step_at {st : Stage} (stands : s.calls = before ++ ⟨n, op, was⟩ :: after)
    (turns : Turn s.config s.now s.memory n s.Free op was marks memory (some st)) :
    Step s marks { s with memory, calls := before ++ ⟨n, op, st⟩ :: after } := .turn stands turns

theorem last_at (stands : s.calls = before ++ ⟨n, op, was⟩ :: after)
    (turns : Turn s.config s.now s.memory n s.Free op was marks memory none) :
    Step s marks { s with memory, calls := before ++ after } := .turn stands turns

def Open (calls : List Call) : Prop := ∀ c ∈ calls, ∀ key v reading, c.stage ≠ .storing key v reading

theorem free_at {st : Stage} (opened : Open (before ++ after)) (stands : s.calls = before ++ ⟨n, op, st⟩ :: after)
    (plain : ∀ v reading, st ≠ .storing key v reading) : s.Free key := by
  intro c mem v reading
  rw [stands] at mem
  rcases List.mem_cons.mp (List.perm_middle.mem_iff.mp mem) with rfl | mem
  · exact plain v reading
  · exact opened c mem key v reading

theorem clearRuns {keys : List String} (earlier : Run init ms s) (opened : Open (before ++ after))
    (stands : s.calls = before ++ ⟨n, op, .clearing keys⟩ :: after) :
    ∃ ms', Run init ms' { s with
      memory := keys.foldl Memory.erase s.memory, calls := before ++ ⟨n, op, .asked (clearedTo op)⟩ :: after } := by
  induction keys generalizing s ms with
  | nil => exact ⟨_, earlier.next (step_at stands (.cleared op))⟩
  | cons key keys ih => exact ih (earlier.next (step_at stands (.erases (free_at opened stands (by simp))))) rfl

theorem missRuns (reads : Front.Reads key op) (opened : Open (before ++ after))
    (stands : s.calls = before ++ ⟨n, op, .entered⟩ :: after) (missed : s.memory.fresh? key s.now = none) :
    ∃ ms, Run s ms { s with
      memory := s.memory.eraseIf key fun e => !e.isFresh s.now, calls := before ++ ⟨n, op, .ofRead op⟩ :: after } := by
  have looked := Runs.next .nil (step_at stands (.looks reads))
  have missed := looked.next (step_at rfl (.misses reads (free_at opened rfl (by simp)) missed))
  exact ⟨_, missed.next (step_at rfl (.discards reads (free_at opened rfl (by simp))))⟩

/-- Where a call stands that has done with memory what it does before the store is asked. -/
def standing : Begun → Option Stage
  | .served _ => none
  | .ask p | .queue _ p => some (.asked p)

/-- What a call does to memory before the store is asked, when nobody interrupts it. -/
theorem beginRuns (opened : Open (before ++ after)) (stands : s.calls = before ++ ⟨n, op, .entered⟩ :: after)
    (begins : s.memory.begin s.config op s.now = (memory, begun)) :
    ∃ ms, Run s ms { s with memory, calls := before ++ (standing begun).elim after (⟨n, op, ·⟩ :: after) } := by
  have finds {key : String} {v : Json} (reads : Front.Reads key op) (found : s.memory.fresh? key s.now = some v) :
      ∃ ms, Run s ms { s with calls := before ++ after } := by
    have looked := Runs.next .nil (step_at stands (.looks reads))
    exact ⟨_, looked.next (last_at rfl (.finds reads (free_at opened rfl (by simp)) found))⟩
  cases op with
  | get key =>
    rw [Memory.begin_get] at begins
    split at begins <;> cases begins
    · exact finds (.inl rfl) ‹_›
    · obtain ⟨ms, run⟩ := missRuns (.inl rfl) opened stands ‹_›
      exact ⟨_, run.next (step_at rfl (.counts key))⟩
  | has key =>
    rw [Memory.begin_has] at begins
    split at begins <;> cases begins
    · exact finds (.inr rfl) ‹_›
    · exact missRuns (.inr rfl) opened stands ‹_›
  | set key value =>
    have numbered := Runs.next .nil (step_at stands (.numbers rfl))
    have dated := numbered.next (step_at rfl (.dates key value _))
    have put := dated.next (step_at rfl (.puts rfl (free_at opened rfl (by simp))))
    simp only [Memory.begin, Prod.mk.injEq] at begins
    obtain ⟨rfl, rfl⟩ := begins
    have waits (p : Pending) : standing (if s.config.batch then .queue ⟨key, value⟩ p else .ask p) = some (.asked p) := by
      split <;> rfl
    rw [waits]
    exact ⟨_, put⟩
  | delete key =>
    cases begins
    have numbered := Runs.next .nil (step_at stands (.numbers rfl))
    exact clearRuns numbered opened rfl
  | batchSet items =>
    cases begins
    have numbered := Runs.next .nil (step_at stands (.numbers rfl))
    have cleared := clearRuns numbered opened rfl
    rwa [List.foldl_map] at cleared

theorem fillRuns {seen : Nat} {v : Json} (opened : Open (before ++ after))
    (stands : s.calls = before ++ ⟨n, op, .answered (.read key seen) (.ok (.value v))⟩ :: after)
    (finished : s.memory.finish s.config (.read key seen) (.ok (.value v)) s.now = (memory, r')) :
    ∃ ms, Run s ms { s with memory, calls := before ++ after } ∧ .ended n op r' ∈ ms := by
  have dated := Runs.next .nil (step_at stands (.fills op key v seen))
  have free : Free { s with calls := before ++ ⟨n, op, .filling key v seen s.now⟩ :: after } key :=
    free_at opened rfl (by simp)
  rw [Memory.finish_read] at finished
  split at finished
  · rename_i w found
    cases finished
    exact ⟨_, dated.next (last_at rfl (.remembers free found)), by simp⟩
  · rename_i missed
    split at finished
    · rename_i newer
      cases finished
      exact ⟨_, dated.next (last_at rfl (.passes free missed newer)), by simp⟩
    · rename_i same
      cases finished
      have compared := dated.next (step_at rfl (.compares free missed (by simpa using same)))
      exact ⟨_, compared.next (last_at rfl (.stores rfl)), by simp⟩

theorem finish_idle {m : Memory} (idle : ¬ Busy p r) : (m.finish config p r now).1 = m := by
  cases p with
  | pass => rfl
  | read => rcases r with e | a | v | _ <;> first | rfl | exact absurd trivial idle
  | write => cases r <;> first | rfl | exact absurd trivial idle
  | deletion => cases r <;> rfl

/-- What a call does to memory once the store has answered, when nobody interrupts it. -/
theorem finishRuns (opened : Open (before ++ after)) (stands : s.calls = before ++ ⟨n, op, .answered p r⟩ :: after)
    (finished : s.memory.finish s.config p r s.now = (memory, r')) :
    ∃ ms, Run s ms { s with memory, calls := before ++ after } ∧ .ended n op r' ∈ ms := by
  by_cases busy : Busy p r
  · cases p with
    | read key seen =>
      rcases r with e | a | v | _
      case ok.value => exact fillRuns opened stands finished
      all_goals exact busy.elim
    | write key version =>
      cases r with
      | ok => exact busy.elim
      | error e =>
        cases finished
        exact ⟨_, .next .nil (last_at stands (.takesBack (free_at opened stands (by simp)))), by simp⟩
    | pass | deletion => exact busy.elim
  · have same : s.memory = memory := (finish_idle busy).symm.trans (congrArg Prod.fst finished)
    have answer : (s.memory.finish s.config p r s.now).2 = r' := by rw [finished]
    subst same answer
    exact ⟨_, .next .nil (last_at stands (.returns busy)), by simp⟩

end Alone

/-! ### Where an entry comes from -/

/-- The write that changes an entry, and its key. -/
def Mark.change? : Mark → Option (Nat × String)
  | put n key _ | erased n key => some (n, key)
  | _ => none

def Untouched (k : String) (ms : List Mark) : Prop := ∀ m ∈ ms, ∀ n, m.change? ≠ some (n, k)

def Unnumbered (ms : List Mark) : Prop := ∀ n op, .numbered n op ∉ ms

/-- A write changes entries of its own keys only, and has its number before. -/
def Licensed (past : List Mark) (m : Mark) : Prop :=
  ∀ n k, m.change? = some (n, k) → ∃ op, k ∈ op.written ∧ .numbered n op ∈ past

theorem Untouched.append {xs ys : List Mark} (first : Untouched k xs) (rest : Untouched k ys) : Untouched k (xs ++ ys) :=
  fun m mem => (List.mem_append.mp mem).elim (first m) (rest m)

theorem Untouched.nil : Untouched k [] := List.forall_mem_nil _

theorem Unnumbered.append {xs ys : List Mark} (first : Unnumbered xs) (rest : Unnumbered ys) : Unnumbered (xs ++ ys) :=
  fun n op mem => (List.mem_append.mp mem).elim (first n op) (rest n op)

theorem Unnumbered.nil : Unnumbered [] := fun _ _ => List.not_mem_nil

/-- A get has read the counter, then these times, and no write has taken a number since. -/
def Counted (n : Nat) (key : String) (readings : List Instant) (ms : List Mark) : Prop :=
  ∃ before between, ms = before ++ .counted n key :: between ∧ Unnumbered between ∧
    ∀ reading ∈ readings, .timed n reading ∈ between

/-- All writes that changed the entry before the get compared the counter had their numbers before it read the counter
first. -/
structure Compared (n : Nat) (key : String) (reading : Instant) (before between held : List Mark) : Prop where
  unnumbered : Unnumbered between
  timed : .timed n reading ∈ between
  untouched : Untouched key held
  known : ∀ m ∈ before ++ .counted n key :: between, ∀ w, m.change? = some (w, key) →
    ∃ op, key ∈ op.written ∧ .numbered w op ∈ before

/-- The entry of a key was stored by a call that had read the time shortly before: by the write that has changed the
entry last, or by a get. The get has read the counter after that write had its number, and while no write took another
found it so again with the entry to itself. -/
inductive Origin (k : String) (e : Entry) (stored : Instant) : List Mark → Prop where
  | put {before n since} (begun : .numbered n (.set k e.value) ∈ before) (timed : .timed n stored ∈ before)
      (untouched : Untouched k since) : Origin k e stored (before ++ .put n k e :: since)
  | kept {before n between held since} (compared : Compared n k stored before between held)
      (untouched : Untouched k since) :
      Origin k e stored
        (before ++ .counted n k :: between ++ .compared n k :: held ++ .kept n k e :: since)

theorem Origin.step (origin : Origin k e stored ms) (untouched : Untouched k new) : Origin k e stored (ms ++ new) := by
  cases origin with
  | put begun timed before =>
    rw [List.append_assoc, List.cons_append]
    exact .put begun timed (before.append untouched)
  | kept compared before =>
    rw [List.append_assoc, List.cons_append]
    exact .kept compared (before.append untouched)

theorem Counted.step (counted : Counted n key readings ms) (unnumbered : Unnumbered new) :
    Counted n key readings (ms ++ new) := by
  obtain ⟨before, between, rfl, quiet, timed⟩ := counted
  refine ⟨before, between ++ new, by simp, quiet.append unnumbered, fun reading mem => ?_⟩
  exact List.mem_append_left _ (timed reading mem)

/-! ### What a call knows -/

/-- What the history says of a call, by where it stands. -/
def Stage.Backed (ms : List Mark) (writes n : Nat) (op : Op) : Stage → Prop
  | numbered _ => .numbered n op ∈ ms
  | dated _ reading => .numbered n op ∈ ms ∧ .timed n reading ∈ ms
  | clearing keys => .numbered n op ∈ ms ∧ ∀ key ∈ keys, key ∈ op.written
  | looking reading => .timed n reading ∈ ms
  | asked (.read key seen) | answered (.read key seen) _ => seen ≤ writes ∧ (seen = writes → Counted n key [] ms)
  | filling key _ seen reading =>
    .timed n reading ∈ ms ∧ seen ≤ writes ∧ (seen = writes → Counted n key [reading] ms)
  | storing key _ reading => ∃ before between held,
      ms = before ++ .counted n key :: between ++ .compared n key :: held ∧
      Compared n key reading before between held
  | _ => True

/-- What other calls do may push the counter on, and leaves the entry alone that the call has to itself. -/
theorem Stage.Backed.mono {writes writes' : Nat} {stage : Stage} (backed : stage.Backed ms writes n op)
    (counts : writes' = writes ∧ Unnumbered new ∨ writes < writes')
    (alone : ∀ key v reading, stage = .storing key v reading → Untouched key new) :
    stage.Backed (ms ++ new) writes' n op := by
  have onward {key : String} {seen : Nat} {readings : List Instant}
      (known : seen ≤ writes ∧ (seen = writes → Counted n key readings ms)) :
      seen ≤ writes' ∧ (seen = writes' → Counted n key readings (ms ++ new)) := by
    rcases counts with ⟨rfl, unnumbered⟩ | more
    · exact ⟨known.1, fun same => (known.2 same).step unnumbered⟩
    · exact ⟨by omega, fun same => absurd known.1 (by omega)⟩
  cases stage with
  | numbered | looking => exact List.mem_append_left _ backed
  | dated => exact ⟨List.mem_append_left _ backed.1, List.mem_append_left _ backed.2⟩
  | clearing => exact ⟨List.mem_append_left _ backed.1, backed.2⟩
  | asked p | answered p =>
    cases p with
    | read => exact onward backed
    | _ => trivial
  | filling => exact ⟨List.mem_append_left _ backed.1, onward backed.2⟩
  | storing key v reading =>
    obtain ⟨before, between, held, rfl, unnumbered, timed, untouched, known⟩ := backed
    refine ⟨before, between, held ++ new, by simp, unnumbered, timed, ?_, known⟩
    exact untouched.append (alone key v reading rfl)
  | _ => trivial

/-! ### What one access does -/

theorem turnCounts (turns : Turn config now m n free op was marks memory stage) :
    memory.writes = m.writes ∧ Unnumbered marks ∨ m.writes < memory.writes := by
  cases turns with
  | numbers => exact .inr (Nat.lt_succ_self _)
  | _ => exact .inl ⟨rfl, by simp [Unnumbered]⟩

theorem turnUntouched (turns : Turn config now m n free op was marks memory stage) (taken : ¬ free k) :
    Untouched k marks := by
  have other {key : String} (alone : free key) : key ≠ k := fun same => taken (same ▸ alone)
  cases turns with
  | puts made alone | erases alone => simp [Untouched, Mark.change?, other alone]
  | _ => simp [Untouched, Mark.change?]

theorem turnLicensed (turns : Turn config now m n free op was marks memory stage)
    (backed : was.Backed ms m.writes n op) : Lawful Licensed ms marks := by
  cases turns with
  | puts =>
    refine ⟨fun w k change => ?_, trivial⟩
    cases change
    exact ⟨_, List.mem_singleton.mpr rfl, backed.1⟩
  | erases =>
    refine ⟨fun w k change => ?_, trivial⟩
    cases change
    exact ⟨_, backed.2 _ List.mem_cons_self, backed.1⟩
  | _ => exact .of_free (by simp [Licensed, Mark.change?])

/-- The writes that have changed an entry while none took a number had theirs before. -/
theorem knownBefore {before between : List Mark} (lawful : Lawful Licensed [] (before ++ .counted n key :: between))
    (unnumbered : Unnumbered between) : ∀ m ∈ before ++ .counted n key :: between, ∀ w, m.change? = some (w, key) →
      ∃ op, key ∈ op.written ∧ .numbered w op ∈ before := by
  intro m mem w change
  obtain ⟨xs, ys, split⟩ := List.append_of_mem mem
  rw [split] at lawful
  obtain ⟨op, written, begun⟩ := lawful.split w key change
  have among : .numbered w op ∈ before ++ .counted n key :: between := split ▸ List.mem_append_left _ begun
  refine ⟨op, written, ?_⟩
  rcases List.mem_append.mp among with there | there
  · exact there
  · rcases List.mem_cons.mp there with impossible | there
    · cases impossible
    · exact absurd there (unnumbered w op)

theorem turnEntries (turns : Turn config now m n free op was marks memory stage) (backed : was.Backed ms m.writes n op)
    (there : (k, e) ∈ memory.entries) : (k, e) ∈ m.entries ∧ Untouched k marks ∨
      ∃ stored, e.expires = stored + config.expiration ∧ Origin k e stored (ms ++ marks) := by
  have fewer {q : String × Entry → Bool} (mem : (k, e) ∈ m.entries.filter q) : (k, e) ∈ m.entries :=
    (List.mem_filter.mp mem).1
  cases turns with
  | puts made alone =>
    rcases Memory.mem_insert.mp there with ⟨old, other⟩ | ⟨rfl, rfl⟩
    · exact .inl ⟨old, by simp [Untouched, Mark.change?, other.symm]⟩
    · subst made
      exact .inr ⟨_, rfl, .put backed.1 backed.2 .nil⟩
  | stores made =>
    rcases Memory.mem_insert.mp there with ⟨old, -⟩ | ⟨rfl, rfl⟩
    · exact .inl ⟨old, by simp [Untouched, Mark.change?]⟩
    · subst made
      obtain ⟨before, between, held, rfl, compared⟩ := backed
      exact .inr ⟨_, rfl, .kept compared (List.forall_mem_singleton.mpr nofun)⟩
  | @erases op key keys alone =>
    obtain ⟨old, away⟩ := List.mem_filter.mp there
    have other : k ≠ key := by simpa using away
    exact .inl ⟨old, by simp [Untouched, Mark.change?, other.symm]⟩
  | discards | takesBack => exact .inl ⟨fewer there, by simp [Untouched, Mark.change?]⟩
  | _ => exact .inl ⟨there, by simp [Untouched, Mark.change?]⟩

theorem ofWriteBacked {version : Nat} {st : Stage} (writes : Stage.ofWrite version op = some st) :
    st.Backed (ms ++ [.numbered n op]) version n op := by
  have here : Mark.numbered n op ∈ ms ++ [.numbered n op] := List.mem_append_right _ (List.mem_singleton.mpr rfl)
  cases op with
  | has | get => cases writes
  | set =>
    cases writes
    exact here
  | delete | batchSet =>
    cases writes
    exact ⟨here, fun key mem => mem⟩

theorem turnBacked {st : Stage} (turns : Turn config now m n free op was marks memory (some st))
    (backed : was.Backed ms m.writes n op) (lawful : Lawful Licensed [] ms) :
    st.Backed (ms ++ marks) memory.writes n op := by
  cases turns with
  | numbers writes => exact ofWriteBacked writes
  | dates => exact ⟨List.mem_append_left _ backed, List.mem_append_right _ (List.mem_singleton.mpr rfl)⟩
  | puts => trivial
  | erases => exact ⟨List.mem_append_left _ backed.1, fun key mem => backed.2 key (List.mem_cons_of_mem _ mem)⟩
  | cleared => cases op <;> trivial
  | looks => exact List.mem_append_right _ (List.mem_singleton.mpr rfl)
  | misses => trivial
  | discards => cases op <;> trivial
  | counts => exact ⟨Nat.le_refl _, fun _ => ⟨ms, [], rfl, .nil, List.forall_mem_nil _⟩⟩
  | hears op p r =>
    rw [List.append_nil]
    cases p <;> exact backed
  | fills op key v seen =>
    obtain ⟨le, known⟩ := backed
    refine ⟨List.mem_append_right _ (List.mem_singleton.mpr rfl), le, fun same => ?_⟩
    obtain ⟨before, between, rfl, unnumbered, -⟩ := known same
    exact ⟨before, between ++ [.timed n now], by simp, unnumbered.append (by simp [Unnumbered]), by simp⟩
  | compares alone missed same =>
    obtain ⟨-, -, known⟩ := backed
    obtain ⟨before, between, rfl, unnumbered, timed⟩ := known same.symm
    exact ⟨before, between, [], by simp, unnumbered, timed _ (List.mem_singleton.mpr rfl), .nil,
      knownBefore lawful unnumbered⟩

/-- What memory gives is in an entry that was fresh at the time that the call had read. -/
theorem turnRecalls {a : Answer} (turns : Turn config now m n free op was marks memory stage)
    (backed : was.Backed ms m.writes n op) (recalls : .recalled w k a reading ∈ marks) :
    w = n ∧ .timed n reading ∈ ms ∧ ∃ e, (k, e) ∈ m.entries ∧ reading < e.expires ∧
      (a = .value e.value ∨ a = .flag true) := by
  have fresh {v : Json} (found : m.fresh? k reading = some v) :
      ∃ e, (k, e) ∈ m.entries ∧ reading < e.expires ∧ e.value = v := by
    obtain ⟨e, mem, fresh, same⟩ := Memory.exists_of_fresh? found
    exact ⟨e, mem, by simpa [Entry.isFresh] using fresh, same⟩
  cases turns with
  | finds reads alone found =>
    obtain ⟨rfl, rfl, rfl, rfl⟩ : w = n ∧ k = _ ∧ a = _ ∧ reading = _ := by simpa using recalls
    obtain ⟨e, mem, fresh, rfl⟩ := fresh found
    refine ⟨rfl, backed, e, mem, fresh, ?_⟩
    rcases reads with rfl | rfl
    · exact .inl rfl
    · exact .inr rfl
  | remembers alone found =>
    obtain ⟨rfl, rfl, rfl, rfl⟩ : w = n ∧ k = _ ∧ a = _ ∧ reading = _ := by simpa using recalls
    obtain ⟨e, mem, fresh, rfl⟩ := fresh found
    exact ⟨rfl, backed.1, e, mem, fresh, .inl rfl⟩
  | _ => simp at recalls

/-! ### All calls together -/

/-- Every entry has its origin, every call stands on its past, and every change was licensed. -/
structure Traced (config : CacheConfig) (ms : List Mark) (s : Contention) : Prop where
  settings : s.config = config
  entries : ∀ k e, (k, e) ∈ s.memory.entries → ∃ stored, e.expires = stored + config.expiration ∧ Origin k e stored ms
  calls : ∀ c ∈ s.calls, c.stage.Backed ms s.memory.writes c.number c.op
  lawful : Lawful Licensed [] ms

theorem Traced.at {before after : List Call} (traced : Traced config ms s)
    (stands : s.calls = before ++ ⟨n, op, was⟩ :: after) : was.Backed ms s.memory.writes n op :=
  traced.calls ⟨n, op, was⟩ (by simp [stands])

theorem Traced.turn {before after : List Call} (traced : Traced config ms s)
    (stands : s.calls = before ++ ⟨n, op, was⟩ :: after)
    (turns : Turn s.config s.now s.memory n s.Free op was marks memory stage) :
    Traced config (ms ++ marks) { s with memory, calls := before ++ stage.elim after (⟨n, op, ·⟩ :: after) } := by
  have backed := traced.at stands
  have others : ∀ c ∈ before ++ after, c.stage.Backed (ms ++ marks) memory.writes c.number c.op := by
    intro c mem
    have here : c ∈ s.calls := stands ▸ (sublist_without before after _).mem mem
    refine (traced.calls c here).mono (turnCounts turns) fun key v reading storing => ?_
    exact turnUntouched turns fun alone => alone c here v reading storing
  refine ⟨traced.settings, fun k e mem => ?_, ?_, Lawful.append.mpr ⟨traced.lawful, turnLicensed turns backed⟩⟩
  · rcases turnEntries turns backed mem with ⟨old, untouched⟩ | ⟨stored, expires, origin⟩
    · obtain ⟨stored, expires, origin⟩ := traced.entries k e old
      exact ⟨stored, expires, origin.step untouched⟩
    · exact ⟨stored, traced.settings ▸ expires, origin⟩
  · cases stage with
    | none => exact others
    | some st =>
      obtain ⟨first, last⟩ := List.forall_mem_append.mp others
      exact List.forall_mem_append.mpr ⟨first, List.forall_mem_cons.mpr ⟨turnBacked turns backed traced.lawful, last⟩⟩

theorem Traced.aside (traced : Traced config ms s) (settings : s'.config = s.config)
    (entries : ∀ k e, (k, e) ∈ s'.memory.entries → (k, e) ∈ s.memory.entries)
    (writes : s'.memory.writes = s.memory.writes)
    (calls : ∀ c ∈ s'.calls, c.stage = .entered ∨ c ∈ s.calls) (untouched : ∀ k, Untouched k new)
    (unnumbered : Unnumbered new) : Traced config (ms ++ new) s' where
  settings := settings.trans traced.settings
  entries k e mem := by
    obtain ⟨stored, expires, origin⟩ := traced.entries k e (entries k e mem)
    exact ⟨stored, expires, origin.step (untouched k)⟩
  calls c mem := by
    rcases calls c mem with fresh | old
    · rw [fresh]
      trivial
    · exact (traced.calls c old).mono (.inl ⟨writes, unnumbered⟩) fun key _ _ _ => untouched key
  lawful := Lawful.append.mpr
    ⟨traced.lawful, .of_free fun m mem past w k change => absurd change (untouched k m mem w)⟩

theorem stepTraced (step : Step s new s') (traced : Traced config ms s) : Traced config (ms ++ new) s' := by
  cases step with
  | enter op =>
    refine traced.aside rfl (fun _ _ => id) rfl ?_ (fun _ => .nil) .nil
    exact List.forall_mem_append.mpr ⟨fun c mem => .inr mem, List.forall_mem_singleton.mpr (.inl rfl)⟩
  | turn stands turns => exact traced.turn stands turns
  | drop stands =>
    refine traced.aside rfl (fun _ _ => id) rfl (fun c mem => .inr ?_) (by simp [Untouched, Mark.change?])
      (by simp [Unnumbered])
    exact stands ▸ (sublist_without _ _ _).mem mem
  | pass => exact traced.aside rfl (fun _ _ => id) rfl (fun _ => .inr) (fun _ => .nil) .nil
  | sweep =>
    exact traced.aside rfl (fun _ _ mem => (List.mem_filter.mp mem).1) rfl (fun _ => .inr) (fun _ => .nil) .nil

theorem runTraced (run : Run (start config) ms s) : Traced config ms s := by
  induction run with
  | nil => exact ⟨rfl, nofun, List.forall_mem_nil _, trivial⟩
  | next earlier last ih => exact stepTraced last ih

theorem stepRecalls {a : Answer} (step : Step s new s') (traced : Traced config ms s)
    (recalls : .recalled n k a reading ∈ new) : .timed n reading ∈ ms ∧
      ∃ e, (k, e) ∈ s.memory.entries ∧ reading < e.expires ∧ (a = .value e.value ∨ a = .flag true) := by
  cases step with
  | turn stands turns =>
    obtain ⟨rfl, timed, entry⟩ := turnRecalls turns (traced.at stands) recalls
    exact ⟨timed, entry⟩
  | drop => simp at recalls
  | enter | pass | sweep => cases recalls

/-- Whatever the calls and the store do, on any threads: an entry was stored by the set that has changed the entry of its
key last, or by a get that read the counter after the last write to change it had its number, and found it so again when
it had the entry to itself, with no number taken in between; and memory gives what is in an entry to a call only whose
reading of the clock is before the end of its time. Where a call has memory to itself between two waits, the write that
changed the entry last is also the one that began last. -/
theorem entriesOfLastChange (config : CacheConfig) :
    (∀ ms s, Run (start config) ms s →
      (∀ k e, (k, e) ∈ s.memory.entries →
        ∃ stored, e.expires = stored + config.expiration ∧ Origin k e stored ms) ∧
      ∀ new s' n k a reading, Step s new s' → .recalled n k a reading ∈ new → .timed n reading ∈ ms ∧
        ∃ e stored, (k, e) ∈ s.memory.entries ∧ (a = .value e.value ∨ a = .flag true) ∧ Origin k e stored ms ∧
          reading < stored + config.expiration) ∧
    ∀ shelf ms s, Runs Front.Erring (Front.start config shelf) ms s →
      (∀ k e, (k, e) ∈ s.memory.entries → ∃ stored, e.expires = stored + config.expiration ∧
        Front.Origin (Front.start config shelf) k e stored ms s) ∧
      ∀ k a, Front.Recalls s k a → ∃ e stored, (k, e) ∈ s.memory.entries ∧ (a = .value e.value ∨ a = .flag true) ∧
        Front.Origin (Front.start config shelf) k e stored ms s ∧ s.now < stored + config.expiration := by
  refine ⟨fun ms s run => ?_, fun shelf ms s run => Front.entriesOfLatestWrite run⟩
  have traced := runTraced run
  refine ⟨traced.entries, fun new s' n k a reading step recalls => ?_⟩
  obtain ⟨timed, e, mem, fresh, answer⟩ := stepRecalls step traced recalls
  obtain ⟨stored, expires, origin⟩ := traced.entries k e mem
  exact ⟨timed, e, stored, mem, answer, origin, expires ▸ fresh⟩

/-! ### Two sets of one key, of which the first to have its number is the last to come to the table -/

def first (stage : Stage) : Call := ⟨0, .set "k" (.bool true), stage⟩

def second (stage : Stage) : Call := ⟨1, .set "k" (.bool false), stage⟩

def crowd (memory : Memory) (calls : List Call) : Contention := ⟨{}, 0, memory, calls, 2⟩

def firstEntry : Entry := ⟨.bool true, Span.ofSeconds 300, 1⟩

def secondEntry : Entry := ⟨.bool false, Span.ofSeconds 300, 2⟩

def lateMarks : List Mark :=
  [.numbered 0 (.set "k" (.bool true)), .numbered 1 (.set "k" (.bool false)), .timed 1 0, .put 1 "k" secondEntry,
   .ended 1 (.set "k" (.bool false)) (.ok .done), .timed 0 0, .put 0 "k" firstEntry,
   .ended 0 (.set "k" (.bool true)) (.ok .done)]

theorem crowdTurns (before after : List Call) {st : Stage}
    (turns : Turn {} 0 m n (crowd m (before ++ ⟨n, op, was⟩ :: after)).Free op was marks memory (some st)) :
    Step (crowd m (before ++ ⟨n, op, was⟩ :: after)) marks (crowd memory (before ++ ⟨n, op, st⟩ :: after)) :=
  @Step.turn _ before after _ _ _ _ _ (some st) rfl turns

theorem lateRun : Run (start {}) lateMarks (crowd ⟨[("k", firstEntry)], 2⟩ []) := by
  have entered : Run (start {}) [] (crowd .empty [first .entered, second .entered]) :=
    Runs.next (Runs.next .nil (Step.enter (.set "k" (.bool true)))) (Step.enter (.set "k" (.bool false)))
  have numbered : Run (start {}) (lateMarks.take 1) (crowd ⟨[], 1⟩ [first (.numbered 1), second .entered]) :=
    entered.next (crowdTurns [] [second .entered] (.numbers rfl))
  have both : Run (start {}) (lateMarks.take 2) (crowd ⟨[], 2⟩ [first (.numbered 1), second (.numbered 2)]) :=
    numbered.next (crowdTurns [first (.numbered 1)] [] (.numbers rfl))
  have dated : Run (start {}) (lateMarks.take 3) (crowd ⟨[], 2⟩ [first (.numbered 1), second (.dated 2 0)]) :=
    both.next (crowdTurns [first (.numbered 1)] [] (.dates "k" (.bool false) 2))
  have put : Run (start {}) (lateMarks.take 4)
      (crowd ⟨[("k", secondEntry)], 2⟩ [first (.numbered 1), second (.asked (.write "k" 2))]) :=
    dated.next (crowdTurns [first (.numbered 1)] [] (.puts rfl (by simp [Free, crowd, first])))
  have told := put.next (crowdTurns [first (.numbered 1)] [] (.hears _ (.write "k" 2) (.ok .done)))
  have ended : Run (start {}) (lateMarks.take 5) (crowd ⟨[("k", secondEntry)], 2⟩ [first (.numbered 1)]) :=
    told.next (@Step.turn _ [first (.numbered 1)] [] 1 _ _ _ _ none rfl (.returns id))
  have dated : Run (start {}) (lateMarks.take 6) (crowd ⟨[("k", secondEntry)], 2⟩ [first (.dated 1 0)]) :=
    ended.next (crowdTurns [] [] (.dates "k" (.bool true) 1))
  have put : Run (start {}) (lateMarks.take 7)
      (crowd ⟨[("k", firstEntry)], 2⟩ [first (.asked (.write "k" 1))]) :=
    dated.next (crowdTurns [] [] (.puts rfl (by simp [Free, crowd])))
  have told := put.next (crowdTurns [] [] (.hears _ (.write "k" 1) (.ok .done)))
  exact told.next (@Step.turn _ [] [] 0 _ _ _ _ none rfl (.returns id))

/-- Both sets have returned well, and memory has the entry of the one that began first. -/
theorem firstEntryStays : ∃ s, Run (start {}) lateMarks s ∧ s.calls = [] ∧ ("k", firstEntry) ∈ s.memory.entries ∧
    .put 1 "k" firstEntry ∉ lateMarks ∧ ∀ n e, .kept n "k" e ∉ lateMarks :=
  ⟨_, lateRun, rfl, List.mem_singleton.mpr rfl, by simp [lateMarks, firstEntry, secondEntry], by simp [lateMarks]⟩

theorem lateSetTraced : (∃ stored, Origin "k" firstEntry stored lateMarks) ∧
    ∃ s stored, Runs Front.Erring (Front.start {} fun _ => none) Front.renewedMarks s ∧
      Front.Origin (Front.start {} fun _ => none) "k" ⟨.bool true, Span.ofSeconds 600, 0⟩ stored Front.renewedMarks s := by
  obtain ⟨threads, turns⟩ := entriesOfLastChange {}
  obtain ⟨stored, -, origin⟩ := (threads _ _ lateRun).1 "k" firstEntry (List.mem_singleton.mpr rfl)
  obtain ⟨s, run, mem, -⟩ := Front.renewedRun
  obtain ⟨stored', -, origin'⟩ := (turns _ _ _ run).1 _ _ mem
  exact ⟨⟨stored, origin⟩, s, stored', run, origin'⟩

end Contention
end Switchyard.State
