import Switchyard.Proofs.State.Choices
/-!
Sweeping is not noticed. An expired entry counts for nothing to whoever looks at memory, and what an operation does to the
entries that are fresh does not depend on it: whenever memory is swept, and however often, the same calls of the store are
made and the same answers given.
-/
namespace Switchyard.State

namespace Memory

variable {m m' : Memory} {config : CacheConfig} {now later : Instant} {k key : String} {e : Entry}

def Keyed (m : Memory) : Prop := (m.entries.map (·.1)).Nodup

namespace Keyed

theorem filter {q : String × Entry → Bool} {writes : Nat} (keyed : m.Keyed) : Keyed ⟨m.entries.filter q, writes⟩ :=
  List.Nodup.sublist (List.filter_sublist.map _) keyed

theorem eraseAll {items : List KeyValue} (keyed : m.Keyed) : Keyed (items.foldl (fun m i => m.erase i.key) m) := by
  induction items generalizing m with
  | nil => exact keyed
  | cons i rest ih => exact ih keyed.filter

theorem insert (keyed : m.Keyed) : (m.insert key e).Keyed := by
  have rest : (m.erase key).Keyed := keyed.filter
  have out : key ∉ (m.erase key).entries.map (·.1) := by simp [erase]
  simp only [Keyed, Memory.insert, List.map_append, List.map_cons, List.map_nil]
  exact List.nodup_append.mpr ⟨rest, by simp, fun a mem b last => by
    rw [List.mem_singleton.mp last]
    exact fun same => out (same ▸ mem)⟩

theorem begin {op : Op} {begun : Begun} (keyed : m.Keyed) (begins : m.begin config op now = (m', begun)) :
    m'.Keyed := by
  cases op with
  | get k =>
    rw [begin_get] at begins
    split at begins <;> cases begins
    · exact keyed
    · exact keyed.filter
  | has k =>
    rw [begin_has] at begins
    split at begins <;> cases begins
    · exact keyed
    · exact keyed.filter
  | set k v =>
    cases begins
    exact insert keyed
  | delete k =>
    cases begins
    exact filter keyed
  | batchSet items =>
    cases begins
    exact eraseAll keyed

theorem finish {p : Pending} {r r' : Except Error Answer} (keyed : m.Keyed)
    (finished : m.finish config p r now = (m', r')) : m'.Keyed := by
  cases finishes finished with
  | remembered | missing | passed => exact keyed
  | takenBack => exact keyed.filter
  | stored => exact keyed.insert

end Keyed

/-! ### What an operation makes of a memory that is swept -/

/-- The two differ in expired entries only. -/
structure Alike (now : Instant) (m m' : Memory) : Prop where
  writes : m.writes = m'.writes
  fresh : m.entries.filter (fun e => e.2.isFresh now) = m'.entries.filter (fun e => e.2.isFresh now)

theorem purge_purge (passed : now ≤ later) : ((m.purge now).1.purge later).1 = (m.purge later).1 := by
  simp only [purge, List.filter_filter, Memory.mk.injEq, and_true]
  refine List.filter_congr fun x _ => ?_
  simp only [Entry.isFresh, Bool.and_eq_left_iff_imp, decide_eq_true_eq]
  exact Nat.lt_of_le_of_lt passed

@[simp]
theorem purge_again : ((m.purge now).1.purge now).1 = (m.purge now).1 := purge_purge (Nat.le_refl _)

theorem alike_purge : Alike now m (m.purge now).1 := ⟨rfl, by simp [purge, List.filter_filter]⟩

namespace Alike

theorem purge (alike : Alike now m m') : (m.purge now).1 = (m'.purge now).1 := by
  simp only [Memory.purge, alike.writes, alike.fresh]

theorem filter {q : String × Entry → Bool} (alike : Alike now m m') :
    (m.entries.filter q).filter (fun e => e.2.isFresh now) =
      (m'.entries.filter q).filter (fun e => e.2.isFresh now) := by
  have swap (entries : List (String × Entry)) : (entries.filter q).filter (fun e => e.2.isFresh now) =
      (entries.filter fun e => e.2.isFresh now).filter q := by
    simp only [List.filter_filter, Bool.and_comm]
  rw [swap, swap, alike.fresh]

theorem eraseIf {p : Entry → Bool} (alike : Alike now m m') : Alike now (m.eraseIf key p) (m'.eraseIf key p) :=
  ⟨alike.writes, alike.filter⟩

theorem erase (alike : Alike now m m') : Alike now (m.erase key) (m'.erase key) := ⟨alike.writes, alike.filter⟩

theorem eraseAll {items : List KeyValue} (alike : Alike now m m') :
    Alike now (items.foldl (fun m i => m.erase i.key) m) (items.foldl (fun m i => m.erase i.key) m') := by
  induction items generalizing m m' with
  | nil => exact alike
  | cons i rest ih => exact ih alike.erase

theorem insert (alike : Alike now m m') : Alike now (m.insert key e) (m'.insert key e) := by
  refine ⟨alike.writes, ?_⟩
  simp only [Memory.insert, List.filter_append, (alike.erase).fresh]

theorem beginWrite (alike : Alike now m m') : Alike now m.beginWrite m'.beginWrite :=
  ⟨congrArg (· + 1) alike.writes, alike.fresh⟩

end Alike

theorem lookup_fresh {entries : List (String × Entry)} (keyed : (entries.map (·.1)).Nodup) :
    ((entries.filter fun e => e.2.isFresh now).lookup k).filter (·.isFresh now) =
      (entries.lookup k).filter (·.isFresh now) := by
  induction entries with
  | nil => rfl
  | cons head rest ih =>
    obtain ⟨key, e⟩ := head
    obtain ⟨away, others⟩ := List.nodup_cons.mp keyed
    have kept : ((key, e) :: rest).filter (fun e => e.2.isFresh now) =
        if e.isFresh now then (key, e) :: rest.filter (fun e => e.2.isFresh now)
        else rest.filter fun e => e.2.isFresh now := List.filter_cons
    rw [kept]
    by_cases same : k = key
    · subst same
      cases fresh : e.isFresh now with
      | true => simp
      | false =>
        -- the only entry of the key has expired
        have out : (rest.filter fun e => e.2.isFresh now).lookup k = none := by
          refine List.lookup_eq_none_iff.mpr fun d mem => ?_
          have other : k ≠ d.1 := fun same => away (List.mem_map.mpr ⟨d, (List.mem_filter.mp mem).1, same.symm⟩)
          simpa using other
        simp [out, Option.filter, fresh]
    · have other : (k == key) = false := beq_false_of_ne same
      split <;> simpa [List.lookup_cons, other] using ih others

theorem Alike.fresh? (alike : Alike now m m') (keyed : m.Keyed) (keyed' : m'.Keyed) :
    m.fresh? k now = m'.fresh? k now := by
  simp only [Memory.fresh?, find?]
  rw [← lookup_fresh keyed, ← lookup_fresh keyed', alike.fresh]

theorem Alike.begin {op : Op} (alike : Alike now m m') (keyed : m.Keyed) (keyed' : m'.Keyed) :
    (m.begin config op now).2 = (m'.begin config op now).2 ∧
      Alike now (m.begin config op now).1 (m'.begin config op now).1 := by
  cases op with
  | get k =>
    rw [begin_get, begin_get, alike.fresh? keyed keyed', alike.writes]
    cases m'.fresh? k now with
    | some v => exact ⟨rfl, alike⟩
    | none =>
      dsimp only
      exact ⟨rfl, alike.eraseIf⟩
  | has k =>
    rw [begin_has, begin_has, alike.fresh? keyed keyed']
    cases m'.fresh? k now with
    | some v => exact ⟨rfl, alike⟩
    | none =>
      dsimp only
      exact ⟨rfl, alike.eraseIf⟩
  | set k v =>
    have writes := alike.beginWrite.writes
    simp only [Memory.begin, writes, true_and]
    exact alike.beginWrite.insert
  | delete k => exact ⟨rfl, alike.beginWrite.erase⟩
  | batchSet items => exact ⟨rfl, alike.beginWrite.eraseAll⟩

theorem Alike.finish {p : Pending} {r : Except Error Answer} (alike : Alike now m m') (keyed : m.Keyed)
    (keyed' : m'.Keyed) : (m.finish config p r now).2 = (m'.finish config p r now).2 ∧
      Alike now (m.finish config p r now).1 (m'.finish config p r now).1 := by
  cases p with
  | pass => exact ⟨rfl, alike⟩
  | read k seen =>
    rcases r with e | a | v | _
    case ok.value =>
      rw [finish_read, finish_read, alike.fresh? keyed keyed', alike.writes]
      cases m'.fresh? k now with
      | some w => exact ⟨rfl, alike⟩
      | none =>
        dsimp only
        -- an expired entry is overwritten as a missing one is, so that it makes no difference which it was
        split
        · exact ⟨rfl, alike⟩
        · exact ⟨rfl, alike.insert⟩
    all_goals exact ⟨rfl, alike⟩
  | write k version =>
    cases r with
    | ok a => exact ⟨rfl, alike⟩
    | error e =>
      simp only [Memory.finish, true_and]
      exact alike.eraseIf
  | deletion => cases r <;> exact ⟨rfl, alike⟩

end Memory

namespace Front

variable {s s' : Front} {hs : List Happening} {choice : Choice} {xs ys : List Choice}

/-- As a sweep leaves it. -/
def swept (s : Front) : Front := { s with memory := (s.memory.purge s.now).1 }

/-- What has happened, and what has become of all but expired entries. -/
def seen (r : List Happening × Front) : List Happening × Front := (r.1, r.2.swept)

theorem swept_swept : s.swept.swept = s.swept := by
  simp only [swept, Memory.purge_again]

theorem actKeyed (keyed : s.memory.Keyed) (acted : s.act choice = some (hs, s')) : s'.memory.Keyed := by
  cases choice with
  | enter op =>
    cases acted
    exact keyed.begin rfl
  | land i | fail i e shelf | place i =>
    obtain ⟨before, c, after, shelf, channel, stage, stands, goes, rfl⟩ := goesOn acted
    exact keyed
  | answer i =>
    obtain ⟨before, c, after, memory, channel, stands, goes, rfl⟩ := leaves acted
    split at goes
    · cases goes
      exact keyed.finish rfl
    · cases goes
  | drop i =>
    obtain ⟨before, c, after, memory, channel, stands, goes, rfl⟩ := leaves acted
    cases goes
    exact keyed
  | pass now =>
    simp only [act] at acted
    split at acted <;> cases acted
    exact keyed
  | sweep =>
    cases acted
    exact keyed.filter
  | stop =>
    cases acted
    exact keyed
  | work labor =>
    simp only [act, Option.bind_eq_bind, Option.bind_eq_some_iff, Option.pure_def, Option.some.injEq] at acted
    obtain ⟨_, -, same⟩ := acted
    cases same
    exact keyed

theorem goOnSwept {i : Nat} {f : Call → Option (List Happening × Shelf × Channel × Stage)} :
    (s.goOn i f).map seen = (s.swept.goOn i f).map seen := by
  have calls : s.swept.calls = s.calls := rfl
  simp only [goOn, calls]
  cases s.calls[i]? with
  | none => rfl
  | some c =>
    cases done : f c with
    | none => simp [done]
    | some r => simp [done, seen, swept, Memory.purge_again]

theorem leaveSwept {i : Nat} {f g : Call → Option (List Happening × Memory × Channel)}
    (same : ∀ c, (f c).map (fun r => (r.1, (r.2.1.purge s.now).1, r.2.2)) =
      (g c).map fun r => (r.1, (r.2.1.purge s.now).1, r.2.2)) :
    (s.leave i f).map seen = (s.swept.leave i g).map seen := by
  have calls : s.swept.calls = s.calls := rfl
  simp only [leave, calls]
  cases s.calls[i]? with
  | none => rfl
  | some c =>
    have same := same c
    cases first : f c <;> cases second : g c <;> simp [first, second] at same
    · simp [first, second]
    · obtain ⟨said, memory, channel⟩ := same
      simp [first, second, seen, swept, said, memory, channel]

/-- What comes of a choice does not depend on a sweep before it. -/
theorem actSwept (keyed : s.memory.Keyed) (choice : Choice) :
    (s.act choice).map seen = (s.swept.act choice).map seen := by
  have alike : Memory.Alike s.now s.memory (s.memory.purge s.now).1 := Memory.alike_purge
  cases choice with
  | enter op =>
    obtain ⟨same, after⟩ : (s.memory.begin s.config op s.now).2 = _ ∧ _ := alike.begin keyed keyed.filter
    simp only [act, swept, Option.map_some, seen, ← same, after.purge]
  | land i | fail i e shelf | place i => exact goOnSwept
  | answer i =>
    refine leaveSwept fun c => ?_
    split
    · rename_i p r _
      obtain ⟨same, after⟩ : (s.memory.finish s.config p r s.now).2 = _ ∧ _ := alike.finish keyed keyed.filter
      simp only [swept, Option.map_some, same, after.purge]
    · rfl
  | drop i => exact leaveSwept fun c => by simp only [swept, Option.map_some, Memory.purge_again]
  | pass now =>
    by_cases passed : s.now ≤ now
    · have passes : s.act (.pass now) = some ([], { s with now }) := if_pos passed
      have passes' : s.swept.act (.pass now) = some ([], { s.swept with now }) := if_pos passed
      rw [passes, passes']
      simp only [Option.map_some, seen, swept, Memory.purge_purge passed]
    · have stays : s.act (.pass now) = none := if_neg passed
      have stays' : s.swept.act (.pass now) = none := if_neg passed
      rw [stays, stays']
  | sweep => simp only [act, swept, Option.map_some, seen, Memory.purge_again]
  | stop => simp only [act, swept, Option.map_some, seen, Memory.purge_again]
  | work labor =>
    have same : s.swept.toil labor = s.toil labor := by cases labor <;> rfl
    simp only [act, same]
    cases s.toil labor with
    | none => rfl
    | some r => simp [seen, swept, Memory.purge_again]

def following (r : List Happening × Front) (next : Option (List Happening × Front)) : Option (List Happening × Front) :=
  next.map fun r' => (r.1 ++ r'.1, r'.2)

theorem acts_cons : s.acts (choice :: xs) = (s.act choice).bind fun r => following r (r.2.acts xs) := by
  rw [acts]
  cases s.act choice with
  | none => rfl
  | some r =>
    simp only [Option.bind_eq_bind, Option.bind_some, following]
    cases r.2.acts xs <;> rfl

theorem following_seen {r : List Happening × Front} {next : Option (List Happening × Front)} :
    (following r next).map seen = following r (next.map seen) := by
  cases next <;> rfl

/-- What comes of all choices does not depend on a sweep before them. -/
theorem actsSwept (keyed : s.memory.Keyed) : (s.acts xs).map seen = (s.swept.acts xs).map seen := by
  induction xs generalizing s with
  | nil => simp [acts, seen, swept_swept]
  | cons choice xs ih =>
    have same := actSwept keyed choice
    rw [acts_cons, acts_cons]
    cases first : s.act choice with
    | none => cases second : s.swept.act choice <;> simp [first, second] at same ⊢
    | some r =>
      cases second : s.swept.act choice with
      | none => simp [first, second] at same
      | some r' =>
        simp only [first, second, Option.map_some, seen, Option.some.injEq, Prod.mk.injEq] at same
        obtain ⟨said, swept⟩ := same
        have swept' := actKeyed (keyed.filter : s.swept.memory.Keyed) second
        rw [Option.bind_some, Option.bind_some, following_seen, following_seen, ih (actKeyed keyed first), ih swept',
          swept, following, said, following]

def unswept (choices : List Choice) : List Choice :=
  choices.filter fun
    | .sweep => false
    | _ => true

/-- The sweeps may be left out. -/
theorem actsUnswept (keyed : s.memory.Keyed) : (s.acts xs).map seen = (s.acts (unswept xs)).map seen := by
  induction xs generalizing s with
  | nil => rfl
  | cons choice xs ih =>
    have rest (others : unswept (choice :: xs) = choice :: unswept xs) :
        (s.acts (choice :: xs)).map seen = (s.acts (unswept (choice :: xs))).map seen := by
      rw [others, acts_cons, acts_cons]
      cases first : s.act choice with
      | none => rfl
      | some r =>
        rw [Option.bind_some, Option.bind_some, following_seen, following_seen, ih (actKeyed keyed first)]
    cases choice with
    | sweep =>
      have swept : s.acts (.sweep :: xs) = s.swept.acts xs := by
        rw [acts_cons]
        exact Option.map_id'
      rw [swept, ← actsSwept keyed]
      exact ih keyed
    | enter | land | fail | place | answer | drop | pass | stop | work => exact rest rfl

theorem swept_eq {t : Front} (same : t.swept = s.swept) :
    t = { s with memory := t.memory } ∧ Memory.Alike s.now t.memory s.memory := by
  obtain ⟨config, now, memory, shelf, channel, worker, stopping, calls, total⟩ := s
  obtain ⟨config', now', memory', shelf', channel', worker', stopping', calls', total'⟩ := t
  simp only [swept, Front.mk.injEq] at same
  obtain ⟨rfl, rfl, purged, rfl, rfl, rfl, rfl, rfl, rfl⟩ := same
  have writes := congrArg Memory.writes purged
  exact ⟨rfl, writes, congrArg Memory.entries purged⟩

/-- Of two courses of choices that differ in sweeps only, one is possible if the other is, the same happens in both, with
the same calls of the store and the same answers, and they come to states that differ in expired entries only. A sweep
counts the expired entries and leaves all others. -/
theorem sweepingUnseen {config : CacheConfig} {shelf : Shelf} (same : unswept xs = unswept ys) :
    (∀ hs s, (start config shelf).acts xs = some (hs, s) →
      ∃ memory, (start config shelf).acts ys = some (hs, { s with memory }) ∧ memory.writes = s.memory.writes ∧
        memory.entries.filter (fun e => e.2.isFresh s.now) = s.memory.entries.filter fun e => e.2.isFresh s.now) ∧
    ∀ (m : Memory) now, (m.purge now).2 = m.entries.countP (fun e => !e.2.isFresh now) ∧
      ∀ k e, (k, e) ∈ (m.purge now).1.entries ↔ (k, e) ∈ m.entries ∧ e.isFresh now = true := by
  have keyed : (start config shelf).memory.Keyed := List.nodup_nil
  have alike : ((start config shelf).acts xs).map seen = ((start config shelf).acts ys).map seen := by
    rw [actsUnswept keyed, same, ← actsUnswept keyed]
  refine ⟨fun hs s acted => ?_, fun m now => ⟨?_, fun k e => List.mem_filter⟩⟩
  · rw [acted, Option.map_some, eq_comm, Option.map_eq_some_iff] at alike
    obtain ⟨⟨_, t⟩, acted', both⟩ := alike
    obtain ⟨rfl, swept⟩ := Prod.mk.inj both
    obtain ⟨stands, writes, fresh⟩ := swept_eq swept
    exact ⟨t.memory, stands ▸ acted', writes, fresh⟩
  · have parts := @List.length_eq_countP_add_countP _ (fun e : String × Entry => e.2.isFresh now) m.entries
    simp only [Bool.not_eq_true, Bool.decide_eq_false] at parts
    rw [Memory.purge, ← List.countP_eq_length_filter, parts, Nat.add_sub_cancel_left]

/-! ### An entry that expires at once -/

def setChoices : List Choice := [.enter (.set "k" (.bool true)), .land 0, .answer 0]

def sweptChoices : List Choice := [.enter (.set "k" (.bool true)), .land 0, .sweep, .answer 0]

theorem sweptMeanwhile : ∃ hs s memory, (start { expiration := 0 } fun _ => none).acts setChoices = some (hs, s) ∧
    s.memory.size = 1 ∧ (start { expiration := 0 } fun _ => none).acts sweptChoices = some (hs, { s with memory }) := by
  obtain ⟨unseen, -⟩ := @sweepingUnseen setChoices sweptChoices { expiration := 0 } (fun _ => none) rfl
  obtain ⟨memory, acted, -⟩ := unseen _ _ rfl
  exact ⟨_, _, memory, rfl, rfl, acted⟩

end Front
end Switchyard.State
