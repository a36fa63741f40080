import Switchyard.Proofs.State.Shelf
/-!
What each operation leaves of the entry that memory has for a key it does not write: nothing else takes its place, a
fresh entry stays unless its own write fails, and only a read whose misses saw the latest write can put one there.
-/
namespace Switchyard.State

namespace Memory

variable {m m' : Memory} {config : CacheConfig} {op : Op} {now : Instant} {key k : String} {e : Entry}

theorem lookup_filter {entries : List (String × Entry)} {q : String × Entry → Bool}
    (found : entries.lookup k = some e) (kept : q (k, e) = true) : (entries.filter q).lookup k = some e := by
  obtain ⟨before, after, rfl, others⟩ := List.lookup_eq_some_iff.mp found
  rw [List.filter_append, List.filter_cons_of_pos kept]
  exact List.lookup_eq_some_iff.mpr ⟨_, _, rfl, fun d hd => others d (List.mem_filter.mp hd).1⟩

theorem mem_of_lookup {entries : List (String × Entry)} (found : entries.lookup k = some e) : (k, e) ∈ entries := by
  obtain ⟨before, after, rfl, -⟩ := List.lookup_eq_some_iff.mp found
  exact List.mem_append_right _ List.mem_cons_self

theorem fresh?_of_find? (found : m.find? k = some e) (fresh : e.isFresh now = true) :
    m.fresh? k now = some e.value := by
  simp [fresh?, found, Option.filter, fresh]

theorem exists_of_fresh? {w : Json} (served : m.fresh? k now = some w) :
    ∃ e, (k, e) ∈ m.entries ∧ e.isFresh now = true ∧ e.value = w := by
  simp only [fresh?, Option.map_eq_some_iff, Option.filter_eq_some_iff] at served
  obtain ⟨e, ⟨found, fresh⟩, same⟩ := served
  exact ⟨e, mem_of_lookup found, fresh, same⟩

theorem find?_insert_other (other : k ≠ key) (found : m.find? k = some e) {d : Entry} :
    (m.insert key d).find? k = some e := by
  have kept : ((m.erase key).entries).lookup k = some e := lookup_filter found (by simpa using other)
  simp [insert, find?, List.lookup_append, kept]

theorem find?_insert_same {d : Entry} : (m.insert key d).find? key = some d := by
  have out : ((m.erase key).entries).lookup key = none := by
    refine List.lookup_eq_none_iff.mpr fun d hd => ?_
    have away : d.1 ≠ key := by simpa using (List.mem_filter.mp hd).2
    simpa using away.symm
  simp [insert, find?, List.lookup_append, out]

theorem mem_insert {d : Entry} : (k, e) ∈ (m.insert key d).entries ↔
    ((k, e) ∈ m.entries ∧ k ≠ key) ∨ (k = key ∧ e = d) := by
  simp [insert, erase]

/-- What memory has for a key afterwards it had before, and it keeps what is fresh. -/
structure Keeps (m : Memory) (key : String) (now : Instant) (m' : Memory) : Prop where
  entries : ∀ e, (key, e) ∈ m'.entries → (key, e) ∈ m.entries
  fresh : ∀ e, m.find? key = some e → e.isFresh now = true → m'.find? key = some e

namespace Keeps

theorem refl : Keeps m k now m := ⟨fun _ h => h, fun _ h _ => h⟩

theorem filter {q : String × Entry → Bool} {writes : Nat} (kept : ∀ e, e.isFresh now = true → q (k, e) = true) :
    Keeps m k now ⟨m.entries.filter q, writes⟩ :=
  ⟨fun _ he => (List.mem_filter.mp he).1, fun e found fresh => lookup_filter found (kept e fresh)⟩

theorem trans {m'' : Memory} (first : Keeps m k now m') (second : Keeps m' k now m'') : Keeps m k now m'' :=
  ⟨fun e he => first.entries e (second.entries e he),
    fun e found fresh => second.fresh e (first.fresh e found fresh) fresh⟩

theorem beginWrite : Keeps m k now m.beginWrite := ⟨fun _ h => h, fun _ h _ => h⟩

theorem erase (other : k ≠ key) : Keeps m k now (m.erase key) := filter fun _ _ => by simpa using other

theorem insert (other : k ≠ key) {d : Entry} : Keeps m k now (m.insert key d) where
  entries := by
    intro e he
    rcases mem_insert.mp he with ⟨he, -⟩ | ⟨same, -⟩
    · exact he
    · exact absurd same other
  fresh := fun _ found _ => find?_insert_other other found

theorem eraseStale : Keeps m k now (m.eraseIf key fun e => !e.isFresh now) :=
  filter fun e fresh => by simp [fresh]

theorem purge : Keeps m k now (m.purge now).1 := filter fun _ fresh => fresh

theorem eraseAll {items : List KeyValue} (others : k ∉ items.map (·.key)) :
    Keeps m k now (items.foldl (fun m i => m.erase i.key) m) := by
  induction items generalizing m with
  | nil => exact refl
  | cons i rest ih =>
    simp only [List.map_cons, List.mem_cons, not_or] at others
    exact (erase others.1).trans (ih others.2)

end Keeps

/-! ### The beginning of an operation -/

theorem begin_get : m.begin config (.get key) now =
    match m.fresh? key now with
    | some v => (m, .served (.value v))
    | none => (m.eraseIf key fun e => !e.isFresh now, .ask (.read key m.writes)) := by
  simp only [begin, look]
  cases m.fresh? key now <;> rfl

theorem begin_has : m.begin config (.has key) now =
    match m.fresh? key now with
    | some _ => (m, .served (.flag true))
    | none => (m.eraseIf key fun e => !e.isFresh now, .ask .pass) := by
  simp only [begin, look]
  cases m.fresh? key now <;> rfl

theorem writes_eraseAll {items : List KeyValue} : (items.foldl (fun m i => m.erase i.key) m).writes = m.writes := by
  induction items generalizing m with
  | nil => rfl
  | cons i rest ih => exact ih

theorem beginWrites {begun : Begun} (begins : m.begin config op now = (m', begun)) : m.writes ≤ m'.writes := by
  cases op with
  | get key =>
    rw [begin_get] at begins
    split at begins <;> cases begins <;> exact Nat.le_refl _
  | has key =>
    rw [begin_has] at begins
    split at begins <;> cases begins <;> exact Nat.le_refl _
  | set | delete =>
    cases begins
    exact Nat.le_succ _
  | batchSet items =>
    cases begins
    rw [writes_eraseAll]
    exact Nat.le_succ _

theorem beginKeeps {begun : Begun} (begins : m.begin config op now = (m', begun)) (away : k ∉ op.written) :
    Keeps m k now m' := by
  cases op with
  | get key =>
    rw [begin_get] at begins
    split at begins <;> cases begins
    · exact .refl
    · exact .eraseStale
  | has key =>
    rw [begin_has] at begins
    split at begins <;> cases begins
    · exact .refl
    · exact .eraseStale
  | set key value =>
    cases begins
    exact .trans .beginWrite (.insert (by simpa [Op.written] using away))
  | delete key =>
    cases begins
    exact .trans .beginWrite (.erase (by simpa [Op.written] using away))
  | batchSet items =>
    cases begins
    exact .trans .beginWrite (.eraseAll away)

/-! ### The end of an operation -/

/-- A read that missed gives what memory has by now, and stores its own value only if no write has begun since. -/
theorem finish_read {seen : Nat} {v : Json} : m.finish config (.read key seen) (.ok (.value v)) now =
    match m.fresh? key now with
    | some w => (m, .ok (.value w))
    | none =>
      if m.writes ≠ seen then (m, .ok (.value v))
      else (m.insert key ⟨v, now + config.expiration, 0⟩, .ok (.value v)) := by
  simp only [finish, fill]
  cases m.fresh? key now with
  | some w => rfl
  | none =>
    by_cases newer : m.writes ≠ seen
    · simp [newer]
    · simp [newer]

/-- What is done with memory when the store has answered: a read may store what it has read, a write that failed takes
its own entry back, and all else leaves memory as it is. -/
inductive Finishes (m : Memory) (config : CacheConfig) (now : Instant) :
    Pending → Except Error Answer → Memory → Except Error Answer → Prop where
  | remembered {key : String} {seen : Nat} {v w : Json} (served : m.fresh? key now = some w) :
      Finishes m config now (.read key seen) (.ok (.value v)) m (.ok (.value w))
  | stored {key : String} {v : Json} (missed : m.fresh? key now = none) :
      Finishes m config now (.read key m.writes) (.ok (.value v)) (m.insert key ⟨v, now + config.expiration, 0⟩)
        (.ok (.value v))
  | takenBack {key : String} {version : Nat} {e : Error} : Finishes m config now (.write key version) (.error e)
      (m.eraseIf key (·.version = version)) (.error e)
  | missing {e : Error} (absent : e.isNotFound = true) : Finishes m config now .deletion (.error e) m (.ok .done)
  | passed {p r} : Finishes m config now p r m r

theorem finishes {p : Pending} {r r' : Except Error Answer} (finished : m.finish config p r now = (m', r')) :
    Finishes m config now p r m' r' := by
  cases p with
  | read key seen =>
    rcases r with e | a | v | _
    case ok.value =>
      rw [finish_read] at finished
      split at finished
      · cases finished
        exact .remembered ‹_›
      · split at finished
        · cases finished
          exact .passed
        · rename_i missed same
          obtain rfl : m.writes = seen := by simpa using same
          cases finished
          exact .stored missed
    all_goals cases finished; exact .passed
  | pass =>
    cases finished
    exact .passed
  | write key version =>
    cases r <;> cases finished
    · exact .takenBack
    · exact .passed
  | deletion =>
    cases r with
    | ok a =>
      cases finished
      exact .passed
    | error e =>
      cases absent : e.isNotFound <;> simp only [finish, absent] at finished <;> cases finished
      · exact .passed
      · exact .missing absent

theorem finishWrites {p : Pending} {r r' : Except Error Answer} (finished : m.finish config p r now = (m', r')) :
    m'.writes = m.writes := by
  cases finishes finished <;> rfl

end Memory
end Switchyard.State
