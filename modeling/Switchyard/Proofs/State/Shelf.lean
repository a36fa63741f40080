import Switchyard.Proofs.State.Merging
import Switchyard.Testing.Store
/-!
What a store holds under each key, what the operations make of it, and what they are answered. A window of items leaves
the same behind whether it is written item by item or each key once with its last value.
-/
namespace Switchyard.State

abbrev Shelf := String → Option Json

def Op.written : Op → List String
  | .has _ | .get _ => []
  | .set key _ | .delete key => [key]
  | .batchSet items => items.map (·.key)

namespace Shelf

variable {s t : Shelf} {items : List KeyValue} {item : KeyValue} {key k : String} {value : Json} {op : Op}

def put (s : Shelf) (key : String) (value : Json) : Shelf := fun k => if k = key then some value else s k

def remove (s : Shelf) (key : String) : Shelf := fun k => if k = key then none else s k

def write (s : Shelf) (items : List KeyValue) : Shelf := items.foldl (fun s i => s.put i.key i.value) s

def apply (s : Shelf) : Op → Shelf
  | .has _ | .get _ => s
  | .set key value => s.put key value
  | .delete key => s.remove key
  | .batchSet items => s.write items

def answer (s : Shelf) : Op → Except Error Answer
  | .has key => .ok (.flag (s key).isSome)
  | .get key =>
    match s key with
    | some v => .ok (.value v)
    | none => .error (.notFound key)
  | .set _ _ | .batchSet _ => .ok .done
  | .delete key => if (s key).isSome then .ok .done else .error (.notFound key)

theorem put_same : s.put key value key = some value := if_pos rfl

theorem put_other (ne : k ≠ key) : s.put key value k = s k := if_neg ne

theorem write_append {more : List KeyValue} : s.write (items ++ more) = (s.write items).write more :=
  List.foldl_append

theorem write_absent (absent : k ∉ items.map (·.key)) : s.write items k = s k := by
  induction items generalizing s with
  | nil => rfl
  | cons i rest ih =>
    simp only [List.map_cons, List.mem_cons, not_or] at absent
    exact (ih absent.2).trans (put_other absent.1)

theorem write_present (present : k ∈ items.map (·.key)) : s.write items k = t.write items k := by
  induction items generalizing s t with
  | nil => cases present
  | cons i rest ih =>
    by_cases later : k ∈ rest.map (·.key)
    · exact ih later
    · have here : k = i.key := by simpa [later] using present
      have first : ∀ u : Shelf, u.write (i :: rest) k = some i.value := by
        intro u
        have last : u.write (i :: rest) k = u.put i.key i.value k := write_absent later
        rw [last, here, put_same]
      rw [first, first]

theorem apply_absent (absent : k ∉ op.written) : s.apply op k = s k := by
  cases op with
  | has | get => rfl
  | set key value => exact put_other (by simpa [Op.written] using absent)
  | delete key => exact if_neg (by simpa [Op.written] using absent)
  | batchSet items => exact write_absent absent

theorem apply_present (present : k ∈ op.written) : s.apply op k = t.apply op k := by
  cases op with
  | has | get => cases present
  | set key value | delete key =>
    obtain rfl : k = key := by simpa [Op.written] using present
    simp [apply, put, remove]
  | batchSet items => exact write_present present

/-! ### A window written key by key -/

theorem write_merge (nodup : (items.map (·.key)).Nodup) :
    s.write (merge items item) = (s.write items).put item.key item.value := by
  induction items generalizing s with
  | nil => rfl
  | cons i rest ih =>
    obtain ⟨fresh, nodup⟩ := List.nodup_cons.mp nodup
    unfold merge
    split
    · rename_i same
      -- the key of the item stands only here, so writing it now or at the end is the same
      funext k
      by_cases here : k = item.key
      · have absent : k ∉ rest.map (·.key) := here ▸ same ▸ fresh
        have written : s.write ({ i with value := item.value } :: rest) k = s.put i.key item.value k :=
          write_absent absent
        rw [written, here, ← same, put_same, put_same]
      · rw [put_other here]
        by_cases later : k ∈ rest.map (·.key)
        · exact write_present later
        · have absent : ∀ v, s.write ({ i with value := v } :: rest) k = s k := by
            intro v
            have written : s.write ({ i with value := v } :: rest) k = s.put i.key v k := write_absent later
            rw [written, put_other (same ▸ here)]
          exact (absent item.value).trans (absent i.value).symm
    · exact ih nodup

/-- Writing each key once with its last value leaves the same behind as writing all items in order. -/
theorem write_dedupe : s.write (dedupe items) = s.write items := by
  induction items using List.reverseRecOn with
  | nil => rfl
  | append_singleton window item ih =>
    calc s.write (dedupe (window ++ [item]))
      _ = s.write (merge (dedupe window) item) := by rw [dedupe_concat]
      _ = (s.write (dedupe window)).put item.key item.value := write_merge dedupeNodup
      _ = s.write (window ++ [item]) := by rw [ih, write_append]; rfl

end Shelf
end Switchyard.State

namespace Switchyard.Testing.Store

open State

theorem lookupFirst {data : List (String × Json)} {j k : String} {v : Json} :
    ((j, v) :: data).lookup k = if k = j then some v else data.lookup k := by
  by_cases same : k = j
  · simp [same]
  · simp [List.lookup_cons, beq_false_of_ne same, same]

theorem lookup_put {data : List (String × Json)} {key k : String} {value : Json} :
    (put data key value).lookup k = if k = key then some value else data.lookup k := by
  induction data with
  | nil => exact lookupFirst
  | cons d rest ih =>
    obtain ⟨j, v⟩ := d
    unfold put
    split
    · rename_i here
      subst here
      rw [lookupFirst, lookupFirst]
      split <;> rfl
    · rename_i away
      rw [lookupFirst, lookupFirst, ih]
      by_cases same : k = j
      · simp [same, away]
      · simp [same]

theorem lookup_removed {data : List (String × Json)} {key k : String} :
    (data.filter (·.1 ≠ key)).lookup k = if k = key then none else data.lookup k := by
  induction data with
  | nil => simp
  | cons d rest ih =>
    obtain ⟨j, v⟩ := d
    rw [lookupFirst]
    by_cases here : j = key
    · rw [List.filter_cons_of_neg (by simpa using here), ih]
      by_cases same : k = key
      · simp [same]
      · simp [same, here]
    · rw [List.filter_cons_of_pos (by simpa using here), lookupFirst, ih]
      by_cases same : k = j
      · simp [same, here]
      · simp [same]

theorem lookup_writes {items : List KeyValue} {data : List (String × Json)} :
    (fun k => (items.foldl (fun d i => put d i.key i.value) data).lookup k) =
      Shelf.write (fun k => data.lookup k) items := by
  induction items generalizing data with
  | nil => rfl
  | cons i rest ih =>
    have first : (fun k => (put data i.key i.value).lookup k) =
        Shelf.put (fun k => data.lookup k) i.key i.value := by
      funext k
      exact lookup_put
    exact ih.trans (by rw [first]; rfl)

theorem apply_shelf (s : Store) (op : Op) :
    (s.apply op).1.value? = Shelf.apply s.value? op ∧ (s.apply op).2 = Shelf.answer s.value? op := by
  cases op with
  | has | get => exact ⟨rfl, rfl⟩
  | set key value => exact ⟨funext fun k => lookup_put, rfl⟩
  | batchSet items => exact ⟨lookup_writes, rfl⟩
  | delete key =>
    cases held : s.value? key with
    | some v =>
      simp only [apply, held, Shelf.answer, Option.isSome_some, if_true, and_true]
      exact funext fun k => lookup_removed
    | none =>
      simp only [apply, held, Shelf.answer, Option.isSome_none, Bool.false_eq_true, if_false, and_true]
      funext k
      by_cases same : k = key
      · rw [same, held]
        exact (if_pos rfl).symm
      · exact (if_neg same).symm

theorem sets_shelf (s : Store) (items : List KeyValue) :
    (items.foldl (fun s i => (s.apply (.set i.key i.value)).1) s).value? = Shelf.write s.value? items := by
  induction items generalizing s with
  | nil => rfl
  | cons i rest ih =>
    rw [List.foldl_cons, ih, (apply_shelf s _).1]
    rfl

end Switchyard.Testing.Store

namespace Switchyard.State

open Testing

/-- Of a window each key is kept once, in the order of the first items and with the last value, and nothing is looked for
where nothing stands. Written in one batch, what is kept leaves every store with the values it has after all items were
set in turn, and nothing is left to merge. -/
theorem keysOnceWithLastValues (window : List KeyValue) :
    (∀ before item after, window = before ++ item :: after →
      ∀ place, (Merged.ofItems before).index.lookup item.key = some place →
        ∃ old, (Merged.ofItems before).items[place]? = some old ∧ old.key = item.key) ∧
    (dedupe window).map (·.key) = (window.map (·.key)).eraseDups ∧ ((dedupe window).map (·.key)).Nodup ∧
    (∀ item ∈ dedupe window, ∃ before after, window = before ++ item :: after ∧ ∀ later ∈ after, later.key ≠ item.key) ∧
    (∀ s : Store, (s.apply (.batchSet (dedupe window))).1.value? =
      (window.foldl (fun s i => (s.apply (.set i.key i.value)).1) s).value?) ∧
    dedupe (dedupe window) = dedupe window := by
  refine ⟨fun before item after _ place found => ?_, dedupeKeys, dedupeNodup, fun item kept => mem_dedupe kept,
    fun s => ?_, dedupe_dedupe⟩
  · exact (Merged.ofItems_indexed before).standsAt found
  · calc (s.apply (.batchSet (dedupe window))).1.value?
      _ = Shelf.write s.value? (dedupe window) := (Store.apply_shelf s _).1
      _ = Shelf.write s.value? window := Shelf.write_dedupe
      _ = (window.foldl (fun s i => (s.apply (.set i.key i.value)).1) s).value? := (Store.sets_shelf s window).symm

/-! A window in which a key comes again after another. -/

def againWindow : List KeyValue := [⟨"a", .int 1⟩, ⟨"b", .int 2⟩, ⟨"a", .int 3⟩]

theorem againKept : dedupe againWindow = [⟨"a", .int 3⟩, ⟨"b", .int 2⟩] ∧
    (∃ old, (Merged.ofItems [⟨"a", .int 1⟩, ⟨"b", .int 2⟩]).items[0]? = some old ∧ old.key = "a") ∧
    ∃ before after, againWindow = before ++ ⟨"a", .int 3⟩ :: after ∧ ∀ later ∈ after, later.key ≠ "a" := by
  obtain ⟨bounded, -, -, last, -⟩ := keysOnceWithLastValues againWindow
  have kept : dedupe againWindow = [⟨"a", .int 3⟩, ⟨"b", .int 2⟩] := by rfl
  refine ⟨kept, ?_, ?_⟩
  · exact bounded [⟨"a", .int 1⟩, ⟨"b", .int 2⟩] ⟨"a", .int 3⟩ [] rfl 0 (by rfl)
  · exact last ⟨"a", .int 3⟩ (by rw [kept]; exact List.mem_cons_self)

end Switchyard.State
