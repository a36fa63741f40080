import Mathlib.Data.List.Induction
import Switchyard.State.Batch
/-!
A window of which each key is kept once: the keys stand in the order in which they were first seen, each with its last
value. The index that goes along says of every key where its item stands, and of no other.
-/
namespace Switchyard.State

variable {items window : List KeyValue} {item i : KeyValue} {key : String} {m : Merged} {place : Nat}

/-- Puts an item over the one with its key, or at the end. -/
def merge (items : List KeyValue) (item : KeyValue) : List KeyValue :=
  match items with
  | [] => [item]
  | i :: rest => if i.key = item.key then { i with value := item.value } :: rest else i :: merge rest item

theorem mergeKeys : (merge items item).map (·.key) =
    if item.key ∈ items.map (·.key) then items.map (·.key) else items.map (·.key) ++ [item.key] := by
  induction items with
  | nil => rfl
  | cons i rest ih =>
    unfold merge
    split
    · rename_i same
      simp [same]
    · rename_i other
      have other' : ¬ item.key = i.key := fun same => other same.symm
      simp only [List.map_cons, ih, List.mem_cons, other', false_or]
      split <;> rfl

theorem mergeNodup (nodup : (items.map (·.key)).Nodup) : ((merge items item).map (·.key)).Nodup := by
  rw [mergeKeys]
  split
  · exact nodup
  · rename_i new
    refine List.nodup_append.mpr ⟨nodup, List.pairwise_singleton _ _, fun a seen b last same => new ?_⟩
    rwa [same, List.mem_singleton.mp last] at seen

theorem merge_over (found : (items.map (·.key)).idxOf? item.key = some place) (within : place < items.length) :
    merge items item = items.set place { items.get ⟨place, within⟩ with value := item.value } := by
  induction items generalizing place with
  | nil => cases found
  | cons i rest ih =>
    rw [List.map_cons, List.idxOf?_cons] at found
    unfold merge
    split at found
    · rename_i here
      cases found
      rw [if_pos (by simpa using here)]
      rfl
    · rename_i away
      obtain ⟨later, there, rfl⟩ := Option.map_eq_some_iff.mp found
      rw [if_neg (by simpa using away), ih there (Nat.lt_of_succ_lt_succ within)]
      rfl

theorem merge_new (new : item.key ∉ items.map (·.key)) : merge items item = items ++ [item] := by
  induction items with
  | nil => rfl
  | cons i rest ih =>
    simp only [List.map_cons, List.mem_cons, not_or] at new
    unfold merge
    rw [if_neg (Ne.symm new.1), ih new.2]
    rfl

theorem mem_merge (nodup : (items.map (·.key)).Nodup) (mem : i ∈ merge items item) :
    i = item ∨ i ∈ items ∧ i.key ≠ item.key := by
  induction items with
  | nil => exact .inl (List.mem_singleton.mp mem)
  | cons first rest ih =>
    obtain ⟨fresh, nodup⟩ := List.nodup_cons.mp nodup
    unfold merge at mem
    split at mem
    · rename_i same
      rcases List.mem_cons.mp mem with rfl | later
      · exact .inl (by rw [same])
      · refine .inr ⟨List.mem_cons_of_mem _ later, fun again => fresh ?_⟩
        exact List.mem_map.mpr ⟨i, later, again.trans same.symm⟩
    · rename_i other
      rcases List.mem_cons.mp mem with rfl | later
      · exact .inr ⟨List.mem_cons_self, other⟩
      · exact (ih nodup later).imp_right fun ⟨there, ne⟩ => ⟨List.mem_cons_of_mem _ there, ne⟩

theorem idxOf?_concat {keys : List String} {last : String} (new : last ∉ keys) :
    (keys ++ [last]).idxOf? key = if key = last then some keys.length else keys.idxOf? key := by
  rw [List.idxOf?, List.findIdx?_append]
  split
  · rename_i here
    subst here
    have missing : keys.findIdx? (· == key) = none := List.idxOf?_eq_none_iff.mpr new
    simp [missing]
  · rename_i away
    simp [Ne.symm away]

namespace Merged

/-- The index says where the item of a key stands, if there is one. -/
def Indexed (m : Merged) : Prop := ∀ key, m.index.lookup key = (m.items.map (·.key)).idxOf? key

theorem Indexed.addItems (indexed : m.Indexed) (item : KeyValue) : (m.add item).items = merge m.items item := by
  unfold add
  split
  · rename_i place found
    exact (merge_over (indexed item.key ▸ found) (m.within item.key place found)).symm
  · rename_i missing
    exact (merge_new (List.idxOf?_eq_none_iff.mp (indexed item.key ▸ missing))).symm

theorem Indexed.add (indexed : m.Indexed) (item : KeyValue) : (m.add item).Indexed := by
  intro key
  rw [indexed.addItems, mergeKeys]
  unfold Merged.add
  split
  · rename_i place found
    have seen : item.key ∈ m.items.map (·.key) := by
      by_contra new
      rw [indexed, List.idxOf?_eq_none_iff.mpr new] at found
      cases found
    rw [if_pos seen]
    exact indexed key
  · rename_i missing
    have new : item.key ∉ m.items.map (·.key) := List.idxOf?_eq_none_iff.mp (indexed item.key ▸ missing)
    rw [if_neg new, idxOf?_concat new, List.length_map, List.lookup_cons]
    by_cases same : key = item.key
    · simp [same]
    · simp [same, beq_false_of_ne same, indexed key]

/-- The loop merges one item after another. -/
theorem Indexed.run (indexed : m.Indexed) (window : List KeyValue) :
    (window.foldl Merged.add m).Indexed ∧ (window.foldl Merged.add m).items = window.foldl merge m.items := by
  induction window generalizing m with
  | nil => exact ⟨indexed, rfl⟩
  | cons i rest ih =>
    rw [List.foldl_cons, List.foldl_cons, ← indexed.addItems]
    exact ih (indexed.add i)

theorem ofItems_indexed (window : List KeyValue) : (ofItems window).Indexed := (Indexed.run (fun _ => rfl) window).1

/-- Where the index points stands an item of the key. -/
theorem Indexed.standsAt (indexed : m.Indexed) (found : m.index.lookup key = some place) :
    ∃ old, m.items[place]? = some old ∧ old.key = key := by
  rw [indexed] at found
  obtain ⟨within, same, -⟩ := List.idxOf?_eq_some_iff.mp found
  have stands : (m.items.map (·.key))[place]? = some key := List.getElem?_eq_some_iff.mpr ⟨within, same⟩
  rw [List.getElem?_map] at stands
  exact Option.map_eq_some_iff.mp stands

end Merged

theorem dedupe_eq : dedupe window = window.foldl merge [] := (Merged.Indexed.run (fun _ => rfl) window).2

theorem dedupe_concat : dedupe (window ++ [item]) = merge (dedupe window) item := by
  simp only [dedupe_eq, List.foldl_append, List.foldl_cons, List.foldl_nil]

theorem eraseDups_concat {keys : List String} :
    (keys ++ [key]).eraseDups = if key ∈ keys then keys.eraseDups else keys.eraseDups ++ [key] := by
  rw [List.eraseDups_append]
  by_cases seen : key ∈ keys <;> simp [List.removeAll, seen, List.eraseDups_cons]

theorem dedupeKeys : (dedupe window).map (·.key) = (window.map (·.key)).eraseDups := by
  induction window using List.reverseRecOn with
  | nil => rfl
  | append_singleton window item ih =>
    rw [dedupe_concat, mergeKeys, ih, List.map_append, List.map_singleton, eraseDups_concat]
    simp only [List.mem_eraseDups]

theorem dedupeNodup : ((dedupe window).map (·.key)).Nodup := by
  induction window using List.reverseRecOn with
  | nil => exact List.nodup_nil
  | append_singleton window item ih =>
    rw [dedupe_concat]
    exact mergeNodup ih

/-- What is kept of a key is its last item. -/
theorem mem_dedupe (mem : i ∈ dedupe window) :
    ∃ before after, window = before ++ i :: after ∧ ∀ later ∈ after, later.key ≠ i.key := by
  induction window using List.reverseRecOn with
  | nil => cases mem
  | append_singleton window item ih =>
    rw [dedupe_concat] at mem
    obtain rfl | ⟨kept, other⟩ := mem_merge dedupeNodup mem
    · exact ⟨window, [], rfl, nofun⟩
    · obtain ⟨before, after, rfl, last⟩ := ih kept
      refine ⟨before, after ++ [item], by simp, fun later there => ?_⟩
      rcases List.mem_append.mp there with old | new
      · exact last later old
      · rw [List.mem_singleton.mp new]
        exact Ne.symm other

theorem merges_new (nodup : ((items ++ window).map (·.key)).Nodup) : window.foldl merge items = items ++ window := by
  induction window generalizing items with
  | nil => exact (List.append_nil items).symm
  | cons i rest ih =>
    have new : i.key ∉ items.map (·.key) := by
      rw [List.map_append, List.map_cons] at nodup
      exact fun seen => (List.nodup_append.mp nodup).2.2 _ seen _ List.mem_cons_self rfl
    rw [List.foldl_cons, merge_new new, ih (by rwa [List.append_assoc]), List.append_assoc]
    rfl

/-- Nothing is left to merge. -/
theorem dedupe_dedupe : dedupe (dedupe window) = dedupe window := by
  rw [dedupe_eq, merges_new (by exact dedupeNodup)]
  rfl

end Switchyard.State
