/-!
Runs of systems that tell what happens, and histories in which everything that happens is allowed by what happened
before it.
-/
namespace Switchyard

variable {σ α : Type} {step : σ → List α → σ → Prop} {law : List α → α → Prop}

inductive Runs (step : σ → List α → σ → Prop) (init : σ) : List α → σ → Prop where
  | nil : Runs step init [] init
  | next {ms s new s'} (earlier : Runs step init ms s) (last : step s new s') : Runs step init (ms ++ new) s'

theorem Runs.trans {init s s' : σ} {xs ys : List α} (first : Runs step init xs s) (rest : Runs step s ys s') :
    Runs step init (xs ++ ys) s' := by
  induction rest with
  | nil => rwa [List.append_nil]
  | next earlier last ih =>
    rw [← List.append_assoc]
    exact .next ih last

theorem Runs.mono {step' : σ → List α → σ → Prop} {init s : σ} {ms : List α}
    (wider : ∀ s ms s', step s ms s' → step' s ms s') (run : Runs step init ms s) : Runs step' init ms s := by
  induction run with
  | nil => exact .nil
  | next earlier last ih => exact .next ih (wider _ _ _ last)

theorem sublist_without (before after : List α) (x : α) : (before ++ after).Sublist (before ++ x :: after) :=
  (List.sublist_cons_self x after).append_left before

/-- The marks of one kind. -/
theorem mem_project {β : Type} {f : α → Option β} {g : β → α} (only : ∀ a b, f a = some b ↔ a = g b) {xs : List α}
    {b : β} : b ∈ xs.filterMap f ↔ g b ∈ xs := by
  simp [List.mem_filterMap, only]

/-- Each mark is allowed by the marks before it, those of `past` first. -/
def Lawful (law : List α → α → Prop) : List α → List α → Prop
  | _, [] => True
  | past, m :: rest => law past m ∧ Lawful law (past ++ [m]) rest

namespace Lawful

theorem append {past xs ys : List α} :
    Lawful law past (xs ++ ys) ↔ Lawful law past xs ∧ Lawful law (past ++ xs) ys := by
  induction xs generalizing past with
  | nil => simp [Lawful]
  | cons x xs ih => simp [Lawful, ih, and_assoc]

theorem of_free {past xs : List α} (free : ∀ m ∈ xs, ∀ past, law past m) : Lawful law past xs := by
  induction xs generalizing past with
  | nil => trivial
  | cons x rest ih => exact ⟨free x List.mem_cons_self past, ih fun m mem => free m (List.mem_cons_of_mem _ mem)⟩

theorem split {past before after : List α} {m : α} (lawful : Lawful law past (before ++ m :: after)) :
    law (past ++ before) m :=
  (append.mp lawful).2.1

end Lawful
end Switchyard
