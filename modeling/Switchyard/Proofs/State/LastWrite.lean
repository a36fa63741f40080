import Switchyard.Proofs.State.Agreement
/-!
Reads of a key after its last write, without batching. The counter that keeps a slow read from storing what it has read
is moved when a write begins, not when the store has done it: a read that begins in between and sees the store first
puts back what the write has taken away.
-/
namespace Switchyard.State.Front

variable {config : CacheConfig} {k : String} {n : Nat} {xs : List Mark} {s₁ s₂ : Front}

/-- No read of the key that has begun after the call is ahead of a write of the key at the store. -/
def Uncrossed (k : String) (n : Nat) (ms : List Mark) : Prop :=
  ∀ before j queued after, ms = before ++ .landed j (.get k) queued :: after → n < j → ∀ m ∈ after, ¬ m.Stores k

theorem Uncrossed.settled (uncrossed : Uncrossed k n xs) (final : Front) :
    Settled k (final.shelf k) (After k n) (xs ++ []) final := by
  rintro before j op queued after split ⟨rfl, later⟩
  rw [List.append_nil] at split
  exact ⟨rfl, uncrossed before j queued after split later⟩

theorem After.reads {j : Nat} {op : Op} (after : After k n j op) : Reads k op := .inl after.1

/-- From the moment at which nothing more is on its way to the key, the store keeps what it holds for it, and reads are
answered so. -/
theorem readsOnceIdle {watched : Nat → Op → Prop} {latest : Nat} {past ys : List Mark} {s : Front}
    (sound : Sound config s₂) (reads : ∀ j op, watched j op → Reads k op)
    (agrees : Agrees k (s₂.shelf k) watched latest past s₂) (idle : Idle k s₂) (later : Run s₂ ys s)
    (quiet : Quiet k ys) :
    s.shelf k = s₂.shelf k ∧
    ∀ j op r, Mark.ended j op r ∈ ys → watched j op → Right (s.shelf k) (past ++ ys) j op r := by
  obtain ⟨-, -, none⟩ := runIdle later sound quiet idle
  have shelf := runStores later none
  have settled : Settled k (s₂.shelf k) watched (ys ++ []) s := by
    intro before j op queued after split watching
    rw [List.append_nil] at split
    refine ⟨shelf, fun m mem => none m ?_⟩
    rw [split]
    exact List.mem_append_right _ (List.mem_cons_of_mem _ mem)
  rw [shelf]
  exact ⟨rfl, (runAgrees later .nil sound reads agrees quiet settled).2.2⟩

/-- Without batching, when a write of a key is the last to begin and no other is under way any more, the store keeps
what it holds for the key, and every read that begins from then on is answered so, or the store fails on it: provided
that no read that has begun after the write has overtaken one at the store, and that the value which the write has set,
if it has set one, is what the store has come to hold. -/
theorem readsAfterLastWrite {shelf : Shelf} {past more ys : List Mark} {s₀ s : Front} {op op' : Op}
    {time began : Instant} {j : Nat} {r : Except Error Answer} (off : config.batch = false)
    (earlier : Run (start config shelf) past s₀) (begins : Step s₀ (.begun n op time :: more) s₁)
    (written : k ∈ op.written) (settles : Run s₁ xs s₂) (last : ∀ c ∈ s₂.calls, k ∉ c.op.written)
    (later : Run s₂ ys s) (quiet : Quiet k (xs ++ ys)) (uncrossed : Uncrossed k n xs)
    (kept : ∀ v, op = .set k v → s₂.shelf k = some v) (begun : .begun j op' began ∈ ys)
    (reads : op' = .get k ∨ op' = .has k) (ended : .ended j op' r ∈ ys) :
    s.shelf k = s₂.shelf k ∧ (r = s.shelf.answer op' ∨ (∃ e, r = .error e) ∧ .failed j ∈ xs ++ ys) := by
  have sound₁ : Sound config s₁ := runSound (.next earlier begins)
  obtain ⟨before, after⟩ := Quiet.append.mp quiet
  obtain ⟨sound₂, agrees, -⟩ := runAgrees settles .nil sound₁ (fun _ _ => After.reads)
    (writeAgrees (runSound earlier) begins written kept) before (uncrossed.settled s₂)
  let watched : Nat → Op → Prop := fun i o => After k n i o ∨ (Reads k o ∧ s₂.total ≤ i)
  have wider : Agrees k (s₂.shelf k) watched (s₀.memory.writes + 1) xs s₂ := by
    refine agrees.widen (fun _ _ => .inl) fun c mem watching => watching.resolve_right fun new => ?_
    exact absurd (sound₂.numbers c mem) (Nat.not_lt.mpr new.2)
  have idle : Idle k s₂ := ⟨last, .inl (sound₂.alone off)⟩
  obtain ⟨same, right⟩ := readsOnceIdle sound₂ (fun _ _ h => h.elim After.reads And.left) wider idle later after
  have new : s₂.total ≤ j := (runNumbers later).2 j op' began begun
  have answered := right j op' r ended (.inr ⟨reads, new⟩)
  rw [Right, answerHome reads] at answered
  exact ⟨same, answered⟩

/-! ### A deletion with a read in its way -/

def shadowShelf : Shelf := Shelf.put (fun _ => none) "k" (.bool true)

/-- What the read has stored. -/
def shadowEntry : Entry := ⟨.bool true, Span.ofSeconds 300, 0⟩

def shadow (entries : List (String × Entry)) (shelf : Shelf) (calls : List Call) (total : Nat) : Front :=
  { start {} shelf with memory := ⟨entries, 1⟩, calls, total }

def shadowDeletion (stage : Stage) : Call := ⟨0, .delete "k", 0, stage⟩

def shadowRead (n : Nat) (stage : Stage) : Call := ⟨n, .get "k", 0, stage⟩

theorem shadowBegins : Step (start {} shadowShelf) [.begun 0 (.delete "k") 0]
    (shadow [] shadowShelf [shadowDeletion (.asked .deletion)] 1) :=
  .enter (.delete "k") rfl (.asks .deletion)

def shadowMarks : List Mark :=
  [.begun 1 (.get "k") 0, .landed 1 (.get "k") [], .ended 1 (.get "k") (.ok (.value (.bool true))),
   .landed 0 (.delete "k") [], .ended 0 (.delete "k") (.ok .done)]

theorem shadowSettles : Run (shadow [] shadowShelf [shadowDeletion (.asked .deletion)] 1) shadowMarks
    (shadow [("k", shadowEntry)] (shadowShelf.remove "k") [] 2) := by
  have begun : Step (shadow [] shadowShelf [shadowDeletion (.asked .deletion)] 1) [.begun 1 (.get "k") 0]
      (shadow [] shadowShelf [shadowDeletion (.asked .deletion), shadowRead 1 (.asked (.read "k" 1))] 2) :=
    .enter (.get "k") rfl (.asks (.read "k" 1))
  have read : Step (shadow [] shadowShelf [shadowDeletion (.asked .deletion), shadowRead 1 (.asked (.read "k" 1))] 2)
      [.landed 1 (.get "k") []]
      (shadow [] shadowShelf [shadowDeletion (.asked .deletion),
        shadowRead 1 (.answered (.read "k" 1) (.ok (.value (.bool true))))] 2) :=
    @Step.move _ [shadowDeletion (.asked .deletion)] [] (shadowRead 1 (.asked (.read "k" 1))) _ _ _ _ rfl
      (.lands (.read "k" 1))
  have stored : Step (shadow [] shadowShelf [shadowDeletion (.asked .deletion),
        shadowRead 1 (.answered (.read "k" 1) (.ok (.value (.bool true))))] 2)
      [.ended 1 (.get "k") (.ok (.value (.bool true)))]
      (shadow [("k", shadowEntry)] shadowShelf [shadowDeletion (.asked .deletion)] 2) :=
    @Step.answer _ [shadowDeletion (.asked .deletion)] []
      (shadowRead 1 (.answered (.read "k" 1) (.ok (.value (.bool true))))) _ _ _ _ rfl rfl rfl
  have deleted : Step (shadow [("k", shadowEntry)] shadowShelf [shadowDeletion (.asked .deletion)] 2)
      [.landed 0 (.delete "k") []]
      (shadow [("k", shadowEntry)] (shadowShelf.remove "k") [shadowDeletion (.answered .deletion (.ok .done))] 2) :=
    @Step.move _ [] [] (shadowDeletion (.asked .deletion)) _ _ _ _ rfl (.lands .deletion)
  have ended : Step
      (shadow [("k", shadowEntry)] (shadowShelf.remove "k") [shadowDeletion (.answered .deletion (.ok .done))] 2)
      [.ended 0 (.delete "k") (.ok .done)] (shadow [("k", shadowEntry)] (shadowShelf.remove "k") [] 2) :=
    @Step.answer _ [] [] (shadowDeletion (.answered .deletion (.ok .done))) _ _ _ _ rfl rfl rfl
  exact ((((Runs.nil.next begun).next read).next stored).next deleted).next ended

theorem shadowServed : Run (shadow [("k", shadowEntry)] (shadowShelf.remove "k") [] 2)
    [.begun 2 (.get "k") 0, .ended 2 (.get "k") (.ok (.value (.bool true)))]
    (shadow [("k", shadowEntry)] (shadowShelf.remove "k") [] 3) := by
  have begun : Step (shadow [("k", shadowEntry)] (shadowShelf.remove "k") [] 2) [.begun 2 (.get "k") 0]
      (shadow [("k", shadowEntry)] (shadowShelf.remove "k")
        [shadowRead 2 (.answered .pass (.ok (.value (.bool true))))] 3) :=
    .enter (.get "k") rfl (.served _)
  have ended : Step (shadow [("k", shadowEntry)] (shadowShelf.remove "k")
        [shadowRead 2 (.answered .pass (.ok (.value (.bool true))))] 3)
      [.ended 2 (.get "k") (.ok (.value (.bool true)))] (shadow [("k", shadowEntry)] (shadowShelf.remove "k") [] 3) :=
    @Step.answer _ [] [] (shadowRead 2 (.answered .pass (.ok (.value (.bool true))))) _ _ _ _ rfl rfl rfl
  exact (Runs.nil.next begun).next ended

/-- The deletion has returned and no write is under way, and the value is still served. -/
theorem deletedServed : ∃ s₁ s₂ s, Step (start {} shadowShelf) [.begun 0 (.delete "k") 0] s₁ ∧
    Run s₁ shadowMarks s₂ ∧ Mark.ended 0 (.delete "k") (.ok .done) ∈ shadowMarks ∧ Quiet "k" shadowMarks ∧
    s₂.calls = [] ∧ Run s₂ [.begun 2 (.get "k") 0, .ended 2 (.get "k") (.ok (.value (.bool true)))] s ∧
    s.shelf "k" = none := by
  refine ⟨_, _, _, shadowBegins, shadowSettles, by simp [shadowMarks], fun j op time mem => ?_, rfl, shadowServed, rfl⟩
  obtain ⟨-, rfl, -⟩ : j = 1 ∧ op = .get "k" ∧ time = 0 := by simpa [shadowMarks] using mem
  exact List.not_mem_nil

theorem plainlyDeleted : Run (shadow [] shadowShelf [shadowDeletion (.asked .deletion)] 1)
    [.landed 0 (.delete "k") [], .ended 0 (.delete "k") (.ok .done)] (shadow [] (shadowShelf.remove "k") [] 1) := by
  have deleted : Step (shadow [] shadowShelf [shadowDeletion (.asked .deletion)] 1) [.landed 0 (.delete "k") []]
      (shadow [] (shadowShelf.remove "k") [shadowDeletion (.answered .deletion (.ok .done))] 1) :=
    @Step.move _ [] [] (shadowDeletion (.asked .deletion)) _ _ _ _ rfl (.lands .deletion)
  have ended : Step (shadow [] (shadowShelf.remove "k") [shadowDeletion (.answered .deletion (.ok .done))] 1)
      [.ended 0 (.delete "k") (.ok .done)] (shadow [] (shadowShelf.remove "k") [] 1) :=
    @Step.answer _ [] [] (shadowDeletion (.answered .deletion (.ok .done))) _ _ _ _ rfl rfl rfl
  exact (Runs.nil.next deleted).next ended

theorem plainlyMissed : Run (shadow [] (shadowShelf.remove "k") [] 1)
    [.begun 1 (.get "k") 0, .landed 1 (.get "k") [], .ended 1 (.get "k") (.error (.notFound "k"))]
    (shadow [] (shadowShelf.remove "k") [] 2) := by
  have begun : Step (shadow [] (shadowShelf.remove "k") [] 1) [.begun 1 (.get "k") 0]
      (shadow [] (shadowShelf.remove "k") [shadowRead 1 (.asked (.read "k" 1))] 2) :=
    .enter (.get "k") rfl (.asks (.read "k" 1))
  have missed : Step (shadow [] (shadowShelf.remove "k") [shadowRead 1 (.asked (.read "k" 1))] 2)
      [.landed 1 (.get "k") []]
      (shadow [] (shadowShelf.remove "k") [shadowRead 1 (.answered (.read "k" 1) (.error (.notFound "k")))] 2) :=
    @Step.move _ [] [] (shadowRead 1 (.asked (.read "k" 1))) _ _ _ _ rfl (.lands (.read "k" 1))
  have ended : Step
      (shadow [] (shadowShelf.remove "k") [shadowRead 1 (.answered (.read "k" 1) (.error (.notFound "k")))] 2)
      [.ended 1 (.get "k") (.error (.notFound "k"))] (shadow [] (shadowShelf.remove "k") [] 2) :=
    @Step.answer _ [] [] (shadowRead 1 (.answered (.read "k" 1) (.error (.notFound "k")))) _ _ _ _ rfl rfl rfl
  exact ((Runs.nil.next begun).next missed).next ended

theorem deletedMissed :
    (.error (.notFound "k") : Except Error Answer) = (shadowShelf.remove "k").answer (.get "k") := by
  refine (readsAfterLastWrite rfl .nil shadowBegins List.mem_cons_self plainlyDeleted nofun plainlyMissed ?_ ?_ nofun
    List.mem_cons_self (.inl rfl) (by simp)).2.resolve_right (by simp)
  · intro j op time mem
    obtain ⟨-, rfl, -⟩ : j = 1 ∧ op = .get "k" ∧ time = 0 := by simpa using mem
    exact List.not_mem_nil
  · intro before j queued after split
    have mem : Mark.landed j (.get "k") queued ∈
        [.landed 0 (.delete "k") [], .ended 0 (.delete "k") (.ok .done)] := split ▸ by simp
    simp at mem

end Switchyard.State.Front
