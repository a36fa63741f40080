import Switchyard.Proofs.Breaker.Guarded
/-!
A task that has its turn keeps it until it comes to a wait. What it does in between is told one step of the machine after
the other: a computation starts over the frames it stands on, and its end goes to the innermost of them.
-/
namespace Switchyard.Rehearsal

variable {α β : Type} {id : Nat} {w w' : World} {t : Task}

namespace Act

/-- The same world, but for the breakers and what is told. -/
def Told (w w' : World) : Prop := ∃ circuits written reports logs, w' = { w with circuits, written, reports, logs }

theorem Told.refl (w : World) : Told w w := ⟨w.circuits, w.written, w.reports, w.logs, rfl⟩

/-- Nothing is touched but the breakers and what is told. -/
def Aside (x : Act α) : Prop := ∀ w, Told w (x w).2

namespace Aside

theorem pure (a : α) : Aside (Pure.pure a : Act α) := Told.refl

theorem get : Aside (MonadStateOf.get : Act World) := Told.refl

theorem bind {x : Act α} {f : α → Act β} (first : Aside x) (next : ∀ a, Aside (f a)) : Aside (x >>= f) := by
  intro w
  obtain ⟨circuits, written, reports, logs, done⟩ := first w
  obtain ⟨circuits', written', reports', logs', done'⟩ := next (x w).1 (x w).2
  refine ⟨circuits', written', reports', logs', done'.trans ?_⟩
  rw [done]

theorem applyTo (on : BreakerId) (f : Breaker → Instant → Breaker × List Breaker.Transition) : Aside (applyTo on f) := by
  intro w
  show Told w ((Act.applyTo on f).run w).2
  simp only [Act.applyTo, StateT.run_modifyGet]
  cases w.circuit? on with
  | none => exact Told.refl w
  | some c => exact ⟨_, w.written, w.reports, w.logs, rfl⟩

theorem discreet (on : BreakerId) : Discreet on Aside where
  pure := pure
  bind := bind
  get := get
  log _ _ := fun w => ⟨w.circuits, _, w.reports, _, rfl⟩
  report _ := fun w => ⟨w.circuits, w.written, _, w.logs, rfl⟩
  refreshing := applyTo on _

theorem acquire (on : BreakerId) : Aside (acquire on) := by
  refine bind get fun w => ?_
  cases w.circuit? on with
  | none => exact pure _
  | some c => exact bind (applyTo on _) fun _ => (discreet on).answering _ _ _

theorem settle (on : BreakerId) (generation : Nat) (o : Ended) : Aside (settle on generation o) := by
  refine bind get fun w => ?_
  cases w.circuit? on with
  | none => exact pure _
  | some c => exact bind (applyTo on _) fun changes => (discreet on).announce _ _

end Aside
end Act

namespace Machine

open Act

/-- A task has its turn. -/
def Turn (id : Nat) (t : Task) (w : World) : Prop := w.current = some id ∧ w.task? id = some t

/-- The same world, but for the tasks and for scopes that nobody holds. -/
def Tidied (w w' : World) : Prop := ∃ tasks tree, w' = { w with tasks, scopes := { w.scopes with tree } }

theorem Tidied.trans {w'' : World} (first : Tidied w w') (rest : Tidied w' w'') : Tidied w w'' := by
  obtain ⟨_, _, rfl⟩ := first
  obtain ⟨tasks, tree, rfl⟩ := rest
  exact ⟨tasks, tree, rfl⟩

/-- The same world, but for the tasks, scopes that nobody holds, the breakers and what is told. -/
def Beside (w w' : World) : Prop :=
  ∃ tasks tree circuits written reports logs,
    w' = { w with tasks, scopes := { w.scopes with tree }, circuits, written, reports, logs }

theorem Beside.trans {w'' : World} (first : Beside w w') (rest : Beside w' w'') : Beside w w'' := by
  obtain ⟨_, _, _, _, _, _, rfl⟩ := first
  obtain ⟨tasks, tree, circuits, written, reports, logs, rfl⟩ := rest
  exact ⟨tasks, tree, circuits, written, reports, logs, rfl⟩

theorem Tidied.beside (tidied : Tidied w w') : Beside w w' := by
  obtain ⟨tasks, tree, rfl⟩ := tidied
  exact ⟨tasks, tree, w.circuits, w.written, w.reports, w.logs, rfl⟩

theorem Beside.of_told (told : Told w w') : Beside w w' := by
  obtain ⟨circuits, written, reports, logs, rfl⟩ := told
  exact ⟨w.tasks, w.scopes.tree, circuits, written, reports, logs, rfl⟩

theorem prune_tree (w : World) : ∃ tree, w.prune = { w with scopes := { w.scopes with tree } } := by
  have released (free : List Nat) (s : Scopes) : ∃ tree, free.foldl Scopes.release s = { s with tree } := by
    induction free generalizing s with
    | nil => exact ⟨s.tree, rfl⟩
    | cons scope rest ih =>
      obtain ⟨tree, once⟩ := s.release_tree scope
      obtain ⟨tree', more⟩ := ih { s with tree }
      refine ⟨tree', ?_⟩
      rw [List.foldl_cons, once, more]
  obtain ⟨tree, done⟩ := released ((w.scopes.tree.map (·.number)).filter (!w.held.contains ·)).reverse w.scopes
  exact ⟨tree, by rw [World.prune, done]⟩

/-- The task goes on over a stack with what comes of a computation. -/
def proceed (id : Nat) (stack : List Frame) (x : Act Move) : Act Unit := do
  modifyTask id ({ · with stack })
  let m ← x
  modifyTask id ({ · with mode := .moving m })

theorem advance_turn {m : Move} (turn : Turn id t w) (moving : t.mode = .moving m) :
    advance w = (true, (move id t m w.prune).2) := by
  obtain ⟨has, stands⟩ := turn
  have has' : w.prune.current = some id := has
  have stands' : w.prune.task? id = some t := stands
  show (advance).run w = _
  simp only [advance, StateT.run_bind, StateT.run_modify, StateT.run_get, pure_bind, has', stands', moving]
  rfl

theorem proceed_snd {stack : List Frame} {x : Act Move}
    (begins : w' = { w with tasks := w.tasks.modify id ({ · with stack }) }) :
    (proceed id stack x w).2 =
      { (x w').2 with tasks := (x w').2.tasks.modify id ({ · with mode := .moving (x w').1 }) } := by
  subst begins
  rfl

/-- In one step a computation is done that touches nothing, and the task is left with the move that comes of it. -/
def Advances (id : Nat) (t : Task) (x : Act Move) (w : World) : Prop :=
  ∃ w', Tidied w w' ∧ Told w' (x w').2 ∧ Tidied (x w').2 (advance w).2 ∧ (advance w).1 = true ∧
    Turn id { t with mode := .moving (x w').1 } (advance w).2

theorem proceed_advances {x : Act Move} {stack : List Frame} (turn : Turn id t w)
    (goesOn : advance w = (true, (proceed id stack x w.prune).2)) (quiet : ∀ w', Tidied w w' → Told w' (x w').2) :
    Advances id { t with stack } x w := by
  obtain ⟨has, stands⟩ := turn
  obtain ⟨tree, pruned⟩ := prune_tree w
  let w' : World := { w with tasks := w.tasks.modify id ({ · with stack }), scopes := { w.scopes with tree } }
  have tidied : Tidied w w' := ⟨_, tree, rfl⟩
  obtain ⟨circuits, written, reports, logs, done⟩ := quiet w' tidied
  have runs : (proceed id stack x w.prune).2 =
      { w' with circuits, written, reports, logs, tasks := w'.tasks.modify id ({ · with mode := .moving (x w').1 }) } := by
    have begins : w' = { w.prune with tasks := w.prune.tasks.modify id ({ · with stack }) } := by rw [pruned]
    rw [proceed_snd begins, done]
  refine ⟨w', tidied, ⟨circuits, written, reports, logs, done⟩, ?_, ?_, ?_⟩
  · rw [goesOn, runs, done]
    exact ⟨_, tree, rfl⟩
  · rw [goesOn]
  · have there : w.tasks[id]? = some t := stands
    rw [goesOn, runs]
    exact ⟨has, by simp [World.task?, w', there]⟩

/-- A computation starts over the frames of the task and those that are put on them. -/
theorem advance_go {frames : List Frame} {c : Call} (turn : Turn id t w) (moving : t.mode = .moving (.go frames c))
    (quiet : ∀ w', Tidied w w' → Told w' (start c w').2) : Advances id { t with stack := frames ++ t.stack } (start c) w :=
  proceed_advances turn (advance_turn turn moving) quiet

/-- The end of a computation goes to the innermost frame. -/
theorem advance_give {f : Frame} {stack : List Frame} {o : Ended} (turn : Turn id t w) (moving : t.mode = .moving (.give o))
    (stands : t.stack = f :: stack) (quiet : ∀ w', Tidied w w' → Told w' (resume f o w').2) :
    Advances id { t with stack } (resume f o) w := by
  have runs : move id t (.give o) = proceed id stack (resume f o) := by
    simp only [move, stands]
    rfl
  exact proceed_advances turn (runs ▸ advance_turn turn moving) quiet

/-- The task comes to stand so while it has its turn, and nothing is touched on the way. -/
def Comes (id : Nat) (t : Task) (w : World) : Prop := ∃ k, Turn id t (run k w).2 ∧ Beside w (run k w).2

namespace Comes

theorem here (turn : Turn id t w) : Comes id t w := ⟨0, turn, Beside.of_told (Told.refl w)⟩

theorem next {t' : Task} {x : Act Move} (step : Advances id t' x w)
    (rest : ∀ w', Tidied w w' → Tidied (x w').2 (advance w).2 →
      Turn id { t' with mode := .moving (x w').1 } (advance w).2 → Comes id t (advance w).2) : Comes id t w := by
  obtain ⟨w', first, told, last, goesOn, turn⟩ := step
  obtain ⟨k, stands, later⟩ := rest w' first last turn
  have runs : run (k + 1) w = run k (advance w).2 := by
    show (if (advance w).1 = true then run k else Pure.pure ()) (advance w).2 = _
    rw [if_pos goesOn]
  have once : Beside w (advance w).2 := (first.beside.trans (.of_told told)).trans last.beside
  exact ⟨k + 1, runs ▸ stands, runs ▸ once.trans later⟩

end Comes

end Machine
end Switchyard.Rehearsal
