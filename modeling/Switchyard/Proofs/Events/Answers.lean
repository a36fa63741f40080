import Switchyard.Proofs.Events.Sending
/-!
What a drain does with the answer to a publication in process: who is answered, and that an error which does not say
that there is no handler ends the drain.
-/
namespace Switchyard.Events

variable {β α : Type}

namespace Traffic

variable {b b' : Bus (Nat × β)} {c c' : Call β} {ms : List (Mark β)} {k : Nat} {r : Except Error Unit}

/-- The moves that go on with the answer to a publication in process. -/
inductive Word (d : Bus.Drain) (e : Posted β) : Call β → List (Mark β) → Except Error Unit → Prop where
  | refused (err : Error) : Word d e (.notifying d e) [.answered e.number (.error err)] (.error err)
  | handled (o : Outcome Unit) :
      Word d e (.handling d e) [.handled e.number o, .answered e.number o.caught] o.caught

def Mark.Silent : Mark β → Prop
  | .answered .. | .handled .. => False
  | _ => True

theorem departing_quiet (e : Option (Posted β)) (next : Bus.Next (Nat × β)) :
    ∀ m ∈ departing e next, m.Silent ∧ ∀ k, m ≠ .invoked k := by
  cases next <;> cases e <;> simp [departing, Mark.Silent]

/-- A move goes on with an answer, or tells of none. -/
theorem Moves.word (moves : Moves b c ms b' c') :
    (∃ d e told r now, Word d e c told r ∧ ms = told ++ departing (some e) (b.notified d e r now).next ∧
      b' = (b.notified d e r now).bus ∧ c' = .ofNext d (b.notified d e r now).next) ∨ ∀ m ∈ ms, m.Silent := by
  have silent (e : Option (Posted β)) (next : Bus.Next (Nat × β)) : ∀ m ∈ departing e next, m.Silent :=
    fun m mem => (departing_quiet e next m mem).1
  cases moves with
  | turnedAway | begins | restores => exact .inr (List.forall_mem_nil _)
  | invokes | offers => exact .inr (List.forall_mem_singleton.mpr trivial)
  | advances | withheld | interrupted => exact .inr (silent _ _)
  | replied => exact .inr (List.forall_mem_cons.mpr ⟨trivial, silent _ _⟩)
  | refused d e err now stands =>
    subst stands
    exact .inl ⟨d, e, _, _, now, .refused err, rfl, rfl, rfl⟩
  | handled d e o now stands =>
    subst stands
    exact .inl ⟨d, e, _, _, now, .handled o, rfl, rfl, rfl⟩

theorem Word.answered {d : Bus.Drain} {e : Posted β} (word : Word d e c ms r) {r' : Except Error Unit}
    (answered : .answered k r' ∈ ms) : k = e.number ∧ r' = r := by
  cases word <;> simpa using answered

theorem Word.waits {d : Bus.Drain} {e : Posted β} (word : Word d e c ms r) : c = .notifying d e ∨ c = .handling d e := by
  cases word with
  | refused => exact .inl rfl
  | handled => exact .inr rfl

theorem Moves.answers (moves : Moves b c ms b' c') (answered : .answered k r ∈ ms) :
    ∃ d e told now, Word d e c told r ∧ e.number = k ∧
      ms = told ++ departing (some e) (b.notified d e r now).next ∧
      b' = (b.notified d e r now).bus ∧ c' = .ofNext d (b.notified d e r now).next := by
  rcases moves.word with ⟨d, e, told, r', now, word, rfl, left, goes⟩ | silent
  · rcases List.mem_append.mp answered with mem | mem
    · obtain ⟨rfl, rfl⟩ := word.answered mem
      exact ⟨d, e, told, now, word, rfl, rfl, left, goes⟩
    · exact (departing_quiet _ _ _ mem).1.elim
  · exact (silent _ answered).elim

theorem Moves.answersOnce (moves : Moves b c ms b' c') (answered : .answered k r ∈ ms) (k' : Nat)
    (r' : Except Error Unit) (again : .answered k' r' ∈ ms) : k' = k ∧ r' = r := by
  obtain ⟨d, e, told, now, word, rfl, rfl, -⟩ := moves.answers answered
  rcases List.mem_append.mp again with mem | mem
  · exact word.answered mem
  · exact (departing_quiet _ _ _ mem).1.elim

theorem Moves.handles {o : Outcome Unit} (moves : Moves b c ms b' c') (handled : .handled k o ∈ ms) :
    .answered k o.caught ∈ ms ∧ ∀ k', .invoked k' ∉ ms := by
  rcases moves.word with ⟨d, e, told, r, now, word, rfl, -⟩ | silent
  · rcases List.mem_append.mp handled with mem | mem
    · cases word with
      | refused => simp at mem
      | handled o' =>
        obtain ⟨rfl, rfl⟩ : k = e.number ∧ o = o' := by simpa using mem
        refine ⟨by simp, fun k' mem => ?_⟩
        simp only [List.cons_append, List.nil_append, List.mem_cons, reduceCtorEq, false_or] at mem
        exact (departing_quiet _ _ _ mem).2 k' rfl
    · exact (departing_quiet _ _ _ mem).1.elim
  · exact (silent _ handled).elim

section Surfacing

variable {d : Bus.Drain} {e : Posted β} {err : Error} {now : Stamp}

theorem notified_surfaces (surfaces : err.kind ≠ .handlerNotFound) :
    b.notified d e (.error err) now = b.stop d e err [] :=
  if_neg fun both => surfaces both.1

/-- An error of any other kind ends the drain, which puts its event back in front. -/
theorem Moves.surfaces (moves : Moves b c ms b' c') (answered : .answered k (.error err) ∈ ms)
    (surfaces : err.kind ≠ .handlerNotFound) :
    c' = .leaving ∧ ∃ d e, (c = .notifying d e ∨ c = .handling d e) ∧ e.number = k ∧ b'.queue = e :: b.queue := by
  obtain ⟨d, e, told, now, word, number, -, left, goes⟩ := moves.answers answered
  rw [notified_surfaces surfaces] at left goes
  exact ⟨goes, d, e, word.waits, number, by rw [left]; rfl⟩

theorem Closes.surfaces (closes : Closes b c ms b' r) (answered : .answered k (.error err) ∈ ms)
    (surfaces : err.kind ≠ .handlerNotFound) : r = .error err := by
  have once := closes.moves.answersOnce answered
  cases closes with
  | idle | rejected => cases answered
  | ends stands last =>
    cases stands with
    | advances | withheld | interrupted => cases answered
    | replied => simp at answered
    | refused d e err' now =>
      cases (once _ _ List.mem_cons_self).2
      rw [notified_surfaces surfaces] at last
      exact (Bus.Next.finish.inj last).symm
    | handled d e o now =>
      rw [(once _ _ (List.mem_cons_of_mem _ List.mem_cons_self)).2, notified_surfaces surfaces] at last
      exact (Bus.Next.finish.inj last).symm

end Surfacing

end Traffic

namespace Sending

variable {s t : Sending β α} {new ms : List (Mark β α)} {n k : Nat}

/-- A drain that does something goes through a move of its own. -/
theorem did_moves {m : Traffic.Mark β} (step : Step s new t) (did : .did n m ∈ new) :
    ∃ role c moved bus c', ⟨n, role, c⟩ ∈ s.callers ∧ Traffic.Moves s.bus c moved bus c' ∧
      ∀ n' m', .did n' m' ∈ new ↔ n' = n ∧ m' ∈ moved := by
  cases step with
  | @move before after n' role c moved bus c' stands moves =>
    obtain ⟨_, mem, same⟩ := List.mem_map.mp did
    cases same
    refine ⟨role, c, moved, bus, c', by simp [stands], moves, fun n' m' => ?_⟩
    simp [and_comm, eq_comm]
  | @close before after n' role c moved bus r stands closes =>
    have at' (n₁ : Nat) (m₁ : Traffic.Mark β) :
        .did n₁ m₁ ∈ moved.map (Mark.did (α := α) n') ++ [.ended n' r] ↔ n₁ = n' ∧ m₁ ∈ moved := by
      simp [and_comm, eq_comm]
    obtain ⟨rfl, mem⟩ := (at' n m).mp did
    exact ⟨role, c, moved, bus, _, by simp [stands], closes.moves, at'⟩
  | letGo =>
    obtain ⟨r, impossible⟩ := mem_report did
    cases impossible
  | _ => simp at did

theorem Over.silent (done : Over s n) (step : Step s new t) {m : Traffic.Mark β} : .did n m ∉ new := by
  intro did
  obtain ⟨role, _, _, _, _, stands, -⟩ := did_moves step did
  exact done.2 (List.mem_append_left _ (List.mem_map_of_mem stands))

theorem mem_seen {m : Traffic.Mark β} :
    m ∈ seen ms ↔ (∃ e, m = .added e ∧ .added e ∈ ms) ∨ ∃ n, .did n m ∈ ms := by
  simp only [seen, List.mem_filterMap]
  constructor
  · rintro ⟨mark, mem, found⟩
    cases mark with
    | added e => exact .inl ⟨e, (Option.some.inj found).symm, mem⟩
    | did n m' =>
      cases Option.some.inj found
      exact .inr ⟨n, mem⟩
    | _ => cases found
  · rintro (⟨e, rfl, mem⟩ | ⟨n, mem⟩)
    · exact ⟨_, mem, rfl⟩
    · exact ⟨_, mem, rfl⟩

section Started

variable {ignoreMissing messaging : Bool} {logger : Log.Logger}

/-- What a drain has in hand was added. -/
theorem heldAdded (run : Run (start ignoreMissing messaging logger) ms s) {c : Caller β α}
    {e : Posted β} (stands : c ∈ s.callers) (holds : c.call.held = some e) :
    ∃ a, .added a ∈ seen ms ∧ a.core = e.core := by
  have accounts := Traffic.runAccounts (runTraffic run) (startLocked (α := α) ignoreMissing messaging logger)
  have pending : e ∈ s.traffic.pending :=
    List.mem_append_left _ (List.mem_filterMap.mpr ⟨c.call, List.mem_map_of_mem stands, holds⟩)
  have all : e.core ∈ (Traffic.left (seen ms) ++ s.traffic.pending).map Event.core :=
    List.mem_map_of_mem (List.mem_append_right _ pending)
  rw [← accounts] at all
  obtain ⟨a, mem, same⟩ := List.mem_map.mp all
  obtain ⟨m, mem, found⟩ := List.mem_filterMap.mp mem
  cases m <;> cases found
  exact ⟨a, mem, same⟩

end Started

theorem handlerAnswers {role : Role α} {d : Bus.Drain} {e : Posted β} (stands : ⟨n, role, .handling d e⟩ ∈ s.callers)
    (o : Outcome Unit) : ∃ new t, Step s new t ∧ .did n (.handled e.number o) ∈ new := by
  obtain ⟨before, after, stands⟩ := List.append_of_mem stands
  generalize next : (s.bus.notified d e o.caught (.reading 0)).next = goesOn
  cases goesOn with
  | finish r => exact ⟨_, _, .close stands (.ends (.handled d e o (.reading 0)) next), by simp⟩
  | notify | send | again =>
    refine ⟨_, _, .move stands (.handled d e o (.reading 0) rfl) ?_, by simp⟩
    rw [next]
    simp [Traffic.Call.ofNext]

theorem answeredEnds {err : Error} (step : Step s new t) (answered : .did n (.answered k (.error err)) ∈ new)
    (surfaces : err.kind ≠ .handlerNotFound) :
    .ended n (.error err) ∈ new ∧ ∃ c ∈ s.callers, ∃ d e, (c.call = .notifying d e ∨ c.call = .handling d e) ∧
      e.number = k ∧ t.bus.queue = e :: s.bus.queue := by
  cases step with
  | move stands moves goesOn =>
    obtain ⟨_, mem, same⟩ := List.mem_map.mp answered
    cases same
    exact absurd (moves.surfaces mem surfaces).1 goesOn
  | @close before after n' role c moved bus r stands closes =>
    obtain ⟨rfl, mem⟩ : n' = n ∧ .answered k (.error err) ∈ moved := by simpa [and_comm] using answered
    obtain ⟨-, d, e, holds, number, front⟩ := closes.moves.surfaces mem surfaces
    cases closes.surfaces mem surfaces
    exact ⟨by simp, ⟨n', role, c⟩, by simp [stands], d, e, holds, number, front⟩
  | letGo =>
    obtain ⟨r, impossible⟩ := mem_report answered
    cases impossible
  | _ => simp at answered

end Sending

end Switchyard.Events
