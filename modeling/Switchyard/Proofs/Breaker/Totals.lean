import Switchyard.Proofs.Breaker.Guarded
import Switchyard.Proofs.Breaker.Turnstile
/-!
The totals of a breaker over its whole life. Every call that was ever asked for stands in one place: not yet decided on
or not yet told so, out, turned away, ended well, ended badly, dropped, or startled. What is turned away, ends well or
ends badly is counted there, under whatever generation; and nothing else moves the totals, which wrap around.
-/
namespace Switchyard.Breaker

variable {b b' : Breaker} {now : Instant} {changes : List Transition} {tag : Nat} {success : Bool}

theorem Refreshes.keepsTotals (refreshed : Refreshes b now b' changes) : b'.totals = b.totals := by
  cases refreshed <;> rfl

theorem Records.keepsTotals (recorded : Records b now success b' changes) : b'.totals = b.totals := by
  cases recorded <;> rfl

theorem forceKeepsTotals {phase : Phase} (forced : b.force phase now = (b', changes)) : b'.totals = b.totals := by
  rw [(forces forced).1]
  rfl

theorem beforeCallKeepsTotals {r : Except Error Nat} (decided : b.beforeCall now = (b', changes, r)) :
    b'.totals = b.totals := by
  obtain ⟨b₁, refreshed, ⟨-, -, rfl⟩ | ⟨-, -, rfl⟩⟩ := admits decided <;> exact refreshed.keepsTotals

theorem recordKeepsTotals (recorded : b.record tag success now = (b', changes)) : b'.totals = b.totals := by
  obtain ⟨b₁, first, refreshed, ⟨-, rfl, -⟩ | ⟨-, more, recorded, -⟩⟩ := records recorded
  · exact refreshed.keepsTotals
  · exact recorded.keepsTotals.trans refreshed.keepsTotals

theorem abandonKeepsTotals (abandoned : b.abandon tag now = (b', changes)) : b'.totals = b.totals := by
  obtain ⟨b₁, refreshed, rfl⟩ := abandons abandoned
  split <;> exact refreshed.keepsTotals

theorem Totals.more_mod (n : Nat) : more (n % size) = (n + 1) % size := Nat.mod_add_mod n size 1

namespace Gate

theorem runLookKeepsTotals {ms : List Mark} {s s' : Gate} (run : Run s ms s') (looks : ∀ m ∈ ms, m.isMove = true) :
    s'.breaker.totals = s.breaker.totals := by
  induction run with
  | nil => rfl
  | next earlier last ih =>
    obtain ⟨before, new⟩ := List.forall_mem_append.mp looks
    refine Eq.trans ?_ (ih before)
    cases last with
    | look refreshed => exact (refreshes refreshed).keepsTotals
    | pass => rfl
    | letIn | turnAway => exact absurd (new _ (List.mem_append_right _ (List.mem_singleton_self _))) Bool.false_ne_true
    | settle | abandon | reset | forceOpen => exact absurd (new _ List.mem_cons_self) Bool.false_ne_true

end Gate
end Switchyard.Breaker

namespace Switchyard.Rehearsal.Act

open Breaker (Gate)

variable {id : BreakerId} {w : World} {s : Gate}

/-- The totals that are told are those of the breaker, whatever the reading of its state brings about. -/
theorem statsTotals (holds : Holds id s w) : (statsOf id w).1.totals = s.breaker.totals := by
  obtain ⟨ms, breaker, run, moved, -, c, stands, same⟩ := Watches.phaseOf s w holds
  have kept : c.breaker.totals = s.breaker.totals := by
    rw [same]
    exact Gate.runLookKeepsTotals run moved
  have told : (statsOf id w).1.totals =
      ((phaseOf id w).2.circuit? id).elim ⟨0, 0, 0, 0⟩ (·.breaker.totals) := rfl
  rw [told, stands]
  exact kept

end Switchyard.Rehearsal.Act

namespace Switchyard.Breaker.Turnstile

variable {config : Config} {began : Instant} {s s' : Turnstile} {before after calls : List Standing} {c c' : Standing}

/-! ### The places of the calls -/

inductive Place where
  | within | out | turnedAway | succeeded | failed | dropped | startled
  deriving DecidableEq, Repr

/-- Panics count as failures, and so do the errors that the configuration says. -/
def judged (config : Config) : Outcome Unit → Place
  | .value _ => .succeeded
  | .failure e => if config.isFailure e then .failed else .succeeded
  | .panic _ => .failed

def Standing.place (config : Config) : Standing → Place
  | entered | decided .. => .within
  | out _ => .out
  | totaled _ o | ended _ o => judged config o
  | turnedAway => .turnedAway
  | dropped _ => .dropped
  | startled _ => .startled

def faring (config : Config) (calls : List Standing) (place : Place) : Nat := calls.countP (·.place config = place)

def tally (config : Config) (calls : List Standing) : Totals :=
  ⟨calls.length % Totals.size, faring config calls .succeeded % Totals.size, faring config calls .failed % Totals.size,
    faring config calls .turnedAway % Totals.size⟩

/-- What becomes of the totals when a call comes to a place. -/
def Place.count : Place → Totals → Totals
  | turnedAway, t => t.reject
  | succeeded, t => t.settle true
  | failed, t => t.settle false
  | within, t | out, t | dropped, t | startled, t => t

theorem judged_count (o : Outcome Unit) (t : Totals) : (judged config o).count t = t.settle (config.succeeds o) := by
  cases o with
  | value | panic => rfl
  | failure e => cases counts : config.isFailure e <;> simp [judged, Config.succeeds, counts, Place.count]

theorem faring_at (config : Config) (before after : List Standing) (c : Standing) (place : Place) :
    faring config (before ++ c :: after) place =
      faring config (before ++ after) place + if c.place config = place then 1 else 0 := by
  simp only [faring, List.countP_append, List.countP_cons, decide_eq_true_eq]
  omega

theorem tally_enters : tally config (calls ++ [.entered]) = (tally config calls).ask := by
  simp [tally, faring, List.countP_append, Totals.ask, Totals.more_mod, Standing.place]

theorem tallyKept (totals : s.breaker.totals = tally config s.calls) (stands : s.calls = before ++ c :: after)
    (same : c'.place config = c.place config) : s.breaker.totals = tally config (before ++ c' :: after) := by
  rw [totals, stands]
  simp [tally, faring_at, same]

/-- A call comes from one of the places that are not totaled. -/
theorem tallyMoved (c' : Standing) (totals : s.breaker.totals = tally config s.calls)
    (stands : s.calls = before ++ c :: after) (untotaled : c.place config = .within ∨ c.place config = .out) :
    (c'.place config).count s.breaker.totals = tally config (before ++ c' :: after) := by
  rw [totals, stands]
  rcases untotaled with here | here <;> cases there : c'.place config <;>
    simp [tally, faring_at, here, there, Place.count, Totals.reject, Totals.settle, Totals.more_mod]

theorem stepTotals (settings : s.breaker.config = config) (step : Step s s')
    (totals : s.breaker.totals = tally config s.calls) : s'.breaker.totals = tally config s'.calls := by
  cases step with
  | enter =>
    rw [tally_enters, ← totals]
  | decide stands decided => exact (beforeCallKeepsTotals decided).trans (tallyKept totals stands rfl)
  | @letIn before after tag changes stands =>
    have moved := tallyMoved (.out tag) totals stands (.inl rfl)
    exact moved
  | turnAway stands =>
    have moved := tallyMoved .turnedAway totals stands (.inl rfl)
    exact moved
  | @startle before after r changes stands =>
    have moved := tallyMoved (.startled r) totals stands (.inl rfl)
    exact moved
  | @total before after tag o stands =>
    have moved := tallyMoved (.totaled tag o) totals stands (.inr rfl)
    rw [Standing.place, judged_count, ← settings] at moved
    exact settings ▸ moved
  | record stands recorded => exact (recordKeepsTotals recorded).trans (tallyKept totals stands rfl)
  | @abandon before after tag breaker changes stands abandoned =>
    have moved := tallyMoved (.dropped tag) totals stands (.inr rfl)
    exact (abandonKeepsTotals abandoned).trans moved
  | look refreshed => exact (refreshes refreshed).keepsTotals.trans totals
  | reset forced | forceOpen forced => exact (forceKeepsTotals forced).trans totals
  | pass => exact totals

theorem runTotals (run : Run (start config began) s) : s.breaker.totals = tally config s.calls := by
  induction run with
  | refl => rfl
  | tail earlier last ih => exact stepTotals (runConfig earlier) last ih

theorem lengthByPlace (config : Config) (calls : List Standing) : calls.length =
    faring config calls .turnedAway + faring config calls .succeeded + faring config calls .failed +
      faring config calls .out + faring config calls .dropped +
      (faring config calls .within + faring config calls .startled) := by
  induction calls with
  | nil => rfl
  | cons c rest ih =>
    simp only [faring] at ih
    simp only [faring, List.length_cons, ih, List.countP_cons]
    cases c.place config <;> simp <;> omega

def mixedConfig : Config := { failureCount := 1, sampling := 100, breakFor := 60 }

def mixedClosed (requests successes : Nat) (calls : List Standing) : Turnstile :=
  ⟨⟨mixedConfig, .closed, 0, ⟨requests, successes, 0, successes, 0⟩, some 100, ⟨requests, successes, 0, 0⟩⟩, 0, calls⟩

def mixedOpened (requests rejections : Nat) (calls : List Standing) : Turnstile :=
  ⟨⟨mixedConfig, .opened, 1, .zero, some 60, ⟨requests, 1, 1, rejections⟩⟩, 0, calls⟩

def mixedLeft : List Standing := [.ended 0 (.value ()), .ended 0 (.panic "lost"), .dropped 0, .out 0, .turnedAway]

theorem mixedRun : Run (start mixedConfig 0) (mixedOpened 5 1 mixedLeft) := by
  have first : Run (start mixedConfig 0) (mixedClosed 1 0 [.out 0]) := asksIn rfl
  have second : Run (mixedClosed 1 0 [.out 0]) (mixedClosed 2 0 [.out 0, .out 0]) := asksIn rfl
  have third : Run (mixedClosed 2 0 [.out 0, .out 0]) (mixedClosed 3 0 [.out 0, .out 0, .out 0]) := asksIn rfl
  have fourth : Run (mixedClosed 3 0 [.out 0, .out 0, .out 0]) (mixedClosed 4 0 [.out 0, .out 0, .out 0, .out 0]) :=
    asksIn rfl
  have answered : Run (mixedClosed 4 0 [.out 0, .out 0, .out 0, .out 0])
      (mixedClosed 4 1 [.ended 0 (.value ()), .out 0, .out 0, .out 0]) := @ends _ _ _ [] _ _ _ rfl rfl
  have lost : Run (mixedClosed 4 1 [.ended 0 (.value ()), .out 0, .out 0, .out 0])
      (mixedOpened 4 0 [.ended 0 (.value ()), .ended 0 (.panic "lost"), .out 0, .out 0]) :=
    @ends _ _ _ [_] _ _ _ rfl rfl
  have refused : Run (mixedOpened 4 0 [.ended 0 (.value ()), .ended 0 (.panic "lost"), .out 0, .out 0])
      (mixedOpened 5 1 [.ended 0 (.value ()), .ended 0 (.panic "lost"), .out 0, .out 0, .turnedAway]) := asksInVain rfl
  have dropped : Step (mixedOpened 5 1 [.ended 0 (.value ()), .ended 0 (.panic "lost"), .out 0, .out 0, .turnedAway])
      (mixedOpened 5 1 mixedLeft) := @Step.abandon _ [_, _] _ _ _ [] rfl rfl
  have out := ((first.trans second).trans third).trans fourth
  exact (((out.trans answered).trans lost).trans refused).tail dropped

end Switchyard.Breaker.Turnstile
