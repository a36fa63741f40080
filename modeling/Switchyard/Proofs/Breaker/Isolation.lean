import Switchyard.Proofs.Breaker.Slots
/-!
The break of a breaker. From the moment it opens, or is forced open, nobody is let in until the break is over or the
breaker is reset; and the break is over when it was to be, whatever comes of the calls that were let in before.
-/
namespace Switchyard.Breaker

variable {b b' b'' : Breaker} {now : Instant} {changes : List Transition}

/-- What becomes of the phase in an operation that is not forced: a break that is not over goes on, and a breaker that
opens does so for a full break. -/
inductive Shifts (b : Breaker) (now : Instant) (b' : Breaker) : List Transition → Prop where
  | stays (goesOn : b.phase = .opened → b.isDue now = false → b'.phase = .opened ∧ b'.expiry = b.expiry) :
      Shifts b now b' []
  | turns {was phase : Phase} (late : b.phase = .opened → b.isDue now = true) (reached : b'.phase = phase)
      (expiry : phase = .opened → b'.expiry = some (now + b.config.breakFor)) :
      Shifts b now b' [(was, phase)]

theorem Shifts.same (shifts : Shifts b now b' changes) (phase : b''.phase = b'.phase)
    (expiry : b''.expiry = b'.expiry) : Shifts b now b'' changes := by
  cases shifts with
  | stays goesOn => exact .stays (phase ▸ expiry ▸ goesOn)
  | turns late reached full => exact .turns late (phase.trans reached) (expiry ▸ full)

theorem Refreshes.shifts (refreshed : Refreshes b now b' changes) : Shifts b now b' changes := by
  cases refreshed with
  | early => exact .stays fun opened _ => ⟨opened, rfl⟩
  | renewed closed => exact .stays fun opened => by simp [closed] at opened
  | probes opened due => exact .turns (fun _ => due) rfl nofun
  | overdue half => exact .turns (fun opened => by simp [half] at opened) rfl fun _ => rfl
  | extended half => exact .stays fun opened => by simp [half] at opened

theorem Records.shifts {success : Bool} (recorded : Records b' now success b'' changes) (shut : b.phase ≠ .opened)
    (phase : b'.phase = b.phase) (settings : b'.config = b.config) : Shifts b now b'' changes := by
  cases recorded with
  | ignored _ opened => exact absurd (phase ▸ opened) shut
  | succeeded | failed | advanced => exact .stays fun opened => absurd opened shut
  | tripped | reopens => exact .turns (fun opened => absurd opened shut) rfl fun _ => settings ▸ rfl
  | closes => exact .turns (fun opened => absurd opened shut) rfl nofun

namespace Gate

/-! ### Openings -/

def Mark.time : Mark → Instant
  | .asked _ _ time | .ended _ _ _ time | .dropped _ _ time | .forced _ time | .moved _ time => time

def Mark.opens? : Mark → Option Instant
  | .moved (_, .opened) time | .forced .opened time => some time
  | _ => none

def Mark.resets : Mark → Bool
  | .forced .closed _ => true
  | _ => false

def Mark.isForced : Mark → Bool
  | .forced .. => true
  | _ => false

def Mark.noted (ts : List Instant) (m : Mark) : List Instant := if m.resets then [] else ts ++ m.opens?.toList

/-- The times of the openings that no reset has followed. -/
def openings (ms : List Mark) : List Instant := ms.foldl Mark.noted []

theorem unforced {m : Mark} (free : m.isForced = false) : m.resets = false := by
  cases m with
  | forced => cases free
  | asked | ended | dropped | moved => rfl

theorem openings_append (xs ys : List Mark) : openings (xs ++ ys) = ys.foldl Mark.noted (openings xs) :=
  List.foldl_append

theorem openings_quiet {ms : List Mark} {m : Mark} (kept : m.resets = false) (none : m.opens? = none) :
    openings (ms ++ [m]) = openings ms := by
  simp [openings_append, Mark.noted, kept, none]

theorem openings_at {before after : List Mark} {m : Mark} {t : Instant} (opens : m.opens? = some t) :
    openings (before ++ m :: after) = after.foldl Mark.noted (openings before ++ [t]) := by
  have noReset : m.resets = false := by
    cases m with
    | forced phase => cases phase <;> first | rfl | cases opens
    | asked | ended | dropped | moved => rfl
  rw [openings_append, List.foldl_cons]
  simp [Mark.noted, noReset, opens]

theorem noted_mem {ts : List Instant} {t : Instant} {after : List Mark} (kept : ∀ m ∈ after, m.resets = false)
    (mem : t ∈ ts) : t ∈ after.foldl Mark.noted ts := by
  induction after generalizing ts with
  | nil => exact mem
  | cons m rest ih =>
    have noReset := kept m List.mem_cons_self
    refine ih (fun x hx => kept x (List.mem_cons_of_mem _ hx)) ?_
    simp [Mark.noted, noReset, mem]

theorem noted_last {ts : List Instant} {t : Instant} {after : List Mark} (kept : ∀ m ∈ after, m.resets = false)
    (same : ∀ m ∈ after, ∀ u, m.opens? = some u → u = t) (last : ts.getLast? = some t) :
    (after.foldl Mark.noted ts).getLast? = some t := by
  induction after generalizing ts with
  | nil => exact last
  | cons m rest ih =>
    refine ih (fun x hx => kept x (List.mem_cons_of_mem _ hx)) (fun x hx => same x (List.mem_cons_of_mem _ hx)) ?_
    have noReset := kept m List.mem_cons_self
    cases opens : m.opens? with
    | none => simpa [Mark.noted, noReset, opens] using last
    | some u => simp [Mark.noted, noReset, opens, same m List.mem_cons_self u opens]

/-- Until the break that began with an opening is over, whoever asks is turned away, and the phase does not change but
by force. -/
def Isolates (config : Config) (past : List Mark) : Mark → Prop
  | .asked _ r time => ∀ t ∈ openings past, time < t + config.breakFor → r = .error (.circuitOpen config.name)
  | .moved _ time => ∀ t ∈ openings past, time < t + config.breakFor → ∃ phase, past.getLast? = some (.forced phase time)
  | _ => True

/-- The last opening is the one that tells when the break is over. -/
def Shut (config : Config) (ts : List Instant) (b : Breaker) (now : Instant) : Prop :=
  ∀ u, ts.getLast? = some u → (∀ t ∈ ts, t ≤ u) ∧ u ≤ now ∧
    (now < u + config.breakFor → b.phase = .opened ∧ b.expiry = some (u + config.breakFor))

variable {config : Config} {ms : List Mark} {s : Gate} {ts : List Instant}

theorem Shut.opened (shut : Shut config ts b now) {t : Instant} (mem : t ∈ ts) (early : now < t + config.breakFor) :
    b.phase = .opened ∧ b.isDue now = false := by
  obtain ⟨u, last⟩ := Option.ne_none_iff_exists'.mp (mt List.getLast?_eq_none_iff.mp (List.ne_nil_of_mem mem))
  obtain ⟨latest, -, holds⟩ := shut u last
  have within : now < u + config.breakFor := Nat.lt_of_lt_of_le early (Nat.add_le_add_right (latest t mem) _)
  obtain ⟨phase, expiry⟩ := holds within
  exact ⟨phase, by simpa [isDue, expiry] using within⟩

theorem Shut.opening (shut : Shut config ts b now) (opened : b'.phase = .opened)
    (expiry : b'.expiry = some (now + config.breakFor)) : Shut config (ts ++ [now]) b' now := by
  intro u last
  obtain rfl : now = u := by simpa using last
  refine ⟨List.forall_mem_append.mpr ⟨fun t mem => ?_, by simp⟩, Nat.le_refl _, fun _ => ⟨opened, expiry⟩⟩
  obtain ⟨u, last⟩ := Option.ne_none_iff_exists'.mp (mt List.getLast?_eq_none_iff.mp (List.ne_nil_of_mem mem))
  obtain ⟨latest, past, -⟩ := shut u last
  exact Nat.le_trans (latest t mem) past

theorem Shut.shifts (shut : Shut config ts b now) (shifts : Shifts b now b' changes) (settings : b.config = config) :
    Shut config ((moves changes now).foldl Mark.noted ts) b' now := by
  cases shifts with
  | stays goesOn =>
    intro u last
    obtain ⟨latest, past, holds⟩ := shut u last
    refine ⟨latest, past, fun early => ?_⟩
    obtain ⟨phase, expiry⟩ := holds early
    obtain ⟨phase', expiry'⟩ := goesOn phase (by simpa [isDue, expiry] using early)
    exact ⟨phase', expiry'.trans expiry⟩
  | @turns was phase late reached full =>
    by_cases opened : phase = .opened
    · subst opened
      exact shut.opening reached (settings ▸ full rfl)
    · have quiet : (moves [(was, phase)] now).foldl Mark.noted ts = ts := by
        cases phase with
        | opened => exact absurd rfl opened
        | closed | halfOpen => exact List.append_nil ts
      rw [quiet]
      intro u last
      obtain ⟨latest, past, holds⟩ := shut u last
      refine ⟨latest, past, fun early => ?_⟩
      -- a break that is not over does not turn into anything
      obtain ⟨phase, expiry⟩ := holds early
      have due := late phase
      simp [isDue, expiry, Nat.not_le.mpr early] at due

theorem Shut.wait (shut : Shut config ts b now) {later : Instant} (passed : now ≤ later) : Shut config ts b later := by
  intro u last
  obtain ⟨latest, past, holds⟩ := shut u last
  exact ⟨latest, Nat.le_trans past passed, fun early => holds (Nat.lt_of_le_of_lt passed early)⟩

theorem Shut.lawfulMoves {past : List Mark} (shut : Shut config (openings past) b now)
    (shifts : Shifts b now b' changes) : Lawful (Isolates config) past (moves changes now) := by
  cases shifts with
  | stays => trivial
  | turns late =>
    refine ⟨fun t mem early => ?_, trivial⟩
    obtain ⟨opened, waiting⟩ := shut.opened mem early
    simp [late opened] at waiting

theorem lawfulForced {past : List Mark} {was phase : Phase} :
    Lawful (Isolates config) past (.forced phase now :: moves (if was = phase then [] else [(was, phase)]) now) := by
  refine ⟨trivial, ?_⟩
  split
  · trivial
  · exact ⟨fun _ _ _ => ⟨phase, by simp⟩, trivial⟩

theorem stepShut {new : List Mark} {s' : Gate} (step : Step s new s') (fair : Fair ms s)
    (settings : s.breaker.config = config) (shut : Shut config (openings ms) s.breaker s.now) :
    Lawful (Isolates config) ms new ∧ Shut config (openings (ms ++ new)) s'.breaker s'.now := by
  have turned {b : Breaker} {changes : List Transition} (shifts : Shifts s.breaker s.now b changes) :
      Shut config (openings (ms ++ moves changes s.now)) b s.now := by
    rw [openings_append]
    exact shut.shifts shifts settings
  -- the end of a call is itself no opening
  have turnedAt (m : Mark) (kept : m.resets = false) (none : m.opens? = none) (allowed : Isolates config ms m)
      {b : Breaker} {changes : List Transition} (shifts : Shifts s.breaker s.now b changes) :
      Lawful (Isolates config) ms (m :: moves changes s.now) ∧
      Shut config (openings (ms ++ m :: moves changes s.now)) b s.now := by
    have same : openings (ms ++ [m]) = openings ms := openings_quiet kept none
    have shut' : Shut config (openings (ms ++ [m])) s.breaker s.now := same ▸ shut
    refine ⟨⟨allowed, shut'.lawfulMoves shifts⟩, ?_⟩
    rw [List.append_cons, openings_append, same, ← openings_append]
    exact turned shifts
  cases step with
  | letIn asked =>
    obtain ⟨b₁, totals, refreshed, ⟨room, -, rfl⟩ | ⟨-, other, -⟩⟩ := acquires asked
    · refine ⟨Lawful.append.mpr ⟨shut.lawfulMoves refreshed.shifts, fun t mem early => ?_, trivial⟩, ?_⟩
      · -- a breaker in its break has no room
        have isOpen := ((turned refreshed.shifts).opened mem early).1
        simp [hasRoom, isOpen] at room
      · rw [← List.append_assoc, openings_quiet rfl rfl]
        exact turned (refreshed.shifts.same rfl rfl)
    · cases other
  | turnAway asked =>
    obtain ⟨b₁, totals, refreshed, ⟨-, other, -⟩ | ⟨-, error, rfl⟩⟩ := acquires asked
    · cases other
    · cases error
      refine ⟨Lawful.append.mpr ⟨shut.lawfulMoves refreshed.shifts, fun _ _ _ => ?_, trivial⟩, ?_⟩
      · rw [refreshed.keepsConfig, settings]
      · rw [← List.append_assoc, openings_quiet rfl rfl]
        exact turned (refreshed.shifts.same rfl rfl)
  | settle o stands settled =>
    obtain ⟨totals, ⟨b₁, refreshed, -, rfl⟩ | ⟨-, notOpen, expiry, -, recorded⟩⟩ := fair.settles stands settled
    · exact turnedAt (.ended ..) rfl rfl trivial (refreshed.shifts.same rfl rfl)
    · exact turnedAt (.ended ..) rfl rfl trivial (recorded.shifts notOpen rfl rfl)
  | abandon stands abandoned =>
    obtain ⟨b₁, refreshed, rfl⟩ := abandons abandoned
    split
    · exact turnedAt (.dropped ..) rfl rfl trivial (refreshed.shifts.same rfl rfl)
    · exact turnedAt (.dropped ..) rfl rfl trivial refreshed.shifts
  | look refreshed =>
    exact ⟨shut.lawfulMoves (refreshes refreshed).shifts, turned (refreshes refreshed).shifts⟩
  | reset forced =>
    obtain ⟨rfl, rfl⟩ := forces forced
    refine ⟨lawfulForced, ?_⟩
    have none : openings (ms ++ .forced .closed s.now ::
        moves (if s.breaker.phase = .closed then [] else [(s.breaker.phase, .closed)]) s.now) = [] := by
      rw [openings_append]
      split <;> rfl
    rw [none]
    intro u last
    cases last
  | forceOpen forced =>
    obtain ⟨rfl, rfl⟩ := forces forced
    refine ⟨lawfulForced, ?_⟩
    have full : Config.expiry s.breaker.config .opened s.now = some (s.now + config.breakFor) := settings ▸ rfl
    have once : Shut config (openings ms ++ [s.now]) (({ s.breaker with phase := .opened }).renew s.now) s.now :=
      shut.opening rfl full
    rw [openings_append]
    split
    · exact once
    · exact once.opening rfl full
  | pass now later =>
    rw [List.append_nil]
    exact ⟨trivial, shut.wait later⟩

theorem stepTimes {new : List Mark} {s' : Gate} (step : Step s new s') :
    s.now ≤ s'.now ∧ ∀ m ∈ new, m.time = s.now := by
  have moved {changes : List Transition} : ∀ m ∈ moves changes s.now, m.time = s.now := forall_moves fun _ => rfl
  cases step with
  | letIn | turnAway =>
    exact ⟨Nat.le_refl _, List.forall_mem_append.mpr ⟨moved, List.forall_mem_singleton.mpr rfl⟩⟩
  | settle | abandon | reset | forceOpen => exact ⟨Nat.le_refl _, List.forall_mem_cons.mpr ⟨rfl, moved⟩⟩
  | look => exact ⟨Nat.le_refl _, moved⟩
  | pass now later => exact ⟨later, nofun⟩

variable {began : Instant}

theorem runTimes (run : Run (start config began) ms s) : ∀ m ∈ ms, m.time ≤ s.now := by
  induction run with
  | nil => nofun
  | next earlier last ih =>
    obtain ⟨later, times⟩ := stepTimes last
    refine List.forall_mem_append.mpr ⟨fun m mem => Nat.le_trans (ih m mem) later, fun m mem => ?_⟩
    exact Nat.le_trans (Nat.le_of_eq (times m mem)) later

theorem runShut (run : Run (start config began) ms s) :
    Lawful (Isolates config) [] ms ∧ Shut config (openings ms) s.breaker s.now := by
  induction run with
  | nil => exact ⟨trivial, nofun⟩
  | next earlier last ih =>
    obtain ⟨lawful, shut⟩ := ih
    obtain ⟨allowed, shut'⟩ := stepShut last (runFair earlier) (runConfig earlier) shut
    exact ⟨Lawful.append.mpr ⟨lawful, allowed⟩, shut'⟩

theorem opens_time {m : Mark} {t : Instant} (opens : m.opens? = some t) : m.time = t := by
  cases m with
  | asked | ended | dropped => cases opens
  | forced phase time =>
    cases phase with
    | opened => exact Option.some.inj opens
    | closed | halfOpen => cases opens
  | moved change time =>
    obtain ⟨was, phase⟩ := change
    cases phase with
    | opened => exact Option.some.inj opens
    | closed | halfOpen => cases opens

/-- In a break that nothing is forced in, no opening is later than the one that began it. -/
theorem opensOnce {before after : List Mark} {m x : Mark} {t u : Instant}
    (lawful : Lawful (Isolates config) [] (before ++ m :: after)) (opens : m.opens? = some t)
    (free : ∀ x ∈ after, x.isForced = false) (mem : x ∈ after) (again : x.opens? = some u)
    (early : u < t + config.breakFor) : u = t := by
  obtain ⟨mid, rest, rfl⟩ := List.append_of_mem mem
  have kept : ∀ y ∈ mid, y.resets = false := fun y hy => unforced (free y (List.mem_append_left _ hy))
  have noted : t ∈ openings (before ++ m :: mid) := openings_at opens ▸ noted_mem kept (by simp)
  rw [← List.cons_append, ← List.append_assoc] at lawful
  have law := lawful.split
  cases x with
  | asked | ended | dropped => cases again
  | forced => cases free _ mem
  | moved change time =>
    obtain rfl : time = u := opens_time again
    obtain ⟨phase, last⟩ := law t noted early
    -- the mark before it is forced, so it is the opening itself
    obtain rfl | ⟨front, y, rfl⟩ := List.eq_nil_or_concat mid
    · simp at last
      subst last
      exact opens_time opens
    · rw [List.nil_append, List.concat_eq_append, ← List.cons_append, ← List.append_assoc, List.getLast?_concat] at last
      obtain rfl := Option.some.inj last
      exact absurd (free (.forced phase time) (by simp)) nofun

/-- From an opening on and until a reset, nobody who asks before the break is over is let in. And where nothing more is
forced, the break is what it was when it began, whatever calls have ended since, and at its end the breaker probes. -/
theorem openKeepsOut {before after : List Mark} {m : Mark} {t : Instant}
    (run : Run (start config began) (before ++ m :: after) s) (opens : m.opens? = some t) :
    (∀ mid n r time rest, after = mid ++ .asked n r time :: rest → (∀ x ∈ mid, x.resets = false) →
      time < t + config.breakFor → r = .error (.circuitOpen config.name)) ∧
    ((∀ x ∈ after, x.isForced = false) → s.now < t + config.breakFor →
      s.breaker.phase = .opened ∧ s.breaker.expiry = some (t + config.breakFor) ∧
      ∀ later, t + config.breakFor ≤ later →
        (s.breaker.refresh later).1.phase = .halfOpen ∧ ∃ tag, (s.breaker.acquire later).2.2 = .ok tag) := by
  obtain ⟨lawful, shut⟩ := runShut run
  refine ⟨?_, fun free early => ?_⟩
  · rintro mid n r time rest rfl kept early
    rw [← List.cons_append, ← List.append_assoc] at lawful
    have noted : t ∈ openings (before ++ m :: mid) := openings_at opens ▸ noted_mem kept (by simp)
    exact lawful.split t noted early
  · have kept : ∀ x ∈ after, x.resets = false := fun x hx => unforced (free x hx)
    have same : ∀ x ∈ after, ∀ u, x.opens? = some u → u = t := fun x hx u again => by
      refine opensOnce lawful opens free hx again (Nat.lt_of_le_of_lt ?_ early)
      exact opens_time again ▸ runTimes run x (by simp [hx])
    have last : (openings (before ++ m :: after)).getLast? = some t :=
      openings_at opens ▸ noted_last kept same (by simp)
    obtain ⟨-, -, holds⟩ := shut t last
    obtain ⟨phase, expiry⟩ := holds early
    refine ⟨phase, expiry, fun later over' => ?_⟩
    have due : s.breaker.isDue later = true := by simp [isDue, expiry, over']
    have refreshed : Refreshes s.breaker later _ _ := refreshes rfl
    obtain ⟨half, room⟩ := roomOpened phase due refreshed
    exact ⟨half, letsIn room⟩

/-! One of two calls panics, and while the breaker is open for it the other succeeds. -/

def tripConfig : Config := { failureCount := 1, breakFor := 60 }

def tripAsked : Gate := ⟨((make tripConfig 0).acquire 0).1, 0, [⟨0, 0⟩], 1⟩

def tripOut : Gate :=
  ⟨{ Breaker.make tripConfig 0 with counts := ⟨2, 0, 0, 0, 0⟩, totals := ⟨2, 0, 0, 0⟩ }, 0, [⟨0, 0⟩, ⟨1, 0⟩], 2⟩

def tripOpen : Gate :=
  ⟨⟨tripConfig, .opened, 1, .zero, some 70, ⟨2, 0, 1, 0⟩⟩, 10, [⟨1, 0⟩], 2⟩

def tripEnded : Gate :=
  ⟨⟨tripConfig, .opened, 1, .zero, some 70, ⟨2, 1, 1, 0⟩⟩, 30, [], 2⟩

def tripRefusal : Except Error Nat := (tripEnded.breaker.acquire 40).2.2

def tripLate : Gate := ⟨(tripEnded.breaker.acquire 40).1, 40, [], 3⟩

theorem tripRun : Run (start tripConfig 0)
    ([.asked 0 (.ok 0) 0, .asked 1 (.ok 0) 0, .ended 0 0 (.panic "lost") 10] ++ .moved (.closed, .opened) 10 ::
      [.ended 1 0 (.value ()) 30, .asked 2 tripRefusal 40]) tripLate := by
  have passTo (s : Gate) (now : Instant) (later : s.now ≤ now) : Step s [] { s with now } := .pass now later
  have first : Step (start tripConfig 0) [.asked 0 (.ok 0) 0] tripAsked := @Step.letIn _ _ [] 0 rfl
  have second : Step tripAsked [.asked 1 (.ok 0) 0] tripOut := @Step.letIn _ _ [] 0 rfl
  have trips : Step { tripOut with now := 10 } [.ended 0 0 (.panic "lost") 10, .moved (.closed, .opened) 10] tripOpen :=
    @Step.settle _ [] [⟨1, 0⟩] ⟨0, 0⟩ _ [(.closed, .opened)] (.panic "lost") rfl rfl
  have late : Step { tripOpen with now := 30 } [.ended 1 0 (.value ()) 30] tripEnded :=
    @Step.settle _ [] [] ⟨1, 0⟩ _ [] (.value ()) rfl rfl
  have refused : Step { tripEnded with now := 40 } [.asked 2 tripRefusal 40] tripLate := @Step.turnAway _ _ [] _ rfl
  have opened := (((Runs.nil.next first).next second).next (passTo _ 10 (by decide))).next trips
  exact (((opened.next (passTo _ 30 (by decide))).next late).next (passTo _ 40 (by decide))).next refused

theorem tripKeepsOut : tripRefusal = .error (.circuitOpen "default") ∧ tripLate.breaker.expiry = some 70 ∧
    ∃ tag, (tripLate.breaker.acquire 70).2.2 = .ok tag := by
  obtain ⟨refuses, holds⟩ := openKeepsOut tripRun rfl
  have early : (40 : Instant) < 10 + tripConfig.breakFor := by decide
  obtain ⟨-, expiry, probes⟩ := holds (by simp [Mark.isForced]) early
  refine ⟨refuses [.ended 1 0 (.value ()) 30] 2 _ 40 [] rfl (by simp [Mark.resets]) early, expiry, ?_⟩
  exact (probes 70 (Nat.le_refl _)).2

end Gate
end Switchyard.Breaker
