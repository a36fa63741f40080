import Switchyard.Proofs.Events.Answers
/-!
What the stage returns that drains the bus after the rest of a chain: the error of the rest of the chain if there is
one; otherwise nothing is left behind that was queued, unless the drain that was to deliver it fails, or had taken its
last look at the queue before the rest of the chain answered and had yet to give up the lock.
-/
namespace Switchyard.Events

variable {β α : Type}

theorem afterDrain_ok (key : String) (inner : Except Error α) (b : Bool) :
    (afterDrain key inner (.ok b)).1 = inner := by
  cases inner <;> rfl

theorem afterDrain_error (key : String) (e : Error) (drain : Except Error Bool) :
    (afterDrain (α := α) key (.error e) drain).1 = .error e := by
  cases drain <;> rfl

theorem of_afterDrain_ok {key : String} {inner : Except Error α} {drain : Except Error Bool} {a : α}
    (returned : (afterDrain key inner drain).1 = .ok a) : inner = .ok a ∧ ∃ b, drain = .ok b := by
  cases drain with
  | ok b => exact ⟨(afterDrain_ok key inner b).symm.trans returned, b, rfl⟩
  | error e => cases inner <;> cases returned

namespace Sending

variable {init s s' t : Sending β α} {ms new xs : List (Mark β α)} {n : Nat} {inner : Except Error α}

/-! ### What a stage was told -/

def Role.inner? : Role α → Option (Except Error α)
  | plain => none
  | stage _ inner | drained _ inner _ => some inner

@[simp] theorem Role.inner?_answered (role : Role α) (r : Except Error Unit) :
    (role.answered r).inner? = role.inner? := by
  cases role <;> rfl

/-- The answer of the rest of its chain that a stage goes by. -/
def Knows (s : Sending β α) (n : Nat) (inner : Except Error α) : Prop :=
  (∃ key, (n, key, some inner) ∈ s.within) ∨ ∃ c ∈ s.callers, c.number = n ∧ c.role.inner? = some inner

/-- A stage is told once, and keeps what it was told. -/
structure Answered (ms : List (Mark β α)) (s : Sending β α) : Prop where
  fresh : ∀ n inner, .reached n inner ∈ ms → ∀ key, (n, key, none) ∉ s.within
  known : ∀ n inner, .reached n inner ∈ ms → n < s.numbers
  kept : ∀ n inner, Knows s n inner → ∀ other, .reached n other ∈ ms ↔ other = inner

/-- The stages among these have been under way already. -/
def Familiar (s : Sending β α) (callers : List (Caller β α)) : Prop :=
  ∀ c' ∈ callers, c'.role.inner? = none ∨ ∃ c ∈ s.callers, c.number = c'.number ∧ c.role.inner? = c'.role.inner?

section Standing

variable {before after : List (Caller β α)} {c c' : Caller β α}

theorem familiar_self : Familiar s s.callers := fun c mem => .inr ⟨c, mem, rfl, rfl⟩

theorem familiar_at (stands : s.callers = before ++ c :: after) (number : c.number = c'.number)
    (role : c.role.inner? = c'.role.inner?) : Familiar s (before ++ c' :: after) := by
  intro x mem
  rw [stands]
  rcases List.mem_cons.mp (List.perm_middle.mem_iff.mp mem) with rfl | mem
  · exact .inr ⟨c, by simp, number, role⟩
  · exact .inr ⟨x, mem_beside _ mem, rfl, rfl⟩

theorem familiar_without (stands : s.callers = before ++ c :: after) : Familiar s (before ++ after) := fun x mem =>
  familiar_at stands rfl rfl x (mem_beside _ mem)

theorem familiar_plain (plain : c.role = .plain) : Familiar s (s.callers ++ [c]) :=
  List.forall_mem_append.mpr ⟨familiar_self, List.forall_mem_singleton.mpr (.inl (by rw [plain]; rfl))⟩

theorem Familiar.knows (familiar : Familiar s s'.callers)
    (fewer : ∀ key, (n, key, some inner) ∈ s'.within → (n, key, some inner) ∈ s.within) (knows : Knows s' n inner) :
    Knows s n inner := by
  rcases knows with ⟨key, mem⟩ | ⟨c', mem, rfl, told⟩
  · exact .inl ⟨key, fewer key mem⟩
  · rcases familiar c' mem with untold | ⟨c, mem, number, role⟩
    · rw [untold] at told
      cases told
    · exact .inr ⟨c, mem, number, role.trans told⟩

end Standing

theorem Answered.aside (answered : Answered ms s) (silent : ∀ n inner, .reached n inner ∉ new)
    (grows : s.numbers ≤ s'.numbers)
    (within : ∀ n key, (n, key, none) ∈ s'.within → (n, key, none) ∈ s.within ∨ s.numbers ≤ n)
    (knows : ∀ n inner, Knows s' n inner → Knows s n inner) : Answered (ms ++ new) s' where
  fresh := by
    intro n inner mem key inside
    have old : .reached n inner ∈ ms := (List.mem_append.mp mem).resolve_right (silent n inner)
    rcases within n key inside with inside | unborn
    · exact answered.fresh n inner old key inside
    · exact absurd (answered.known n inner old) (by omega)
  known := fun n inner mem =>
    Nat.lt_of_lt_of_le (answered.known n inner ((List.mem_append.mp mem).resolve_right (silent n inner))) grows
  kept := by
    intro n inner known other
    rw [List.mem_append, or_iff_left (silent _ _)]
    exact answered.kept n inner (knows n inner known) other

section Within

variable {before after : List (Nat × String × Option (Except Error α))} {key : String}
  {told : Option (Except Error α)}

theorem outside_at (named : Named s) (stands : s.within = before ++ (n, key, told) :: after) :
    n ∉ s.callers.map Caller.number ∧ n ∉ (before ++ after).map Prod.fst := by
  have once := named.once n
  simp only [names, stands, List.map_append, List.map_cons, List.count_append, List.count_cons_self] at once
  constructor
  · exact List.count_eq_zero.mp (by omega)
  · rw [List.map_append, ← List.count_eq_zero, List.count_append]
    omega

theorem mem_fewer {x : Nat × String × Option (Except Error α)} (stands : s.within = before ++ (n, key, told) :: after)
    (mem : x ∈ before ++ after) : x ∈ s.within :=
  stands ▸ (sublist_without before after _).mem mem

theorem Answered.reach (answered : Answered ms s) (named : Named s)
    (stands : s.within = before ++ (n, key, none) :: after) (inner : Except Error α) :
    Answered (ms ++ [.reached n inner]) { s with within := before ++ (n, key, some inner) :: after } := by
  have inside : (n, key, none) ∈ s.within := by simp [stands]
  obtain ⟨away, gone⟩ := outside_at named stands
  have told : ∀ k other, .reached k other ∈ ms ++ [Mark.reached (β := β) n inner] ↔
      .reached k other ∈ ms ∨ (k = n ∧ other = inner) := by simp
  have others (x : Nat × String × Option (Except Error α)) (mem : x ∈ before ++ (n, key, some inner) :: after) :
      x = (n, key, some inner) ∨ x ∈ before ++ after :=
    List.mem_cons.mp (List.perm_middle.mem_iff.mp mem)
  refine ⟨?_, ?_, ?_⟩
  · intro k other mem key' left
    have stays := (others _ left).resolve_left nofun
    rcases (told k other).mp mem with old | ⟨rfl, -⟩
    · exact answered.fresh k other old key' (mem_fewer stands stays)
    · exact gone (List.mem_map_of_mem stays)
  · intro k other mem
    rcases (told k other).mp mem with old | ⟨rfl, -⟩
    · exact answered.known k other old
    · exact named.known k (List.mem_append_right _ (List.mem_map_of_mem inside))
  · intro k inner' knows other
    rw [told]
    have elsewhere (ne : k ≠ n) (knows : Knows s k inner') :
        .reached k other ∈ ms ∨ (k = n ∧ other = inner) ↔ other = inner' := by
      rw [or_iff_left (fun both => ne both.1)]
      exact answered.kept k inner' knows other
    rcases knows with ⟨key', mem⟩ | ⟨c, mem, rfl, role⟩
    · rcases others _ mem with here | mem
      · cases here
        have unheard : .reached n other ∉ ms := fun heard => answered.fresh n other heard _ inside
        rw [or_iff_right unheard, and_iff_right rfl]
      · exact elsewhere (fun same => gone (same ▸ List.mem_map_of_mem mem)) (.inl ⟨key', mem_fewer stands mem⟩)
    · exact elsewhere (fun same => away (same ▸ List.mem_map_of_mem mem)) (.inr ⟨c, mem, rfl, role⟩)

end Within

theorem stepAnswered (named : Named s) (answered : Answered ms s) (step : Step s new s') : Answered (ms ++ new) s' := by
  cases step with
  | add => exact answered.aside (by simp) (Nat.le_refl _) (fun _ _ => .inl) (fun _ _ => id)
  | enter =>
    refine answered.aside (by simp) (Nat.le_succ _) (fun n key mem => ?_)
      (fun n inner => Familiar.knows familiar_self (by simp))
    simp only [List.mem_append, List.mem_singleton, Prod.mk.injEq] at mem
    exact mem.imp_right fun same => Nat.le_of_eq same.1.symm
  | quit stands =>
    exact answered.aside (by simp) (Nat.le_refl _) (fun _ _ mem => .inl (mem_fewer stands mem))
      (fun _ _ => Familiar.knows familiar_self fun _ => mem_fewer stands)
  | reach inner stands => exact answered.reach named stands inner
  | @take before after n key inner lock stands free =>
    refine answered.aside (by simp) (Nat.le_refl _) (fun _ _ mem => .inl (mem_fewer stands mem)) ?_
    rintro k inner' (⟨key', mem⟩ | ⟨c, mem, rfl, told⟩)
    · exact .inl ⟨key', mem_fewer stands mem⟩
    · rcases List.mem_append.mp mem with mem | mem
      · exact .inr ⟨c, mem, rfl, told⟩
      · obtain rfl := List.mem_singleton.mp mem
        cases told
        exact .inl ⟨key, by simp [stands]⟩
  | skip stands taken =>
    exact answered.aside (by simp) (Nat.le_refl _) (fun _ _ mem => .inl (mem_fewer stands mem))
      (fun _ _ => Familiar.knows familiar_self fun _ => mem_fewer stands)
  | ask | line =>
    exact answered.aside (by simp) (Nat.le_succ _) (fun _ _ => .inl)
      (fun _ _ => Familiar.knows (familiar_plain rfl) fun _ => id)
  | granted stands | move stands | restore stands =>
    exact answered.aside (by simp) (Nat.le_refl _) (fun _ _ => .inl)
      (fun _ _ => Familiar.knows (familiar_at stands rfl rfl) fun _ => id)
  | @close before after n role c moved bus r stands closes =>
    exact answered.aside (by simp) (Nat.le_refl _) (fun _ _ => .inl)
      (fun _ _ => Familiar.knows (familiar_at stands rfl (role.inner?_answered r).symm) fun _ => id)
  | leave stands =>
    exact answered.aside (by simp) (Nat.le_refl _) (fun _ _ => .inl)
      (fun _ _ => Familiar.knows (familiar_without stands) fun _ => id)
  | letGo stands =>
    refine answered.aside (fun n inner mem => ?_) (Nat.le_refl _) (fun _ _ => .inl)
      (fun _ _ => Familiar.knows (familiar_without stands) fun _ => id)
    obtain ⟨r, impossible⟩ := mem_report mem
    cases impossible

theorem runAnswered (named : Named init) (answered : Answered [] init) (run : Run init ms s) : Answered ms s := by
  induction run with
  | nil => exact answered
  | next earlier step ih => exact stepAnswered (runNamed earlier named) ih step

/-! ### The queue is found empty -/

/-- The queue has been empty at some moment since the rest of the chain answered. -/
def EmptySince (init : Sending β α) (n : Nat) (inner : Except Error α) (ms : List (Mark β α)) (s : Sending β α) : Prop :=
  ∃ past t later, .reached n inner ∈ past ∧ Run init past t ∧ t.bus.queue = [] ∧ Run t later s ∧ past ++ later = ms

theorem EmptySince.next (since : EmptySince init n inner ms s) (step : Step s new s') :
    EmptySince init n inner (ms ++ new) s' := by
  obtain ⟨past, t, later, told, earlier, empty, run, rfl⟩ := since
  exact ⟨past, t, later ++ new, told, earlier, empty, run.next step, (List.append_assoc ..).symm⟩

/-- If the drain of this stage has ended well, it has found the queue empty. -/
def Settled (init : Sending β α) (ms : List (Mark β α)) (s : Sending β α) (c : Caller β α) : Prop :=
  ∀ key inner b, c.role = .drained key inner (.ok b) → EmptySince init c.number inner ms s

theorem stepSettled (run : Run init ms s) (answered : Answered ms s) (settled : ∀ c ∈ s.callers, Settled init ms s c)
    (step : Step s new s') : ∀ c ∈ s'.callers, Settled init (ms ++ new) s' c := by
  have old (c : Caller β α) (mem : c ∈ s.callers) : Settled init (ms ++ new) s' c := fun key inner b role =>
    (settled c mem key inner b role).next step
  have others {before after x} (stands : s.callers = before ++ x :: after) :
      ∀ c ∈ before ++ after, Settled init (ms ++ new) s' c :=
    fun c mem => old c (stands ▸ mem_beside x mem)
  cases step with
  | add | enter | quit | reach | skip => exact old
  | take | ask | line => exact List.forall_mem_append.mpr ⟨old, List.forall_mem_singleton.mpr nofun⟩
  | @granted before after n role _ stands | @move before after n role _ _ _ _ stands
  | @restore before after n role _ _ stands =>
    obtain ⟨first, last⟩ := List.forall_mem_append.mp (others stands)
    have same := old _ (stands ▸ List.mem_append_right before List.mem_cons_self)
    exact List.forall_mem_append.mpr ⟨first, List.forall_mem_cons.mpr ⟨same, last⟩⟩
  | leave stands | letGo stands => exact others stands
  | @close before after n role c moved bus r stands closes =>
    obtain ⟨first, last⟩ := List.forall_mem_append.mp (others stands)
    refine List.forall_mem_append.mpr ⟨first, List.forall_mem_cons.mpr ⟨fun key inner b ended => ?_, last⟩⟩
    have here : (⟨n, role, c⟩ : Caller β α) ∈ s.callers := by simp [stands]
    cases role with
    | plain => cases ended
    | drained => exact old _ here key inner b ended
    | stage key' inner' =>
      obtain ⟨rfl, rfl⟩ : r = .ok () ∧ inner' = inner := by
        cases r <;> cases ended
        exact ⟨rfl, rfl⟩
      obtain ⟨rfl, empty, -, -⟩ := closes.emptied
      have told : .reached n inner' ∈ ms := (answered.kept n inner' (.inr ⟨_, here, rfl, rfl⟩) _).mpr rfl
      exact ⟨_, _, [], List.mem_append_left _ told, run.next (.close stands closes), empty, .nil, List.append_nil _⟩

theorem runSettled (named : Named init) (answered : Answered [] init) (idle : init.callers = [])
    (run : Run init ms s) : ∀ c ∈ s.callers, Settled init ms s c := by
  induction run with
  | nil => simp [idle]
  | next earlier step ih => exact stepSettled earlier (runAnswered named answered earlier) ih step

/-! ### A drain that has answered -/

/-- The drain of this call is over, and the call has the lock still. -/
def Leaving (s : Sending β α) (n : Nat) : Prop := ∃ c ∈ s.callers, c.number = n ∧ c.call = .leaving

theorem Leaving.owner (leaving : Leaving s n) : Owner s n := by
  obtain ⟨c, mem, number, rests⟩ := leaving
  exact ⟨c, mem, number, by rw [rests]; rfl⟩

theorem Leaving.pending (locked : Locked s) (leaving : Leaving s n) : s.traffic.pending = s.bus.queue := by
  obtain ⟨c, mem, -, rests⟩ := leaving
  obtain ⟨before, after, stands⟩ := List.append_of_mem mem
  rw [Locked, calls_at stands] at locked
  have hands : (before.map Caller.call ++ c.call :: after.map Caller.call).filterMap Traffic.Call.held = [] := by
    rw [Traffic.held_at locked (by rw [rests]; rfl), rests]
    rfl
  rw [Traffic.pending, Traffic.held, traffic, calls_at stands, hands]
  rfl

theorem stepLeaving (named : Named s) (leaving : Leaving s n) (step : Step s new s') :
    (Leaving s' n ∨ Over s' n) ∧ ∀ m, .did n m ∉ new := by
  obtain ⟨c, mem, rfl, rests⟩ := leaving
  have still {moved bus c'} (moves : Traffic.Moves s.bus c.call moved bus c') : False := by
    rw [rests] at moves
    cases moves with
    | restores holds => cases holds
  refine ⟨?_, fun m did => ?_⟩
  · rcases stepCall named step mem with gone | ⟨c', mem', number, same | ⟨k, waits, -⟩ | ⟨moved, moves⟩⟩
    · exact .inr gone
    · exact .inl ⟨c', mem', number, same.trans rests⟩
    · rw [rests] at waits
      cases waits
    · exact (still moves).elim
  · obtain ⟨role, call, moved, bus, call', stands, moves, -⟩ := did_moves step did
    have same := named.alone mem stands rfl
    rw [same] at still
    exact still moves

theorem runLeaving (named : Named s) (leaving : Leaving s n) (run : Run s xs t) :
    (Leaving t n ∨ Over t n) ∧ ∀ m, .did n m ∉ xs := by
  induction run with
  | nil => exact ⟨.inl leaving, fun _ => List.not_mem_nil⟩
  | next earlier step ih =>
    obtain ⟨stands, silent⟩ := ih
    rcases stands with leaving | gone
    · obtain ⟨stands', silent'⟩ := stepLeaving (runNamed earlier named) leaving step
      exact ⟨stands', fun m did => (List.mem_append.mp did).elim (silent m) (silent' m)⟩
    · exact ⟨.inr (stepOver step gone), fun m did => (List.mem_append.mp did).elim (silent m) (gone.silent step)⟩

theorem stepEnded (step : Step s new s') (ended : .ended n (.ok ()) ∈ new) : s'.bus.queue = [] ∧ Leaving s' n := by
  cases step with
  | @close before after n' role c ms bus r stands closes =>
    obtain ⟨rfl, rfl⟩ : n' = n ∧ r = .ok () := by simpa [eq_comm] using ended
    obtain ⟨rfl, empty, -, -⟩ := closes.emptied
    exact ⟨empty, _, List.mem_append_right _ List.mem_cons_self, rfl, rfl⟩
  | move => simp at ended
  | letGo =>
    obtain ⟨r, impossible⟩ := mem_report ended
    cases impossible
  | _ => simp at ended

theorem runEnded (run : Run init ms s) (ended : .ended n (.ok ()) ∈ ms) : ∃ past t later,
    .ended n (.ok ()) ∈ past ∧ Run init past t ∧ t.bus.queue = [] ∧ Leaving t n ∧ Run t later s ∧ past ++ later = ms := by
  induction run with
  | nil => cases ended
  | next earlier step ih =>
    rcases List.mem_append.mp ended with ended | ended
    · obtain ⟨past, t, later, told, first, empty, leaving, run, rfl⟩ := ih ended
      exact ⟨past, t, _, told, first, empty, leaving, run.next step, (List.append_assoc ..).symm⟩
    · obtain ⟨empty, leaving⟩ := stepEnded step ended
      exact ⟨_, _, [], List.mem_append_right _ ended, earlier.next step, empty, leaving, .nil, List.append_nil _⟩

/-- The drain of a call has found the queue empty before the rest of a chain answered, and what is queued was added
since. -/
def Late (n : Nat) (inner : Except Error α) (d : Nat) (ms : List (Mark β α)) (s : Sending β α) : Prop :=
  ∃ past later, past ++ later = ms ∧ .ended d (.ok ()) ∈ past ∧ .reached n inner ∈ later ∧
    s.bus.queue.map Event.core = (posted later).map Event.core

section Started

variable {ignoreMissing messaging : Bool} {logger : Log.Logger}

theorem ownerLate {d : Nat} (run : Run (start ignoreMissing messaging logger) ms s) (owner : Owner s d)
    (ended : .ended d (.ok ()) ∈ ms) (told : .reached n inner ∈ ms) :
    EmptySince (start ignoreMissing messaging logger) n inner ms s ∨ Late n inner d ms s := by
  obtain ⟨past, t, later, last, earlier, empty, leaving, rest, rfl⟩ := runEnded run ended
  rcases List.mem_append.mp told with told | told
  · exact .inl ⟨past, t, later, told, earlier, empty, rest, rfl⟩
  have named := runNamed earlier (startNamed _ _ _)
  have locked := runLocked earlier (startLocked _ _ _)
  have active : ¬ Over s d := by
    obtain ⟨c, mem, rfl, -⟩ := owner
    exact fun gone => gone.2 (List.mem_append_left _ (List.mem_map_of_mem mem))
  -- nobody else has done anything since, and neither has this call
  have alone := ((runOwner named locked leaving.owner rest).resolve_left active).2
  obtain ⟨stands, silent⟩ := runLeaving named leaving rest
  have nothing : Traffic.left (seen later) = [] := by
    have none : later.filterMap (Mark.by? d) = [] := List.filterMap_eq_nil_iff.mpr fun m mem => by
      cases m with
      | did k m =>
        refine if_neg fun same => silent m ?_
        rwa [← same]
      | _ => rfl
    rw [left_seen alone, leftBy, none]
    rfl
  have accounts := Traffic.runAccounts (runTraffic rest) locked
  rw [nothing, leaving.pending locked, empty,
    (stands.resolve_right active).pending (runLocked rest locked)] at accounts
  exact .inr ⟨past, later, rfl, last, told, accounts.symm⟩

end Started

/-! ### The return of a stage -/

/-- A stage returns when it finds the lock taken, or has given up the lock after its own drain. -/
theorem stepReturns {r : Except Error α} (step : Step s new s') (mem : .returned n r ∈ new) :
    ∃ key inner drain, (afterDrain key inner drain).1 = r ∧
      ((n, key, some inner) ∈ s.within ∧ s.bus.lock.take? = none ∨
        ∃ c ∈ s.callers, c.number = n ∧ c.role = .drained key inner drain) := by
  cases step with
  | @skip before after n' key inner stands taken =>
    obtain ⟨rfl, result⟩ := Mark.returned.inj (List.mem_singleton.mp mem)
    exact ⟨key, inner, .ok false, result.symm, .inl ⟨by simp [stands], taken⟩⟩
  | @letGo before after n' role c stands =>
    cases role with
    | drained key inner drain =>
      obtain ⟨rfl, rfl⟩ : n = n' ∧ r = (afterDrain key inner drain).1 := by simpa [Role.report] using mem
      exact ⟨key, inner, drain, rfl, .inr ⟨⟨n, .drained key inner drain, c⟩, by simp [stands], rfl, rfl⟩⟩
    | _ => cases mem
  | _ => simp at mem

theorem Named.outside {key : String} {told : Option (Except Error α)} (named : Named s)
    (inside : (n, key, told) ∈ s.within) (owner : Owner s n) : False := by
  obtain ⟨before, after, stands⟩ := List.append_of_mem inside
  obtain ⟨c, here, number, -⟩ := owner
  exact (outside_at named stands).1 (List.mem_map.mpr ⟨c, here, number⟩)

theorem Locked.owned (locked : Locked s) (taken : s.bus.lock.take? = none) : ∃ n, Owner s n := by
  have held : s.bus.lock.held = true := by
    cases h : s.bus.lock.held
    · simp [Lock.take?, h] at taken
    · rfl
  have single := locked.single
  rw [if_pos held] at single
  obtain ⟨c, mem, owns⟩ := List.countP_pos_iff.mp (single ▸ Nat.one_pos)
  obtain ⟨caller, here, rfl⟩ := List.mem_map.mp mem
  exact ⟨caller.number, caller, here, rfl, owns⟩

section Taken

variable {key : String}

theorem skipsTaken (taken : s.bus.lock.take? = none) (inside : (n, key, some inner) ∈ s.within) :
    ∃ t, Step s [.returned n inner] t := by
  obtain ⟨before, after, stands⟩ := List.append_of_mem inside
  have skips := Step.skip stands taken
  rw [afterDrain_ok] at skips
  exact ⟨_, skips⟩

/-- A stage that tries a lock that is taken goes on at once, and does nothing else. -/
theorem triesTaken (taken : s.bus.lock.take? = none) (step : Step s new s') (inside : (n, key, some inner) ∈ s.within)
    (tries : (n, key, some inner) ∉ s'.within) :
    s'.callers = s.callers ∧ s'.bus = s.bus ∧ new = [.returned n inner] := by
  have other {before after x} (stands : s.within = before ++ x :: after) :
      (n, key, some inner) = x ∨ (n, key, some inner) ∈ before ++ after := by
    rw [stands] at inside
    exact List.mem_cons.mp (List.perm_middle.mem_iff.mp inside)
  cases step with
  | take _ free =>
    rw [taken] at free
    cases free
  | enter => exact absurd (List.mem_append_left _ inside) tries
  | quit stands => exact absurd ((other stands).resolve_left nofun) tries
  | reach _ stands =>
    have stays := (other stands).resolve_left nofun
    exact absurd ((sublist_without _ _ _).mem stays) tries
  | skip stands =>
    cases (other stands).resolve_right tries
    exact ⟨rfl, rfl, by rw [afterDrain_ok]⟩
  | _ => exact absurd inside tries

end Taken

/-- What a stage leaves behind that drains the bus after the rest of a chain. The lock has one owner at most. While a call
has it, a stage whose rest of the chain has answered can go on, and when it tries the lock it returns that answer at
once and leaves the bus and all drains alone. A stage returns well only what the rest of its chain has answered, and if
the queue has been empty since, or if another call has the lock when it tries: the drain of that call, if it ends well,
has delivered all that was queued then, as it was added, unless it had found the queue empty already before the rest of
the chain answered; then just what was added since is left. And an error of the rest of the chain is what the stage
returns, whatever has become of its drain. -/
theorem nothingLeftBehind {ignoreMissing messaging : Bool} {logger : Log.Logger}
    (run : Run (start ignoreMissing messaging logger) ms s) (step : Step s new s') :
    s.calls.countP (Traffic.Call.owns s.bus.lock) ≤ 1 ∧
    (∀ d, Owner s d → ∀ n key inner, (n, key, some inner) ∈ s.within →
      (∃ t, Step s [.returned n inner] t) ∧
      ((n, key, some inner) ∉ s'.within →
        s'.callers = s.callers ∧ s'.bus = s.bus ∧ new = [.returned n inner])) ∧
    (∀ n a, .returned n (.ok a) ∈ new → .reached n (.ok a) ∈ ms ∧
      (EmptySince (start ignoreMissing messaging logger) n (.ok a) ms s ∨
        ∃ d, d ≠ n ∧ Owner s d ∧ (Covers ignoreMissing messaging ms s d ∨ Late n (.ok a) d ms s))) ∧
    ∀ n e r, .reached n (.error e) ∈ ms → .returned n r ∈ new → r = .error e := by
  have named := runNamed run (startNamed _ _ _)
  have locked := runLocked run (startLocked _ _ _)
  have begun : Answered [] (start (β := β) (α := α) ignoreMissing messaging logger) :=
    ⟨by simp, by simp, by simp [Knows, start]⟩
  have answered := runAnswered (startNamed _ _ _) begun run
  refine ⟨?_, fun d owner n key inner inside => ?_, fun n a mem => ?_, fun n e r reached mem => ?_⟩
  · rw [locked.single]
    split <;> omega
  · have taken := locked.taken owner
    exact ⟨skipsTaken taken inside, triesTaken taken step inside⟩
  · obtain ⟨key, inner, drain, result, place⟩ := stepReturns step mem
    obtain ⟨rfl, b, rfl⟩ := of_afterDrain_ok result
    rcases place with ⟨inside, taken⟩ | ⟨c, here, rfl, role⟩
    · have told := (answered.kept n (.ok a) (.inl ⟨key, inside⟩) _).mpr rfl
      obtain ⟨d, owner⟩ := locked.owned taken
      have apart : d ≠ n := by
        rintro rfl
        exact named.outside inside owner
      refine ⟨told, ?_⟩
      by_cases ended : .ended d (.ok ()) ∈ ms
      · exact (ownerLate run owner ended told).imp_right fun late => ⟨d, apart, owner, .inr late⟩
      · exact .inr ⟨d, apart, owner, .inl (ownerCovers run owner ended)⟩
    · have told := (answered.kept c.number (.ok a) (.inr ⟨c, here, rfl, by rw [role]; rfl⟩) _).mpr rfl
      exact ⟨told, .inl (runSettled (startNamed _ _ _) begun rfl run c here key (.ok a) b role)⟩
  · obtain ⟨key, inner, drain, rfl, place⟩ := stepReturns step mem
    have knows : Knows s n inner := by
      rcases place with ⟨inside, -⟩ | ⟨c, here, number, role⟩
      · exact .inl ⟨key, inside⟩
      · exact .inr ⟨c, here, number, by rw [role]; rfl⟩
    obtain rfl := (answered.kept n inner knows _).mp reached
    exact afterDrain_error key e drain

/-! ### A greeting, added while a drain is about to give up the lock -/

open Traffic (greeting greetingDrain)

/-- The call has its answer, and has the lock still. -/
def partingState (queue : List (Posted Unit)) (within : List (Nat × String × Option (Except Error Unit)))
    (events numbers : Nat) : Sending Unit Unit :=
  ⟨⟨queue, ⟨true, []⟩, false, false, .plain⟩, [⟨0, .plain, .leaving⟩], within, events, numbers⟩

/-- The drain has ended well, the send returns well, and the greeting is left in the queue. -/
theorem greetingLeftBehind : ∃ s t u v : Sending Unit Unit,
    Run (start false false .plain) [.ended 0 (.ok ()), .added greeting] s ∧ Step s [.reached 1 (.ok ())] t ∧
    Owner t 0 ∧ Step t [.returned 1 (.ok ())] u ∧ Step u [] v ∧ v.callers = [] ∧ v.within = [] ∧
    ∀ x ∈ [s, t, u, v], x.bus.queue = [greeting] := by
  have asked : Run (start (β := Unit) (α := Unit) false false .plain) []
      ⟨⟨[], ⟨true, []⟩, false, false, .plain⟩, [⟨0, .plain, .admitted⟩], [], 0, 1⟩ := .next .nil (.ask rfl)
  have closed : Run (start false false .plain) [.ended 0 (.ok ())] (partingState [] [] 0 1) :=
    asked.next (@Step.close _ _ _ [] [] 0 .plain _ _ _ _ rfl (.idle rfl))
  have entered : Run (start false false .plain) [.ended 0 (.ok ())] (partingState [] [(1, "Greeting", none)] 0 2) :=
    closed.next (.enter "Greeting")
  have added : Run (start false false .plain) [.ended 0 (.ok ()), .added greeting]
      (partingState [greeting] [(1, "Greeting", none)] 1 2) := entered.next (.add _ _ _ rfl)
  have reached : Step (partingState [greeting] [(1, "Greeting", none)] 1 2) [.reached 1 (.ok ())]
      (partingState [greeting] [(1, "Greeting", some (.ok ()))] 1 2) :=
    @Step.reach _ _ _ [] [] 1 "Greeting" (.ok ()) rfl
  have skipped : Step (partingState [greeting] [(1, "Greeting", some (.ok ()))] 1 2) [.returned 1 (.ok ())]
      (partingState [greeting] [] 1 2) := @Step.skip _ _ _ [] [] 1 "Greeting" (.ok ()) rfl rfl
  have unlocked : Step (partingState [greeting] [] 1 2) [] ⟨(Bus.make false false .plain).add greeting, [], [], 1, 2⟩ :=
    @Step.letGo _ _ _ [] [] 0 .plain .leaving rfl rfl rfl
  refine ⟨_, _, _, _, added, reached, ⟨_, List.mem_cons_self, rfl, rfl⟩, skipped, unlocked, rfl, rfl, ?_⟩
  simp only [List.forall_mem_cons]
  exact ⟨rfl, rfl, rfl, rfl, nofun⟩

/-! ### An echo, sent while the greeting is handled -/

theorem Step.only {role : Role α} {c c' : Traffic.Call β} {marks : List (Traffic.Mark β)} {bus : Bus (Nat × β)}
    (stands : s.callers = [⟨n, role, c⟩]) (moves : Traffic.Moves s.bus c marks bus c') (goesOn : c' ≠ .leaving) :
    Step s (marks.map (.did n)) { s with bus, callers := [⟨n, role, c'⟩] } :=
  @Step.move _ _ s [] [] n role c marks bus c' stands moves goesOn

def greeted : Posted Unit := greeting.takenUp (.reading 1)

def echo : Posted Unit :=
  ((⟨.ofType "Echo", .new "greetings", "Echo", .ok .null, ()⟩ : Event Unit).stamp .nil (.reading 2)).numbered 1

def echoed : Posted Unit := echo.takenUp (.reading 1)

def echoDrain : Bus.Drain := { greetingDrain with delivered := 1 }

/-- One call drains the bus, and `queue` is behind what it has in hand. -/
def echoState (queue : List (Posted Unit)) (call : Traffic.Call Unit)
    (within : List (Nat × String × Option (Except Error Unit))) (events numbers : Nat) : Sending Unit Unit :=
  ⟨⟨queue, ⟨true, []⟩, false, false, .plain⟩, [⟨0, .plain, call⟩], within, events, numbers⟩

def echoTold : List (Mark Unit Unit) := [.added greeting, .did 0 (.invoked 0), .added echo, .reached 1 (.ok ())]

theorem echoSent : Run (start false false .plain) echoTold
    (echoState [echo] (.handling greetingDrain greeted) [(1, "Echo", some (.ok ()))] 2 2) := by
  have posted : Run (start (α := Unit) false false .plain) [.added greeting]
      ⟨(Bus.make false false .plain).add greeting, [], [], 1, 0⟩ := .next .nil (.add _ _ _ rfl)
  have asked : Run (start false false .plain) [.added greeting] (echoState [greeting] .admitted [] 1 1) :=
    .next posted (.ask rfl)
  have begun : Run (start false false .plain) [.added greeting]
      (echoState [greeting] (.draining greetingDrain) [] 1 1) :=
    .next asked (.only rfl (.begins _ _ (List.cons_ne_nil _ _)) nofun)
  have advanced : Run (start false false .plain) [.added greeting]
      (echoState [] (.notifying greetingDrain greeted) [] 1 1) :=
    .next begun (.only rfl (.advances greetingDrain (.ok ()) (.reading 2) rfl) nofun)
  have invoked : Run (start false false .plain) [.added greeting, .did 0 (.invoked 0)]
      (echoState [] (.handling greetingDrain greeted) [] 1 1) :=
    .next advanced (.only rfl (.invokes greetingDrain greeted) nofun)
  have entered : Run (start false false .plain) [.added greeting, .did 0 (.invoked 0)]
      (echoState [] (.handling greetingDrain greeted) [(1, "Echo", none)] 1 2) := .next invoked (.enter "Echo")
  have added : Run (start false false .plain) [.added greeting, .did 0 (.invoked 0), .added echo]
      (echoState [echo] (.handling greetingDrain greeted) [(1, "Echo", none)] 2 2) := .next entered (.add _ _ _ rfl)
  exact added.next (@Step.reach _ _ _ [] [] 1 "Echo" (.ok ()) rfl)

def echoLater : List (Mark Unit Unit) :=
  [.did 0 (.handled 0 (.value ())), .did 0 (.answered 0 (.ok ())), .did 0 (.left greeted),
    .did 0 (.invoked 1), .did 0 (.handled 1 (.value ())), .did 0 (.answered 1 (.ok ())),
    .did 0 (.left echoed)]

theorem echoDelivered : Run (echoState [echo] (.handling greetingDrain greeted) [] 2 2) echoLater
    (echoState [] (.draining { greetingDrain with delivered := 2 }) [] 2 2) := by
  have handled : Run (echoState [echo] (.handling greetingDrain greeted) [] 2 2)
      [.did 0 (.handled 0 (.value ())), .did 0 (.answered 0 (.ok ())), .did 0 (.left greeted)]
      (echoState [echo] (.draining echoDrain) [] 2 2) :=
    .next .nil (.only rfl (.handled greetingDrain greeted (.value ()) (.reading 3) rfl) nofun)
  have advanced : Run (echoState [echo] (.handling greetingDrain greeted) [] 2 2)
      [.did 0 (.handled 0 (.value ())), .did 0 (.answered 0 (.ok ())), .did 0 (.left greeted)]
      (echoState [] (.notifying echoDrain echoed) [] 2 2) :=
    .next handled (.only rfl (.advances echoDrain (.ok ()) (.reading 3) rfl) nofun)
  have invoked : Run (echoState [echo] (.handling greetingDrain greeted) [] 2 2)
      [.did 0 (.handled 0 (.value ())), .did 0 (.answered 0 (.ok ())), .did 0 (.left greeted),
        .did 0 (.invoked 1)]
      (echoState [] (.handling echoDrain echoed) [] 2 2) :=
    .next advanced (.only rfl (.invokes echoDrain echoed) nofun)
  exact .next invoked (.only rfl (.handled echoDrain echoed (.value ()) (.reading 4) rfl) nofun)

/-- Of the greeting and the echo one is queued, as a drain has one event in hand at most. -/
theorem echoQueued {s : Sending Unit Unit} :
    ¬ EmptySince (start false false .plain) 1 (.ok ()) echoTold s := by
  rintro ⟨past, t, later, told, earlier, empty, -, same⟩
  have early : past <+: echoTold.take 3 ++ [.reached 1 (.ok ())] := ⟨later, same⟩
  rcases List.prefix_concat_iff.mp early with rfl | early
  · have once : t.traffic.held.length ≤ 1 := Traffic.heldOnce (runLocked earlier (startLocked _ _ _))
    have all : [greeting, echo].map Event.core = (t.traffic.held ++ t.bus.queue).map Event.core :=
      Traffic.runAccounts (runTraffic earlier) (startLocked (α := Unit) _ _ _)
    have both := congrArg List.length all
    rw [empty, List.append_nil, List.length_map, List.length_map] at both
    exact absurd (both ▸ once) (by decide)
  · exact absurd (early.mem told) (by simp [echoTold])

/-- The send returns at once, and the drain that runs delivers the greeting and then the echo. -/
theorem echoLeftToGreetings :
    (echoState [echo] (.handling greetingDrain greeted) [] 2 2).bus.queue = [echo] ∧
    (leftBy 0 echoLater).map Event.core = [greeting.core, echo.core] := by
  have skips : Step (echoState [echo] (.handling greetingDrain greeted) [(1, "Echo", some (.ok ()))] 2 2)
      [.returned 1 (.ok ())] (echoState [echo] (.handling greetingDrain greeted) [] 2 2) :=
    @Step.skip _ _ _ [] [] 1 "Echo" (.ok ()) rfl rfl
  have ends : Step (echoState [] (.draining { greetingDrain with delivered := 2 }) [] 2 2) [.ended 0 (.ok ())]
      (echoState [] .leaving [] 2 2) :=
    @Step.close _ _ _ [] [] 0 .plain _ _ _ _ rfl (.ends (.advances _ (.ok ()) (.reading 5)) rfl)
  obtain ⟨-, -, well, -⟩ := nothingLeftBehind echoSent skips
  obtain ⟨d, -, ⟨c, mem, rfl, -⟩, covers | ⟨past, later, same, ended, -⟩⟩ :=
    (well 1 () (by simp)).2.resolve_left echoQueued
  · obtain rfl := List.mem_singleton.mp mem
    exact ⟨rfl, (covers.delivers _ _ _ _ ((Runs.next .nil skips).trans echoDelivered) ends (by simp)).1⟩
  · have impossible : .ended c.number (.ok ()) ∈ echoTold := same ▸ List.mem_append_left _ ended
    simp [echoTold] at impossible

end Sending
end Switchyard.Events
