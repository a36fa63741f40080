import Switchyard.Proofs.Dispatch.Nesting
/-!
The order of entries and exits in a dispatch, read off the nesting: stages are entered from the first on and exit from
the last back, and what comes last is reached only through calls of all of them.
-/
namespace Switchyard.Dispatch.Passage

variable {σ η ρ α ν : Type}

inductive Turn (σ : Type) where
  | enter (s : σ)
  | exit (s : σ)

namespace Mark

def turn? : Mark σ η ρ α ν → Option (Turn σ)
  | .entered s _ _ => some (.enter s)
  | .left s _ _ => some (.exit s)
  | _ => none

def call? : Mark σ η ρ α ν → Option (σ × Except Error Unit)
  | .called s _ _ check => some (s, check)
  | _ => none

def invocation? : Mark σ η ρ α ν → Option (η × Context × ρ)
  | .invoked h ctx request => some (h, ctx, request)
  | _ => none

end Mark

def turns (ms : List (Mark σ η ρ α ν)) : List (Turn σ) := ms.filterMap Mark.turn?

/-- The calls of the rest of the chain, with what the context said to each. -/
def calls (ms : List (Mark σ η ρ α ν)) : List (σ × Except Error Unit) := ms.filterMap Mark.call?

def invocations (ms : List (Mark σ η ρ α ν)) : List (η × Context × ρ) := ms.filterMap Mark.invocation?

def Kept (ms : List (Mark σ η ρ α ν)) : Prop := ∀ s, .dropped s ∉ ms

/-- Stages that were entered, from the first on, and of these the stages that have left, from the last back. Where every
stage waits for the answer to its call, all within a stage leave before it, and all have left in the end. -/
structure InTurn (stages entered exited : List σ) (kept : Prop) (ended : Bool) : Prop where
  fromFirst : entered <+: stages
  backwards : exited.Sublist entered.reverse
  within : kept → exited <+: entered.reverse
  all : kept → ended → exited = entered.reverse

/-- The entries of stages come first, then the exits. What comes last is invoked once at most, and only once all callers
have called on, each within a context that was not cancelled. -/
structure Orderly (callers stages : List σ) (h : η) (ms : List (Mark σ η ρ α ν)) (ended : Bool) : Prop where
  inTurn : ∃ entered exited, turns ms = entered.map .enter ++ exited.map .exit ∧
    InTurn stages entered exited (Kept ms) ended
  once : (invocations ms).length ≤ 1
  last : ∀ called ∈ invocations ms, called.1 = h ∧ calls ms = callers.map (·, .ok ())

structure Quiet (ms : List (Mark σ η ρ α ν)) : Prop where
  turns : turns ms = []
  calls : calls ms = []
  invocations : invocations ms = []

variable {k : Conduct σ η ρ α ν} {h : η} {callers stages rest entered exited : List σ} {s : σ} {ctx : Context} {request : ρ}
  {check : Except Error Unit} {ms : List (Mark σ η ρ α ν)} {kept kept' : Prop} {ended ended' : Bool}

theorem Kept.append {xs ys : List (Mark σ η ρ α ν)} : Kept (xs ++ ys) ↔ Kept xs ∧ Kept ys := by
  simp only [Kept, List.mem_append, not_or, forall_and]

theorem turns_append (xs ys : List (Mark σ η ρ α ν)) : turns (xs ++ ys) = turns xs ++ turns ys :=
  List.filterMap_append

theorem calls_append (xs ys : List (Mark σ η ρ α ν)) : calls (xs ++ ys) = calls xs ++ calls ys :=
  List.filterMap_append

theorem invocations_append (xs ys : List (Mark σ η ρ α ν)) :
    invocations (xs ++ ys) = invocations xs ++ invocations ys :=
  List.filterMap_append

theorem calls_left (xs : List (Mark σ η ρ α ν)) (notes : List ν) (o : Outcome α) :
    calls (xs ++ [.left s notes o]) = calls xs :=
  (calls_append ..).trans (List.append_nil _)

theorem invocations_left (xs : List (Mark σ η ρ α ν)) (notes : List ν) (o : Outcome α) :
    invocations (xs ++ [.left s notes o]) = invocations xs :=
  (invocations_append ..).trans (List.append_nil _)

namespace InTurn

theorem none : InTurn stages [] [] kept ended :=
  ⟨List.nil_prefix, List.nil_sublist _, fun _ => List.nil_prefix, fun _ _ => rfl⟩

theorem mono (inTurn : InTurn stages entered exited kept ended) (keeps : kept' → kept)
    (ends : kept' → ended' → ended) : InTurn stages entered exited kept' ended' :=
  ⟨inTurn.fromFirst, inTurn.backwards, inTurn.within ∘ keeps, fun kept done => inTurn.all (keeps kept) (ends kept done)⟩

theorem enter (inTurn : InTurn rest entered exited kept ended) :
    InTurn (s :: rest) (s :: entered) exited kept false where
  fromFirst := List.cons_prefix_cons.mpr ⟨rfl, inTurn.fromFirst⟩
  backwards := by
    rw [List.reverse_cons]
    exact inTurn.backwards.trans (List.sublist_append_left _ _)
  within kept := by
    rw [List.reverse_cons]
    exact (inTurn.within kept).trans (List.prefix_append _ _)
  all _ ends := by cases ends

theorem leave (inTurn : InTurn rest entered exited kept true) :
    InTurn (s :: rest) (s :: entered) (exited ++ [s]) kept true where
  fromFirst := List.cons_prefix_cons.mpr ⟨rfl, inTurn.fromFirst⟩
  backwards := by
    rw [List.reverse_cons]
    exact inTurn.backwards.append_right _
  within kept := by
    have all := inTurn.all kept rfl
    simp only [List.reverse_cons, all, List.prefix_rfl]
  all kept _ := by rw [List.reverse_cons, inTurn.all kept rfl]

end InTurn

namespace Orderly

theorem nothing : Orderly callers rest h ([] : List (Mark σ η ρ α ν)) ended :=
  ⟨⟨[], [], rfl, .none⟩, Nat.zero_le _, nofun⟩

theorem invoked : Orderly (σ := σ) (α := α) (ν := ν) [] [] h [.invoked h ctx request] ended where
  inTurn := ⟨[], [], rfl, .none⟩
  once := Nat.le_refl 1
  last called mem := by
    cases List.mem_singleton.mp mem
    exact ⟨rfl, rfl⟩

theorem call (orderly : Orderly rest rest h ms ended) (free : ∀ e, check = .error e → ms = []) :
    Orderly (s :: rest) rest h (.called s ctx request check :: ms) ended where
  inTurn := by
    obtain ⟨entered, exited, split, inTurn⟩ := orderly.inTurn
    exact ⟨entered, exited, split, inTurn.mono (fun kept s mem => kept s (.tail _ mem)) fun _ => id⟩
  once := orderly.once
  last called mem := by
    cases check with
    | error e =>
      cases free e rfl
      cases mem
    | ok =>
      obtain ⟨same, all⟩ := orderly.last called mem
      exact ⟨same, congrArg (fun calls => (s, Except.ok ()) :: calls) all⟩

theorem after {tail : List (Mark σ η ρ α ν)} (orderly : Orderly callers rest h ms ended) (quiet : Quiet tail)
    (ends : Kept tail → ended' → ended) : Orderly callers rest h (ms ++ tail) ended' where
  inTurn := by
    obtain ⟨entered, exited, split, inTurn⟩ := orderly.inTurn
    refine ⟨entered, exited, by rw [turns_append, quiet.turns, List.append_nil, split], inTurn.mono ?_ ?_⟩
    · exact fun kept => (Kept.append.mp kept).1
    · exact fun kept => ends (Kept.append.mp kept).2
  once := by
    rw [invocations_append, quiet.invocations, List.append_nil]
    exact orderly.once
  last called mem := by
    rw [invocations_append, quiet.invocations, List.append_nil] at mem
    rw [calls_append, quiet.calls, List.append_nil]
    exact orderly.last called mem

theorem enter (orderly : Orderly callers rest h ms ended) :
    Orderly callers (s :: rest) h (.entered s ctx request :: ms) false where
  inTurn := by
    obtain ⟨entered, exited, split, inTurn⟩ := orderly.inTurn
    refine ⟨s :: entered, exited, congrArg (fun turns => Turn.enter s :: turns) split, inTurn.enter.mono ?_ fun _ => id⟩
    exact fun kept s mem => kept s (.tail _ mem)
  once := orderly.once
  last := orderly.last

theorem leave {notes : List ν} {o : Outcome α} (orderly : Orderly callers rest h ms true) :
    Orderly callers (s :: rest) h (.entered s ctx request :: ms ++ [.left s notes o]) true where
  inTurn := by
    obtain ⟨entered, exited, split, inTurn⟩ := orderly.inTurn
    refine ⟨s :: entered, exited ++ [s], ?_, inTurn.leave.mono ?_ fun _ => id⟩
    · calc
        turns (.entered s ctx request :: ms ++ [.left s notes o]) = .enter s :: turns ms ++ [.exit s] := turns_append ..
        _ = (s :: entered).map .enter ++ (exited ++ [s]).map .exit := by simp [split]
    · exact fun kept s mem => kept s (List.mem_append_left _ (.tail _ mem))
  once := by
    rw [invocations_left]
    exact orderly.once
  last called mem := by
    rw [invocations_left] at mem
    rw [calls_left]
    exact orderly.last called mem

end Orderly

theorem Calls.orderly {inner : Process σ η ρ α ν} {giveUp : Prop} {a : Option (Option (Outcome α))}
    (order : ∀ check ctx request ms o, guarded check inner ctx request ms o → Orderly rest rest h ms o.isSome)
    (made : Calls s inner giveUp ctx request ms a) : Orderly (s :: rest) rest h ms a.isSome := by
  have free {check : Except Error Unit} {ms : List (Mark σ η ρ α ν)} {o : Option (Outcome α)}
      (comes : guarded check inner ctx request ms o) : ∀ e, check = .error e → ms = [] := by
    rintro e rfl
    exact comes.1
  cases made with
  | underWay _ _ rest => exact (order _ _ _ _ _ rest).call (free rest)
  | answered _ _ rest => exact ((order _ _ _ _ _ rest).call (free rest)).after ⟨rfl, rfl, rfl⟩ fun _ _ => rfl
  | givenUp _ _ _ rest =>
    refine ((order _ _ _ _ _ rest).call (free rest)).after ⟨rfl, rfl, rfl⟩ fun kept => ?_
    exact absurd List.mem_cons_self (kept s)

theorem orderly_composed {o : Option (Outcome α)} (check : Except Error Unit)
    (comes : guarded check (composed k stages h) ctx request ms o) : Orderly stages stages h ms o.isSome := by
  induction stages generalizing check ctx request ms o with
  | nil =>
    cases check with
    | error e =>
      obtain ⟨rfl, rfl⟩ := comes
      exact .nothing
    | ok =>
      cases comes with
      | refuses => exact .nothing
      | invokes => exact .invoked
      | @handles o =>
        have quiet : Quiet [(.handled h o : Mark σ η ρ α ν)] := ⟨rfl, rfl, rfl⟩
        exact Orderly.invoked.after quiet fun _ => id
  | cons s rest ih =>
    cases check with
    | error e =>
      obtain ⟨rfl, rfl⟩ := comes
      exact .nothing
    | ok =>
      cases comes with
      | enters => exact (Orderly.nothing : Orderly _ rest h [] false).enter
      | early may => exact .leave .nothing
      | within may made => exact (made.orderly fun check _ _ _ _ => ih check).enter
      | late may made ends => exact (made.orderly fun check _ _ _ _ => ih check).leave

end Switchyard.Dispatch.Passage
