import Switchyard.Proofs.Breaker.Gate
import Switchyard.Proofs.State.Front
import Switchyard.State.Service
/-!
The service among its callers. The breaker lets a call in or turns it away; inside, the call goes through the cache,
where there is one, to the store, and its context may end it wherever it is; what has become of it goes back through the
breaker. The store answers what it likes, or panics. What happens to the breaker alone is a run of the breaker.
-/
namespace Switchyard.State

structure Proxy where
  config : CacheConfig
  memory : Memory
  channel : Channel
  worker : Worker
  stopping : Bool

def Proxy.start (config : CacheConfig) : Proxy where
  config := config
  memory := .empty
  channel := .ofCapacity config.capacity
  worker := if config.batch then .idle else .gone
  stopping := false

namespace Desk

inductive Stage where
  | admitted
  | inside (stage : Front.Stage)

structure Call where
  number : Nat
  /-- The generation of the breaker in which it was let in. -/
  tag : Nat
  op : Op
  stage : Stage

inductive Mark where
  | gate (m : Breaker.Gate.Mark)
  /-- The store has answered it. -/
  | replied (n : Nat) (o : Outcome Answer)
  /-- It was answered from memory. -/
  | served (n : Nat) (a : Answer)
  | cache (m : State.Mark)

def Mark.gate? : Mark → Option Breaker.Gate.Mark
  | .gate m => some m
  | _ => none

def gateMarks (ms : List Mark) : List Breaker.Gate.Mark := ms.filterMap Mark.gate?

def said : Except Error Answer → Outcome Answer
  | .ok a => .value a
  | .error e => .failure e

def verdict : Except Error Answer → Outcome Unit
  | .ok _ => .value ()
  | .error e => .failure e

def told (n : Nat) : Begun → List Mark
  | .served a => [.served n a]
  | _ => []

end Desk

open Desk in
structure Desk where
  breaker : Breaker
  now : Instant
  proxy : Option Proxy
  calls : List Call
  total : Nat

namespace Desk

def start (config : ServiceConfig) (began : Instant) : Desk :=
  ⟨.make config.breaker began, began, config.cache.map .start, [], 0⟩

/-- A call that will not be heard of again gives back its place in the channel. -/
def leave (s : Desk) (c : Call) : Option Proxy :=
  match c.stage with
  | .admitted => s.proxy
  | .inside stage => s.proxy.map fun proxy => { proxy with channel := stage.leave c.number proxy.channel }

inductive Goes (s : Desk) (c : Call) : Option Proxy → Stage → List Mark → Prop where
  | asks (fresh : c.stage = .admitted) (bare : s.proxy = none) : Goes s c none (.inside (.asked .pass)) []
  | enters {proxy memory begun channel stage marks} (fresh : c.stage = .admitted) (cached : s.proxy = some proxy)
      (begins : proxy.memory.begin proxy.config c.op s.now = (memory, begun))
      (enters : Front.Enters proxy.channel c.number begun channel stage marks) :
      Goes s c (some { proxy with memory, channel }) (.inside stage) (told c.number begun ++ marks.map .cache)
  | replied {p} (asked : c.stage = .inside (.asked p)) (r : Except Error Answer) :
      Goes s c s.proxy (.inside (.answered p r)) [.replied c.number (said r)]
  | placed {proxy item p shelf queued marks shelf' channel stage} (waits : c.stage = .inside (.placing item p))
      (cached : s.proxy = some proxy)
      (moves : Front.Moves shelf proxy.channel queued c.number c.op (.placing item p) marks shelf' channel stage) :
      Goes s c (some { proxy with channel }) (.inside stage) (marks.map .cache)

inductive Ends (s : Desk) (c : Call) : Option Proxy → Outcome Unit → List Mark → Prop where
  | answered {p r} (answered : c.stage = .inside (.answered p r)) (bare : s.proxy = none) : Ends s c none (verdict r) []
  | finished {proxy p r memory r'} (answered : c.stage = .inside (.answered p r)) (cached : s.proxy = some proxy)
      (finished : proxy.memory.finish proxy.config p r s.now = (memory, r')) :
      Ends s c (some { proxy with memory }) (verdict r') []
  | panicked {p} (asked : c.stage = .inside (.asked p)) (m : String) :
      Ends s c s.proxy (.panic m) [.replied c.number (.panic m)]
  | cancelled (e : Error) (kind : e.kind = .cancelled) : Ends s c (s.leave c) (.failure e) []

open Breaker.Gate (moves)

inductive Step (s : Desk) : List Mark → Desk → Prop where
  | letIn (op : Op) {breaker changes tag} (busy : Service.isIdle op = false)
      (asked : s.breaker.acquire s.now = (breaker, changes, .ok tag)) :
      Step s ((moves changes s.now ++ [Breaker.Gate.Mark.asked s.total (.ok tag) s.now]).map .gate)
        { s with breaker, calls := s.calls ++ [⟨s.total, tag, op, .admitted⟩], total := s.total + 1 }
  | turnAway (op : Op) {breaker changes e} (busy : Service.isIdle op = false)
      (asked : s.breaker.acquire s.now = (breaker, changes, .error e)) :
      Step s ((moves changes s.now ++ [Breaker.Gate.Mark.asked s.total (.error e) s.now]).map .gate)
        { s with breaker, total := s.total + 1 }
  | go {before after c proxy stage marks} (stands : s.calls = before ++ c :: after) (goes : Goes s c proxy stage marks) :
      Step s marks { s with proxy, calls := before ++ { c with stage } :: after }
  | settle {before after c proxy o marks breaker changes} (stands : s.calls = before ++ c :: after)
      (ends : Ends s c proxy o marks)
      (settled : s.breaker.settle c.tag (s.breaker.config.succeeds o) s.now = (breaker, changes)) :
      Step s (marks ++ (.ended c.number c.tag o s.now :: moves changes s.now).map .gate)
        { s with breaker, proxy, calls := before ++ after }
  | abandon {before after c breaker changes} (stands : s.calls = before ++ c :: after)
      (abandoned : s.breaker.abandon c.tag s.now = (breaker, changes)) :
      Step s ((.dropped c.number c.tag s.now :: moves changes s.now).map .gate)
        { s with breaker, proxy := s.leave c, calls := before ++ after }
  | look {breaker changes} (refreshed : s.breaker.refresh s.now = (breaker, changes)) :
      Step s ((moves changes s.now).map .gate) { s with breaker }
  | reset {breaker changes} (forced : s.breaker.reset s.now = (breaker, changes)) :
      Step s ((.forced .closed s.now :: moves changes s.now).map .gate) { s with breaker }
  | forceOpen {breaker changes} (forced : s.breaker.forceOpen s.now = (breaker, changes)) :
      Step s ((.forced .opened s.now :: moves changes s.now).map .gate) { s with breaker }
  | pass (now : Instant) (later : s.now ≤ now) : Step s [] { s with now }
  | sweep {proxy} (cached : s.proxy = some proxy) :
      Step s [] { s with proxy := some { proxy with memory := (proxy.memory.purge s.now).1 } }
  | stop {proxy} (cached : s.proxy = some proxy) :
      Step s [.cache .stopping] { s with proxy := some { proxy with stopping := true } }
  | work {proxy shelf marks worker channel shelf'} (cached : s.proxy = some proxy)
      (works : Front.Works proxy.config s.now proxy.stopping proxy.channel shelf proxy.worker marks worker channel shelf') :
      Step s (marks.map .cache) { s with proxy := some { proxy with worker, channel } }

abbrev Run (init : Desk) : List Mark → Desk → Prop := Runs Step init

/-! ### Its breaker -/

def Call.ticket (c : Call) : Breaker.Gate.Call := ⟨c.number, c.tag⟩

def gate (s : Desk) : Breaker.Gate := ⟨s.breaker, s.now, s.calls.map Call.ticket, s.total⟩

@[simp] theorem gateMarks_append (xs ys : List Mark) : gateMarks (xs ++ ys) = gateMarks xs ++ gateMarks ys :=
  List.filterMap_append

@[simp] theorem gateMarks_gate (ms : List Breaker.Gate.Mark) : gateMarks (ms.map .gate) = ms := by
  induction ms with
  | nil => rfl
  | cons m rest ih => exact congrArg (m :: ·) ih

@[simp] theorem gateMarks_cache (ms : List State.Mark) : gateMarks (ms.map .cache) = [] := by
  induction ms with
  | nil => rfl
  | cons m rest ih => exact ih

theorem mem_gateMarks {m : Breaker.Gate.Mark} {ms : List Mark} : m ∈ gateMarks ms ↔ .gate m ∈ ms := by
  refine mem_project fun x m => ?_
  cases x <;> simp [Mark.gate?]

/-- A place in the history of the breaker is one in the history of the service. -/
theorem gateMarks_split {ms : List Mark} {xs ys : List Breaker.Gate.Mark} {m : Breaker.Gate.Mark}
    (split : gateMarks ms = xs ++ m :: ys) :
    ∃ before after, ms = before ++ .gate m :: after ∧ gateMarks before = xs ∧ gateMarks after = ys := by
  obtain ⟨front, back, rfl, rfl, rest⟩ := List.filterMap_eq_append_iff.mp split
  obtain ⟨skipped, x, after, rfl, none, here, rfl⟩ := List.filterMap_eq_cons_iff.mp rest
  have same : x = .gate m := by
    cases x with
    | gate => exact congrArg Mark.gate (Option.some.inj here)
    | replied | served | cache => cases here
  have quiet : gateMarks skipped = [] := List.filterMap_eq_nil_iff.mpr none
  refine ⟨front ++ skipped, after, by simp [same], ?_, rfl⟩
  rw [gateMarks_append, quiet, List.append_nil]
  rfl

theorem goesQuiet {s : Desk} {c : Call} {proxy : Option Proxy} {stage : Stage} {marks : List Mark}
    (goes : Goes s c proxy stage marks) : gateMarks marks = [] := by
  cases goes with
  | asks | replied => rfl
  | placed => exact gateMarks_cache _
  | @enters _ _ begun =>
    have quiet : gateMarks (told c.number begun) = [] := by cases begun <;> rfl
    simp [quiet]

theorem endsQuiet {s : Desk} {c : Call} {proxy : Option Proxy} {o : Outcome Unit} {marks : List Mark}
    (ends : Ends s c proxy o marks) : gateMarks marks = [] := by
  cases ends <;> rfl

/-- To the breaker a step of the service is one of its own, or nothing. -/
theorem stepGate {s s' : Desk} {ms : List Mark} (step : Step s ms s') :
    Breaker.Gate.Step s.gate (gateMarks ms) s'.gate ∨ (gateMarks ms = [] ∧ s'.gate = s.gate) := by
  have left {before after : List Call} {c : Call} (stands : s.calls = before ++ c :: after) :
      s.gate.calls = before.map Call.ticket ++ c.ticket :: after.map Call.ticket := by
    simp [gate, stands]
  cases step with
  | letIn op busy asked =>
    have step : Breaker.Gate.Step s.gate _ _ := .letIn asked
    rw [gateMarks_gate]
    exact .inl (by simpa [gate, Call.ticket] using step)
  | turnAway op busy asked =>
    rw [gateMarks_gate]
    exact .inl (.turnAway asked)
  | go stands goes => exact .inr ⟨goesQuiet goes, by simp [gate, stands, Call.ticket]⟩
  | settle stands ends settled =>
    have step : Breaker.Gate.Step s.gate _ _ := .settle _ (left stands) settled
    rw [gateMarks_append, endsQuiet ends, gateMarks_gate]
    exact .inl (by simpa [gate, Call.ticket] using step)
  | abandon stands abandoned =>
    have step : Breaker.Gate.Step s.gate _ _ := .abandon (left stands) abandoned
    rw [gateMarks_gate]
    exact .inl (by simpa [gate, Call.ticket] using step)
  | look refreshed =>
    rw [gateMarks_gate]
    exact .inl (.look refreshed)
  | reset forced =>
    rw [gateMarks_gate]
    exact .inl (.reset forced)
  | forceOpen forced =>
    rw [gateMarks_gate]
    exact .inl (.forceOpen forced)
  | pass now later => exact .inl (.pass now later)
  | sweep | stop => exact .inr ⟨rfl, rfl⟩
  | work => exact .inr ⟨gateMarks_cache _, rfl⟩

theorem runGate {config : ServiceConfig} {began : Instant} {ms : List Mark} {s : Desk}
    (run : Run (start config began) ms s) :
    Breaker.Gate.Run (Breaker.Gate.start config.breaker began) (gateMarks ms) s.gate := by
  induction run with
  | nil => exact .nil
  | next earlier last ih =>
    rw [gateMarks_append]
    rcases stepGate last with step | ⟨quiet, same⟩
    · exact .next ih step
    · rw [quiet, same, List.append_nil]
      exact ih

end Desk
end Switchyard.State
