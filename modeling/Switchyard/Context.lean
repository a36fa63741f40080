import Switchyard.Error
import Switchyard.Scope
import Switchyard.Span
import Switchyard.Uuid
/-!
Contexts: a cancellation scope, a deadline and a correlation. A context is cancelled when its scope is, or when
its deadline has come.
-/
namespace Switchyard

structure Context where
  /-- The scope, followed by those it was derived from up to the root. -/
  lineage : List Nat
  deadline : Option Instant
  correlation : Ident
  deriving DecidableEq, Repr, Inhabited

namespace Context

def background (s : Scopes) (correlation : Ident) : Scopes × Context :=
  let (s, scope) := s.add []
  (s, ⟨[scope], none, correlation⟩)

def child (c : Context) (s : Scopes) : Scopes × Context :=
  let (s, scope) := s.add c.lineage
  (s, { c with lineage := scope :: c.lineage })

def earlier (existing : Option Instant) (deadline : Instant) : Instant :=
  match existing with
  | some d => min d deadline
  | none => deadline

def withDeadline (c : Context) (s : Scopes) (deadline : Instant) : Scopes × Context :=
  let (s, c') := c.child s
  (s, { c' with deadline := some (earlier c.deadline deadline) })

def withTimeout (c : Context) (s : Scopes) (now : Instant) (timeout : Span) : Scopes × Context :=
  c.withDeadline s (now + timeout)

def withCorrelation (c : Context) (id : Ident) : Context := { c with correlation := id }

def isPast (c : Context) (now : Instant) : Bool := c.deadline.any (· ≤ now)

def isCancelled (c : Context) (s : Scopes) (now : Instant) : Bool := s.reaches c.lineage || c.isPast now

/-- What a cancelled context is told; a cancellation by call goes before a deadline. -/
def cancellation (c : Context) (s : Scopes) : Error :=
  .cancelled (if s.reaches c.lineage then "context cancelled" else "context deadline exceeded")

def check (c : Context) (s : Scopes) (now : Instant) : Except Error Unit :=
  if c.isCancelled s now then .error (c.cancellation s) else .ok ()

theorem check_error {c : Context} {s : Scopes} {now : Instant} {e : Error} :
    c.check s now = .error e ↔ c.isCancelled s now = true ∧ c.cancellation s = e := by
  unfold check
  split <;> simp_all

theorem check_kind {c : Context} {s : Scopes} {now : Instant} {e : Error} (said : c.check s now = .error e) :
    e.kind = .cancelled :=
  (check_error.mp said).2 ▸ rfl

end Context
end Switchyard
