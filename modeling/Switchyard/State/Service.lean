import Switchyard.State.Memory
import Switchyard.Breaker
/-!
Access to the store for application code: what it makes of the answers that come through the breaker.
-/
namespace Switchyard.State

structure ServiceConfig where
  breaker : Breaker.Config := .named "state"
  cache : Option CacheConfig := none
  logger : Log.Logger := .plain

def ServiceConfig.debug (c : ServiceConfig) : String :=
  Text.record "StateServiceConfig"
    [("breaker", c.breaker.debug), ("cache", Text.optional (c.cache.map CacheConfig.debug)),
     ("logger", c.logger.debug)] false

namespace Service

/-- A missing key is no value; any other error stays. -/
def found (r : Except Error Answer) : Except Error (Option Json) :=
  match r with
  | .ok (.value v) => .ok (some v)
  | .ok _ => .ok none
  | .error e => if e.isNotFound then .ok none else .error e

/-- Deleting a missing key succeeds. -/
def deleted (r : Except Error Answer) : Except Error Answer :=
  match r with
  | .ok a => .ok a
  | .error e => if e.isNotFound then .ok .done else .error e

/-- A write of no items does not go through the breaker. -/
def isIdle : Op → Bool
  | .batchSet [] => true
  | _ => false

def typed {α : Type} (read : Json.Reader α) (r : Except Error (Option Json)) : Except Error (Option α) :=
  match r with
  | .error e => .error e
  | .ok none => .ok none
  | .ok (some v) =>
    match read v with
    | .ok a => .ok (some a)
    | .error reason => .error (.serialization reason)

def cacheStopped : Log.Line := ⟨.debug, "State service cache stopped"⟩

end Service

def cacheDebug (entries : Nat) (batch : Bool) : String :=
  Text.record "CacheProxy" [("entries", toString entries), ("batch", Text.truth batch)] false

def serviceDebug (cache : Option String) (breaker : String) : String :=
  Text.record "StateService" [("cache", Text.optional cache), ("breaker", breaker)] false

end Switchyard.State
