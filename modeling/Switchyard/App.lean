import Switchyard.Dispatch.Mediator
import Switchyard.Events.Bus
import Switchyard.State.Service
/-!
The application that wires mediator, event bus and state service together: what it refuses and what it tells.
-/
namespace Switchyard.App

/-- An application needs a store. -/
def noStore : Error := .internal "no state adapter configured" none

def built (stages : Nat) : Log.Line := ⟨.debug, "Keel built with " ++ toString stages ++ " middleware stages"⟩

/-- Told at shutdown; events that were not published are lost. -/
def stopped (pending : Nat) : List Log.Line :=
  (if 0 < pending then
    [⟨.warn, "Shutting down with " ++ toString pending ++ " unpublished domain events"⟩] else []) ++
  [⟨.info, "Keel stopped"⟩]

def debug (mediator : String) (pending : Nat) (state : String) : String :=
  Text.record "Keel" [("mediator", mediator), ("pending_events", toString pending), ("state", state)] false

end Switchyard.App
