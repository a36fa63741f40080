import Switchyard.Events.Metadata
import Switchyard.Span
import Switchyard.Testing.Failure
import Switchyard.Testing.Recorder
/-!
A messaging side that keeps what is published and hands it to local subscribers.
-/
namespace Switchyard.Testing

open Events (Message)

structure Broker (η : Type) where
  published : List Message
  subscribers : List (String × η)
  failure : Option Failure
  calls : Calls
  latency : Option Span
  /-- Topics whose publications panic before they reach the broker. -/
  panicTopics : List String
  deriving Repr

namespace Broker

variable {η : Type}

def empty : Broker η := ⟨[], [], none, [], none, []⟩

def topics (b : Broker η) : List String := b.published.map (·.topic)

def isSubscribed (b : Broker η) (topic : String) : Bool := (b.subscribers.lookup topic).isSome

/-- Records a publication, and gives the subscriber to run or the failure put in. -/
def publish (b : Broker η) (m : Message) : Broker η × Except Error (Option η) :=
  let b := { b with calls := b.calls ++ [("publish", [m.topic, m.id.text])] }
  match Failure.take b.failure with
  | (left, some e) => ({ b with failure := left }, .error e)
  | (left, none) =>
    ({ b with failure := left, published := b.published ++ [m] }, .ok (b.subscribers.lookup m.topic))

def subscribe (b : Broker η) (topic : String) (handler : η) : Broker η :=
  { b with calls := b.calls ++ [("subscribe", [topic])]
           subscribers := b.subscribers.filter (·.1 ≠ topic) ++ [(topic, handler)] }

def unsubscribe (b : Broker η) (topic : String) : Broker η :=
  { b with calls := b.calls ++ [("unsubscribe", [topic])]
           subscribers := b.subscribers.filter (·.1 ≠ topic) }

def panicOf (b : Broker η) (topic : String) : Option String :=
  if b.panicTopics.contains topic then some ("broker panicked on " ++ topic) else none

def debug (b : Broker η) : String :=
  Text.record "RecordingMessagingAdapter"
    [("published", toString b.published.length), ("calls", b.calls.debug)] false

end Broker
end Switchyard.Testing
