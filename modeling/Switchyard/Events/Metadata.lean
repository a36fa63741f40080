import Switchyard.Entity
/-!
What every event carries besides its body, and the envelope given to the messaging side.
-/
namespace Switchyard

namespace Events

structure Metadata where
  id : Option Ident
  topic : String
  createdAt : Option Stamp
  /-- Start of the latest drain that took the event up. -/
  publishedAt : Option Stamp
  published : Bool
  /-- The event also goes to the messaging side. -/
  external : Bool
  correlation : Option Uuid
  deriving DecidableEq, Repr, Inhabited

namespace Metadata

def new (topic : String) : Metadata := ⟨none, topic, none, none, false, false, none⟩
def newExternal (topic : String) : Metadata := { new topic with external := true }

/-- Sets identity and creation time where they are not set. -/
def stamp (m : Metadata) (id : Ident) (now : Stamp) : Metadata :=
  { m with id := some (m.id.getD id), createdAt := some (m.createdAt.getD now) }

def isStamped (m : Metadata) : Bool := m.id.isSome && m.createdAt.isSome

def fieldNames : List String :=
  ["id", "topic", "created_at", "published_at", "published", "can_publish_externally", "correlation_id"]

def read : Json.Reader Metadata := fun j => do
  match ← Json.readStruct "EventMetadata" fieldNames j with
  | [id, topic, created, publishedAt, published, external, correlation] =>
    let id ← Json.defaulted Json.readUuid id
    let topic ← Json.required "topic" Json.readString topic
    let created ← Json.defaulted Json.readMoment created
    let publishedAt ← Json.defaulted Json.readMoment publishedAt
    let published ← Json.required "published" Json.readBool published
    let external ← Json.required "can_publish_externally" Json.readBool external
    let correlation ← Json.defaulted Json.readUuid correlation
    .ok ⟨id.map .given, topic, created.map .given, publishedAt.map .given, published, external, correlation⟩
  | _ => .error ""

def fields (m : Metadata) : List (String × Json) :=
  [("id", m.id.elim .null (.str ·.text)), ("topic", .str m.topic), ("created_at", m.createdAt.elim .null (.str ·.text)),
   ("published_at", m.publishedAt.elim .null (.str ·.text)), ("published", .bool m.published),
   ("can_publish_externally", .bool m.external), ("correlation_id", m.correlation.elim .null (.str ·.text))]

end Metadata

structure Message where
  id : Ident
  topic : String
  createdAt : Stamp
  publishedAt : Option Stamp
  payload : Json
  deriving Repr, Inhabited

namespace Message

def fieldNames : List String := ["id", "topic", "created_at", "published_at", "payload"]

def read : Json.Reader Message := fun j => do
  match ← Json.readStruct "EventMessage" fieldNames j with
  | [id, topic, created, published, payload] =>
    let id ← Json.required "id" Json.readUuid id
    let topic ← Json.required "topic" Json.readString topic
    let created ← Json.required "created_at" Json.readMoment created
    let published ← Json.defaulted Json.readMoment published
    let payload ← Json.required "payload" Json.readAny payload
    .ok ⟨.given id, topic, .given created, published.map .given, payload⟩
  | _ => .error ""

def fields (m : Message) : List (String × Json) :=
  [("id", .str m.id.text), ("topic", .str m.topic), ("created_at", .str m.createdAt.text),
   ("published_at", m.publishedAt.elim .null (.str ·.text)), ("payload", m.payload)]

end Message
end Events

end Switchyard
