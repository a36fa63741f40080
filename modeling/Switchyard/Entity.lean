import Switchyard.Error
import Switchyard.Stamp
import Switchyard.Uuid
import Switchyard.Json.Decode
/-!
Identity and audit fields of stored entities. The identity is assigned once.
-/
namespace Switchyard

structure Entity where
  id : Ident
  createUser : String
  updateUser : String
  createdAt : Stamp
  updatedAt : Stamp
  deriving DecidableEq, Repr, Inhabited

namespace Entity

def make (id : Ident) (now : Stamp) : Entity := ⟨id, "", "", now, now⟩

def unassigned (now : Stamp) : Entity := make .nil now

def hasId (e : Entity) : Bool := !e.id.isNil

/-- Assigning the same identity again changes nothing; another one is refused. -/
def assign (e : Entity) (id : Ident) : Except Error Entity :=
  if e.hasId ∧ e.id ≠ id then .error (.conflict ("entity id already set to " ++ e.id.text))
  else .ok { e with id := id }

def markCreated (e : Entity) (user : String) (now : Stamp) : Entity :=
  { e with createUser := user, updateUser := user, createdAt := now, updatedAt := now }

def markUpdated (e : Entity) (user : String) (now : Stamp) : Entity :=
  { e with updateUser := user, updatedAt := now }

end Entity

/-! ### Encoded form -/

namespace Json

def readUuid : Reader Uuid := fun j => do
  let s ← readString j
  match Uuid.parse? s with
  | some u => .ok u
  | none => .error "UUID parsing failed"

def readMoment : Reader Moment := fun j => do
  let s ← readString j
  match Moment.parse? s with
  | some m => .ok m
  | none => .error "input contains invalid characters"

/-- The values of the named fields, from an object or from an array that has them in this order. -/
def readStruct (name : String) (names : List String) : Json → Except String (List (Option Json))
  | .obj fields => .ok (names.map fun n => fields.lookup n)
  | .arr items =>
    if items.length = names.length then .ok (items.map some)
    else .error (wrongLength items.length ("struct " ++ name ++ " with " ++ toString names.length ++ " elements"))
  | j => .error (wrongType j ("struct " ++ name))

def required {α : Type} (name : String) (read : Reader α) : Option Json → Except String α
  | some j => read j
  | none => .error (missingField name)

/-- A field that may be left out or null. -/
def defaulted {α : Type} (read : Reader α) : Option Json → Except String (Option α)
  | some j => readOption read j
  | none => .ok none

end Json

def Entity.fieldNames : List String := ["id", "create_user", "update_user", "created_at", "updated_at"]

def Entity.read : Json.Reader Entity := fun j => do
  match ← Json.readStruct "EntityBase" Entity.fieldNames j with
  | [id, create, update, created, updated] =>
    let id ← Json.required "id" Json.readUuid id
    let create ← Json.required "create_user" Json.readString create
    let update ← Json.required "update_user" Json.readString update
    let created ← Json.required "created_at" Json.readMoment created
    let updated ← Json.required "updated_at" Json.readMoment updated
    .ok ⟨.given id, create, update, .given created, .given updated⟩
  | _ => .error ""

def Entity.fields (e : Entity) : List (String × Json) :=
  [("id", .str e.id.text), ("create_user", .str e.createUser), ("update_user", .str e.updateUser),
   ("created_at", .str e.createdAt.text), ("updated_at", .str e.updatedAt.text)]

end Switchyard
