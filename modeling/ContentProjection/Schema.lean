import ContentProjection.Entity
import ContentProjection.Json.Record

/-!
# Field schemas

A schema is the ordered list of the field definitions of a bundle. A stored
definition names its type, and for some types a target or a largest resolution;
a type name nobody knows is kept, so that the field can be passed over later.
Names need not be distinct.
-/
namespace ContentProjection

/-- What a reference field points at. -/
inductive ReferenceTarget where
  | node
  | taxonomyTerm
  | nodeType
  | other (name : String)
  deriving DecidableEq, Repr

namespace ReferenceTarget

def ofStored (name : Option String) : ReferenceTarget :=
  let name := name.getD ""
  if name = "node" then node
  else if name = "taxonomy_term" then taxonomyTerm
  else if name = "node_type" then nodeType
  else other name

def entityKind? : ReferenceTarget → Option EntityKind
  | node => some .node
  | taxonomyTerm => some .taxonomyTerm
  | nodeType => none
  | other _ => none

end ReferenceTarget

inductive FieldType where
  | text | longText | uuid | integer | float | boolean | date | pathAlias | link | file
  | image (maxResolution : Option String)
  | entityReference (target : ReferenceTarget)
  | unsupported (name : String)
  deriving DecidableEq, Repr

namespace FieldType

def simpleTypes : List (String × FieldType) :=
  [("string", text), ("text", text), ("string_long", longText), ("text_long", longText),
    ("uuid", uuid), ("integer", integer), ("float", float), ("boolean", boolean),
    ("created", date), ("changed", date), ("path", pathAlias), ("link", link), ("file", file)]

/-- The value type behind the name of a storage type. -/
def ofStored (name : String) (targetType maxResolution : Option String) : FieldType :=
  if name = "image" then image maxResolution
  else if name = "entity_reference" then entityReference (ReferenceTarget.ofStored targetType)
  else (simpleTypes.lookup name).getD (unsupported name)

end FieldType

structure FieldDefinition where
  name : String
  type : FieldType
  multiple : Bool
  deriving DecidableEq, Repr

abbrev Schema := List FieldDefinition

namespace FieldDefinition

def single (name : String) (type : FieldType) : FieldDefinition := ⟨name, type, false⟩

/-- A stored cardinality of 0 or 1 is single, any other is multiple. -/
def isMultipleLimit (limit : Int) : Bool := limit != 1 && limit != 0

def fieldNames : List String := ["name", "type", "cardinality", "target_type", "max_resolution"]

open Json in
def ofTree? (t : Tree) : Option FieldDefinition := do
  match ← t.record? fieldNames with
  | [name, type, cardinality, targetType, maxResolution] =>
    let name ← Tree.required? Tree.string? name
    let type ← Tree.required? Tree.string? type
    let limit ← Tree.defaulted? 1 Tree.int32? cardinality
    let target ← Tree.defaulted? none (Tree.nullable? Tree.string?) targetType
    let resolution ← Tree.defaulted? none (Tree.nullable? Tree.string?) maxResolution
    return ⟨name, FieldType.ofStored type target resolution, isMultipleLimit limit⟩
  | _ => none

end FieldDefinition
end ContentProjection
