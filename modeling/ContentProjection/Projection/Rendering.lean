import ContentProjection.Calendar
import ContentProjection.Json
import ContentProjection.Projection.Number
import ContentProjection.Schema

/-!
# How the values of a field are shown

Every supported value type has one rendering, and only the path rendering shows
something when nothing is stored. A multi-valued field shows an array with one
element per item, a single-valued one its first item; a boolean field shows its
first item either way. Some fields are never shown, whatever their type.
-/
namespace ContentProjection

inductive Rendering where
  | plain | integer | float | boolean | date | pathAlias | link | file
  | image (maxResolution : Option String)
  | reference (target : ReferenceTarget)
  deriving DecidableEq, Repr

namespace Rendering

def ofType? : FieldType → Option Rendering
  | .text | .longText | .uuid => some plain
  | .integer => some integer
  | .float => some float
  | .boolean => some boolean
  | .date => some date
  | .pathAlias => some pathAlias
  | .link => some link
  | .file => some file
  | .image maxResolution => some (image maxResolution)
  | .entityReference target => some (reference target)
  | .unsupported _ => none

def name : Rendering → String
  | plain => "plain"
  | integer => "integer"
  | float => "float"
  | boolean => "boolean"
  | date => "date"
  | pathAlias => "path_alias"
  | link => "link"
  | file => "file"
  | image _ => "image"
  | reference _ => "reference"

/-- A computed rendering shows a value even when nothing is stored. -/
def isComputed : Rendering → Bool
  | pathAlias => true
  | _ => false

/-- No items, or only blank ones in a field that does not refer to entities. -/
def lacksValue (r : Rendering) (items : List Item) : Bool :=
  match r with
  | reference _ => items.isEmpty
  | _ => items.all fun item => item.scalar.isEmpty

end Rendering

namespace Projection

/-- Fields that are never shown. -/
def ignoredFields : List String :=
  ["parent", "tid", "vid", "title", "langcode", "uid", "promote", "sticky", "revision_timestamp",
    "revision_uid", "revision_log", "revision_translation_affected", "default_langcode",
    "publish_on", "unpublish_on"]

def isIgnored (field : String) : Bool := ignoredFields.contains field

/-- One element per item, or the first item alone. -/
def perItem (multiple : Bool) (items : List Item) (render : Item → Json) : Json :=
  if multiple then .arr (items.map render) else (items.head?.map render).getD .null

def booleanOf (items : List Item) : Json :=
  .bool (items.head?.any fun item => item.scalar == "1")

def linkOf : Item → Json
  | .link uri title => .obj [("url", .str uri), ("title", .str title)]
  | item => .obj [("url", .str item.scalar), ("title", .str "")]

def dateOf (offset : Calendar.Offset) (item : Item) : Json :=
  Json.optional (Calendar.render? offset item.scalar)

/-- An alias without its leading slashes. -/
def pathText (alias? : Option String) : String :=
  String.ofList ((alias?.getD "").toList.dropWhile (· = '/'))

/-- The bundle name that a reference to a content type shows. -/
def bundleOf (items : List Item) : Json := .str ((items.head?.map Item.scalar).getD "")

/-- The short form of an entity. -/
def stub (e : Entity) : Json := .obj [("uuid", .str e.uuid.text), ("type", .str e.bundle)]

/-- What a supported field without a value shows, if anything. -/
def emptyValue? (kind : EntityKind) (omitted : Bool) : Option Json :=
  match kind with
  | .taxonomyTerm => some (.str "")
  | .node => if omitted then none else some .null

end Projection
end ContentProjection
