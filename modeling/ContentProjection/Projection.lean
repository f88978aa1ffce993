import ContentProjection.Image
import ContentProjection.Projection.Context
import ContentProjection.Projection.Rendering
import ContentProjection.Storage

/-!
# Entities as JSON objects

An entity shows the fields of its schema, in declaration order. A term shows its
parent and vocabulary first. A reference to a node or a term shows the entity
itself, expanded the same way while levels remain and as a stub afterwards; the
number of levels goes down with every expansion, so cycles end. An item whose
file, image or entity is not found is left out of an array and is `null` alone.
-/
namespace ContentProjection

structure Projector (m : Type → Type) where
  storage : Storage m
  offset : Calendar.Offset

namespace Projector

variable {m : Type → Type} [Monad m]

/-- The found items of a multi-valued field, or the first item or `null`. -/
def perFoundItem (multiple : Bool) (items : List Item) (find : Item → m (Option Json)) :
    m Json :=
  if multiple then do return .arr (← items.filterMapM find)
  else
    match items with
    | [] => pure .null
    | item :: _ => do return (← find item).getD .null

def fileOf (p : Projector m) (item : Item) : m (Option String) :=
  match item.targetEntityId? with
  | some id => p.storage.fileUrl id
  | none => pure none

/-- The address of an image and those of its styles that are defined. -/
def imageOf (p : Projector m) (styles : List String) (item : Item) : m (Option Json) :=
  match item.targetEntityId? with
  | none => pure none
  | some id => do
    match ← p.storage.fileUrl id with
    | none => return none
    | some full =>
      let derived ← styles.filterMapM fun style => do
        return (← p.storage.styleUrl id style).map fun url => (style, Json.str url)
      return some (.obj (Members.ofList (("full", .str full) :: derived)))

/-- The entity an item refers to, shown by `expand`. -/
def entityOf (p : Projector m) (expand : Entity → m Json) (kind : EntityKind) (item : Item) :
    m (Option Json) :=
  match item.targetEntityId? with
  | none => pure none
  | some id => do
    match ← p.storage.load kind id with
    | none => return none
    | some e => return some (← expand e)

def referencesOf (p : Projector m) (expand : Entity → m Json) (target : ReferenceTarget)
    (multiple : Bool) (items : List Item) : m Json :=
  match target with
  | .node => perFoundItem multiple items (p.entityOf expand .node)
  | .taxonomyTerm => perFoundItem multiple items (p.entityOf expand .taxonomyTerm)
  | .nodeType => pure (Projection.bundleOf items)
  | .other _ => pure .null

def imageStyles (ctx : Context) (maxResolution : Option String) : List String :=
  if ctx.fullImageOnly then [] else Image.stylesFor maxResolution

/-- A field that has a value, or needs none. -/
def render (p : Projector m) (ctx : Context) (expand : Entity → m Json) (e : Entity)
    (d : FieldDefinition) (r : Rendering) : m Json :=
  let items := e.field d.name
  match r with
  | .plain => pure (Projection.perItem d.multiple items fun item => .str item.scalar)
  | .integer =>
    pure (Projection.perItem d.multiple items fun item =>
      .int (Projection.integerOf item.scalar))
  | .float =>
    pure (Projection.perItem d.multiple items fun item =>
      .ofReal (Projection.realOf item.scalar))
  | .boolean => pure (Projection.booleanOf items)
  | .date => pure (Projection.perItem d.multiple items (Projection.dateOf p.offset))
  | .pathAlias => do
    return .str (Projection.pathText (← p.storage.aliasForSource e.internalPath))
  | .link => pure (Projection.perItem d.multiple items Projection.linkOf)
  | .file =>
    perFoundItem d.multiple items fun item => do return (← p.fileOf item).map Json.str
  | .image maxResolution =>
    perFoundItem d.multiple items (p.imageOf (imageStyles ctx maxResolution))
  | .reference target => p.referencesOf expand target d.multiple items

/-- What a definition contributes to an entity, if it is shown at all. -/
def field? (p : Projector m) (ctx : Context) (expand : Entity → m Json) (e : Entity)
    (d : FieldDefinition) : m (Option Json) :=
  if (e.kind == .node && !ctx.allows d.name) || Projection.isIgnored d.name then pure none
  else
    match Rendering.ofType? d.type with
    | none => pure none
    | some r =>
      if !r.isComputed && r.lacksValue (e.field d.name) then
        pure (Projection.emptyValue? e.kind ctx.omitsEmpty)
      else do return some (← p.render ctx expand e d r)

/-- The UUID of the first parent of a term, empty for a term without one. -/
def parentText (p : Projector m) (term : Entity) : m String := do
  match ← p.storage.parentsOf term.id with
  | [] => return ""
  | parent :: _ =>
    return ((← p.storage.load .taxonomyTerm parent).map fun e => e.uuid.text).getD ""

/-- The members before the fields. -/
def header (p : Projector m) (e : Entity) : m Json.Object :=
  match e.kind with
  | .node => pure []
  | .taxonomyTerm => do return [("parent", .str (← p.parentText e)), ("type", .str e.bundle)]

/-- An entity whose references are shown by `expand`. -/
def object (p : Projector m) (ctx : Context) (expand : Entity → m Json) (e : Entity) :
    m Json.Object := do
  let header ← p.header e
  let schema ← p.storage.fieldDefinitions e.kind e.bundle
  let fields ← schema.filterMapM fun d => do
    return (← p.field? ctx expand e d).map fun value => (d.name, value)
  return Members.ofList (header ++ fields)

/-- An entity with references expanded through `levels` steps. -/
def within (p : Projector m) (ctx : Context) : (levels : Nat) → Entity → m Json.Object
  | 0 => p.object ctx fun target => pure (Projection.stub target)
  | levels + 1 => p.object ctx fun target => do return .obj (← p.within ctx levels target)

/-- A top-level entity. -/
def project (p : Projector m) (ctx : Context) (e : Entity) : m Json.Object :=
  p.within ctx (ctx.levels Depth.root) e

end Projector
end ContentProjection
