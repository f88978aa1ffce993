import ContentProjection.StableSort
import ContentProjection.Storage
import ContentProjection.Store

/-!
# Running queries over the store

A condition holds for an entity when some value its path reaches is the wanted
one. A path follows references: each leading field leads to all stored targets
that exist, of the kind its bundle declares for it, nodes when it declares none.
Matches are ordered by comparing the first stored values under the sort keys in
turn, numbers as numbers when both sides are numbers and as text otherwise, a
missing value first, and by id where all keys agree. The matches are sorted from
the order of their ids. Sorting may find that the comparison is not an order,
and then no match is listed.
-/
namespace ContentProjection

/-- The fields of a path, cut at each `.entity.` from the left. The number of cuts
is bounded by the length of the text. -/
def pathFields (fuel : Nat) (path : List Char) : List String :=
  match fuel with
  | 0 => [String.ofList path]
  | fuel + 1 =>
    match Text.splitWord? ".entity.".toList path with
    | some (field, rest) => String.ofList field :: pathFields fuel rest
    | none => [String.ofList path]

def fieldsOfPath (path : String) : List String := pathFields path.length path.toList

namespace Store

/-- The kind of entity a field of a bundle refers to. Only the bundle's own fields
are asked, the first with the name. -/
def targetKindOf (s : Store) (e : Entity) (field : String) : EntityKind :=
  let definition := (((s.shelf e.kind).bundle? e.bundle).getD []).find? fun d => d.name == field
  match definition.map FieldDefinition.type with
  | some (.entityReference target) => target.entityKind?.getD .node
  | _ => .node

/-- The entities that a field of an entity refers to. -/
def targetsOf (s : Store) (e : Entity) (field : String) : List Entity :=
  ((e.field field).filterMap Item.targetEntityId?).filterMap (s.get? (s.targetKindOf e field))

/-- The values that the fields of a path reach from an entity. -/
def valuesAlong (s : Store) (e : Entity) : List String → List String
  | [] => []
  | [field] => (e.field field).map Item.scalar
  | field :: rest => (s.targetsOf e field).flatMap fun target => s.valuesAlong target rest

def meets (s : Store) (e : Entity) (equality : Equality) : Bool :=
  (s.valuesAlong e (fieldsOfPath equality.field)).contains equality.value

def fulfils (s : Store) (e : Entity) : Condition → Bool
  | .equals equality => s.meets e equality
  | .anyOf equalities => equalities.any (s.meets e)

/-- The entities a query selects, in id order. -/
def selected (s : Store) (q : Query) : List Entity :=
  (s.shelf q.kind).entities.filter fun e => q.conditions.all (s.fulfils e)

/-- Numbers by value when both are 64-bit numerals, texts by their characters otherwise. -/
def compareText (a b : String) : Ordering :=
  match Text.Numeral.int64? a.toList, Text.Numeral.int64? b.toList with
  | some m, some n => compare m n
  | _, _ => compare a b

/-- A missing value is less than any other. -/
def compareFirst : Option String → Option String → Ordering
  | none, none => .eq
  | none, some _ => .lt
  | some _, none => .gt
  | some a, some b => compareText a b

def firstValue (e : Entity) (field : String) : Option String :=
  (e.field field).head?.map Item.scalar

def compareBy (key : SortKey) (a b : Entity) : Ordering :=
  let order := compareFirst (firstValue a key.field) (firstValue b key.field)
  match key.direction with
  | .ascending => order
  | .descending => order.swap

/-- The first sort key that tells two entities apart decides, their ids if none does. -/
def compareEntities (keys : List SortKey) (a b : Entity) : Ordering :=
  match keys with
  | [] => compare a.id b.id
  | key :: rest => (compareBy key a b).then (compareEntities rest a b)

def isLess (keys : List SortKey) (a b : Entity) : Bool := compareEntities keys a b == .lt

/-- The entities in the order of the keys, if sorting finds one. -/
def sorted? (keys : List SortKey) (entities : List Entity) : Option (List Entity) :=
  StableSort.sort? (isLess keys) entities

def window (range : Option Slice) (ids : List EntityId) : List EntityId :=
  match range with
  | none => ids
  | some range => (ids.drop range.offset.toNat).take range.length.toNat

def count (s : Store) (q : Query) : Nat := (s.selected q).length

def fetchIds? (s : Store) (q : Query) : Option (List EntityId) :=
  (sorted? q.sorts (s.selected q)).map fun entities => window q.range (entities.map Entity.id)

/-- The store as storage that fails only where the matches of a query cannot be sorted. -/
def storage (s : Store) : Storage (Except Fault) where
  load kind id := .ok (s.get? kind id)
  loadByUuid kind uuid := .ok (s.getByUuid? kind uuid)
  loadByField kind field value := .ok (s.entitiesHolding kind field value)
  findTermByName name := .ok (s.termNamed? name)
  parentsOf id := .ok (s.parentsOf id)
  bundleExists kind bundle := .ok (s.bundleExists kind bundle)
  count query := .ok (s.count query)
  fetchIds query := (s.fetchIds? query).elim (.error .unsortable) .ok
  fieldDefinitions kind bundle := .ok (s.schemaOf kind bundle)
  sourceForAlias name := .ok (s.sourceOf? name)
  aliasForSource source := .ok (s.aliasOf? source)
  fileUrl id := .ok (s.fileUrl? id)
  styleUrl id style := .ok (s.styleUrl? id style)

end Store
end ContentProjection
