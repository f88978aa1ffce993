import ContentProjection.Fault
import ContentProjection.Query
import ContentProjection.Schema

/-!
# Storage lookups

What the service needs from storage, as one record of functions into a monad.
The same service code runs over storage that answers or fails outright and over
storage that remembers schemas. `Storage.broken` makes chosen lookups fail; every
other answer is unchanged.
-/
namespace ContentProjection

structure Storage (m : Type → Type) where
  load : EntityKind → EntityId → m (Option Entity)
  loadByUuid : EntityKind → Uuid → m (Option Entity)
  /-- All entities of a kind whose field holds a value, in id order. -/
  loadByField : EntityKind → String → String → m (List Entity)
  /-- The first term with a name, in any vocabulary. -/
  findTermByName : String → m (Option Entity)
  parentsOf : EntityId → m (List EntityId)
  bundleExists : EntityKind → String → m Bool
  count : Query → m Nat
  fetchIds : Query → m (List EntityId)
  /-- Definitions in declaration order, none for an unknown bundle. -/
  fieldDefinitions : EntityKind → String → m Schema
  sourceForAlias : String → m (Option String)
  aliasForSource : String → m (Option String)
  fileUrl : EntityId → m (Option String)
  styleUrl : EntityId → String → m (Option String)

/-- Loads many entities in the order of their ids, missing ones left out. -/
def Storage.loadMany {m : Type → Type} [Monad m] (storage : Storage m) (kind : EntityKind)
    (ids : List EntityId) : m (List Entity) :=
  ids.filterMapM fun id => storage.load kind id

inductive Lookup where
  | load | loadByUuid | loadByField | findTermByName | parentsOf | bundleExists | count | fetchIds
  | fieldDefinitions | sourceForAlias | aliasForSource | fileUrl | styleUrl
  deriving DecidableEq, Repr

namespace Lookup

def name : Lookup → String
  | load => "load"
  | loadByUuid => "load_by_uuid"
  | loadByField => "load_by_field"
  | findTermByName => "find_term_by_name"
  | parentsOf => "parents_of"
  | bundleExists => "bundle_exists"
  | count => "count"
  | fetchIds => "fetch_ids"
  | fieldDefinitions => "field_definitions"
  | sourceForAlias => "source_for_alias"
  | aliasForSource => "alias_for_source"
  | fileUrl => "file_url"
  | styleUrl => "style_url"

def all : List Lookup :=
  [load, loadByUuid, loadByField, findTermByName, parentsOf, bundleExists, count, fetchIds,
    fieldDefinitions, sourceForAlias, aliasForSource, fileUrl, styleUrl]

def ofName? (s : String) : Option Lookup := all.find? fun lookup => lookup.name == s

def fault (lookup : Lookup) : Fault := .storage (lookup.name ++ " failed")

end Lookup

/-- The answer of a lookup, or its failure when it is among the failing ones. -/
def Lookup.guarded {α : Type} (failing : List Lookup) (lookup : Lookup)
    (answer : Except Fault α) : Except Fault α :=
  if lookup ∈ failing then .error lookup.fault else answer

/-- The storage with the given lookups always failing. -/
def Storage.broken (failing : List Lookup) (storage : Storage (Except Fault)) :
    Storage (Except Fault) where
  load kind id := Lookup.load.guarded failing (storage.load kind id)
  loadByUuid kind uuid := Lookup.loadByUuid.guarded failing (storage.loadByUuid kind uuid)
  loadByField kind field value :=
    Lookup.loadByField.guarded failing (storage.loadByField kind field value)
  findTermByName name := Lookup.findTermByName.guarded failing (storage.findTermByName name)
  parentsOf id := Lookup.parentsOf.guarded failing (storage.parentsOf id)
  bundleExists kind bundle := Lookup.bundleExists.guarded failing (storage.bundleExists kind bundle)
  count query := Lookup.count.guarded failing (storage.count query)
  fetchIds query := Lookup.fetchIds.guarded failing (storage.fetchIds query)
  fieldDefinitions kind bundle :=
    Lookup.fieldDefinitions.guarded failing (storage.fieldDefinitions kind bundle)
  sourceForAlias name := Lookup.sourceForAlias.guarded failing (storage.sourceForAlias name)
  aliasForSource source := Lookup.aliasForSource.guarded failing (storage.aliasForSource source)
  fileUrl id := Lookup.fileUrl.guarded failing (storage.fileUrl id)
  styleUrl id style := Lookup.styleUrl.guarded failing (storage.styleUrl id style)

end ContentProjection
