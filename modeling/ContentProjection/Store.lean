import ContentProjection.Image
import ContentProjection.Store.Dump
import ContentProjection.Text.Split

/-!
# Content held in memory

One shelf per kind of entity. A shelf keeps its entities in id order, one per
id, an index from UUIDs to ids, and the schemas of its bundles. A later record
replaces an earlier one with the same id; the index keeps the UUID of a replaced
record, which then leads to the entity that took its place. Every bundle that
some record names exists, with no fields of its own unless the dump gives some.
Of two aliases of one path the first is published, of two paths of one alias the
last is found.
-/
namespace ContentProjection

structure Shelf where
  /-- In increasing order of ids. -/
  entities : List Entity
  /-- The newest entry of a UUID comes first. -/
  uuidIndex : List (Uuid × EntityId)
  bundles : List (String × Schema)
  deriving DecidableEq, Repr

/-- Puts an entity at its place in id order, in place of one with the same id. -/
def insertById (e : Entity) : List Entity → List Entity
  | [] => [e]
  | other :: rest =>
    if e.id < other.id then e :: other :: rest
    else if e.id = other.id then e :: rest
    else other :: insertById e rest

namespace Shelf

/-- A shelf without entities; of equal bundle names the last counts. -/
def ofBundles (bundles : List (String × Schema)) : Shelf := ⟨[], [], bundles.reverse⟩

def bundle? (s : Shelf) (name : String) : Option Schema := s.bundles.lookup name

def insert (s : Shelf) (e : Entity) : Shelf where
  entities := insertById e s.entities
  uuidIndex := (e.uuid, e.id) :: s.uuidIndex
  bundles := if (s.bundle? e.bundle).isSome then s.bundles else (e.bundle, []) :: s.bundles

def insertAll (s : Shelf) (entities : List Entity) : Shelf := entities.foldl insert s

def get? (s : Shelf) (id : EntityId) : Option Entity := s.entities.find? fun e => e.id == id

def getByUuid? (s : Shelf) (uuid : Uuid) : Option Entity :=
  (s.uuidIndex.lookup uuid).bind s.get?

end Shelf

structure Store where
  nodes : Shelf
  terms : Shelf
  files : List FileRecord
  aliases : List AliasRecord
  imageStyles : List String
  /-- The address of public files, without trailing slashes. -/
  baseUrl : String
  deriving DecidableEq, Repr

namespace Store

def dropTrailingSlashes (s : String) : String :=
  String.ofList (s.toList.reverse.dropWhile (· = '/')).reverse

def ofDump (dump : Dump) (publicBaseUrl : String) : Store where
  nodes := (Shelf.ofBundles dump.nodeBundles).insertAll (dump.nodes.map NodeRecord.entity)
  terms := (Shelf.ofBundles dump.termBundles).insertAll (dump.terms.map TermRecord.entity)
  files := dump.files
  aliases := dump.aliases
  imageStyles := dump.imageStyles.getD Image.knownStyles
  baseUrl := dropTrailingSlashes publicBaseUrl

def shelf (s : Store) : EntityKind → Shelf
  | .node => s.nodes
  | .taxonomyTerm => s.terms

def get? (s : Store) (kind : EntityKind) (id : EntityId) : Option Entity := (s.shelf kind).get? id

def getByUuid? (s : Store) (kind : EntityKind) (uuid : Uuid) : Option Entity :=
  (s.shelf kind).getByUuid? uuid

/-- Some stored item of a field has this scalar. -/
def holds (e : Entity) (field value : String) : Bool :=
  (e.field field).any fun item => item.scalar == value

def entitiesHolding (s : Store) (kind : EntityKind) (field value : String) : List Entity :=
  (s.shelf kind).entities.filter fun e => holds e field value

def termNamed? (s : Store) (name : String) : Option Entity :=
  s.terms.entities.find? fun e => holds e "name" name

/-- The stored parents of a term, parent 0 left out. -/
def parentsOf (s : Store) (id : EntityId) : List EntityId :=
  match s.terms.get? id with
  | some term => ((term.field "parent").filterMap Item.targetEntityId?).filter (· != 0)
  | none => []

def bundleExists (s : Store) (kind : EntityKind) (bundle : String) : Bool :=
  ((s.shelf kind).bundle? bundle).isSome

/-- Base fields and then the fields of the bundle; none for an unknown bundle. -/
def schemaOf (s : Store) (kind : EntityKind) (bundle : String) : Schema :=
  match (s.shelf kind).bundle? bundle with
  | some fields => ownFields kind ++ fields
  | none => []

def sourceOf? (s : Store) (name : String) : Option String :=
  (s.aliases.findRev? fun record => record.name == name).map AliasRecord.source

def aliasOf? (s : Store) (source : String) : Option String :=
  (s.aliases.find? fun record => record.source == source).map AliasRecord.name

def uriOf? (s : Store) (id : EntityId) : Option String :=
  (s.files.findRev? fun record => record.id == id).map FileRecord.uri

def publicRoot : String := "public://"

def publicFolder : String := "sites/default/files"

/-- The path of a public file below the files directory. -/
def publicPath? (uri : String) : Option String :=
  (Text.dropWord? publicRoot.toList uri.toList).map String.ofList

def urlOf (s : Store) (uri : String) : String :=
  match publicPath? uri with
  | some path => s.baseUrl ++ "/" ++ publicFolder ++ "/" ++ path
  | none => uri

def fileUrl? (s : Store) (id : EntityId) : Option String := (s.uriOf? id).map s.urlOf

/-- The address of a derived image, when its style is defined. -/
def styleUrl? (s : Store) (id : EntityId) (style : String) : Option String :=
  if s.imageStyles.contains style then
    (s.uriOf? id).map fun uri =>
      s.baseUrl ++ "/" ++ publicFolder ++ "/styles/" ++ style ++ "/public/"
        ++ (publicPath? uri).getD uri
  else none

end Store
end ContentProjection
