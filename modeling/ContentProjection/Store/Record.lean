import ContentProjection.Json.Record
import ContentProjection.Schema

/-!
# Stored records and the entities they make

A record has a header and a map of fields. The header is turned into stored
fields first, the fields of the record are set after them and may replace them.
A title or description is stored only when it is not empty; the name of a term
always. A node without a change date was changed when it was created. A term
without a parent points at parent 0.
-/
namespace ContentProjection

structure NodeRecord where
  id : EntityId
  uuid : Uuid
  bundle : String
  title : String
  published : Bool
  created : Int
  changed : Option Int
  fields : List (String × List Item)
  deriving DecidableEq, Repr

structure TermRecord where
  id : EntityId
  uuid : Uuid
  vocabulary : String
  name : String
  description : String
  weight : Int
  parent : Option EntityId
  changed : Int
  fields : List (String × List Item)
  deriving DecidableEq, Repr

structure FileRecord where
  id : EntityId
  uri : String
  deriving DecidableEq, Repr

/-- A public alias of an internal path. -/
structure AliasRecord where
  source : String
  name : String
  deriving DecidableEq, Repr

/-- The fields every node has before those of its bundle. -/
def nodeOwnFields : Schema :=
  [.single "nid" .integer, .single "uuid" .uuid, .single "vid" .integer,
    .single "langcode" (.unsupported "language"),
    .single "type" (.entityReference .nodeType), .single "status" .boolean,
    .single "title" .text, .single "uid" (.entityReference (.other "user")),
    .single "created" .date, .single "changed" .date, .single "promote" .boolean,
    .single "sticky" .boolean, .single "path" .pathAlias]

/-- The fields every term has before those of its vocabulary. -/
def termOwnFields : Schema :=
  [.single "tid" .integer, .single "uuid" .uuid, .single "langcode" (.unsupported "language"),
    .single "vid" (.entityReference (.other "taxonomy_vocabulary")), .single "name" .text,
    .single "description" .longText, .single "weight" .integer,
    ⟨"parent", .entityReference .taxonomyTerm, true⟩, .single "changed" .date,
    .single "default_langcode" .boolean, .single "path" .pathAlias]

def ownFields : EntityKind → Schema
  | .node => nodeOwnFields
  | .taxonomyTerm => termOwnFields

def flagItem (flag : Bool) : Item := .value (if flag then "1" else "0")

def idItem (id : EntityId) : Item := .value (toString id.toNat)

def intItem (n : Int) : Item := .value (toString n)

/-- A field that is stored only when its text is not empty. -/
def textField (name text : String) : List (String × List Item) :=
  if text.isEmpty then [] else [(name, [.value text])]

namespace NodeRecord

/-- The stored fields that the header of a node stands for. -/
def headerFields (r : NodeRecord) : List (String × List Item) :=
  [("nid", [idItem r.id]), ("uuid", [.value r.uuid.text]), ("vid", [idItem r.id]),
    ("langcode", [.value "en"]), ("type", [.target r.bundle]), ("status", [flagItem r.published]),
    ("uid", [.target "1"]), ("created", [intItem r.created]),
    ("changed", [intItem (r.changed.getD r.created)]), ("promote", [flagItem false]),
    ("sticky", [flagItem false])] ++ textField "title" r.title

def entity (r : NodeRecord) : Entity :=
  Entity.putFields ⟨.node, r.id, r.uuid, r.bundle, r.published, []⟩ (r.headerFields ++ r.fields)

end NodeRecord

namespace TermRecord

/-- The stored fields that the header of a term stands for. -/
def headerFields (r : TermRecord) : List (String × List Item) :=
  [("tid", [idItem r.id]), ("uuid", [.value r.uuid.text]), ("langcode", [.value "en"]),
    ("vid", [.target r.vocabulary]), ("name", [.value r.name]), ("weight", [intItem r.weight]),
    ("parent", [.target (toString (r.parent.getD 0).toNat)]), ("changed", [intItem r.changed]),
    ("default_langcode", [flagItem true])] ++ textField "description" r.description

def entity (r : TermRecord) : Entity :=
  Entity.putFields ⟨.taxonomyTerm, r.id, r.uuid, r.vocabulary, true, []⟩
    (r.headerFields ++ r.fields)

end TermRecord
end ContentProjection
