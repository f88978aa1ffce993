import ContentProjection.Text.Blank
import ContentProjection.Text.Numeral
import ContentProjection.Uuid

/-!
# Entities

A content item (node) or a taxonomy term, identified by a number within its
kind and by a UUID. Its bundle is the content type or the vocabulary. All other
data are fields: a name and the stored items, in order. A field that was never
set has no items; setting a field replaces its items.
-/
namespace ContentProjection

abbrev EntityId := UInt64

inductive EntityKind where
  | node | taxonomyTerm
  deriving DecidableEq, Repr

namespace EntityKind

def name : EntityKind → String
  | node => "node"
  | taxonomyTerm => "taxonomy_term"

def ofName? (s : String) : Option EntityKind :=
  if s = "node" then some node else if s = "taxonomy_term" then some taxonomyTerm else none

/-- The path under which the alias table knows the entities of a kind. -/
def pathRoot : EntityKind → String
  | node => "/node/"
  | taxonomyTerm => "/taxonomy/term/"

def internalPath (kind : EntityKind) (id : EntityId) : String :=
  kind.pathRoot ++ toString id.toNat

end EntityKind

/-- One stored item of a field: a reference by id, a link, or a plain value. -/
inductive Item where
  | target (targetId : String)
  | link (uri title : String)
  | value (text : String)
  deriving DecidableEq, Repr

namespace Item

/-- The text that comparisons and plain rendering use, whatever the shape. -/
def scalar : Item → String
  | target targetId => targetId
  | link uri _ => uri
  | value text => text

def targetId? : Item → Option String
  | target targetId => some targetId
  | _ => none

/-- The numeric target; none for other shapes and for targets such as bundle names. -/
def targetEntityId? (item : Item) : Option EntityId :=
  item.targetId?.bind fun id => Text.Numeral.uint64? (Text.trim id.toList)

end Item

structure Entity where
  kind : EntityKind
  id : EntityId
  uuid : Uuid
  bundle : String
  published : Bool
  fields : List (String × List Item)
  deriving DecidableEq, Repr

namespace Entity

def field (e : Entity) (name : String) : List Item := (e.fields.lookup name).getD []

def putField (e : Entity) (name : String) (items : List Item) : Entity :=
  { e with fields := (name, items) :: e.fields }

/-- Sets fields in order, so that the last of equal names counts. -/
def putFields (e : Entity) (fields : List (String × List Item)) : Entity :=
  fields.foldl (fun e field => e.putField field.1 field.2) e

def internalPath (e : Entity) : String := e.kind.internalPath e.id

theorem field_putField_self (e : Entity) (name : String) (items : List Item) :
    (e.putField name items).field name = items := by
  simp [field, putField]

end Entity
end ContentProjection
