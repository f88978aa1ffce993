import ContentProjection.Entity

/-!
# Listings and the queries they mean

A listing says what a client asks for: publication, groups of alternatives,
plain conditions, order, page. Its query is what storage runs: a conjunction of
conditions, each an equality or a choice of equalities, and sort keys. Empty
groups drop out of the query; a listing without sort keys shows the most
recently changed first. Counting ignores the range.
-/
namespace ContentProjection

/-- The stored items of `field` hold `value`. The field may be a path such as
`field_tag.entity.uuid`, which asks for a property of the entities it refers to. -/
structure Equality where
  field : String
  value : String
  deriving DecidableEq, Repr

inductive Condition where
  | equals (equality : Equality)
  | anyOf (equalities : List Equality)
  deriving DecidableEq, Repr

inductive Direction where
  | ascending | descending
  deriving DecidableEq, Repr

structure SortKey where
  field : String
  direction : Direction
  deriving DecidableEq, Repr

namespace SortKey

def asc (field : String) : SortKey := ⟨field, .ascending⟩

def desc (field : String) : SortKey := ⟨field, .descending⟩

end SortKey

def maxUInt64 : Nat := 18446744073709551615

structure Slice where
  offset : UInt64
  length : UInt64
  deriving DecidableEq, Repr

/-- The window of a page counted from 0; an offset past the largest word is the largest word. -/
def Slice.ofPage (page limit : UInt64) : Slice :=
  ⟨UInt64.ofNat (min (page.toNat * limit.toNat) maxUInt64), limit⟩

structure Query where
  kind : EntityKind
  conditions : List Condition
  sorts : List SortKey
  range : Option Slice
  deriving DecidableEq, Repr

def Query.withSlice (q : Query) (slice : Slice) : Query := { q with range := some slice }

structure Listing where
  kind : EntityKind
  /-- Published items only, items of either state, or no such condition at all. -/
  published : Option Bool
  orGroups : List (List Equality)
  anyOfGroups : List (String × List String)
  conditions : List Equality
  sorts : List SortKey
  page : UInt64
  limit : UInt64
  deriving DecidableEq, Repr

namespace Listing

def publicationField : String := "status"

def nodes (published : Bool) : Listing := ⟨.node, some published, [], [], [], [], 0, 10⟩

def terms : Listing := ⟨.taxonomyTerm, none, [], [], [], [], 0, 10⟩

def requiring (l : Listing) (field value : String) : Listing :=
  { l with conditions := l.conditions ++ [⟨field, value⟩] }

def requiringAnyOf (l : Listing) (field : String) (values : List String) : Listing :=
  { l with anyOfGroups := l.anyOfGroups ++ [(field, values)] }

def requiringOneOf (l : Listing) (group : List Equality) : Listing :=
  { l with orGroups := l.orGroups ++ [group] }

def orderedBy (l : Listing) (keys : List SortKey) : Listing :=
  { l with sorts := l.sorts ++ keys }

def onPage (l : Listing) (page limit : UInt64) : Listing := { l with page, limit }

def range (l : Listing) : Slice := Slice.ofPage l.page l.limit

def publicationConditions : Option Bool → List Condition
  | some true => [.equals ⟨publicationField, "1"⟩]
  | some false => [.anyOf [⟨publicationField, "1"⟩, ⟨publicationField, "0"⟩]]
  | none => []

def orConditions (groups : List (List Equality)) : List Condition :=
  (groups.filter fun group => !group.isEmpty).map .anyOf

def anyOfConditions (groups : List (String × List String)) : List Condition :=
  (groups.filter fun group => !group.2.isEmpty).map fun group =>
    .anyOf (group.2.map fun value => ⟨group.1, value⟩)

def defaultSorts : List SortKey := [.desc "changed"]

/-- The query without a range: publication, choices, value groups, plain conditions, in order. -/
def query (l : Listing) : Query where
  kind := l.kind
  conditions :=
    publicationConditions l.published ++ orConditions l.orGroups
      ++ anyOfConditions l.anyOfGroups ++ l.conditions.map .equals
  sorts := if l.sorts.isEmpty then defaultSorts else l.sorts
  range := none

end Listing
end ContentProjection
