import ContentProjection.Json.Parser

/-!
# Records in JSON

A record has named fields in a fixed order. It is written as an object, whose
unknown members are passed over and whose known members appear at most once, or
as an array of the leading fields. Reading gives, field by field, the tree that
was written for it, if any; what a missing field means is the reader's business.
-/
namespace ContentProjection.Json

/-- The one value given to a name, `none` when it is given twice. -/
def single? {α : Type} (name : String) (entries : List (String × α)) : Option (Option α) :=
  match entries.filter fun entry => entry.1 == name with
  | [] => some none
  | [entry] => some (some entry.2)
  | _ => none

namespace Tree

/-- The trees of the fields called `names`, in that order. -/
def record? (names : List String) : Tree → Option (List (Option Tree))
  | object members =>
    (members.mapM fun member => (decodeString? member.1).map fun key => (key, member.2)).bind
      fun entries => names.mapM fun name => single? name entries
  | array items =>
    if items.length ≤ names.length then
      some (items.map some ++ List.replicate (names.length - items.length) none)
    else none
  | _ => none

/-- A field that must be written. -/
def required? {α : Type} (read : Tree → Option α) (field : Option Tree) : Option α :=
  field.bind read

/-- A field with a value for when it is not written. -/
def defaulted? {α : Type} (value : α) (read : Tree → Option α) : Option Tree → Option α
  | none => some value
  | some t => read t

end Tree
end ContentProjection.Json
