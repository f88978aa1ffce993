import ContentProjection.Json.Record
import ContentProjection.Members

/-!
# Layers of settings

A layer is a tree: groups of named layers, and values at the leaves. Laid over
another layer, it replaces whatever stands at the same place, lists as a whole;
only where both have a group are the groups laid over each other, so a leaf that
the upper layer does not mention keeps its value. Reading is strict: no kind of
value stands in for another, and a group of settings has no unknown names.
-/
namespace ContentProjection

inductive Layer where
  | null
  | bool (value : Bool)
  | int (value : Int)
  /-- A number that is not a whole one. No setting takes it. -/
  | real (spelling : String)
  | text (value : String)
  | list (items : List Layer)
  | group (entries : List (String × Layer))
  deriving Repr

namespace Layer

/-- The layer that sets nothing. -/
def empty : Layer := group []

/-- The entries of a group; every other layer has none. -/
def entries : Layer → Members Layer
  | group entries => entries
  | _ => []

/-- A group of entries; of equal names the last counts. -/
def ofEntries (entries : List (String × Layer)) : Layer := group (Members.ofList entries)

mutual

/-- The layer with an upper one laid over it. -/
def under (lower : Layer) : Layer → Layer
  | group entries => group (entriesUnder lower.entries entries)
  | upper => upper

/-- The entries of a group with upper entries laid over them, in order. -/
def entriesUnder (lower : Members Layer) : List (String × Layer) → Members Layer
  | [] => lower
  | (name, upper) :: rest =>
    let value := match lower.get? name with
      | some old => under old upper
      | none => upper
    entriesUnder (lower.insert name value) rest

end

/-- A layer that sets one leaf, below the groups of a path. -/
def atPath : List String → Layer → Layer
  | [], leaf => leaf
  | name :: path, leaf => group [(name, atPath path leaf)]

/-- What is given for the settings called `names`, in that order: by a group without
other names, or by a list of the leading settings, whose further items are passed over. -/
def record? (names : List String) : Layer → Option (List (Option Layer))
  | group entries =>
    if entries.all fun entry => names.contains entry.1 then
      some (names.map fun name => entries.lookup name)
    else none
  | list items =>
    let given := items.take names.length
    some (given.map some ++ List.replicate (names.length - given.length) none)
  | _ => none

/-- The entry whose name comes first in the order of characters. -/
def first? : List (String × Layer) → Option (String × Layer)
  | [] => none
  | entry :: rest =>
    match first? rest with
    | some other => if other.1 < entry.1 then some other else some entry
    | none => some entry

/-- A setting, or its default when nothing is given for it. -/
def setting? {α : Type} (fallback : α) (read : Layer → Option α) : Option Layer → Option α
  | none => some fallback
  | some layer => read layer

def text? : Layer → Option String
  | text value => some value
  | _ => none

def intBetween? (low high : Int) : Layer → Option Int
  | int n => if low ≤ n ∧ n ≤ high then some n else none
  | _ => none

def int32? (layer : Layer) : Option Int := layer.intBetween? (-2147483648) 2147483647

def uint64? : Layer → Option UInt64
  | int n => Text.Numeral.word64? n
  | _ => none

def uint32? : Layer → Option UInt32
  | int n => Text.Numeral.word32? n
  | _ => none

def texts? : Layer → Option (List String)
  | list items => items.mapM text?
  | _ => none

/-- A text that may be given as `null`. -/
def optionalText? : Layer → Option (Option String)
  | null => some none
  | layer => layer.text?.map some

mutual

/-- The layer that a JSON text writes; no object in it repeats a name. -/
def ofTree? : Json.Tree → Option Layer
  | .null => some null
  | .bool b => some (bool b)
  | .number spelling =>
    some (((Json.Tree.number spelling).int?.map int).getD (real (String.ofList spelling)))
  | .text spelling => (Json.Tree.decodeString? spelling).map text
  | .array items => (ofTrees? items).map list
  | .object members => (ofMembers? members).bind fun entries =>
    if (entries.map Prod.fst).Nodup then some (group entries) else none

def ofTrees? : List Json.Tree → Option (List Layer)
  | [] => some []
  | t :: ts => (ofTree? t).bind fun layer => (ofTrees? ts).map fun layers => layer :: layers

def ofMembers? : List (List Char × Json.Tree) → Option (List (String × Layer))
  | [] => some []
  | (key, t) :: members =>
    (Json.Tree.decodeString? key).bind fun name =>
      (ofTree? t).bind fun layer =>
        (ofMembers? members).map fun entries => (name, layer) :: entries

end

end Layer
end ContentProjection
