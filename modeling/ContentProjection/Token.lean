import ContentProjection.Storage
import ContentProjection.Text.DecimalDigit
import ContentProjection.Text.Split

/-!
# Tokens that name an entity

A client names an entity by its UUID or by a public alias. A token of exactly
the written form of a UUID is one; everything else is an alias, also a UUID in
another notation. An alias leads to an internal path, and the path to an id when
it holds the root of the wanted kind followed by digits. Only the leftmost such
place counts, and its digits are any decimal digits, of which only ASCII ones
make a number.
-/
namespace ContentProjection

inductive Token where
  | uuid (uuid : Uuid)
  | publicAlias (name : String)
  deriving DecidableEq, Repr

namespace Token

def ofString (s : String) : Token :=
  match Uuid.ofString? s with
  | some u => if Uuid.isCanonical s then uuid u else publicAlias s
  | none => publicAlias s

/-- The root of internal paths as it is looked for inside a path. -/
def pathMark : EntityKind → List Char
  | .node => "node/".toList
  | .taxonomyTerm => "taxonomy/term/".toList

/-- The digits after the leftmost mark that some digit follows. -/
def digitsAfter? (mark : List Char) : List Char → Option (List Char)
  | [] => none
  | c :: cs =>
    match (Text.dropWord? mark (c :: cs)).map fun rest => rest.takeWhile Text.isDecimalDigit with
    | some (d :: ds) => some (d :: ds)
    | _ => digitsAfter? mark cs

/-- The id that an internal path carries for a kind. -/
def idOfPath? (kind : EntityKind) (path : String) : Option EntityId :=
  (digitsAfter? (pathMark kind) path.toList).bind Text.Numeral.uint64?

end Token

namespace Storage

variable {m : Type → Type} [Monad m]

/-- The entity of a kind behind a token, if any. -/
def findEntity (storage : Storage m) (kind : EntityKind) (token : String) :
    m (Option Entity) :=
  if token.isEmpty then pure none
  else
    match Token.ofString token with
    | .uuid uuid => storage.loadByUuid kind uuid
    | .publicAlias name => do
      let path ← storage.sourceForAlias ("/" ++ name)
      match path.bind (Token.idOfPath? kind) with
      | some id => storage.load kind id
      | none => pure none

def findId (storage : Storage m) (kind : EntityKind) (token : String) :
    m (Option EntityId) := do
  return (← storage.findEntity kind token).map Entity.id

/-- The UUID texts of tokens; one that names nothing is left out. A token in the
written form of a UUID stands for itself and is not looked up. -/
def findUuids (storage : Storage m) (kind : EntityKind) (tokens : List String) :
    m (List String) :=
  tokens.filterMapM fun token =>
    if Uuid.isCanonical token then pure (some token)
    else do return (← storage.findEntity kind token).map fun entity => entity.uuid.text

end Storage
end ContentProjection
