import ContentProjection.Projection.Context

/-!
# Options of a request

A listing has a page and may hide unpublished content; a lookup of one entity
only says how references are shown. The scope of ideas names categories and tags
by token, types by name.
-/
namespace ContentProjection

structure LookupOptions where
  recurse : Bool
  depth : UInt32
  deriving DecidableEq, Repr

structure ListOptions where
  page : UInt64
  limit : UInt64
  recurse : Bool
  depth : UInt32
  published : Bool
  deriving DecidableEq, Repr

namespace ListOptions

def default : ListOptions := ⟨0, 10, false, 2, true⟩

def lookup (p : ListOptions) : LookupOptions := ⟨p.recurse, p.depth⟩

end ListOptions

structure IdeaScope where
  categories : List String
  tags : List String
  types : List String
  deriving DecidableEq, Repr

/-- Vocabularies whose terms have listings of the content that refers to them. -/
inductive ListedVocabulary where
  | category | tag | contributorGroup
  deriving DecidableEq, Repr

end ContentProjection
