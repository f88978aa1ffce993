import ContentProjection.Projection.Context

/-!
# What may be listed

The content types and vocabularies a client may ask for, the types that each
kind of cross listing shows, and the depth no request may pass. A type outside
these lists is forbidden, whether or not content of that type exists.
-/
namespace ContentProjection

structure Policy where
  contentTypes : List String
  vocabularies : List String
  ideaTypes : List String
  contributorContentTypes : List String
  productContentTypes : List String
  maxDepth : UInt32
  deriving DecidableEq, Repr

namespace Policy

def default : Policy where
  contentTypes :=
    ["landing", "article", "contributor", "download", "featured_content", "look", "product",
      "project", "recipe", "step", "bricky"]
  vocabularies := ["category", "tag", "contributor_group"]
  ideaTypes := ["look", "project", "article", "recipe", "download", "bricky"]
  contributorContentTypes := ["article", "look", "project", "recipe", "download", "bricky"]
  productContentTypes := ["article", "step", "project", "look", "recipe", "bricky"]
  maxDepth := levelLimit

def permitsType (policy : Policy) (contentType : String) : Bool :=
  policy.contentTypes.contains contentType

def permitsVocabulary (policy : Policy) (vocabulary : String) : Bool :=
  policy.vocabularies.contains vocabulary

end Policy
end ContentProjection
