import ContentProjection.Page
import ContentProjection.SchemaCache
import ContentProjection.Service.Options
import ContentProjection.Service.Policy
import ContentProjection.Token

/-!
# The read-only content service

Listings and lookups over storage. Existence of a bundle and permission are
settled before anything else: a listing of an unknown type is not found even
when it would be forbidden, a lookup of a forbidden type is forbidden even when
nothing is there. After that only storage can fail. Cross listings find content
by the UUID of the entity it refers to.
-/
namespace ContentProjection

structure Service (m : Type → Type) where
  storage : Storage m
  offset : Calendar.Offset
  policy : Policy

/-- One entity with its identity. -/
structure EntityView where
  kind : EntityKind
  id : EntityId
  body : Json.Object
  deriving Repr

/-- The fields that content listed for a product shows. -/
def productFields : List String :=
  ["type", "created", "path", "field_896x896_img", "field_display_title"]

/-- The path of the UUID of the entity that a field refers to. -/
def uuidPath (field : String) : String := field ++ ".entity.uuid"

namespace ListedVocabulary

/-- The node field that refers to terms of the vocabulary. -/
def termField : ListedVocabulary → String
  | category => "field_category"
  | tag => "field_tag"
  | contributorGroup => "field_contributor_category"

def sorts : ListedVocabulary → List SortKey
  | category => [.desc "field_sort_by_date", .desc "changed"]
  | tag => []
  | contributorGroup => [.asc "field_full_name", .desc "changed"]

end ListedVocabulary

namespace Service

variable {m : Type → Type} [Monad m] [MonadExcept Fault m]

def projector (s : Service m) : Projector m := ⟨s.storage, s.offset⟩

/-- The value, or the failure that it is not there. -/
def found {α : Type} : Option α → m α
  | some a => pure a
  | none => throw .notFound

def demand (condition : Bool) (fault : Fault) : m Unit :=
  if condition then pure () else throw fault

def itemContext (s : Service m) (options : LookupOptions) : Context :=
  Context.new options.recurse (min options.depth s.policy.maxDepth) true

def listingContext (s : Service m) (options : ListOptions) : Context :=
  Context.new options.recurse (min options.depth s.policy.maxDepth) options.published

/-- The id of the term that a brand names; an empty brand names none. -/
def brandTerm (s : Service m) (brand : Option String) : m (Option EntityId) :=
  match brand with
  | none => pure none
  | some name =>
    if name.isEmpty then pure none
    else do return (← s.storage.findTermByName name).map Entity.id

def contentListing (contentType : String) (brandTerm : Option EntityId) (options : ListOptions) :
    Listing :=
  let plain :=
    ((Listing.nodes options.published).requiring "type" contentType).onPage
      options.page options.limit
  let branded := match brandTerm with
    | some id => plain.requiring "field_brand" (toString id.toNat)
    | none => plain
  if contentType = "contributor" then
    branded.orderedBy [.asc "field_full_name", .desc "changed"]
  else branded

/-- The content of one type, restricted to a brand when the brand exists. -/
def listContent (s : Service m) (brand : Option String) (contentType : String)
    (options : ListOptions) : m Page := do
  demand (← s.storage.bundleExists .node contentType) .notFound
  demand (s.policy.permitsType contentType) .forbidden
  let brandTerm ← s.brandTerm brand
  s.projector.pageOf (contentListing contentType brandTerm options) (s.listingContext options)
    .whole

def present (s : Service m) (options : LookupOptions) (e : Entity) : m EntityView := do
  return ⟨e.kind, e.id, ← s.projector.project (s.itemContext options) e⟩

/-- The entity of a bundle behind a token. -/
def lookup (s : Service m) (kind : EntityKind) (bundle token : String) : m Entity := do
  found ((← s.storage.findEntity kind token).filter fun e => e.bundle == bundle)

def getContent (s : Service m) (contentType token : String) (options : LookupOptions) :
    m EntityView := do
  demand (s.policy.permitsType contentType) .forbidden
  s.present options (← s.lookup .node contentType token)

def termListing (vocabulary : String) (options : ListOptions) : Listing :=
  ((Listing.terms.requiring "vid" vocabulary).orderedBy [.asc "tid"]).onPage
    options.page options.limit

/-- The terms of a vocabulary by id. -/
def listTerms (s : Service m) (vocabulary : String) (options : ListOptions) : m Page := do
  demand (← s.storage.bundleExists .taxonomyTerm vocabulary) .notFound
  demand (s.policy.permitsVocabulary vocabulary) .forbidden
  s.projector.pageOf (termListing vocabulary options) (s.listingContext options) .whole

def getTerm (s : Service m) (vocabulary token : String) (options : LookupOptions) :
    m EntityView := do
  demand (s.policy.permitsVocabulary vocabulary) .forbidden
  s.present options (← s.lookup .taxonomyTerm vocabulary token)

def termContentListing (vocabulary : ListedVocabulary) (term : Uuid) (options : ListOptions) :
    Listing :=
  (((Listing.nodes options.published).requiring (uuidPath vocabulary.termField)
    term.text).onPage options.page options.limit).orderedBy vocabulary.sorts

/-- The content that refers to a term. -/
def termContent (s : Service m) (vocabulary : ListedVocabulary) (token : String)
    (options : ListOptions) : m Page := do
  let term ← found (← s.storage.findEntity .taxonomyTerm token)
  s.projector.pageOf (termContentListing vocabulary term.uuid options) (s.listingContext options)
    .wholeWhenRecursing

def contributorListing (types : List String) (contributor : Uuid) (options : ListOptions) :
    Listing :=
  (((Listing.nodes options.published).requiringAnyOf "type" types).requiring
    (uuidPath "field_contributor") contributor.text).onPage options.page options.limit

/-- The content attributed to a contributor. -/
def contributorContent (s : Service m) (token : String) (options : ListOptions) : m Page := do
  let contributor ← found (← s.storage.findEntity .node token)
  s.projector.pageOf
    (contributorListing s.policy.contributorContentTypes contributor.uuid options)
    (s.listingContext options) .wholeWhenRecursing

def productListing (types : List String) (product : Uuid) (options : ListOptions) : Listing :=
  ((((Listing.nodes options.published).requiringAnyOf "type" types).requiring
    (uuidPath "field_products") product.text).orderedBy [.desc "created"]).onPage
    options.page options.limit

/-- The listing of the content that refers to the first node with a SKU. -/
def skuListing (s : Service m) (sku : String) (options : ListOptions) : m Listing := do
  let product ← found (← s.storage.loadByField .node "field_sku" sku).head?
  return productListing s.policy.productContentTypes product.uuid options

/-- Product listings follow references, show full images only, and keep few fields. -/
def productContext (s : Service m) (options : ListOptions) : Context :=
  { s.listingContext options with
    recurse := true, fullImageOnly := true, allowList := some productFields }

def productContent (s : Service m) (sku : String) (options : ListOptions) : m Page := do
  let listing ← s.skuListing sku options
  s.projector.pageOf listing (s.productContext options) .wholeWhenRecursing

def productContentCount (s : Service m) (sku : String) (published : Bool) : m Nat := do
  let listing ← s.skuListing sku { ListOptions.default with published }
  s.projector.countOf listing

/-- The requested types that are idea types, or all idea types when none is. -/
def ideaTypes (policy : Policy) (requested : List String) : List String :=
  let kept := requested.filter fun type => policy.ideaTypes.contains type
  if kept.isEmpty then policy.ideaTypes else kept

/-- A choice of values, no restriction when there is none to choose. -/
def narrowed (l : Listing) (field : String) (values : List String) : Listing :=
  if values.isEmpty then l else l.requiringAnyOf field values

def ideaListing (categories tags types : List String) (options : ListOptions) : Listing :=
  let base :=
    ((Listing.nodes options.published).orderedBy
      [.desc "field_sort_by_date", .desc "changed"]).onPage options.page options.limit
  let filtered :=
    narrowed (narrowed base (uuidPath "field_category") categories)
      (uuidPath "field_tag") tags
  filtered.requiringAnyOf "type" types

/-- The idea types, narrowed by categories, tags and types; a filter that names nothing is void. -/
def ideas (s : Service m) (scope : IdeaScope) (options : ListOptions) : m Page := do
  let categories ← s.storage.findUuids .taxonomyTerm scope.categories
  let tags ← s.storage.findUuids .taxonomyTerm scope.tags
  s.projector.pageOf
    (ideaListing categories tags (ideaTypes s.policy scope.types) options)
    (s.listingContext options) .whole

end Service
end ContentProjection
