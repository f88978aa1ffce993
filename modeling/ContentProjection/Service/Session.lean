import ContentProjection.Service

/-!
# Sequences of requests

Every operation of the service as one call, and runs of calls over one schema
cache. A call that fails is answered by its fault and the next call goes on with
the cache as the failed one left it.
-/
namespace ContentProjection

inductive Call where
  | listContent (brand : Option String) (contentType : String) (options : ListOptions)
  | getContent (contentType token : String) (options : LookupOptions)
  | listTerms (vocabulary : String) (options : ListOptions)
  | getTerm (vocabulary token : String) (options : LookupOptions)
  | termContent (vocabulary : ListedVocabulary) (token : String) (options : ListOptions)
  | contributorContent (token : String) (options : ListOptions)
  | productContent (sku : String) (options : ListOptions)
  | productContentCount (sku : String) (published : Bool)
  | ideas (scope : IdeaScope) (options : ListOptions)
  deriving DecidableEq, Repr

inductive Answer where
  | page (page : Page)
  | entity (view : EntityView)
  | count (count : Nat)
  deriving Repr

namespace Service

section
variable {m : Type → Type} [Monad m] [MonadExcept Fault m]

def answer (s : Service m) : Call → m Answer
  | .listContent brand contentType options => do
    return .page (← s.listContent brand contentType options)
  | .getContent contentType token options => do
    return .entity (← s.getContent contentType token options)
  | .listTerms vocabulary options => do return .page (← s.listTerms vocabulary options)
  | .getTerm vocabulary token options => do return .entity (← s.getTerm vocabulary token options)
  | .termContent vocabulary token options => do
    return .page (← s.termContent vocabulary token options)
  | .contributorContent token options => do return .page (← s.contributorContent token options)
  | .productContent sku options => do return .page (← s.productContent sku options)
  | .productContentCount sku published => do
    return .count (← s.productContentCount sku published)
  | .ideas scope options => do return .page (← s.ideas scope options)

end

/-- The service with schemas read through the cache. -/
def cached (s : Service (Except Fault)) : Service Cached := ⟨s.storage.cached, s.offset, s.policy⟩

/-- One call against a cache: its answer and the cache it leaves. -/
def step (s : Service (Except Fault)) (cache : SchemaCache) (call : Call) :
    Except Fault Answer × SchemaCache :=
  (s.cached.answer call).run cache

/-- The answers of calls made one after the other. -/
def run (s : Service (Except Fault)) : SchemaCache → List Call → List (Except Fault Answer)
  | _, [] => []
  | cache, call :: calls =>
    let (answer, cache') := s.step cache call
    answer :: s.run cache' calls

end Service
end ContentProjection
