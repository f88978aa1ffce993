import ContentProjection.Projection

/-!
# Pages of a listing

A page tells the number of all matches and shows the entities of its window.
Count and window come from the same query, so they agree on what matches.
Results are whole entities, or stubs when the
listing shows stubs and the request does not follow references.
-/
namespace ContentProjection

structure Page where
  limit : UInt64
  page : UInt64
  /-- Absent for listings of terms. -/
  published : Option Bool
  count : Nat
  results : List Json
  deriving Repr

namespace Page

def toJson (p : Page) : Json :=
  .obj ([("limit", .int p.limit.toNat), ("page", .int p.page.toNat)]
    ++ (p.published.map fun published => ("published", Json.bool published)).toList
    ++ [("count", .int p.count), ("results", .arr p.results)])

end Page

inductive ResultForm where
  | whole
  | wholeWhenRecursing
  deriving DecidableEq, Repr

def ResultForm.expands (form : ResultForm) (ctx : Context) : Bool :=
  match form with
  | whole => true
  | wholeWhenRecursing => ctx.recurse

namespace Projector

variable {m : Type → Type} [Monad m]

/-- One result of a page. -/
def result (p : Projector m) (ctx : Context) (form : ResultForm) (e : Entity) : m Json :=
  if form.expands ctx then do return .obj (← p.project ctx e) else pure (Projection.stub e)

def countOf (p : Projector m) (listing : Listing) : m Nat := p.storage.count listing.query

def pageOf (p : Projector m) (listing : Listing) (ctx : Context) (form : ResultForm) :
    m Page := do
  let count ← p.storage.count listing.query
  let ids ← p.storage.fetchIds (listing.query.withSlice listing.range)
  let entities ← p.storage.loadMany listing.kind ids
  let results ← entities.mapM (p.result ctx form)
  return ⟨listing.limit, listing.page, listing.published, count, results⟩

end Projector
end ContentProjection
