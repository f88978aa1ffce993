import ContentProjection.Proofs.Lookups

/-!
# A call answered page by page

The same call is made for one page after the other. Each answer counts the same
entities and shows the next of them, so that the pages together show one list,
from its beginning to its end, and pages after the last one are empty. Whatever
a call plans to list, it lists like this if only the page of its plan changes and
what it lists can be sorted. What cannot be sorted is on no page.
-/
namespace ContentProjection

/-- The result that an entity is listed by. -/
def Store.shown (s : Store) (offset : Calendar.Offset) (ctx : Context) (form : ResultForm)
    (e : Entity) : Json :=
  (Projector.result ⟨s.answers, offset⟩ ctx form e).run

/-- The pages of a call show one list, whatever was cached before any of them. -/
structure Service.Lists (s : Service (Except Fault)) (call : ListOptions → Call)
    (options : ListOptions) (published : Option Bool) (shown : Entity → Json)
    (listed : List Entity) : Prop where
  answered : ∀ page, s.Answers (call { options with page }) (.ok (.page
    { limit := options.limit, page, published, count := listed.length
      results := (pageWindow listed page options.limit).map shown }))
  covered : ((List.range (pagesFilledBy listed.length options.limit.toNat)).flatMap fun n =>
    pageWindow listed (UInt64.ofNat n) options.limit) = listed
  /-- A count is a 64-bit word. Only as many entities as there are ids would pass it. -/
  exhausted : listed.length ≤ maxUInt64 → ∀ page : UInt64,
    pagesFilledBy listed.length options.limit.toNat ≤ page.toNat →
      pageWindow listed page options.limit = []

/-- No page of a call is shown, because what it lists cannot be sorted. -/
def Service.Unlisted (s : Service (Except Fault)) (call : ListOptions → Call)
    (options : ListOptions) : Prop :=
  ∀ page, s.Answers (call { options with page }) (.error .unsortable)

/-- The pages of a call do not leave open what they show. -/
theorem Service.Lists.map_shown_eq {s : Service (Except Fault)} {call : ListOptions → Call}
    {options : ListOptions} {published : Option Bool} {shown : Entity → Json}
    {listed listed' : List Entity} (h : s.Lists call options published shown listed)
    (h' : s.Lists call options published shown listed') :
    listed.map shown = listed'.map shown := by
  have hpages (page : UInt64) : listed.length = listed'.length ∧
      (pageWindow listed page options.limit).map shown =
        (pageWindow listed' page options.limit).map shown := by
    have hsame := (answers_iff.1 (h.answered page)).symm.trans (answers_iff.1 (h'.answered page))
    simp only [Except.ok.injEq, Answer.page.injEq, Page.mk.injEq] at hsame
    obtain ⟨-, -, -, hcount, hresults⟩ := hsame
    exact ⟨hcount, hresults⟩
  have hlength := (hpages 0).1
  rw [← h.covered, ← h'.covered, List.map_flatMap, List.map_flatMap, hlength]
  simp only [fun page => (hpages page).2]

namespace Store

variable {s : Store} (ho : ∀ kind, (s.shelf kind).Ordered)
include ho

theorem length_matching_le (l : Listing) : (s.matching l).length ≤ maxUInt64 + 1 := by
  have hids := s.length_matchingIds_le (q := l.query) (ho l.kind)
  rwa [length_matchingIds, ← length_matching] at hids

section Plans

variable (offset : Calendar.Offset) (policy : Policy) (call : ListOptions → Call)
  {options : ListOptions} {l : Listing} {ctx : Context} {form : ResultForm}
  (hplan : ∀ page, (s.service offset policy).plan (call { options with page }) =
    .ok (.page (l.onPage page options.limit) ctx form))
include hplan

/-- A call that plans the same listing for every page lists what the listing matches. -/
theorem lists_of_plan (hl : 1 ≤ options.limit.toNat) (hs : s.Sorts l.query) :
    (s.service offset policy).Lists call options l.published (s.shown offset ctx form)
      (s.matching l) where
  answered page := by
    have hs' : s.Sorts (l.onPage page options.limit).query := hs
    apply Service.answers_of_eq
    rw [s.answer_of_plan_page offset policy (hplan page), if_pos hs', shownPage, listed_eq ho,
      length_matching]
    rfl
  covered := flatMap_pageWindow hl (length_matching_le ho l)
  exhausted hwords page := pageWindow_eq_nil hl hwords

omit ho in
theorem unlisted_of_plan (hs : ¬ s.Sorts l.query) :
    (s.service offset policy).Unlisted call options := by
  intro page
  have hs' : ¬ s.Sorts (l.onPage page options.limit).query := hs
  apply Service.answers_of_eq
  rw [s.answer_of_plan_page offset policy (hplan page), if_neg hs']

end Plans

end Store

end ContentProjection
