import ContentProjection.Proofs.Answers
import ContentProjection.Proofs.Lists
import ContentProjection.Proofs.PureProjection
import ContentProjection.Proofs.Shelf
import ContentProjection.Proofs.SortOrder
import Mathlib.Data.List.Basic
import Mathlib.Data.List.Perm.Subperm

/-!
# Pages of a listing

A count, the list of all matches and every page are separate evaluations of one
query. They agree because sorting only rearranges what the query selects, and a
window is a stretch of the sorted list: windows that follow each other, each as
long as a page, cut the list into its pages. The offset of a page past the
largest word stays at the largest word, where no match is left. All this is so if
sorting ends, as it does for up to twenty matches and for keys that order the
matches. If sorting stops, the matches are counted and no page is shown.
-/
namespace ContentProjection

theorem length_le_of_nodup_ids {ids : List EntityId} (h : ids.Nodup) :
    ids.length ≤ maxUInt64 + 1 := by
  have hn : (ids.map UInt64.toNat).Nodup :=
    List.Pairwise.map _ (fun _ _ hne heq => hne (UInt64.toNat_inj.1 heq)) h
  have hs : ids.map UInt64.toNat ⊆ List.range (maxUInt64 + 1) := by
    intro n hm
    obtain ⟨id, -, rfl⟩ := List.mem_map.1 hm
    exact List.mem_range.2 id.toNat_lt
  have hl := (hn.subperm hs).length_le
  rwa [List.length_map, List.length_range] at hl

/-- The number of pages of a size that so many matches fill, the last one in part. -/
def pagesFilledBy (count size : Nat) : Nat := (count + size - 1) / size

theorem le_pagesFilledBy_mul {count size : Nat} (h : 1 ≤ size) :
    count ≤ pagesFilledBy count size * size := by
  have hd := Nat.div_add_mod (count + size - 1) size
  have hm := Nat.mod_lt (count + size - 1) h
  rw [Nat.mul_comm] at hd
  unfold pagesFilledBy
  omega

theorem lt_pagesFilledBy_iff {count size n : Nat} (h : 1 ≤ size) :
    n < pagesFilledBy count size ↔ n * size < count := by
  unfold pagesFilledBy
  rw [Nat.lt_iff_add_one_le, Nat.le_div_iff_mul_le h, Nat.succ_mul]
  omega

theorem Slice.toNat_offset_ofPage (page limit : UInt64) :
    (ofPage page limit).offset.toNat = min (page.toNat * limit.toNat) maxUInt64 := by
  apply UInt64.toNat_ofNat_of_lt'
  exact Nat.lt_succ_of_le (Nat.min_le_right _ _)

section Windows

variable {α : Type} {as : List α} {limit : UInt64}

/-- The part of a list that one page shows. -/
def pageWindow (as : List α) (page limit : UInt64) : List α :=
  (as.drop (Slice.ofPage page limit).offset.toNat).take limit.toNat

theorem pageWindow_eq (as : List α) (page limit : UInt64) :
    pageWindow as page limit =
      (as.drop (min (page.toNat * limit.toNat) maxUInt64)).take limit.toNat := by
  rw [pageWindow, Slice.toNat_offset_ofPage]

theorem pageWindow_of_lt_pagesFilledBy (h : 1 ≤ limit.toNat) (hwords : as.length ≤ maxUInt64 + 1)
    {n : Nat} (hn : n < pagesFilledBy as.length limit.toNat) :
    pageWindow as (UInt64.ofNat n) limit = (as.drop (n * limit.toNat)).take limit.toNat := by
  have hlt : n * limit.toNat < as.length := (lt_pagesFilledBy_iff h).1 hn
  have hle : n * limit.toNat ≤ maxUInt64 := by omega
  have hpage : n ≤ n * limit.toNat := Nat.le_mul_of_pos_right n h
  have hword : (UInt64.ofNat n).toNat = n :=
    UInt64.toNat_ofNat_of_lt' (Nat.lt_succ_of_le (Nat.le_trans hpage hle))
  rw [pageWindow_eq, hword, Nat.min_eq_left hle]

/-- The pages that a list fills cut it from its beginning to its end. -/
theorem flatMap_pageWindow (h : 1 ≤ limit.toNat) (hwords : as.length ≤ maxUInt64 + 1) :
    ((List.range (pagesFilledBy as.length limit.toNat)).flatMap fun n =>
      pageWindow as (UInt64.ofNat n) limit) = as := by
  have hpages : ∀ n ∈ List.range (pagesFilledBy as.length limit.toNat),
      pageWindow as (UInt64.ofNat n) limit = (as.drop (n * limit.toNat)).take limit.toNat :=
    fun n hn => pageWindow_of_lt_pagesFilledBy h hwords (List.mem_range.1 hn)
  rw [List.flatMap_congr hpages, flatMap_range_windows]
  exact List.take_of_length_le (le_pagesFilledBy_mul h)

theorem pageWindow_eq_nil (h : 1 ≤ limit.toNat) (hwords : as.length ≤ maxUInt64) {page : UInt64}
    (hp : pagesFilledBy as.length limit.toNat ≤ page.toNat) : pageWindow as page limit = [] := by
  have hpast : as.length ≤ page.toNat * limit.toNat :=
    Nat.le_trans (le_pagesFilledBy_mul h) (Nat.mul_le_mul_right _ hp)
  rw [pageWindow_eq, List.drop_eq_nil_of_le (Nat.le_min.2 ⟨hpast, hwords⟩), List.take_nil]

end Windows

namespace Listing

/-- The query of one page of a listing. -/
def pageQuery (l : Listing) (page limit : UInt64) : Query :=
  (l.onPage page limit).query.withSlice (l.onPage page limit).range

end Listing

theorem Projector.run_pageOf (p : Projector Id) (l : Listing) (ctx : Context) (form : ResultForm) :
    (p.pageOf l ctx form).run =
      { limit := l.limit, page := l.page, published := l.published
        count := (p.storage.count l.query).run
        results :=
          ((p.storage.fetchIds (l.query.withSlice l.range)).run.filterMap fun id =>
            (p.storage.load l.kind id).run).map fun e => (p.result ctx form e).run } := by
  simp [pageOf, Storage.loadMany, run_filterMapM]

namespace Store

variable (s : Store)

/-- The ids of all matches, in the order of the sort keys. -/
def matchingIds (q : Query) : List EntityId := (arranged q.sorts (s.selected q)).map Entity.id

theorem length_matchingIds (q : Query) : (s.matchingIds q).length = s.count q := by
  unfold matchingIds count
  rw [List.length_map, (arranged_perm _ _).length_eq]

/-- The matches of a query are few, or its sort keys put them in an order. -/
def Orderly (q : Query) : Prop := s.count q ≤ 20 ∨ OrdersStrictly q.sorts (s.selected q)

theorem mem_selected_of_mem_matchingIds {q : Query} {id : EntityId} (h : id ∈ s.matchingIds q) :
    ∃ e ∈ s.selected q, e.id = id := by
  obtain ⟨e, he, hid⟩ := List.mem_map.1 h
  exact ⟨e, (arranged_perm _ _).mem_iff.1 he, hid⟩

section

variable {s} {q : Query} (h : (s.shelf q.kind).Ordered)
include h

theorem nodup_ids_selected : ((s.selected q).map Entity.id).Nodup :=
  h.nodup_ids.sublist (List.filter_sublist.map Entity.id)

theorem nodup_matchingIds : (s.matchingIds q).Nodup :=
  ((arranged_perm q.sorts (s.selected q)).map Entity.id).nodup_iff.2 (nodup_ids_selected h)

theorem Orderly.sorts (horderly : s.Orderly q) : s.Sorts q := by
  rcases horderly with hfew | hstrict
  · exact Option.isSome_iff_exists.2 ⟨_, StableSort.sort?_of_length_le hfew⟩
  · obtain ⟨sorted, hsorted, -⟩ := exists_sorted?_of_ordersStrictly (nodup_ids_selected h) hstrict
      (List.Perm.refl _)
    exact Option.isSome_iff_exists.2 ⟨sorted, hsorted⟩

theorem get?_of_mem_selected {e : Entity} (he : e ∈ s.selected q) :
    s.get? q.kind e.id = some e :=
  h.get?_of_mem (List.mem_filter.1 he).1

end

theorem get?_of_mem_fetchIds {s : Store} (ho : ∀ kind, (s.shelf kind).Ordered) {l : Listing}
    {id : EntityId} (h : id ∈ s.fetchIds (l.query.withSlice l.range)) :
    ∃ e ∈ s.selected l.query, s.get? l.kind id = some e := by
  have hm : id ∈ s.matchingIds l.query := List.mem_of_mem_drop (List.mem_of_mem_take h)
  obtain ⟨e, he, rfl⟩ := s.mem_selected_of_mem_matchingIds hm
  exact ⟨e, he, get?_of_mem_selected (q := l.query) (ho l.kind) he⟩

theorem fetchIds_withSlice (l : Listing) (slice : Slice) :
    s.fetchIds (l.query.withSlice slice) =
      ((s.matchingIds l.query).drop slice.offset.toNat).take slice.length.toNat :=
  rfl

/-- The entities that a listing shows on its page. -/
def listed (l : Listing) : List Entity :=
  (s.fetchIds (l.query.withSlice l.range)).filterMap (s.get? l.kind)

/-- The entities that a listing selects, in its order. -/
def matching (l : Listing) : List Entity := arranged l.query.sorts (s.selected l.query)

theorem length_matching (l : Listing) : (s.matching l).length = s.count l.query :=
  (arranged_perm _ _).length_eq

section Listed

variable {s} (ho : ∀ kind, (s.shelf kind).Ordered) (l : Listing)
include ho

theorem nodup_matching : (s.matching l).Nodup :=
  List.Nodup.of_map Entity.id (nodup_matchingIds (q := l.query) (ho l.kind))

/-- A page shows a window of all matches. -/
theorem listed_eq : s.listed l =
    ((s.matching l).drop l.range.offset.toNat).take l.range.length.toNat := by
  have hids : s.matchingIds l.query = (s.matching l).map Entity.id := rfl
  rw [listed, fetchIds_withSlice, hids, ← List.map_drop, ← List.map_take, List.filterMap_map]
  have hfound : ∀ e ∈ ((s.matching l).drop l.range.offset.toNat).take l.range.length.toNat,
      (s.get? l.kind ∘ Entity.id) e = some e := by
    intro e he
    have hm : e ∈ s.matching l := List.mem_of_mem_drop (List.mem_of_mem_take he)
    exact get?_of_mem_selected (q := l.query) (ho l.kind) ((arranged_perm _ _).mem_iff.1 hm)
  rw [List.filterMap_congr hfound, List.filterMap_some]

end Listed

/-- The page that shows what a listing lists, with the count of all matches. -/
def shownPage (offset : Calendar.Offset) (l : Listing) (ctx : Context) (form : ResultForm) :
    Page where
  limit := l.limit
  page := l.page
  published := l.published
  count := s.count l.query
  results := (s.listed l).map fun e => (Projector.result ⟨s.answers, offset⟩ ctx form e).run

theorem run_pageOf (offset : Calendar.Offset) (l : Listing) (ctx : Context) (form : ResultForm) :
    (Projector.pageOf ⟨s.answers, offset⟩ l ctx form).run = s.shownPage offset l ctx form :=
  Projector.run_pageOf _ l ctx form

theorem fetchIds_pageQuery (l : Listing) (page limit : UInt64) :
    s.fetchIds (l.pageQuery page limit) = pageWindow (s.matchingIds l.query) page limit :=
  rfl

theorem length_matchingIds_le {q : Query} (h : (s.shelf q.kind).Ordered) :
    (s.matchingIds q).length ≤ maxUInt64 + 1 :=
  length_le_of_nodup_ids (nodup_matchingIds h)

/-- Every listed id finds the entity that one result shows, in the same order. -/
def ShowsListed (offset : Calendar.Offset) (ctx : Context) (form : ResultForm) (kind : EntityKind)
    (ids : List EntityId) (results : List Json) : Prop :=
  List.Forall₂ (fun id json => ∃ e, s.get? kind id = some e ∧
    json = (Projector.result ⟨s.answers, offset⟩ ctx form e).run) ids results

theorem showsListed_of_found {offset : Calendar.Offset} {ctx : Context} {form : ResultForm}
    {kind : EntityKind} {ids : List EntityId} (h : ∀ id ∈ ids, ∃ e, s.get? kind id = some e) :
    s.ShowsListed offset ctx form kind ids
      ((ids.filterMap (s.get? kind)).map fun e =>
        (Projector.result ⟨s.answers, offset⟩ ctx form e).run) := by
  induction ids with
  | nil => exact List.Forall₂.nil
  | cons id ids ih =>
    obtain ⟨e, he⟩ := h id List.mem_cons_self
    rw [List.filterMap_cons_some he, List.map_cons]
    refine List.Forall₂.cons ⟨e, he, rfl⟩ (ih fun other ho => ?_)
    exact h other (List.mem_cons_of_mem _ ho)

theorem pageOf_of_sorts {l : Listing} (hs : s.Sorts l.query) (offset : Calendar.Offset)
    (ctx : Context) (form : ResultForm) :
    Projector.pageOf ⟨s.storage, offset⟩ l ctx form =
      .ok (Projector.pageOf ⟨s.answers, offset⟩ l ctx form).run :=
  Simulation.pageOf s.storage_simulated offset (storage_fetchIds_of_sorts hs) ctx form

theorem pageOf_of_not_sorts {l : Listing} (hs : ¬ s.Sorts l.query) (offset : Calendar.Offset)
    (ctx : Context) (form : ResultForm) :
    Projector.pageOf ⟨s.storage, offset⟩ l ctx form = .error .unsortable := by
  have hfetch : s.storage.fetchIds (l.query.withSlice l.range) = .error .unsortable :=
    storage_fetchIds_of_not_sorts hs
  unfold Projector.pageOf
  dsimp only
  rw [hfetch]
  rfl

/-- Behind a faithful cache a page comes out as without one. -/
theorem pageOf_cached (l : Listing) (offset : Calendar.Offset) (ctx : Context) (form : ResultForm)
    {cache : SchemaCache} (h : cache.Faithful s.storage.fieldDefinitions) :
    ∃ cache', (Projector.pageOf ⟨s.storage.cached, offset⟩ l ctx form).run cache =
        (Projector.pageOf ⟨s.storage, offset⟩ l ctx form, cache') ∧
      cache'.Faithful s.storage.fieldDefinitions :=
  Simulation.pageOf s.storage.cached_simulated offset (s.storage.cached_fetchIds _) ctx form cache h

/-- The pages of a listing, for one number of results per page, show these ids: each match is on
one page, in order, and every page tells the count of all. -/
structure PagesAgree (l : Listing) (limit : UInt64) (ids : List EntityId) : Prop where
  fetched : s.storage.fetchIds l.query = .ok ids
  distinct : ids.Nodup
  counted : s.storage.count l.query = .ok ids.length
  paged : ∀ page, s.storage.fetchIds (l.pageQuery page limit) = .ok (pageWindow ids page limit)
  covered : ids = (List.range (pagesFilledBy ids.length limit.toNat)).flatMap fun n =>
    pageWindow ids (UInt64.ofNat n) limit
  /-- A count is a 64-bit word. Only as many matches as there are ids would pass it. -/
  exhausted : ids.length ≤ maxUInt64 → ∀ page : UInt64,
    pagesFilledBy ids.length limit.toNat ≤ page.toNat → pageWindow ids page limit = []
  shown : ∀ (page : UInt64) (offset : Calendar.Offset) (ctx : Context) (form : ResultForm)
    (cache : SchemaCache), cache.Faithful s.storage.fieldDefinitions →
    ∃ shown cache',
      (Projector.pageOf ⟨s.storage.cached, offset⟩ (l.onPage page limit) ctx form).run cache
        = (.ok shown, cache') ∧
      cache'.Faithful s.storage.fieldDefinitions ∧
      shown.count = ids.length ∧
      s.ShowsListed offset ctx form l.kind (pageWindow ids page limit) shown.results

/-- The matches of a listing are counted, and every attempt to list or show them fails. -/
structure PagesRefused (l : Listing) : Prop where
  counted : s.storage.count l.query = .ok (s.count l.query)
  fetched : s.storage.fetchIds l.query = .error .unsortable
  paged : ∀ page limit, s.storage.fetchIds (l.pageQuery page limit) = .error .unsortable
  shown : ∀ (page limit : UInt64) (offset : Calendar.Offset) (ctx : Context) (form : ResultForm)
    (cache : SchemaCache), cache.Faithful s.storage.fieldDefinitions →
    ∃ cache',
      (Projector.pageOf ⟨s.storage.cached, offset⟩ (l.onPage page limit) ctx form).run cache
        = (.error .unsortable, cache') ∧
      cache'.Faithful s.storage.fieldDefinitions

theorem pagesAgree_of_sorts {s : Store} (h : ∀ kind, (s.shelf kind).Ordered) {l : Listing}
    {limit : UInt64} (hl : 1 ≤ limit.toNat) (hs : s.Sorts l.query) :
    s.PagesAgree l limit (s.matchingIds l.query) := by
  constructor
  case fetched => exact storage_fetchIds_of_sorts hs
  case distinct => exact nodup_matchingIds (q := l.query) (h l.kind)
  case counted => exact congrArg Except.ok (s.length_matchingIds l.query).symm
  case paged => exact fun page => storage_fetchIds_of_sorts (q := l.pageQuery page limit) hs
  case covered =>
    exact (flatMap_pageWindow hl (s.length_matchingIds_le (q := l.query) (h l.kind))).symm
  case exhausted => exact fun hc page hp => pageWindow_eq_nil hl hc hp
  case shown =>
    intro page offset ctx form cache hcache
    obtain ⟨cache', hrun, hcache'⟩ := s.pageOf_cached (l.onPage page limit) offset ctx form hcache
    rw [s.pageOf_of_sorts (l := l.onPage page limit) hs, run_pageOf] at hrun
    refine ⟨_, cache', hrun, hcache', (s.length_matchingIds l.query).symm, ?_⟩
    refine s.showsListed_of_found fun id hid => ?_
    obtain ⟨e, -, he⟩ := get?_of_mem_fetchIds (l := l.onPage page limit) h hid
    exact ⟨e, he⟩

theorem pagesRefused_of_not_sorts {l : Listing} (hs : ¬ s.Sorts l.query) : s.PagesRefused l := by
  constructor
  case counted => rfl
  case fetched => exact storage_fetchIds_of_not_sorts hs
  case paged =>
    exact fun page limit => storage_fetchIds_of_not_sorts (q := l.pageQuery page limit) hs
  case shown =>
    intro page limit offset ctx form cache hcache
    obtain ⟨cache', hrun, hcache'⟩ := s.pageOf_cached (l.onPage page limit) offset ctx form hcache
    rw [s.pageOf_of_not_sorts (l := l.onPage page limit) hs] at hrun
    exact ⟨cache', hrun, hcache'⟩

/-- The pages of any listing over a filled store agree with its count and with the list of all
its matches if and only if the matches can be sorted, and else the matches are only counted.
Twenty matches, or any number that the keys order, can be sorted. -/
theorem pages_agree_iff_sorts (dump : Dump) (baseUrl : String) (l : Listing) {limit : UInt64}
    (hl : 1 ≤ limit.toNat) :
    ((∃ ids, (Store.ofDump dump baseUrl).PagesAgree l limit ids) ↔
      (Store.ofDump dump baseUrl).Sorts l.query) ∧
    (¬ (Store.ofDump dump baseUrl).Sorts l.query →
      (Store.ofDump dump baseUrl).PagesRefused l) ∧
    ((Store.ofDump dump baseUrl).Orderly l.query → (Store.ofDump dump baseUrl).Sorts l.query) := by
  have h := Store.ordered_ofDump dump baseUrl
  generalize Store.ofDump dump baseUrl = s at h ⊢
  refine ⟨⟨?_, fun hs => ⟨_, pagesAgree_of_sorts h hl hs⟩⟩, s.pagesRefused_of_not_sorts,
    Orderly.sorts (q := l.query) (h l.kind)⟩
  rintro ⟨ids, hids⟩
  exact sorts_of_storage_fetchIds hids.fetched

/-- Three nodes created at once, which only their ids can put in order. -/
def threeNodes : Dump :=
  { Dump.empty with nodes := [3, 1, 2].map fun id =>
      ⟨id, Uuid.repeating 0, "page", "", true, 0, none, []⟩ }

theorem threeNodes_pages_agree :
    1 ≤ (2 : UInt64).toNat ∧
    ∃ ids, (Store.ofDump threeNodes "").PagesAgree (Listing.nodes true) 2 ids ∧
      ids.length = 3 ∧ pageWindow ids 1 2 = [3] := by
  have hl : 1 ≤ (2 : UInt64).toNat := by decide
  obtain ⟨hiff, -, hsorts⟩ := pages_agree_iff_sorts threeNodes "" (Listing.nodes true) hl
  have hcount : (Store.ofDump threeNodes "").count (Listing.nodes true).query = 3 := by
    decide +kernel
  have ⟨ids, hids⟩ := hiff.2 (hsorts (Or.inl (by rw [hcount]; decide)))
  refine ⟨hl, ids, hids, ?_, ?_⟩
  · exact (Except.ok.inj hids.counted).symm.trans hcount
  · have hpage : (Store.ofDump threeNodes "").storage.fetchIds
        ((Listing.nodes true).pageQuery 1 2) = .ok [3] := by decide +kernel
    exact Except.ok.inj ((hids.paged 1).symm.trans hpage)

/-- Values that comparing by numbers and by texts puts in a circle: 9 is below 10, 10 is below 1a,
and 1a is below 9. -/
def mixedValues : List String :=
  List.replicate 10 "1a" ++ List.replicate 8 "9" ++ List.replicate 3 "10"

/-- Articles that hold these values in a field, one each, and the same items in other fields. -/
def mixedArticles (field : String) (others : List (String × List Item)) : Dump :=
  { Dump.empty with nodes := mixedValues.mapIdx fun n value =>
      ⟨UInt64.ofNat (n + 1), Uuid.ofNat (n + 1), "article", "", true, 0, none,
        (field, [.value value]) :: others⟩ }

/-- Published nodes, those of the latest dates first. -/
def latestFirst : Listing :=
  (Listing.nodes true).orderedBy [.desc "field_sort_by_date", .desc "changed"]

/-- Twenty-one articles are counted, but neither listed nor shown on any page. -/
theorem mixedArticles_pages_disagree :
    1 ≤ (10 : UInt64).toNat ∧
    (Store.ofDump (mixedArticles "field_sort_by_date" []) "").storage.count latestFirst.query =
      .ok 21 ∧
    (Store.ofDump (mixedArticles "field_sort_by_date" []) "").storage.fetchIds latestFirst.query =
      .error .unsortable ∧
    ∀ ids, ¬ (Store.ofDump (mixedArticles "field_sort_by_date" []) "").PagesAgree latestFirst 10
      ids := by
  have hs : ¬ (Store.ofDump (mixedArticles "field_sort_by_date" []) "").Sorts latestFirst.query :=
    by decide +kernel
  refine ⟨by decide, by decide +kernel, storage_fetchIds_of_not_sorts hs, fun ids hids => ?_⟩
  exact hs (sorts_of_storage_fetchIds hids.fetched)

section Service

variable (offset : Calendar.Offset) (policy : Policy)

def service : Service (Except Fault) := ⟨s.storage, offset, policy⟩

theorem carryOut_page (l : Listing) (ctx : Context) (form : ResultForm) :
    (s.service offset policy).carryOut (.page l ctx form) =
      if s.Sorts l.query then .ok (.page (s.shownPage offset l ctx form))
      else .error .unsortable := by
  rw [Service.carryOut, Service.projector, service]
  split
  case isTrue hs =>
    rw [s.pageOf_of_sorts hs, run_pageOf]
    rfl
  case isFalse hs =>
    rw [s.pageOf_of_not_sorts hs]
    rfl

theorem answer_of_plan_page {call : Call} {l : Listing} {ctx : Context} {form : ResultForm}
    (h : (s.service offset policy).plan call = .ok (.page l ctx form)) :
    (s.service offset policy).answer call =
      if s.Sorts l.query then .ok (.page (s.shownPage offset l ctx form))
      else .error .unsortable := by
  rw [Service.answer_eq_plan_bind, h]
  exact s.carryOut_page offset policy l ctx form

/-- An answered listing could be sorted and shows its page. -/
theorem answered_of_plan_page {call : Call} {l : Listing} {ctx : Context} {form : ResultForm}
    (h : (s.service offset policy).plan call = .ok (.page l ctx form)) {answer : Answer}
    (hok : (s.service offset policy).answer call = .ok answer) :
    s.Sorts l.query ∧ answer = .page (s.shownPage offset l ctx form) := by
  rw [s.answer_of_plan_page offset policy h] at hok
  split at hok
  case isTrue hs => exact ⟨hs, (Except.ok.inj hok).symm⟩
  case isFalse => cases hok

/-- The call lists matches that cannot be sorted. -/
def Unsortable (call : Call) : Prop :=
  ∃ l ctx form, (s.service offset policy).plan call = .ok (.page l ctx form) ∧ ¬ s.Sorts l.query

theorem answer_of_unsortable {call : Call} (h : s.Unsortable offset policy call) :
    (s.service offset policy).answer call = .error .unsortable := by
  obtain ⟨l, ctx, form, hplan, hs⟩ := h
  rw [s.answer_of_plan_page offset policy hplan, if_neg hs]

theorem answered_of_not_unsortable {call : Call} (h : ¬ s.Unsortable offset policy call) {p : Plan}
    (hplan : (s.service offset policy).plan call = .ok p) :
    ∃ answer, (s.service offset policy).answer call = .ok answer := by
  rw [Service.answer_eq_plan_bind, hplan]
  cases p with
  | page l ctx form =>
    have hs : s.Sorts l.query := not_not.1 fun hs => h ⟨l, ctx, form, hplan, hs⟩
    exact ⟨_, (s.carryOut_page offset policy l ctx form).trans (if_pos hs)⟩
  | entity options e =>
    exact ⟨_, Simulation.carryOut_entity s.storage_simulated offset policy options e⟩
  | count l => exact ⟨_, rfl⟩

theorem answer_of_plan_count {call : Call} {l : Listing}
    (h : (s.service offset policy).plan call = .ok (.count l)) :
    (s.service offset policy).answer call = .ok (.count (s.count l.query)) := by
  rw [Service.answer_eq_plan_bind, h]
  rfl

end Service

theorem mem_selected_of_mem_listed {s : Store} (ho : ∀ kind, (s.shelf kind).Ordered)
    {l : Listing} {e : Entity} (h : e ∈ s.listed l) : e ∈ s.selected l.query := by
  obtain ⟨id, hid, hget⟩ := List.mem_filterMap.1 h
  obtain ⟨found, hfound, hget'⟩ := get?_of_mem_fetchIds ho hid
  have heq : found = e := Option.some.inj (hget'.symm.trans hget)
  exact heq ▸ hfound

end Store

end ContentProjection
