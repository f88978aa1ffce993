import ContentProjection.Proofs.ListBounds
import ContentProjection.Proofs.Numerals
import ContentProjection.Proofs.Paging
import ContentProjection.Proofs.ProductCounts

/-!
# Numerals of any length as parameters

A request gives depth, limit and page as decimal numerals, which may be longer than any
word. As long as the number fits into the word of its parameter it is cut to the bound of
the settings. A longer one is no number at all to the reader, so that the parameter is
taken as not given: the depth and the limit go back to their defaults, which the cut would
give only if the default is not below the bound, and the page to the first one, although
the request asked for a page that no store reaches.
-/
namespace ContentProjection

/-- No store has a match on the page, whatever is listed and however long its pages are. A
count is a 64-bit word. -/
def PastEveryMatch (page : UInt64) : Prop :=
  ∀ (dump : Dump) (baseUrl : String) (l : Listing) (limit : UInt64), 1 ≤ limit.toNat →
    (Store.ofDump dump baseUrl).count l.query ≤ maxUInt64 →
    (Store.ofDump dump baseUrl).fetchIds (l.pageQuery page limit) = []

theorem pastEveryMatch_lastPage : PastEveryMatch (UInt64.ofNat maxUInt64) := by
  intro dump baseUrl l limit hlimit hcount
  rw [← Store.length_matchingIds] at hcount
  rw [Store.fetchIds_pageQuery]
  exact pageWindow_eq_nil hlimit hcount (Nat.le_trans (pagesFilledBy_le hlimit) hcount)

theorem not_pastEveryMatch_firstPage : ¬ PastEveryMatch 0 := by
  intro h
  have hnone := h Store.threeNodes "" (Listing.nodes true) 2 (by decide) (by decide +kernel)
  exact absurd hnone (by decide +kernel)

namespace QueryPairs

/-- The first value under a key is a decimal numeral of the number. -/
def Gives (pairs : QueryPairs) (key : String) (n : Nat) : Prop :=
  ∃ value, pairs.lookup key = some value ∧ Text.Numeral.Writes n value.toList

variable {pairs : QueryPairs} {bounds : ParamBounds} {n : Nat}

theorem depth_of_gives (h : pairs.Gives "depth" n) :
    (pairs.depth bounds).toNat =
      min (if n < UInt32.size then n else bounds.defaultDepth.toNat) bounds.maxDepth.toNat := by
  obtain ⟨value, hvalue, hwrites⟩ := h
  rw [depth, first?, hvalue, Option.bind_some, hwrites.trim_eq, hwrites.uint32?,
    UInt32.toNat_min]
  by_cases hn : n < UInt32.size
  · rw [dif_pos hn, if_pos hn, Option.getD_some, UInt32.toNat_ofNatLT]
  · rw [dif_neg hn, if_neg hn, Option.getD_none]

theorem limit_of_gives (h : pairs.Gives "limit" n) (hpos : 1 ≤ n) :
    (pairs.limit bounds).toNat =
      if n < UInt64.size then min n bounds.maxLimit.toNat else bounds.defaultLimit.toNat := by
  obtain ⟨value, hvalue, hwrites⟩ := h
  rw [limit, first?, hvalue, Option.bind_some, hwrites.trim_eq, hwrites.uint64?]
  by_cases hn : n < UInt64.size
  · have hasked : 0 < UInt64.ofNatLT n hn := by
      rw [UInt64.lt_iff_toNat_lt, UInt64.toNat_ofNatLT]
      exact hpos
    rw [dif_pos hn, if_pos hn]
    dsimp only
    rw [if_pos hasked, UInt64.toNat_min, UInt64.toNat_ofNatLT]
  · rw [dif_neg hn, if_neg hn]

theorem page_of_gives (h : pairs.Gives "page" n) :
    pairs.page.toNat = if n < UInt64.size then n else 0 := by
  obtain ⟨value, hvalue, hwrites⟩ := h
  rw [page, first?, hvalue, Option.bind_some, hwrites.trim_eq, hwrites.uint64?]
  by_cases hn : n < UInt64.size
  · rw [dif_pos hn, if_pos hn, Option.getD_some, UInt64.toNat_ofNatLT]
  · rw [dif_neg hn, if_neg hn]
    rfl

/-- Numerals count for what they are up to the bounds of the settings, whatever their length, and
no page is answered by an earlier one. -/
structure ClampsNumerals (pairs : QueryPairs) (c : ContentSettings) : Prop where
  depth_eq : ∀ n, pairs.Gives "depth" n →
    (pairs.depth c.paramBounds).toNat = min n c.maxDepth.toNat
  limit_eq : ∀ n, pairs.Gives "limit" n → 1 ≤ n →
    (pairs.limit c.paramBounds).toNat = min n (max c.maxLimit.toNat 1)
  page_eq : ∀ n, pairs.Gives "page" n → pairs.page.toNat = n ∨ PastEveryMatch pairs.page

end QueryPairs

namespace ContentSettings

variable (c : ContentSettings)

theorem toNat_maxLimit_paramBounds : c.paramBounds.maxLimit.toNat = max c.maxLimit.toNat 1 :=
  UInt64.toNat_max _ _

/-- A numeral counts up to the bound exactly if it fits into the word of its parameter, or if
the default that it falls back to is cut to the bound as well. There is no such default for the
page: past the words every request gets the first page. -/
theorem numerals_clamped_iff (query : Option String) (n : Nat) :
    ((QueryPairs.ofQuery query).Gives "depth" n →
      (((QueryPairs.ofQuery query).depth c.paramBounds).toNat = min n c.maxDepth.toNat ↔
        n < UInt32.size ∨ c.maxDepth ≤ c.defaultDepth)) ∧
    ((QueryPairs.ofQuery query).Gives "limit" n → 1 ≤ n →
      (((QueryPairs.ofQuery query).limit c.paramBounds).toNat = min n (max c.maxLimit.toNat 1) ↔
        n < UInt64.size ∨ max c.defaultLimit 1 = max c.maxLimit 1)) ∧
    ((QueryPairs.ofQuery query).Gives "page" n →
      ((QueryPairs.ofQuery query).page.toNat = n ∨ PastEveryMatch (QueryPairs.ofQuery query).page ↔
        n < UInt64.size)) := by
  generalize QueryPairs.ofQuery query = pairs
  refine ⟨fun hgives => ?_, fun hgives hpos => ?_, fun hgives => ?_⟩
  case refine_1 =>
    have hbound : c.maxDepth.toNat < UInt32.size := c.maxDepth.toNat_lt
    rw [QueryPairs.depth_of_gives hgives, UInt32.le_iff_toNat_le]
    change min (if n < UInt32.size then n else c.defaultDepth.toNat) c.maxDepth.toNat = _ ↔ _
    split <;> omega
  case refine_2 =>
    have hbound : (max c.maxLimit 1).toNat < UInt64.size := UInt64.toNat_lt _
    rw [QueryPairs.limit_of_gives hgives hpos, ← UInt64.toNat_inj, ← toNat_maxLimit_paramBounds]
    change (if n < UInt64.size then min n (max c.maxLimit 1).toNat
      else (max c.defaultLimit 1).toNat) = min n (max c.maxLimit 1).toNat ↔ _
    split <;> omega
  case refine_3 =>
    have hread := QueryPairs.page_of_gives hgives
    constructor
    · intro hkept
      by_contra hn
      rw [if_neg hn] at hread
      rcases hkept with heq | hpast
      · rw [← heq, hread] at hn
        exact hn (by decide)
      · rw [UInt64.toNat_inj.1 (hread.trans (UInt64.toNat_zero).symm)] at hpast
        exact not_pastEveryMatch_firstPage hpast
    · intro hn
      rw [if_pos hn] at hread
      exact Or.inl hread

/-- The number twelve given for all three parameters, once with a zero in front. -/
theorem twelve_clamped :
    let pairs := QueryPairs.ofQuery (some "limit=12&page=12&depth=012&depth=3")
    pairs.Gives "depth" 12 ∧ pairs.Gives "limit" 12 ∧ pairs.Gives "page" 12 ∧ 1 ≤ 12 ∧
    (pairs.depth default.paramBounds).toNat = min 12 10 ∧
    (pairs.limit default.paramBounds).toNat = min 12 100 ∧
    (pairs.page.toNat = 12 ∨ PastEveryMatch pairs.page) := by
  have hdepth : (QueryPairs.ofQuery (some "limit=12&page=12&depth=012&depth=3")).Gives
    "depth" 12 := ⟨"012", by decide +kernel, 1, by decide⟩
  have hlimit : (QueryPairs.ofQuery (some "limit=12&page=12&depth=012&depth=3")).Gives
    "limit" 12 := ⟨"12", by decide +kernel, 0, by decide⟩
  have hpage : (QueryPairs.ofQuery (some "limit=12&page=12&depth=012&depth=3")).Gives
    "page" 12 := ⟨"12", by decide +kernel, 0, by decide⟩
  obtain ⟨hd, hl, hp⟩ :=
    numerals_clamped_iff default (some "limit=12&page=12&depth=012&depth=3") 12
  exact ⟨hdepth, hlimit, hpage, by decide, (hd hdepth).2 (Or.inl (by decide)),
    (hl hlimit (by decide)).2 (Or.inl (by decide)), (hp hpage).2 (by decide)⟩

/-- The least numbers that do not fit into the words of the parameters. -/
def longNumerals : String :=
  "depth=4294967296&limit=18446744073709551616&page=18446744073709551616"

/-- Numerals that are too long reset the parameters, although the bounds are above the
defaults and there is a page past every match. -/
theorem longNumerals_not_clamped :
    (QueryPairs.ofQuery (some longNumerals)).Gives "depth" 4294967296 ∧
    (QueryPairs.ofQuery (some longNumerals)).depth default.paramBounds = 2 ∧
    (QueryPairs.ofQuery (some longNumerals)).Gives "limit" 18446744073709551616 ∧
    (QueryPairs.ofQuery (some longNumerals)).limit default.paramBounds = 10 ∧
    (QueryPairs.ofQuery (some longNumerals)).Gives "page" 18446744073709551616 ∧
    (QueryPairs.ofQuery (some longNumerals)).page = 0 ∧
    ¬ PastEveryMatch 0 ∧ PastEveryMatch (UInt64.ofNat maxUInt64) ∧
    ¬ (QueryPairs.ofQuery (some longNumerals)).ClampsNumerals default := by
  have hdepth : (QueryPairs.ofQuery (some longNumerals)).Gives "depth" 4294967296 :=
    ⟨"4294967296", by decide +kernel, 0, by decide⟩
  have hlimit : (QueryPairs.ofQuery (some longNumerals)).Gives "limit" 18446744073709551616 :=
    ⟨"18446744073709551616", by decide +kernel, 0, by decide⟩
  have hpage : (QueryPairs.ofQuery (some longNumerals)).Gives "page" 18446744073709551616 :=
    ⟨"18446744073709551616", by decide +kernel, 0, by decide⟩
  refine ⟨hdepth, by decide +kernel, hlimit, by decide +kernel, hpage, by decide +kernel,
    not_pastEveryMatch_firstPage, pastEveryMatch_lastPage, fun hclamps => ?_⟩
  exact absurd (hclamps.depth_eq 4294967296 hdepth) (by decide +kernel)

end ContentSettings
end ContentProjection
