import ContentProjection.Web.Parameters

/-!
# Bounds of listing parameters

The settings give a largest limit and a largest depth. Whatever stands in a query text,
the limit of a request is at least one and its depth at most the largest. The limit is
cut to the largest one only when the request asks for a limit: if it asks for none, for
zero or for no number, the default limit is used, and settings may put that above the
largest. So all requests keep the bounds if and only if the default does.
-/
namespace ContentProjection

theorem max_le_iff_uint64 {m n k : UInt64} : max m n ≤ k ↔ m ≤ k ∧ n ≤ k := by
  change (if m ≤ n then n else m) ≤ k ↔ _
  split <;> simp only [UInt64.le_iff_toNat_le] at * <;> omega

/-- The first limit among the pairs is a numeral of at least one. -/
def QueryPairs.AsksLimit (pairs : QueryPairs) : Prop :=
  ∃ value limit, pairs.lookup "limit" = some value ∧
    Text.Numeral.uint64? (Text.trim value.toList) = some limit ∧ 1 ≤ limit

/-- Parameters inside the bounds that the settings give. -/
structure ListOptions.Within (options : ListOptions) (c : ContentSettings) : Prop where
  limit_pos : 1 ≤ options.limit
  limit_le : options.limit ≤ c.maxLimit
  depth_le : options.depth ≤ c.maxDepth

namespace QueryPairs

variable {pairs : QueryPairs} {bounds : ParamBounds}

theorem limit_of_asked {value : String} {asked : UInt64}
    (hvalue : pairs.lookup "limit" = some value)
    (hasked : Text.Numeral.uint64? (Text.trim value.toList) = some asked) (hone : 1 ≤ asked) :
    pairs.limit bounds = min asked bounds.maxLimit := by
  have hpos : 0 < asked := UInt64.lt_iff_toNat_lt.2 (UInt64.le_iff_toNat_le.1 hone)
  rw [limit, first?, hvalue, Option.bind_some, hasked]
  exact if_pos hpos

theorem limit_of_not_asksLimit (h : ¬ pairs.AsksLimit) :
    pairs.limit bounds = bounds.defaultLimit := by
  unfold limit first?
  cases hvalue : pairs.lookup "limit" with
  | none => rfl
  | some value =>
    rw [Option.bind_some]
    cases hasked : Text.Numeral.uint64? (Text.trim value.toList) with
    | none => rfl
    | some asked =>
      refine if_neg fun hpos => h ⟨value, asked, hvalue, hasked, ?_⟩
      exact UInt64.le_iff_toNat_le.2 (UInt64.lt_iff_toNat_lt.1 hpos)

theorem depth_le_maxDepth (pairs : QueryPairs) (bounds : ParamBounds) :
    pairs.depth bounds ≤ bounds.maxDepth :=
  Std.min_le_right

end QueryPairs

namespace ContentSettings

/-- The parameters of a listing that a request with the query text asks for. -/
def listOptionsOf (c : ContentSettings) (query : Option String) : ListOptions :=
  (QueryPairs.ofQuery query).listOptions c.paramBounds

variable {c : ContentSettings} (h : 1 ≤ c.maxLimit)
include h

theorem maxLimit_paramBounds : c.paramBounds.maxLimit = c.maxLimit := by
  change (if c.maxLimit ≤ 1 then 1 else c.maxLimit) = c.maxLimit
  split
  · next hle => exact UInt64.le_antisymm h hle
  · rfl

theorem one_le_limit (query : Option String) : 1 ≤ (c.listOptionsOf query).limit := by
  change 1 ≤ (QueryPairs.ofQuery query).limit c.paramBounds
  by_cases hasks : (QueryPairs.ofQuery query).AsksLimit
  · obtain ⟨value, asked, hvalue, hasked, hone⟩ := hasks
    rw [QueryPairs.limit_of_asked hvalue hasked hone, maxLimit_paramBounds h]
    exact Std.le_min_iff.2 ⟨hone, h⟩
  · rw [QueryPairs.limit_of_not_asksLimit hasks]
    exact (max_le_iff_uint64.1 (UInt64.le_refl _)).2

/-- A limit is above the largest one only if it is the default and not asked for. -/
theorem limit_le_maxLimit_iff (query : Option String) :
    (c.listOptionsOf query).limit ≤ c.maxLimit ↔
      (QueryPairs.ofQuery query).AsksLimit ∨ c.defaultLimit ≤ c.maxLimit := by
  change (QueryPairs.ofQuery query).limit c.paramBounds ≤ c.maxLimit ↔ _
  by_cases hasks : (QueryPairs.ofQuery query).AsksLimit
  · obtain ⟨value, asked, hvalue, hasked, hone⟩ := id hasks
    rw [QueryPairs.limit_of_asked hvalue hasked hone, maxLimit_paramBounds h]
    exact iff_of_true Std.min_le_right (Or.inl hasks)
  · have hdefault : c.paramBounds.defaultLimit ≤ c.maxLimit ↔ c.defaultLimit ≤ c.maxLimit :=
      max_le_iff_uint64.trans (and_iff_left h)
    rw [QueryPairs.limit_of_not_asksLimit hasks, hdefault]
    exact (or_iff_right hasks).symm

/-- Every request has a limit of at least one and a depth inside its bound, and a limit inside
its bound exactly if it asks for one or the default is inside. All requests keep the bounds if
and only if the default limit is at most the largest. -/
theorem listings_within_iff :
    (∀ query, 1 ≤ (c.listOptionsOf query).limit ∧
      (c.listOptionsOf query).depth ≤ c.maxDepth ∧
      ((c.listOptionsOf query).limit ≤ c.maxLimit ↔
        (QueryPairs.ofQuery query).AsksLimit ∨ c.defaultLimit ≤ c.maxLimit)) ∧
    ((∀ query, (c.listOptionsOf query).Within c) ↔ c.defaultLimit ≤ c.maxLimit) := by
  have hdepth (query : Option String) : (c.listOptionsOf query).depth ≤ c.maxDepth :=
    (QueryPairs.ofQuery query).depth_le_maxDepth c.paramBounds
  refine ⟨fun query => ⟨one_le_limit h query, hdepth query, limit_le_maxLimit_iff h query⟩, ?_, ?_⟩
  · intro hwithin
    rcases (limit_le_maxLimit_iff h none).1 (hwithin none).limit_le with ⟨_, _, hnone, -⟩ | hdefault
    · cases hnone
    · exact hdefault
  · intro hdefault query
    exact ⟨one_le_limit h query, (limit_le_maxLimit_iff h query).2 (Or.inr hdefault), hdepth query⟩

omit h

theorem default_listings_within :
    1 ≤ default.maxLimit ∧ ∀ query, (default.listOptionsOf query).Within default := by
  have h : 1 ≤ default.maxLimit := by decide
  exact ⟨h, (listings_within_iff h).2.2 (by decide)⟩

/-- Settings with a default limit above the largest one. -/
def generousDefault : ContentSettings := { default with defaultLimit := 50, maxLimit := 5 }

/-- Without a limit in the request, a listing may be longer than the settings allow. -/
theorem generousDefault_not_within :
    1 ≤ generousDefault.maxLimit ∧ (generousDefault.listOptionsOf none).limit = 50 ∧
    ¬ ∀ query, (generousDefault.listOptionsOf query).Within generousDefault :=
  ⟨by decide, by decide, fun h => absurd (h none).limit_le (by decide)⟩

end ContentSettings
end ContentProjection
