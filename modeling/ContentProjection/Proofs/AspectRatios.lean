import ContentProjection.Image
import ContentProjection.Proofs.Lists
import ContentProjection.Proofs.Numerals
import ContentProjection.Proofs.Rounding
import Mathlib.Algebra.Order.Round

/-!
# Aspect ratios of sizes

The ratio of a size in hundredths comes from two doubles, a quotient and its product with
100, that are off by 2^-51 of it at most. A size that is not half-way between two whole
numbers of hundredths is at least 2^-33 away from there, so that the styles chosen for it
are those of the exact ratio. Of the ten half-way ratios at the borders of the groups, nine
are rounded up as they should be, and 1.005 is not.
-/
namespace ContentProjection.Image

open Binary64

/-- The ratio of a size in hundredths, halves rounded up. That is away from zero, since no ratio
is negative. -/
def exactHundredths (width height : ℕ) : ℤ := round (100 * width / height : ℚ)

/-- The styles of a size are those of the group that its exact ratio is rounded to, and none
where there is no such group. -/
structure ChoosesExactly (width height : ℕ) (resolution : String) : Prop where
  styles_iff : ∀ group ∈ styleTable,
    stylesFor (some resolution) = group.2 ↔ exactHundredths width height = group.1
  none_of_no_group : (∀ group ∈ styleTable, exactHundredths width height ≠ group.1) →
    stylesFor (some resolution) = []

section Read

variable {w h : UInt32} {width height : List Char}

theorem size?_written (hw : Text.Numeral.Writes w.toNat width)
    (hh : Text.Numeral.Writes h.toNat height) :
    size? (width ++ 'x' :: height) = some (width, height) := by
  have hx : ∀ c ∈ ('x' :: height).head?, Text.isDecimalDigit c = false := by
    intro c hc
    cases Option.mem_some.1 hc
    decide
  obtain ⟨htake, hdrop⟩ := hw.takeWhile_append Text.isDecimalDigit_of_isDigit hx
  have hnone : ∀ c ∈ ([] : List Char).head?, Text.isDecimalDigit c = false := by simp
  obtain ⟨hheight, -⟩ := hh.takeWhile_append Text.isDecimalDigit_of_isDigit hnone
  have hhere : sizeHere? (width ++ 'x' :: height) = some (width, height) := by
    rw [List.append_nil] at hheight
    simp [sizeHere?, htake, hdrop, hheight, hw.ne_nil, hh.ne_nil]
  cases width with
  | nil => exact absurd rfl hw.ne_nil
  | cons c width =>
    rw [List.cons_append] at hhere ⊢
    rw [size?, hhere, Option.some_or]

theorem stylesFor_written (hw : Text.Numeral.Writes w.toNat width)
    (hh : Text.Numeral.Writes h.toNat height) :
    stylesFor (some (String.ofList (width ++ 'x' :: height))) =
      ((ratioHundredths? w.toNat h.toNat).bind fun ratio => styleTable.lookup ratio).getD [] := by
  rw [stylesFor, Option.bind_some, ratioOfResolution?, String.toList_ofList, size?_written hw hh,
    Option.bind_some]
  dsimp only
  rw [hw.uint32?_eq_some, Option.bind_some, hh.uint32?_eq_some, Option.bind_some]

end Read

/-- The styles of a group are found under its ratio and under no other. -/
theorem getD_lookup_eq_iff {ratio : ℕ} {group : ℕ × List String} (h : group ∈ styleTable) :
    (styleTable.lookup ratio).getD [] = group.2 ↔ ratio = group.1 := by
  have hstyles : (styleTable.map Prod.snd).Nodup := by decide
  constructor
  · intro heq
    cases hfound : styleTable.lookup ratio with
    | none =>
      rw [hfound, Option.getD_none] at heq
      have hne : ∀ group ∈ styleTable, [] ≠ group.2 := by decide
      exact absurd heq (hne group h)
    | some styles =>
      rw [hfound, Option.getD_some] at heq
      have hsame := List.inj_on_of_nodup_map hstyles (mem_of_lookup_eq_some hfound) h heq
      rw [← hsame]
  · rintro rfl
    rw [lookup_of_mem (by decide) h, Option.getD_some]

theorem le_round_iff {q : ℚ} {j : ℕ} : (j : ℤ) ≤ round q ↔ (2 * j - 1 : ℚ) / 2 ≤ q := by
  rw [round_eq, Int.le_floor]
  push_cast
  constructor <;> intro h <;> linarith

theorem roundHalfUp_eq_round (x : Binary64) : (roundHalfUp x : ℤ) = round x.magnitude := by
  unfold roundHalfUp magnitude
  split
  · next hpos =>
    obtain ⟨k, hk⟩ := Int.eq_ofNat_of_zero_le hpos
    rw [hk, Int.toNat_natCast, zpow_natCast]
    have hwhole : (x.mantissa * 2 ^ k : ℚ) = ((x.mantissa * 2 ^ k : ℕ) : ℚ) := by push_cast; rfl
    rw [hwhole, round_natCast, Nat.pow_eq]
  · next hneg =>
    obtain ⟨k, hk⟩ := Int.eq_ofNat_of_zero_le (by omega : 0 ≤ -x.exponent)
    have hexp : x.exponent = -(k : ℤ) := by omega
    rw [hexp, neg_neg, Int.toNat_natCast, zpow_neg, zpow_natCast, round_eq]
    have hhalf : (x.mantissa * (2 ^ k)⁻¹ + 1 / 2 : ℚ) =
        ((2 * x.mantissa + Nat.pow 2 k : ℕ) : ℚ) / ((2 * Nat.pow 2 k : ℕ) : ℚ) := by
      rw [Nat.pow_eq]
      push_cast
      field_simp
    rw [hhalf, Rat.floor_natCast_div_natCast]
    rfl

/-- A product with a whole number has a double where it is in the middle of the range. -/
theorem exists_timesNat? (x : Binary64) (factor : ℕ)
    (h : x.magnitude * factor ≠ 0 → Normal (x.magnitude * factor)) :
    ∃ y, timesNat? x factor = some y ∧
      |y.magnitude - x.magnitude * factor| ≤ x.magnitude * factor / 2 ^ 53 := by
  have hden := scaled_den_pos (x.mantissa * factor) one_pos (-x.exponent)
  have hproduct : ((scaled (x.mantissa * factor) 1 (-x.exponent)).1 : ℚ) /
      (scaled (x.mantissa * factor) 1 (-x.exponent)).2 = x.magnitude * factor := by
    rw [scaled_div, zpow_neg, div_inv_eq_mul, magnitude]
    push_cast
    ring
  have hnormal : (scaled (x.mantissa * factor) 1 (-x.exponent)).1 ≠ 0 →
      Normal ((scaled (x.mantissa * factor) 1 (-x.exponent)).1 /
        (scaled (x.mantissa * factor) 1 (-x.exponent)).2) := by
    intro hnum
    rw [hproduct]
    apply h
    rw [← hproduct]
    exact div_ne_zero (Nat.cast_ne_zero.2 hnum) (Nat.cast_ne_zero.2 hden.ne')
  obtain ⟨y, hy, herror⟩ := exists_ofQuotient? x.negative hden hnormal
  rw [hproduct] at herror
  exact ⟨y, hy, herror⟩

theorem normal_of_between {q : ℚ} (hlow : 2 ^ (-32 : ℤ) ≤ q) (hhigh : q ≤ 2 ^ (40 : ℤ)) :
    Normal q where
  least_le := (zpow_le_zpow_right₀ one_le_two (by norm_num)).trans hlow
  le_greatest := hhigh.trans (zpow_le_zpow_right₀ one_le_two (by norm_num))

/-- A width and a height that fit into their words, the height not zero. -/
structure IsSize (w h : ℕ) : Prop where
  width_lt : w < 2 ^ 32
  height_pos : 0 < h
  height_lt : h < 2 ^ 32

section Ratio

variable {w h : ℕ}

theorem IsSize.le_one_div_height (hsize : IsSize w h) : (1 / 2 ^ 32 : ℚ) ≤ 1 / h := by
  have hpos : (0 : ℚ) < h := Nat.cast_pos.2 hsize.height_pos
  have hle : (h : ℚ) ≤ 2 ^ 32 := by exact_mod_cast hsize.height_lt.le
  gcongr

theorem IsSize.ratio_bounds (hsize : IsSize w h) (hw : w ≠ 0) :
    (1 / 2 ^ 32 : ℚ) ≤ w / h ∧ (w / h : ℚ) ≤ 2 ^ 32 := by
  have hone : (1 : ℚ) ≤ w := by exact_mod_cast Nat.one_le_iff_ne_zero.2 hw
  have hone' : (1 : ℚ) ≤ h := by exact_mod_cast hsize.height_pos
  have hle : (w : ℚ) ≤ 2 ^ 32 := by exact_mod_cast hsize.width_lt.le
  constructor
  · calc (1 / 2 ^ 32 : ℚ) ≤ 1 / h := hsize.le_one_div_height
      _ ≤ w / h := by gcongr
  · exact (div_le_self (by positivity) hone').trans hle

theorem IsSize.normal_ratio (hsize : IsSize w h) (hw : w ≠ 0) : Normal (w / h) := by
  obtain ⟨hlow, hhigh⟩ := hsize.ratio_bounds hw
  apply normal_of_between
  · norm_num at hlow ⊢
    exact hlow
  · norm_num at hhigh ⊢
    linarith

/-- The ratio is rounded from a number that is off by 2^-51 of it at most. -/
theorem IsSize.exists_ratioHundredths? (hsize : IsSize w h) :
    ∃ ratio p, ratioHundredths? w h = some ratio ∧ (ratio : ℤ) = round p ∧
      |p - (100 * w / h : ℚ)| ≤ 100 * w / h / 2 ^ 51 := by
  obtain ⟨x, hx, hxerror⟩ := exists_ofQuotient? false hsize.height_pos hsize.normal_ratio
  obtain ⟨hxlow, hxhigh⟩ := abs_le.1 hxerror
  have hnormal : x.magnitude * (100 : ℕ) ≠ 0 → Normal (x.magnitude * (100 : ℕ)) := by
    intro hproduct
    have hw : w ≠ 0 := by
      rintro rfl
      norm_num at hxlow hxhigh
      exact hproduct (by rw [le_antisymm hxhigh hxlow, zero_mul])
    obtain ⟨hlow, hhigh⟩ := hsize.ratio_bounds hw
    apply normal_of_between
    · norm_num at hlow hxlow ⊢
      linarith
    · norm_num at hhigh hxhigh ⊢
      linarith
  obtain ⟨y, hy, hyerror⟩ := exists_timesNat? x 100 hnormal
  refine ⟨roundHalfUp y, y.magnitude, ?_, roundHalfUp_eq_round y, ?_⟩
  · rw [ratioHundredths?, if_neg hsize.height_pos.ne', hx, Option.bind_some, hy, Option.map_some]
  · have hratio : (0 : ℚ) ≤ w / h := by positivity
    obtain ⟨hylow, hyhigh⟩ := abs_le.1 hyerror
    rw [mul_div_assoc]
    push_cast at hylow hyhigh
    generalize (w / h : ℚ) = r at *
    rw [abs_le]
    constructor <;> linarith

/-- A size is half-way below `j` hundredths where `200 * w + h = 2 * j * h`. Any other size is
away from there by a multiple of half the inverse of its height. -/
theorem IsSize.half_gap (hsize : IsSize w h) {j : ℕ} (hhalf : 200 * w + h ≠ 2 * j * h) :
    (1 / 2 ^ 33 : ℚ) ≤ |(100 * w / h : ℚ) - (2 * j - 1) / 2| := by
  have hpos : (0 : ℚ) < h := Nat.cast_pos.2 hsize.height_pos
  have hmultiple : (100 * w / h : ℚ) - (2 * j - 1) / 2 =
      ((200 * w + h - 2 * j * h : ℤ) : ℚ) * (1 / h / 2) := by
    push_cast
    field_simp
    ring
  have hone : (1 : ℚ) ≤ |((200 * w + h - 2 * j * h : ℤ) : ℚ)| := by
    have hne : (200 * w + h - 2 * j * h : ℤ) ≠ 0 := sub_ne_zero.2 (by exact_mod_cast hhalf)
    exact_mod_cast Int.one_le_abs hne
  calc (1 / 2 ^ 33 : ℚ) = 1 * (1 / 2 ^ 32 / 2) := by norm_num
    _ ≤ |((200 * w + h - 2 * j * h : ℤ) : ℚ)| * (1 / h / 2) := by
      have hinverse := hsize.le_one_div_height
      gcongr
    _ = |(100 * w / h : ℚ) - (2 * j - 1) / 2| := by
      rw [hmultiple, abs_mul, abs_of_pos (by positivity : (0 : ℚ) < 1 / h / 2)]

/-- The rounding of doubles does not reach a half-way ratio from any other. -/
theorem IsSize.half_le_iff (hsize : IsSize w h) {j : ℕ} {p : ℚ} (hj : j ≤ 1000)
    (hhalf : 200 * w + h ≠ 2 * j * h)
    (herror : |p - (100 * w / h : ℚ)| ≤ 100 * w / h / 2 ^ 51) :
    (2 * j - 1 : ℚ) / 2 ≤ p ↔ (2 * j - 1 : ℚ) / 2 ≤ 100 * w / h := by
  have hj' : (j : ℚ) ≤ 1000 := by exact_mod_cast hj
  have hgap := hsize.half_gap hhalf
  obtain ⟨hlow, hhigh⟩ := abs_le.1 herror
  generalize (100 * w / h : ℚ) = q at *
  rcases le_abs.1 hgap with habove | hbelow
  · constructor <;> intro <;> linarith
  · constructor <;> intro <;> linarith

/-- A half-way size has the ratio of the same size over 200. -/
theorem IsSize.ratioHundredths?_of_half (hsize : IsSize w h) {j : ℕ} (hj : 0 < j)
    (hhalf : 200 * w + h = 2 * j * h) :
    ratioHundredths? w h = ratioHundredths? (2 * j - 1) 200 := by
  obtain ⟨k, rfl⟩ : ∃ k, j = k + 1 := ⟨j - 1, by omega⟩
  have hsame : w * 200 = (2 * (k + 1) - 1) * h := by
    have hodd : 2 * (k + 1) - 1 = 2 * k + 1 := by omega
    rw [hodd]
    linarith
  have hw : w ≠ 0 := by
    rintro rfl
    rw [zero_mul] at hsame
    exact (Nat.mul_pos (by omega) hsize.height_pos).ne hsame
  unfold ratioHundredths?
  rw [if_neg hsize.height_pos.ne', if_neg (by decide),
    ofQuotient?_congr false hsize.height_pos (by decide) (hsize.normal_ratio hw) hsame]

theorem exactHundredths_of_half {j : ℕ} (hh : 0 < h) (hhalf : 200 * w + h = 2 * j * h) :
    exactHundredths w h = j := by
  have hpos : (0 : ℚ) < h := Nat.cast_pos.2 hh
  have hratio : (100 * w / h : ℚ) = (2 * j - 1) / 2 := by
    have hcast : (200 * w + h : ℚ) = 2 * j * h := by exact_mod_cast hhalf
    rw [div_eq_div_iff hpos.ne' two_ne_zero]
    linarith
  have hle : (j : ℤ) ≤ exactHundredths w h := le_round_iff.2 hratio.ge
  have hlt : ¬ ((j + 1 : ℕ) : ℤ) ≤ exactHundredths w h := by
    rw [exactHundredths, le_round_iff, hratio]
    push_cast
    linarith
  omega

/-- The whole numbers of hundredths from which and up to which there are groups. -/
def borders : List ℕ := styleTable.flatMap fun group => [group.1, group.1 + 1]

/-- Nine of the ten half-way ratios below a border are rounded up in doubles. -/
theorem ratioHundredths?_of_mem_borders :
    ∀ j ∈ borders, j ≠ 101 → ratioHundredths? (2 * j - 1) 200 = some j := by
  decide

theorem IsSize.border_le_iff (hsize : IsSize w h) {j ratio : ℕ} (hwide : 200 * w ≠ 201 * h)
    (hj : j ∈ borders) (hratio : ratioHundredths? w h = some ratio) :
    j ≤ ratio ↔ (j : ℤ) ≤ exactHundredths w h := by
  have hborders : ∀ j ∈ borders, 0 < j ∧ j ≤ 1000 := by decide
  obtain ⟨hjpos, hjle⟩ := hborders j hj
  by_cases hhalf : 200 * w + h = 2 * j * h
  · have hne : j ≠ 101 := by
      rintro rfl
      omega
    rw [hsize.ratioHundredths?_of_half hjpos hhalf, ratioHundredths?_of_mem_borders j hj hne]
      at hratio
    rw [exactHundredths_of_half hsize.height_pos hhalf, Option.some.inj hratio, Int.ofNat_le]
  · obtain ⟨_, p, hfound, hround, herror⟩ := hsize.exists_ratioHundredths?
    rw [hratio] at hfound
    rw [Option.some.inj hfound, ← Int.ofNat_le, hround, exactHundredths, le_round_iff,
      le_round_iff, hsize.half_le_iff hjle hhalf herror]

/-- Of all sizes only those of the ratio 1.005 are taken into a group, or out of one, by
the rounding of doubles. -/
theorem IsSize.ratio_eq_iff (hsize : IsSize w h) {ratio : ℕ} {group : ℕ × List String}
    (hwide : 200 * w ≠ 201 * h) (hg : group ∈ styleTable)
    (hratio : ratioHundredths? w h = some ratio) :
    ratio = group.1 ↔ exactHundredths w h = group.1 := by
  have hfirst : group.1 ∈ borders := List.mem_flatMap.2 ⟨group, hg, by simp⟩
  have hnext : group.1 + 1 ∈ borders := List.mem_flatMap.2 ⟨group, hg, by simp⟩
  have hlow := hsize.border_le_iff hwide hfirst hratio
  have hhigh := hsize.border_le_iff hwide hnext hratio
  omega

/-- The double of 1.005 is below it, and its product with 100 is not rounded up to the half. -/
theorem IsSize.ratioHundredths?_of_wide_square (hsize : IsSize w h) (hwide : 200 * w = 201 * h) :
    ratioHundredths? w h = some 100 ∧ exactHundredths w h = 101 := by
  have hhalf : 200 * w + h = 2 * 101 * h := by omega
  have hdown : ratioHundredths? (2 * 101 - 1) 200 = some 100 := by decide
  exact ⟨(hsize.ratioHundredths?_of_half (by decide) hhalf).trans hdown,
    exactHundredths_of_half hsize.height_pos hhalf⟩

end Ratio

/-- A size written in decimal is given the styles of its exact ratio, and none outside the
groups, if and only if that ratio is not 1.005. -/
theorem written_sizes_choose_exactly_iff (w h : UInt32) (width height : List Char) (hpos : 0 < h)
    (hwidth : Text.Numeral.Writes w.toNat width) (hheight : Text.Numeral.Writes h.toNat height) :
    ChoosesExactly w.toNat h.toNat (String.ofList (width ++ 'x' :: height)) ↔
      200 * w.toNat ≠ 201 * h.toNat := by
  have hsize : IsSize w.toNat h.toNat :=
    ⟨w.toNat_lt, UInt32.lt_iff_toNat_lt.1 hpos, h.toNat_lt⟩
  have hstyles := stylesFor_written hwidth hheight
  constructor
  · intro hchooses hwide
    obtain ⟨hratio, hexact⟩ := hsize.ratioHundredths?_of_wide_square hwide
    rw [hratio, Option.bind_some] at hstyles
    have hsquare : (100, ["400x400_img", "414x414_img", "448x448_img"]) ∈ styleTable := by decide
    have hrounded := (hchooses.styles_iff _ hsquare).1
      (hstyles.trans ((getD_lookup_eq_iff hsquare).2 rfl))
    rw [hexact] at hrounded
    exact absurd hrounded (by decide)
  · intro hwide
    obtain ⟨ratio, -, hratio, -, -⟩ := hsize.exists_ratioHundredths?
    rw [hratio, Option.bind_some] at hstyles
    constructor
    case styles_iff =>
      intro group hg
      rw [hstyles, getD_lookup_eq_iff hg, hsize.ratio_eq_iff hwide hg hratio]
    case none_of_no_group =>
      intro hnone
      rw [hstyles]
      cases hfound : styleTable.lookup ratio with
      | none => rfl
      | some styles =>
        have hg := mem_of_lookup_eq_some hfound
        exact absurd ((hsize.ratio_eq_iff hwide hg hratio).1 rfl) (hnone _ hg)

/-- The half-way ratio 0.745, with a zero in front of the width. -/
theorem tall_size_chooses_exactly :
    (0 : UInt32) < 200 ∧ Text.Numeral.Writes 149 ['0', '1', '4', '9'] ∧
      Text.Numeral.Writes 200 ['2', '0', '0'] ∧ 200 * 149 ≠ 201 * 200 ∧
      ChoosesExactly 149 200 "0149x200" ∧ stylesFor (some "0149x200") = ["465x620_img"] := by
  have hwidth : Text.Numeral.Writes 149 ['0', '1', '4', '9'] := ⟨1, by decide⟩
  have hheight : Text.Numeral.Writes 200 ['2', '0', '0'] := ⟨0, by decide⟩
  have hexact : ChoosesExactly 149 200 "0149x200" :=
    (written_sizes_choose_exactly_iff 149 200 _ _ (by decide) hwidth hheight).2 (by decide)
  exact ⟨by decide, hwidth, hheight, by decide, hexact,
    (hexact.styles_iff (75, _) (by decide)).2 (exactHundredths_of_half (by decide) (by decide))⟩

/-- The ratio 1.005 is that of a square for the doubles, and 1.01 when it is rounded exactly. -/
theorem wide_square_not_chooses_exactly :
    stylesFor (some "201x200") = ["400x400_img", "414x414_img", "448x448_img"] ∧
      exactHundredths 201 200 = 101 ∧ ¬ ChoosesExactly 201 200 "201x200" := by
  have hstyles : stylesFor (some "201x200") = ["400x400_img", "414x414_img", "448x448_img"] := by
    decide
  have hexact : exactHundredths 201 200 = 101 := exactHundredths_of_half (by decide) (by decide)
  refine ⟨hstyles, hexact, fun hchooses => ?_⟩
  have hsquare : exactHundredths 201 200 = 100 :=
    (hchooses.styles_iff (100, _) (by decide)).1 hstyles
  rw [hexact] at hsquare
  exact absurd hsquare (by decide)

end ContentProjection.Image
