import ContentProjection.Binary64
import Mathlib.Algebra.Order.Field.Power
import Mathlib.Data.Rat.Floor
import Mathlib.Tactic.FieldSimp
import Mathlib.Tactic.Linarith
import Mathlib.Tactic.NormNum
import Mathlib.Tactic.Positivity
import Mathlib.Tactic.Ring

/-!
# Quotients rounded to doubles

A double stands for a mantissa times a power of two. A quotient in the middle of the range
has exactly one power of two at which 53 bits of it come before the point, and rounding
there is off by half a unit at most, which is a relative error of 2^-53. The double is that
of the quotient, however numerator and denominator are written.
-/
namespace ContentProjection.Binary64

/-- The number that a double stands for, without its sign. -/
def magnitude (x : Binary64) : ℚ := x.mantissa * 2 ^ x.exponent

theorem two_mul_nearestEven_bounds (num : ℕ) {den : ℕ} (h : 0 < den) :
    2 * num ≤ 2 * (nearestEven num den * den) + den ∧
      2 * (nearestEven num den * den) ≤ 2 * num + den := by
  have hdiv := Nat.div_add_mod num den
  have hrest := Nat.mod_lt num h
  unfold nearestEven
  dsimp only
  rw [Nat.mul_comm] at hdiv
  by_cases hbelow : 2 * (num % den) < den
  · rw [if_pos hbelow]
    omega
  · rw [if_neg hbelow]
    by_cases habove : den < 2 * (num % den)
    · rw [if_pos habove, Nat.add_mul]
      omega
    · rw [if_neg habove]
      rcases Nat.mod_two_eq_zero_or_one (num / den) with heven | hodd
      · rw [heven, Nat.add_zero]
        omega
      · rw [hodd, Nat.add_mul]
        omega

theorem abs_nearestEven_sub_le (num : ℕ) {den : ℕ} (h : 0 < den) :
    |(nearestEven num den : ℚ) - num / den| ≤ 1 / 2 := by
  have hden : (0 : ℚ) < den := Nat.cast_pos.2 h
  have hnum : (num : ℚ) = num / den * den := (div_mul_cancel₀ _ hden.ne').symm
  obtain ⟨hlow, hhigh⟩ := two_mul_nearestEven_bounds num h
  have hlow' : 2 * (num / den : ℚ) * den ≤ (2 * nearestEven num den + 1) * den := by
    have hcast : 2 * (num : ℚ) ≤ 2 * (nearestEven num den * den) + den := by exact_mod_cast hlow
    rw [hnum] at hcast
    linarith
  have hhigh' : (2 * nearestEven num den - 1 : ℚ) * den ≤ 2 * (num / den : ℚ) * den := by
    have hcast : 2 * (nearestEven num den * den : ℚ) ≤ 2 * num + den := by exact_mod_cast hhigh
    rw [hnum] at hcast
    linarith
  have hbelow := le_of_mul_le_mul_right hlow' hden
  have habove := le_of_mul_le_mul_right hhigh' hden
  rw [abs_le]
  constructor <;> linarith

theorem nearestEven_mul_right (num den : ℕ) {k : ℕ} (h : 0 < k) :
    nearestEven (num * k) (den * k) = nearestEven num den := by
  unfold nearestEven
  dsimp only
  simp only [Nat.mul_div_mul_right _ _ h, Nat.mul_mod_mul_right, ← Nat.mul_assoc,
    Nat.mul_lt_mul_right h]

/-- The rounded quotient does not depend on how the quotient is written. -/
theorem nearestEven_congr {num den num' den' : ℕ} (hden : 0 < den) (hden' : 0 < den')
    (h : num * den' = num' * den) : nearestEven num den = nearestEven num' den' := by
  rw [← nearestEven_mul_right num den hden', ← nearestEven_mul_right num' den' hden, h,
    Nat.mul_comm den' den]

theorem scaled_den_pos (num : ℕ) {den : ℕ} (h : 0 < den) (e : ℤ) : 0 < (scaled num den e).2 := by
  unfold scaled
  split
  · exact Nat.mul_pos h (Nat.pow_pos (by decide))
  · exact h

theorem scaled_div (num den : ℕ) (e : ℤ) :
    ((scaled num den e).1 : ℚ) / (scaled num den e).2 = num / den / 2 ^ e := by
  unfold scaled
  split
  · next hpos =>
    obtain ⟨k, rfl⟩ := Int.eq_ofNat_of_zero_le hpos
    rw [Int.toNat_natCast, zpow_natCast, div_div, Nat.pow_eq]
    push_cast
    rfl
  · next hneg =>
    obtain ⟨k, hk⟩ := Int.eq_ofNat_of_zero_le (by omega : 0 ≤ -e)
    obtain rfl : e = -(k : ℤ) := by omega
    rw [neg_neg, Int.toNat_natCast, zpow_neg, zpow_natCast, div_inv_eq_mul, Nat.pow_eq]
    push_cast
    rw [mul_div_right_comm]

theorem zpow_log2_bounds {n : ℕ} (h : 0 < n) :
    (2 : ℚ) ^ (n.log2 : ℤ) ≤ n ∧ (n : ℚ) < 2 ^ (n.log2 + 1 : ℤ) := by
  constructor
  · rw [zpow_natCast]
    exact_mod_cast Nat.log2_self_le h.ne'
  · have hlt : n < 2 ^ (n.log2 + 1) := Nat.lt_log2_self
    exact_mod_cast hlt

/-- The bits of numerator and denominator tell the quotient up to a factor of two either way. -/
theorem zpow_log2_sub_log2_bounds {num den : ℕ} (hnum : 0 < num) (hden : 0 < den) :
    (2 : ℚ) ^ ((num.log2 : ℤ) - den.log2 - 1) < num / den ∧
      (num / den : ℚ) < 2 ^ ((num.log2 : ℤ) - den.log2 + 1) := by
  obtain ⟨hnum_le, hnum_lt⟩ := zpow_log2_bounds hnum
  obtain ⟨hden_le, hden_lt⟩ := zpow_log2_bounds hden
  have hpos : (0 : ℚ) < den := Nat.cast_pos.2 hden
  constructor
  · rw [lt_div_iff₀ hpos]
    calc (2 : ℚ) ^ ((num.log2 : ℤ) - den.log2 - 1) * den
        < 2 ^ ((num.log2 : ℤ) - den.log2 - 1) * 2 ^ (den.log2 + 1 : ℤ) := by gcongr
      _ = 2 ^ (num.log2 : ℤ) := by
        rw [← zpow_add₀ (by norm_num)]
        congr 1
        ring
      _ ≤ num := hnum_le
  · rw [div_lt_iff₀ hpos]
    calc (num : ℚ) < 2 ^ (num.log2 + 1 : ℤ) := hnum_lt
      _ = 2 ^ ((num.log2 : ℤ) - den.log2 + 1) * 2 ^ (den.log2 : ℤ) := by
        rw [← zpow_add₀ (by norm_num)]
        congr 1
        ring
      _ ≤ 2 ^ ((num.log2 : ℤ) - den.log2 + 1) * den := by gcongr

/-- At some exponent a quotient has a whole part of 53 bits, and that is its exponent unless the
least one is greater. -/
theorem exists_exponentOf_eq_max {num den : ℕ} (hnum : 0 < num) (hden : 0 < den) :
    ∃ e, exponentOf num den = max minExponent e ∧ (2 : ℚ) ^ (52 + e) ≤ num / den ∧
      (num / den : ℚ) < 2 ^ (53 + e) := by
  obtain ⟨hlow, hhigh⟩ := zpow_log2_sub_log2_bounds hnum hden
  have hscaled := scaled_div num den ((num.log2 : ℤ) - den.log2 - 53)
  have hpos : (0 : ℚ) < (scaled num den ((num.log2 : ℤ) - den.log2 - 53)).2 :=
    Nat.cast_pos.2 (scaled_den_pos num hden _)
  unfold exponentOf
  generalize hlowest : (num.log2 : ℤ) - den.log2 - 53 = low at *
  have hfits : (scaled num den low).1 / (scaled num den low).2 < 2 * leastNormal ↔
      (num / den : ℚ) < 2 ^ (53 + low) := by
    rw [Nat.div_lt_iff_lt_mul (scaled_den_pos num hden low), zpow_add₀ two_ne_zero,
      ← div_lt_iff₀ (by positivity), ← hscaled, div_lt_iff₀ hpos]
    unfold leastNormal
    norm_cast
  dsimp only
  by_cases hlt : (num / den : ℚ) < 2 ^ (53 + low)
  · rw [if_pos (hfits.2 hlt)]
    refine ⟨low, rfl, ?_, hlt⟩
    have hexp : 52 + low = (num.log2 : ℤ) - den.log2 - 1 := by omega
    rw [hexp]
    exact hlow.le
  · rw [if_neg (mt hfits.1 hlt)]
    have hexp : 52 + (low + 1) = 53 + low := by omega
    have hexp' : 53 + (low + 1) = (num.log2 : ℤ) - den.log2 + 1 := by omega
    refine ⟨low + 1, rfl, ?_, ?_⟩
    · rw [hexp]
      exact not_lt.1 hlt
    · rw [hexp']
      exact hhigh

/-- A quotient whose double is neither too small nor too large to have 53 bits. -/
structure Normal (r : ℚ) : Prop where
  least_le : 2 ^ (-1000 : ℤ) ≤ r
  le_greatest : r ≤ 2 ^ (1000 : ℤ)

theorem Normal.num_pos {num den : ℕ} (h : Normal (num / den)) : 0 < num := by
  rcases Nat.eq_zero_or_pos num with rfl | hpos
  · have hlow := h.least_le
    rw [Nat.cast_zero, zero_div] at hlow
    exact absurd hlow (not_le.2 (by positivity))
  · exact hpos

/-- At its exponent a quotient has a whole part of 53 bits. -/
theorem exponentOf_bounds {num den : ℕ} (hden : 0 < den) (h : Normal (num / den)) :
    (2 : ℚ) ^ (52 + exponentOf num den) ≤ num / den ∧
      (num / den : ℚ) < 2 ^ (53 + exponentOf num den) := by
  obtain ⟨e, he, hlow, hhigh⟩ := exists_exponentOf_eq_max h.num_pos hden
  have hleast : minExponent ≤ e := by
    have hlt := (zpow_lt_zpow_iff_right₀ (one_lt_two : (1 : ℚ) < 2)).1 (h.least_le.trans_lt hhigh)
    unfold minExponent
    omega
  rw [he, max_eq_right hleast]
  exact ⟨hlow, hhigh⟩

/-- No other exponent gives 53 bits. -/
theorem exponentOf_eq {num den : ℕ} {e : ℤ} (hden : 0 < den) (h : Normal (num / den))
    (hlow : (2 : ℚ) ^ (52 + e) ≤ num / den) (hhigh : (num / den : ℚ) < 2 ^ (53 + e)) :
    exponentOf num den = e := by
  obtain ⟨hlow', hhigh'⟩ := exponentOf_bounds hden h
  have hbelow := (zpow_lt_zpow_iff_right₀ (one_lt_two : (1 : ℚ) < 2)).1 (hlow'.trans_lt hhigh)
  have habove := (zpow_lt_zpow_iff_right₀ (one_lt_two : (1 : ℚ) < 2)).1 (hlow.trans_lt hhigh')
  omega

theorem exponentOf_lt_maxExponent {num den : ℕ} (hden : 0 < den) (h : Normal (num / den)) :
    exponentOf num den < maxExponent := by
  have hle := (exponentOf_bounds hden h).1.trans h.le_greatest
  have hexp := (zpow_le_zpow_iff_right₀ (one_lt_two : (1 : ℚ) < 2)).1 hle
  unfold maxExponent
  omega

theorem scaled_congr {num den num' den' : ℕ} (h : num * den' = num' * den) (e : ℤ) :
    (scaled num den e).1 * (scaled num' den' e).2 =
      (scaled num' den' e).1 * (scaled num den e).2 := by
  unfold scaled
  split
  · dsimp only
    rw [← Nat.mul_assoc, ← Nat.mul_assoc, h]
  · dsimp only
    rw [Nat.mul_right_comm, h, Nat.mul_right_comm]

/-- The double of a quotient does not depend on how the quotient is written. -/
theorem ofQuotient?_congr {num den num' den' : ℕ} (negative : Bool) (hden : 0 < den)
    (hden' : 0 < den') (hnormal : Normal (num / den)) (h : num * den' = num' * den) :
    ofQuotient? negative num den = ofQuotient? negative num' den' := by
  have hquotient : (num / den : ℚ) = num' / den' := by
    rw [div_eq_div_iff (Nat.cast_ne_zero.2 hden.ne') (Nat.cast_ne_zero.2 hden'.ne')]
    exact_mod_cast h
  have hnormal' : Normal (num' / den') := hquotient ▸ hnormal
  obtain ⟨hlow, hhigh⟩ := exponentOf_bounds hden' hnormal'
  have hexp : exponentOf num den = exponentOf num' den' :=
    exponentOf_eq hden hnormal (by rwa [hquotient]) (by rwa [hquotient])
  unfold ofQuotient?
  rw [if_neg hnormal.num_pos.ne', if_neg hnormal'.num_pos.ne', hexp]
  dsimp only
  rw [nearestEven_congr (scaled_den_pos num hden _) (scaled_den_pos num' hden' _)
    (scaled_congr h _)]

/-- The mantissa is off by half a unit at most, and there are 2^52 units or more. -/
theorem abs_nearestEven_scaled_sub_le {num den : ℕ} (hden : 0 < den) (h : Normal (num / den)) :
    |(nearestEven (scaled num den (exponentOf num den)).1
        (scaled num den (exponentOf num den)).2 : ℚ) * 2 ^ exponentOf num den - num / den| ≤
      num / den / 2 ^ 53 := by
  have hlow := (exponentOf_bounds hden h).1
  generalize exponentOf num den = e at *
  have hunit : (0 : ℚ) < 2 ^ e := by positivity
  have hhalf := abs_nearestEven_sub_le (scaled num den e).1 (scaled_den_pos num hden e)
  rw [scaled_div] at hhalf
  calc |(nearestEven (scaled num den e).1 (scaled num den e).2 : ℚ) * 2 ^ e - num / den|
      = |(nearestEven (scaled num den e).1 (scaled num den e).2 : ℚ) - num / den / 2 ^ e| *
          2 ^ e := by
        rw [← abs_of_pos hunit, ← abs_mul, abs_of_pos hunit, sub_mul,
          div_mul_cancel₀ _ hunit.ne']
    _ ≤ 1 / 2 * 2 ^ e := by gcongr
    _ = 2 ^ (52 + e) / 2 ^ 53 := by
        rw [zpow_add₀ two_ne_zero]
        norm_num
        ring
    _ ≤ num / den / 2 ^ 53 := by gcongr

/-- Zero and every quotient in the middle of the range have a double, with a relative error of
at most 2^-53. -/
theorem exists_ofQuotient? {num den : ℕ} (negative : Bool) (hden : 0 < den)
    (h : num ≠ 0 → Normal (num / den)) :
    ∃ x, ofQuotient? negative num den = some x ∧
      |x.magnitude - num / den| ≤ num / den / 2 ^ 53 := by
  unfold ofQuotient?
  by_cases hzero : num = 0
  · rw [if_pos hzero]
    refine ⟨_, rfl, ?_⟩
    simp [magnitude, hzero]
  · have herror := abs_nearestEven_scaled_sub_le hden (h hzero)
    have hexp := exponentOf_lt_maxExponent hden (h hzero)
    rw [if_neg hzero]
    dsimp only
    generalize exponentOf num den = e at *
    generalize nearestEven (scaled num den e).1 (scaled num den e).2 = m at *
    by_cases hcarry : m = 2 * leastNormal
    · rw [if_pos hcarry]
      dsimp only
      rw [if_neg (by omega)]
      refine ⟨_, rfl, ?_⟩
      have hsame : (leastNormal : ℚ) * 2 ^ (e + 1) = m * 2 ^ e := by
        rw [hcarry, zpow_add₀ two_ne_zero]
        push_cast
        ring
      unfold magnitude
      rwa [hsame]
    · rw [if_neg hcarry]
      dsimp only
      rw [if_neg (by omega)]
      exact ⟨_, rfl, herror⟩

end ContentProjection.Binary64
