import ContentProjection.Proofs.Rounding

/-!
# Where doubles end

A number from half a unit past the largest double on has no double, a smaller one has. Only at
the largest exponent can rounding decide: below it the carry of a mantissa stays in the range,
above it nothing does. What is rounded is encoded as a finite number.
-/
namespace ContentProjection.Binary64

/-- The number half a unit past the largest double. Rounded to even it is past it. -/
def overflow : ℚ := 2 ^ (1024 : ℤ) - 2 ^ (970 : ℤ)

theorem overflow_eq : overflow = (2 ^ 53 - 1 / 2) * 2 ^ (971 : ℤ) := by
  have htwo : (2 : ℚ) ≠ 0 := two_ne_zero
  have htop : (2 : ℚ) ^ (1024 : ℤ) = 2 ^ (53 : ℤ) * 2 ^ (971 : ℤ) := zpow_add₀ htwo 53 971
  have hhalf : (2 : ℚ) ^ (970 : ℤ) = 2 ^ (971 : ℤ) * 2⁻¹ := zpow_sub_one₀ htwo 971
  rw [overflow, htop, hhalf]
  generalize (2 : ℚ) ^ (971 : ℤ) = unit
  norm_num
  ring

theorem zpow_lt_overflow : (2 : ℚ) ^ (1023 : ℤ) < overflow := by
  have htwo : (2 : ℚ) ≠ 0 := two_ne_zero
  have hpower : (2 : ℚ) ^ (1023 : ℤ) = 2 ^ (52 : ℤ) * 2 ^ (971 : ℤ) := zpow_add₀ htwo 52 971
  rw [overflow_eq, hpower]
  gcongr
  norm_num

theorem overflow_lt_zpow : overflow < 2 ^ (1024 : ℤ) := sub_lt_self _ (by positivity)

theorem overflow_pos : 0 < overflow := lt_trans (by positivity) zpow_lt_overflow

theorem isFinite_of_bounds {x : Binary64} (hm : x.mantissa < 2 * leastNormal)
    (he : x.exponent ≤ maxExponent) : x.IsFinite := by
  unfold IsFinite bits
  unfold leastNormal signPlace maxExponent at *
  dsimp only
  split_ifs <;> omega

theorem isFinite_zero (negative : Bool) : IsFinite ⟨negative, 0, minExponent⟩ := by
  cases negative <;> decide

theorem nearestEven_le {num den bound : ℕ} (hden : 0 < den) (h : num < bound * den) :
    nearestEven num den ≤ bound := by
  have hdiv : num / den < bound := (Nat.div_lt_iff_lt_mul hden).2 h
  unfold nearestEven
  dsimp only
  split_ifs <;> omega

/-- A quotient below an even number is rounded to it from half a unit below on. -/
theorem nearestEven_eq_iff {num den bound : ℕ} (hden : 0 < den) (heven : 2 ∣ bound)
    (h : num < bound * den) : nearestEven num den = bound ↔ 2 * (bound * den) ≤ 2 * num + den := by
  constructor
  · intro heq
    have hbounds := (two_mul_nearestEven_bounds num hden).2
    rwa [heq] at hbounds
  · intro hle
    have hdiv := Nat.div_add_mod num den
    have hrest := Nat.mod_lt num hden
    have hlt : num / den < bound := (Nat.div_lt_iff_lt_mul hden).2 h
    have hwhole : num / den + 1 = bound := by
      by_contra hne
      have hfar : (num / den + 2) * den ≤ bound * den := Nat.mul_le_mul_right den (by omega)
      rw [Nat.add_mul, Nat.mul_comm (num / den)] at hfar
      omega
    rw [← hwhole, Nat.add_mul, Nat.mul_comm (num / den)] at hle
    unfold nearestEven
    dsimp only
    split_ifs <;> omega

section Quotient

variable {num den : ℕ} (hnum : 0 < num) (hden : 0 < den)
include hnum hden

theorem lt_zpow_exponentOf : (num / den : ℚ) < 2 ^ (53 + exponentOf num den) := by
  obtain ⟨e, he, -, hhigh⟩ := exists_exponentOf_eq_max hnum hden
  rw [he]
  exact hhigh.trans_le (zpow_le_zpow_right₀ one_le_two (by omega))

theorem zpow_exponentOf_le (h : minExponent < exponentOf num den) :
    (2 : ℚ) ^ (52 + exponentOf num den) ≤ num / den := by
  obtain ⟨e, he, hlow, -⟩ := exists_exponentOf_eq_max hnum hden
  rw [he] at h ⊢
  rwa [max_eq_right (by omega)]

theorem scaled_lt : (scaled num den (exponentOf num den)).1 <
    2 * leastNormal * (scaled num den (exponentOf num den)).2 := by
  have hhigh := lt_zpow_exponentOf hnum hden
  have hscaled := scaled_div num den (exponentOf num den)
  have hpos : (0 : ℚ) < (scaled num den (exponentOf num den)).2 :=
    Nat.cast_pos.2 (scaled_den_pos num hden _)
  rw [zpow_add₀ two_ne_zero, ← div_lt_iff₀ (by positivity), ← hscaled, div_lt_iff₀ hpos] at hhigh
  unfold leastNormal
  exact_mod_cast hhigh

/-- The mantissa is carried from half a unit below the next power of two on. -/
theorem carries_iff : nearestEven (scaled num den (exponentOf num den)).1
      (scaled num den (exponentOf num den)).2 = 2 * leastNormal ↔
    (2 ^ 53 - 1 / 2 : ℚ) * 2 ^ exponentOf num den ≤ num / den := by
  have hscaled := scaled_div num den (exponentOf num den)
  have hlt := scaled_lt hnum hden
  have hden' := scaled_den_pos num hden (exponentOf num den)
  rw [nearestEven_eq_iff hden' (Nat.dvd_mul_right 2 leastNormal) hlt]
  generalize scaled num den (exponentOf num den) = pair at *
  have hpos : (0 : ℚ) < pair.2 := Nat.cast_pos.2 hden'
  have hunit : (0 : ℚ) < 2 ^ exponentOf num den := by positivity
  rw [← le_div_iff₀ hunit, ← hscaled, le_div_iff₀ hpos]
  unfold leastNormal
  rw [← Nat.cast_le (α := ℚ)]
  push_cast
  constructor <;> intro h <;> linarith

end Quotient

theorem ofQuotient?_eq (negative : Bool) {num : ℕ} (hnum : 0 < num) (den : ℕ) :
    ofQuotient? negative num den =
      let e := exponentOf num den
      let m := nearestEven (scaled num den e).1 (scaled num den e).2
      if m = 2 * leastNormal then
        if maxExponent < e + 1 then none else some ⟨negative, leastNormal, e + 1⟩
      else if maxExponent < e then none else some ⟨negative, m, e⟩ := by
  unfold ofQuotient?
  rw [if_neg hnum.ne']
  dsimp only
  split_ifs <;> rfl

/-- A quotient has no double from half a unit past the largest one on. -/
theorem ofQuotient?_eq_none_iff (negative : Bool) (num : ℕ) {den : ℕ} (hden : 0 < den) :
    ofQuotient? negative num den = none ↔ overflow ≤ num / den := by
  rcases Nat.eq_zero_or_pos num with rfl | hnum
  · rw [ofQuotient?, if_pos rfl, Nat.cast_zero, zero_div]
    exact iff_of_false (by simp) overflow_pos.not_ge
  have hcarries := carries_iff hnum hden
  have hhigh := lt_zpow_exponentOf hnum hden
  have hlow := zpow_exponentOf_le hnum hden
  rw [ofQuotient?_eq negative hnum]
  dsimp only
  generalize exponentOf num den = e at *
  generalize nearestEven (scaled num den e).1 (scaled num den e).2 = m at *
  rw [maxExponent]
  rcases lt_trichotomy e 971 with hbelow | rfl | habove
  case inl =>
    have hsmall : (num / den : ℚ) < overflow :=
      hhigh.trans_le ((zpow_le_zpow_right₀ one_le_two (by omega)).trans zpow_lt_overflow.le)
    rw [if_neg (by omega : ¬ 971 < e + 1), if_neg (by omega : ¬ 971 < e)]
    exact iff_of_false (by split_ifs <;> simp) hsmall.not_ge
  case inr.inl =>
    rw [overflow_eq, ← hcarries]
    by_cases hm : m = 2 * leastNormal <;> simp [hm]
  case inr.inr =>
    have hleast : minExponent < e := lt_trans (by decide) habove
    have hlarge : overflow ≤ num / den :=
      overflow_lt_zpow.le.trans ((zpow_le_zpow_right₀ one_le_two (by omega)).trans (hlow hleast))
    rw [if_pos (by omega : 971 < e + 1), if_pos habove]
    exact iff_of_true (by split_ifs <;> rfl) hlarge

theorem isFinite_of_ofQuotient? {negative : Bool} {num den : ℕ} (hden : 0 < den) {x : Binary64}
    (h : ofQuotient? negative num den = some x) : x.IsFinite := by
  rcases Nat.eq_zero_or_pos num with rfl | hnum
  · rw [ofQuotient?, if_pos rfl] at h
    cases h
    exact isFinite_zero negative
  have hmantissa := nearestEven_le (scaled_den_pos num hden _) (scaled_lt hnum hden)
  rw [ofQuotient?_eq negative hnum] at h
  dsimp only at h
  split_ifs at h with hcarry hexp hexp
  · cases h
    exact isFinite_of_bounds (show leastNormal < 2 * leastNormal by decide) (not_lt.1 hexp)
  · cases h
    exact isFinite_of_bounds (lt_of_le_of_ne hmantissa hcarry) (not_lt.1 hexp)

/-- The number of digits tells a number up to a factor of ten. -/
theorem zpow_length_toDigits_bounds {n : ℕ} (h : 0 < n) :
    (10 : ℚ) ^ ((Nat.toDigits 10 n).length - 1 : ℤ) ≤ n ∧
      (n : ℚ) < 10 ^ ((Nat.toDigits 10 n).length : ℤ) := by
  have hlength : 0 < (Nat.toDigits 10 n).length := Nat.length_toDigits_pos
  obtain ⟨k, hk⟩ := Nat.exists_eq_succ_of_ne_zero hlength.ne'
  rw [hk]
  have hiff {j : ℕ} (hj : 0 < j) := Nat.length_toDigits_le_iff (n := n) (by decide : 1 < 10) hj
  constructor
  · have hle : 10 ^ k ≤ n := by
      rcases Nat.eq_zero_or_pos k with rfl | hpos
      · exact h
      · exact Nat.le_of_not_lt fun hlt => absurd ((hiff hpos).2 hlt) (by omega)
    rw [Nat.cast_succ, add_sub_cancel_right, zpow_natCast]
    exact_mod_cast hle
  · have hlt : n < 10 ^ (k + 1) := (hiff (Nat.succ_pos k)).1 hk.le
    rw [zpow_natCast]
    exact_mod_cast hlt

theorem zpow_two_le_zpow_ten : (2 : ℚ) ^ (1024 : ℤ) ≤ 10 ^ (310 : ℤ) := by
  have hnat : 2 ^ 1024 ≤ 10 ^ 310 := by decide +kernel
  exact_mod_cast hnat

theorem ofDecimal?_eq (negative : Bool) {digits : ℕ} (h : 0 < digits) (exponent : ℤ)
    (hhigh : ((Nat.toDigits 10 digits).length : ℤ) + exponent ≤ 310)
    (hlow : -330 ≤ ((Nat.toDigits 10 digits).length : ℤ) + exponent) :
    ∃ num den : ℕ, 0 < den ∧ (num / den : ℚ) = digits * 10 ^ exponent ∧
      ofDecimal? negative digits exponent = ofQuotient? negative num den := by
  unfold ofDecimal?
  rw [if_neg h.ne']
  dsimp only
  rw [if_neg (by omega), if_neg (by omega)]
  split
  · next hpos =>
    obtain ⟨k, rfl⟩ := Int.eq_ofNat_of_zero_le hpos
    refine ⟨_, 1, one_pos, ?_, rfl⟩
    rw [Int.toNat_natCast, Nat.pow_eq, zpow_natCast, Nat.cast_one, div_one]
    push_cast
    rfl
  · next hneg =>
    obtain ⟨k, hk⟩ := Int.eq_ofNat_of_zero_le (by omega : 0 ≤ -exponent)
    obtain rfl : exponent = -(k : ℤ) := by omega
    refine ⟨_, _, Nat.pow_pos (by decide), ?_, rfl⟩
    rw [neg_neg, Int.toNat_natCast, zpow_neg, zpow_natCast, ← div_eq_mul_inv]
    push_cast
    rfl

/-- A decimal has no double from half a unit past the largest one on. -/
theorem ofDecimal?_eq_none_iff (negative : Bool) (digits : ℕ) (exponent : ℤ) :
    ofDecimal? negative digits exponent = none ↔ overflow ≤ digits * 10 ^ exponent := by
  rcases Nat.eq_zero_or_pos digits with rfl | hpos
  · rw [ofDecimal?, if_pos rfl, Nat.cast_zero, zero_mul]
    exact iff_of_false (by simp) overflow_pos.not_ge
  obtain ⟨hleast, hgreatest⟩ := zpow_length_toDigits_bounds hpos
  by_cases hhigh : 310 < ((Nat.toDigits 10 digits).length : ℤ) + exponent
  · have hlarge : overflow ≤ digits * 10 ^ exponent := by
      calc overflow ≤ 2 ^ (1024 : ℤ) := overflow_lt_zpow.le
        _ ≤ 10 ^ (310 : ℤ) := zpow_two_le_zpow_ten
        _ ≤ 10 ^ ((Nat.toDigits 10 digits).length - 1 + exponent : ℤ) :=
          zpow_le_zpow_right₀ (by norm_num) (by omega)
        _ = 10 ^ ((Nat.toDigits 10 digits).length - 1 : ℤ) * 10 ^ exponent :=
          zpow_add₀ (by norm_num) _ _
        _ ≤ digits * 10 ^ exponent := by gcongr
    rw [ofDecimal?, if_neg hpos.ne']
    dsimp only
    rw [if_pos hhigh]
    exact iff_of_true rfl hlarge
  by_cases hlow : ((Nat.toDigits 10 digits).length : ℤ) + exponent < -330
  · have hsmall : digits * 10 ^ exponent < overflow := by
      calc (digits * 10 ^ exponent : ℚ)
          < 10 ^ ((Nat.toDigits 10 digits).length : ℤ) * 10 ^ exponent := by gcongr
        _ = 10 ^ ((Nat.toDigits 10 digits).length + exponent : ℤ) :=
          (zpow_add₀ (by norm_num) _ _).symm
        _ ≤ 1 := zpow_le_one_of_nonpos₀ (by norm_num) (by omega)
        _ ≤ 2 ^ (1023 : ℤ) := one_le_zpow₀ one_le_two (by norm_num)
        _ ≤ overflow := zpow_lt_overflow.le
    rw [ofDecimal?, if_neg hpos.ne']
    dsimp only
    rw [if_neg hhigh, if_pos hlow]
    exact iff_of_false (by simp) hsmall.not_ge
  obtain ⟨num, den, hden, hvalue, hquotient⟩ :=
    ofDecimal?_eq negative hpos exponent (not_lt.1 hhigh) (not_lt.1 hlow)
  rw [hquotient, ofQuotient?_eq_none_iff negative num hden, hvalue]

theorem isFinite_of_ofDecimal? {negative : Bool} {digits : ℕ} {exponent : ℤ} {x : Binary64}
    (h : ofDecimal? negative digits exponent = some x) : x.IsFinite := by
  unfold ofDecimal? at h
  dsimp only at h
  split_ifs at h
  · cases h
    exact isFinite_zero negative
  · cases h
    exact isFinite_zero negative
  · exact isFinite_of_ofQuotient? one_pos h
  · exact isFinite_of_ofQuotient? (Nat.pow_pos (by decide)) h

end ContentProjection.Binary64
