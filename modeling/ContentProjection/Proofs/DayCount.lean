import ContentProjection.Calendar
import Mathlib.Algebra.Order.BigOperators.Group.Finset
import Mathlib.Algebra.Order.BigOperators.Group.LocallyFinite
import Mathlib.Tactic.IntervalCases

/-!
# Days counted in years and months

The days between the start of 1970 and a date are counted here as a calendar shows them:
the days of the years in between, those of the months before, the days of the month. The
date of a day number is found by eras and March years instead. Both agree on every day
number, negative ones too, and different dates of the calendar have different numbers, so
that the date found is the only one with its number.
-/
namespace ContentProjection.Calendar

/-- Every fourth year has a leap day, but of the years that end a century only every fourth. -/
def IsLeap (year : Int) : Prop := year % 4 = 0 ∧ (year % 100 ≠ 0 ∨ year % 400 = 0)

instance (year : Int) : Decidable (IsLeap year) := inferInstanceAs (Decidable (_ ∧ _))

def daysInYear (year : Int) : Int := if IsLeap year then 366 else 365

def daysInMonth (year : Int) (month : Nat) : Nat :=
  if month = 2 then if IsLeap year then 29 else 28
  else if month = 4 ∨ month = 6 ∨ month = 9 ∨ month = 11 then 30 else 31

/-- The days from the start of 1970 to the start of a year, negative before 1970. -/
def daysToYear (year : Int) : Int :=
  ((List.range (year - 1970).toNat).map fun i : Nat => daysInYear (1970 + i)).sum
    - ((List.range (1970 - year).toNat).map fun i : Nat => daysInYear (1969 - i)).sum

/-- The days of a year before a month. -/
def daysToMonth (year : Int) (month : Nat) : Nat :=
  ∑ m ∈ Finset.Ico 1 month, daysInMonth year m

namespace Date

/-- A date of the calendar. -/
structure Valid (d : Date) : Prop where
  one_le_month : 1 ≤ d.month
  month_le : d.month ≤ 12
  one_le_day : 1 ≤ d.day
  day_le : d.day ≤ daysInMonth d.year d.month

/-- The days from 1970-01-01 to a date. -/
def daysSince1970 (d : Date) : Int :=
  daysToYear d.year + daysToMonth d.year d.month + (d.day - 1)

end Date

theorem daysToYear_succ (year : Int) :
    daysToYear (year + 1) = daysToYear year + daysInYear year := by
  unfold daysToYear
  rcases lt_or_ge year 1970 with hbefore | hafter
  · obtain ⟨n, hn⟩ := Int.eq_ofNat_of_zero_le (by omega : 0 ≤ 1969 - year)
    have hnone : (year + 1 - 1970).toNat = 0 := by omega
    have hnone' : (year - 1970).toNat = 0 := by omega
    have hless : (1970 - (year + 1)).toNat = n := by omega
    have hmore : (1970 - year).toNat = n + 1 := by omega
    have hlast : 1969 - (n : Int) = year := by omega
    rw [hnone, hnone', hless, hmore, List.range_succ]
    simp only [List.map_append, List.map_cons, List.map_nil, List.sum_append, List.sum_cons,
      List.sum_nil, hlast]
    omega
  · obtain ⟨n, hn⟩ := Int.eq_ofNat_of_zero_le (by omega : 0 ≤ year - 1970)
    have hnone : (1970 - (year + 1)).toNat = 0 := by omega
    have hnone' : (1970 - year).toNat = 0 := by omega
    have hless : (year - 1970).toNat = n := by omega
    have hmore : (year + 1 - 1970).toNat = n + 1 := by omega
    have hlast : 1970 + (n : Int) = year := by omega
    rw [hnone, hnone', hless, hmore, List.range_succ]
    simp only [List.map_append, List.map_cons, List.map_nil, List.sum_append, List.sum_cons,
      List.sum_nil, hlast]
    omega

theorem daysInYear_eq (year : Int) : daysInYear year =
    365 + (year / 4 - (year - 1) / 4) - (year / 100 - (year - 1) / 100)
      + (year / 400 - (year - 1) / 400) := by
  unfold daysInYear
  by_cases h : IsLeap year
  · rw [if_pos h]
    unfold IsLeap at h
    omega
  · rw [if_neg h]
    unfold IsLeap at h
    omega

/-- The leap days are those of every fourth year, less those of every hundredth, and those of
every four hundredth again. -/
theorem daysToYear_eq (year : Int) :
    daysToYear year =
      365 * (year - 1970) + (year - 1) / 4 - (year - 1) / 100 + (year - 1) / 400 - 477 := by
  induction year using Int.inductionOn' with
  | b => exact 1970
  | zero => decide
  | succ y _ ih =>
    rw [daysToYear_succ, ih, daysInYear_eq]
    omega
  | pred y _ ih =>
    have hsucc := daysToYear_succ (y - 1)
    rw [Int.sub_add_cancel, ih, daysInYear_eq] at hsucc
    omega

theorem daysToYear_le {year year' : Int} (h : year ≤ year') :
    daysToYear year ≤ daysToYear year' := by
  rw [daysToYear_eq, daysToYear_eq]
  omega

/-- From March on, months come in a pattern of 153 days for five of them. -/
theorem daysToMonth_eq (year : Int) {month : Nat} (hone : 1 ≤ month) (hle : month ≤ 12) :
    daysToMonth year month =
      if month ≤ 2 then 31 * (month - 1)
      else (if IsLeap year then 60 else 59) + (153 * (month - 3) + 2) / 5 := by
  unfold daysToMonth daysInMonth
  by_cases hleap : IsLeap year <;> simp only [hleap, if_true, if_false] <;>
    interval_cases month <;> rfl

/-- The date so many days after the first of March of a year. -/
def dateInMarchYear (year : Int) (day : Nat) : Date :=
  let marchMonth := (5 * day + 2) / 153
  let month := if marchMonth < 10 then marchMonth + 3 else marchMonth - 9
  ⟨if month ≤ 2 then year + 1 else year, month, day - (153 * marchMonth + 2) / 5 + 1⟩

section MarchYear

variable {year : Int} {day : Nat}

/-- The leap day of a March year is its last day, and belongs to the next year. -/
theorem valid_dateInMarchYear (h : (day : Int) < daysInYear (year + 1)) :
    (dateInMarchYear year day).Valid := by
  unfold daysInYear at h
  have hmonth : (5 * day + 2) / 153 ≤ 11 := by split at h <;> omega
  have hday : 5 * day + 2 < 153 * ((5 * day + 2) / 153) + 153 := by omega
  unfold dateInMarchYear
  generalize (5 * day + 2) / 153 = marchMonth at hmonth hday ⊢
  constructor
  case one_le_month =>
    dsimp only
    split <;> omega
  case month_le =>
    dsimp only
    split <;> omega
  case one_le_day => exact Nat.le_add_left 1 _
  case day_le =>
    by_cases hleap : IsLeap (year + 1) <;> simp only [hleap, if_true, if_false] at h <;>
      interval_cases marchMonth <;> simp [daysInMonth, hleap] <;> omega

/-- A March year starts with the first of March, which comes 719468 days before 1970 in year 0. -/
theorem daysSince1970_dateInMarchYear (h : (day : Int) < daysInYear (year + 1)) :
    (dateInMarchYear year day).daysSince1970 =
      365 * year + year / 4 - year / 100 + year / 400 + day - 719468 := by
  have hvalid := valid_dateInMarchYear h
  have hstart := daysToYear_eq (year + 1)
  have hsucc := daysToYear_succ year
  unfold daysInYear at h hsucc
  have hmonth : (5 * day + 2) / 153 ≤ 11 := by split at h <;> omega
  have hday : 153 * ((5 * day + 2) / 153) ≤ 5 * day + 2 := by omega
  rw [Date.daysSince1970, daysToMonth_eq _ hvalid.one_le_month hvalid.month_le]
  unfold dateInMarchYear
  generalize (5 * day + 2) / 153 = marchMonth at hmonth hday ⊢
  by_cases hten : marchMonth < 10
  · have hlate : ¬ marchMonth + 3 ≤ 2 := by omega
    simp only [if_pos hten, if_neg hlate, Nat.add_sub_cancel]
    by_cases hleap : IsLeap year <;> simp only [hleap, if_true, if_false] at hsucc ⊢ <;> omega
  · have hlast : marchMonth = 10 ∨ marchMonth = 11 := by omega
    have hearly : marchMonth - 9 ≤ 2 := by omega
    simp only [if_neg hten, if_pos hearly]
    rcases hlast with rfl | rfl <;> omega

end MarchYear

/-- A day of an era of 400 years falls on a day of a year of a leap cycle of a century. -/
theorem exists_century_cycle_year {dayOfEra : Nat} (h : dayOfEra < 146097) :
    ∃ century cycle year day, century < 4 ∧ cycle < 25 ∧ year < 4 ∧
      dayOfEra = 36524 * century + 1461 * cycle + 365 * year + day ∧
      (day < 365 ∨ day = 365 ∧ year = 3 ∧ (cycle < 24 ∨ century = 3)) := by
  obtain ⟨century, rest, hcentury, hera, hrest⟩ : ∃ century rest, century < 4 ∧
      dayOfEra = 36524 * century + rest ∧ (rest < 36524 ∨ rest = 36524 ∧ century = 3) :=
    ⟨min 3 (dayOfEra / 36524), dayOfEra - 36524 * min 3 (dayOfEra / 36524), by omega, by omega,
      by omega⟩
  have hcycles := Nat.div_add_mod rest 1461
  have hcycle := Nat.mod_lt rest (by decide : 1461 > 0)
  generalize rest / 1461 = cycle at hcycles
  generalize rest % 1461 = dayOfCycle at hcycles hcycle
  obtain ⟨year, day, hyear, hday, hlast⟩ : ∃ year day, year < 4 ∧
      dayOfCycle = 365 * year + day ∧ (day < 365 ∨ day = 365 ∧ year = 3) :=
    ⟨min 3 (dayOfCycle / 365), dayOfCycle - 365 * min 3 (dayOfCycle / 365), by omega, by omega,
      by omega⟩
  exact ⟨century, cycle, year, day, hcentury, by omega, hyear, by omega, by omega⟩

/-- Without the leap days that are complete, years have 365 days each. -/
theorem yearOfEra_eq {dayOfEra century cycle year day : Nat} (hcentury : century < 4)
    (hcycle : cycle < 25) (hyear : year < 4)
    (hsum : dayOfEra = 36524 * century + 1461 * cycle + 365 * year + day)
    (hday : day < 365 ∨ day = 365 ∧ year = 3 ∧ (cycle < 24 ∨ century = 3)) :
    (dayOfEra - dayOfEra / 1460 + dayOfEra / 36524 - dayOfEra / 146096) / 365 =
      100 * century + 4 * cycle + year := by
  by_cases hlast : century = 3 ∧ cycle = 24 ∧ year = 3 ∧ day = 365
  · obtain ⟨rfl, rfl, rfl, rfl⟩ := hlast
    rw [hsum]
  · have hera : dayOfEra / 146096 = 0 := by omega
    have hcenturies : dayOfEra / 36524 = century := by omega
    have hcycles : dayOfEra / 1460 = 25 * century + cycle +
        if 1460 ≤ 24 * century + cycle + 365 * year + day then 1 else 0 := by
      split <;> omega
    rw [hcycles, hcenturies, hera]
    split <;> omega

/-- The last day of a leap cycle comes before the end of February of a leap year. -/
theorem lt_daysInYear {century cycle year day : Nat} (era : Int) (hcycle : cycle < 25)
    (hday : day < 365 ∨ day = 365 ∧ year = 3 ∧ (cycle < 24 ∨ century = 3)) :
    (day : Int) < daysInYear ((100 * century + 4 * cycle + year : Nat) + era * 400 + 1) := by
  have hleap : day = 365 → IsLeap ((100 * century + 4 * cycle + year : Nat) + era * 400 + 1) := by
    intro heq
    obtain ⟨hyear, hcycle' | hcentury⟩ : year = 3 ∧ (cycle < 24 ∨ century = 3) := by omega
    · have hmod : (((100 * century + 4 * cycle + year : Nat) : Int) + era * 400 + 1) % 100 =
          4 * cycle + 4 := by
        omega
      exact ⟨by omega, Or.inl (by omega)⟩
    · unfold IsLeap
      omega
  unfold daysInYear
  split
  · omega
  · next hcommon =>
    have hne : day ≠ 365 := fun heq => hcommon (hleap heq)
    omega

theorem dateOfDays_eq (n : Int) : ∃ (year : Int) (day : Nat),
    dateOfDays n = dateInMarchYear year day ∧ (day : Int) < daysInYear (year + 1) ∧
    n = 365 * year + year / 4 - year / 100 + year / 400 + day - 719468 := by
  have hn := Int.mul_ediv_add_emod (n + 719468) 146097
  have hnonneg := Int.emod_nonneg (n + 719468) (by decide : (146097 : Int) ≠ 0)
  have hlt := Int.emod_lt_of_pos (n + 719468) (by decide : (0 : Int) < 146097)
  obtain ⟨dayOfEra, hdayOfEra⟩ := Int.eq_ofNat_of_zero_le hnonneg
  rw [hdayOfEra] at hn hlt
  obtain ⟨century, cycle, year, day, hcentury, hcycle, hyear, hsum, hday⟩ :=
    exists_century_cycle_year (Int.ofNat_lt.1 hlt)
  have hquarter : (100 * century + 4 * cycle + year) / 4 = 25 * century + cycle := by omega
  have hhundredth : (100 * century + 4 * cycle + year) / 100 = century := by omega
  have hdayOfYear : dayOfEra - (365 * (100 * century + 4 * cycle + year)
      + (100 * century + 4 * cycle + year) / 4 - (100 * century + 4 * cycle + year) / 100) =
      day := by
    omega
  refine ⟨(100 * century + 4 * cycle + year : Nat) + (n + 719468) / 146097 * 400, day, ?_,
    lt_daysInYear _ hcycle hday, ?_⟩
  case refine_1 =>
    unfold dateOfDays dateInMarchYear
    dsimp only
    rw [hdayOfEra, Int.toNat_natCast, yearOfEra_eq hcentury hcycle hyear hsum hday, hdayOfYear]
  case refine_2 =>
    generalize (n + 719468) / 146097 = era at hn ⊢
    omega

/-- The date of a day number is a date of the calendar with that number. -/
theorem valid_dateOfDays (n : Int) : (dateOfDays n).Valid := by
  obtain ⟨year, day, hdate, hday, -⟩ := dateOfDays_eq n
  rw [hdate]
  exact valid_dateInMarchYear hday

theorem daysSince1970_dateOfDays (n : Int) : (dateOfDays n).daysSince1970 = n := by
  obtain ⟨year, day, hdate, hday, hn⟩ := dateOfDays_eq n
  rw [hdate, daysSince1970_dateInMarchYear hday, ← hn]

theorem daysToMonth_add_le (year : Int) {month month' : Nat} (hone : 1 ≤ month)
    (h : month < month') :
    daysToMonth year month + daysInMonth year month ≤ daysToMonth year month' := by
  unfold daysToMonth
  rw [Finset.sum_Ico_add_eq_sum_Ico_add_one hone]
  exact Finset.sum_le_sum_of_subset (Finset.Ico_subset_Ico_right h)

theorem daysToMonth_thirteen (year : Int) : (daysToMonth year 13 : Int) = daysInYear year := by
  unfold daysToMonth daysInMonth daysInYear
  by_cases h : IsLeap year <;> simp only [h, if_true, if_false] <;> rfl

namespace Date

variable {d d' : Date}

/-- Dates are in the order of their years, whatever their months and days. -/
theorem Valid.daysSince1970_lt_of_year_lt (h : d.Valid) (h' : d'.Valid) (hyear : d.year < d'.year) :
    d.daysSince1970 < d'.daysSince1970 := by
  have hlast : d.month < 13 := Nat.lt_succ_of_le h.month_le
  have hmonths := daysToMonth_add_le d.year h.one_le_month hlast
  have htotal := daysToMonth_thirteen d.year
  have hnext : daysToYear (d.year + 1) ≤ daysToYear d'.year := daysToYear_le hyear
  have hday := h.day_le
  have hday' := h'.one_le_day
  rw [daysToYear_succ] at hnext
  unfold daysSince1970
  omega

theorem Valid.daysSince1970_lt_of_month_lt (h : d.Valid) (h' : d'.Valid)
    (hyear : d.year = d'.year) (hmonth : d.month < d'.month) :
    d.daysSince1970 < d'.daysSince1970 := by
  have hmonths := daysToMonth_add_le d.year h.one_le_month hmonth
  have hday := h.day_le
  have hday' := h'.one_le_day
  unfold daysSince1970
  rw [← hyear]
  omega

/-- No two dates of the calendar have the same day number. -/
theorem Valid.eq_of_daysSince1970_eq (h : d.Valid) (h' : d'.Valid)
    (heq : d.daysSince1970 = d'.daysSince1970) : d = d' := by
  have hyear : d.year = d'.year := by
    rcases lt_trichotomy d.year d'.year with hlt | hyear | hgt
    · exact absurd heq (h.daysSince1970_lt_of_year_lt h' hlt).ne
    · exact hyear
    · exact absurd heq (h'.daysSince1970_lt_of_year_lt h hgt).ne'
  have hmonth : d.month = d'.month := by
    rcases lt_trichotomy d.month d'.month with hlt | hmonth | hgt
    · exact absurd heq (h.daysSince1970_lt_of_month_lt h' hyear hlt).ne
    · exact hmonth
    · exact absurd heq (h'.daysSince1970_lt_of_month_lt h hyear.symm hgt).ne'
  have hday : d.day = d'.day := by
    unfold daysSince1970 at heq
    rw [hyear, hmonth] at heq
    omega
  obtain ⟨year, month, day⟩ := d
  obtain ⟨year', month', day'⟩ := d'
  cases hyear
  cases hmonth
  cases hday
  rfl

end Date

theorem dateOfDays_daysSince1970 {d : Date} (h : d.Valid) : dateOfDays d.daysSince1970 = d :=
  (valid_dateOfDays _).eq_of_daysSince1970_eq h (daysSince1970_dateOfDays _)

end ContentProjection.Calendar
