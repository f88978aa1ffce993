import ContentProjection.Proofs.DayCount
import ContentProjection.Proofs.Numerals

/-!
# Dates shown without loss

A shown date is a date of the calendar, a time of day and an offset, one after the other.
All parts but the year have two digits, so that the text can be read from its end and has
one reading only; the year may be longer and have a sign, and is read as what is left. The
local time read stands for one timestamp, which is the one that was stored. Nothing is
shown for texts that are no timestamp in range.
-/
namespace ContentProjection.Calendar

open Text.Numeral

/-- A date and a time of day, to the second. -/
structure LocalTime where
  date : Date
  hour : Nat
  minute : Nat
  second : Nat
  deriving DecidableEq, Repr

namespace LocalTime

structure Valid (l : LocalTime) : Prop where
  date : l.date.Valid
  hour_lt : l.hour < 24
  minute_lt : l.minute < 60
  second_lt : l.second < 60

/-- The seconds from the start of 1970 in UTC to a local time at an offset. -/
def timestamp (l : LocalTime) (offset : Offset) : Int :=
  l.date.daysSince1970 * 86400 + (3600 * l.hour + 60 * l.minute + l.second)
    - 60 * offset.minutes

/-- What is shown of a local time after its year. -/
def charsAfterYear (l : LocalTime) (offset : Offset) : List Char :=
  '-' :: (padded 2 l.date.month ++ '-' :: (padded 2 l.date.day ++
    'T' :: (padded 2 l.hour ++ ':' :: (padded 2 l.minute ++ ':' :: (padded 2 l.second ++
      offsetText offset)))))

/-- Date, time and offset, in the order in which they are shown. -/
def chars (l : LocalTime) (offset : Offset) : List Char :=
  yearText l.date.year ++ l.charsAfterYear offset

/-- The local time at an offset when a timestamp is reached. -/
def ofTimestamp (offset : Offset) (timestamp : Int) : LocalTime :=
  let seconds := timestamp + 60 * offset.minutes
  let second := (seconds % 86400).toNat
  ⟨dateOfDays (seconds / 86400), second / 3600, second / 60 % 60, second % 60⟩

variable {l : LocalTime} {offset : Offset}

theorem valid_ofTimestamp (offset : Offset) (t : Int) : (ofTimestamp offset t).Valid := by
  refine ⟨valid_dateOfDays _, ?_, ?_, ?_⟩
  all_goals
    unfold ofTimestamp
    dsimp only
    omega

theorem timestamp_ofTimestamp (offset : Offset) (t : Int) :
    (ofTimestamp offset t).timestamp offset = t := by
  unfold timestamp ofTimestamp
  dsimp only
  rw [daysSince1970_dateOfDays]
  omega

/-- A local time is the only one with its timestamp. -/
theorem Valid.eq_ofTimestamp (h : l.Valid) : l = ofTimestamp offset (l.timestamp offset) := by
  obtain ⟨date, hour, minute, second⟩ := l
  have hhour : hour < 24 := h.hour_lt
  have hminute : minute < 60 := h.minute_lt
  have hsecond : second < 60 := h.second_lt
  have hseconds : timestamp ⟨date, hour, minute, second⟩ offset + 60 * offset.minutes =
      date.daysSince1970 * 86400 + (3600 * hour + 60 * minute + second : Nat) := by
    unfold timestamp
    push_cast
    omega
  have hdays : (timestamp ⟨date, hour, minute, second⟩ offset + 60 * offset.minutes) / 86400 =
      date.daysSince1970 := by
    omega
  have hday : ((timestamp ⟨date, hour, minute, second⟩ offset + 60 * offset.minutes) % 86400).toNat
      = 3600 * hour + 60 * minute + second := by
    omega
  unfold ofTimestamp
  dsimp only
  rw [hdays, hday, dateOfDays_daysSince1970 h.date]
  congr 1 <;> omega

end LocalTime

theorem writes_padded (width n : Nat) : Writes n (padded width n) :=
  ⟨width - (Nat.toDigits 10 n).length, rfl⟩

theorem length_padded_two {n : Nat} (h : n < 100) : (padded 2 n).length = 2 := by
  have hle : (Nat.toDigits 10 n).length ≤ 2 :=
    (Nat.length_toDigits_le_iff (by decide) (by decide)).2 h
  unfold padded
  rw [List.length_append, List.length_replicate]
  omega

/-- Two digits and what comes after them. -/
theorem padded_two_append_inj {n n' : Nat} {rest rest' : List Char} (h : n < 100) (h' : n' < 100)
    (heq : padded 2 n ++ rest = padded 2 n' ++ rest') : n = n' ∧ rest = rest' := by
  obtain ⟨hdigits, hrest⟩ :=
    List.append_inj heq ((length_padded_two h).trans (length_padded_two h').symm)
  refine ⟨?_, hrest⟩
  rw [← (writes_padded 2 n).value_eq, hdigits, (writes_padded 2 n').value_eq]

theorem writesInt_yearText (year : Int) : WritesInt year (yearText year) := by
  have hdigits := writes_padded 4 year.natAbs
  unfold yearText
  by_cases hplain : 0 ≤ year ∧ year ≤ 9999
  · have hbare := WritesInt.bare hdigits
    rw [Int.natAbs_of_nonneg hplain.1] at hbare
    rwa [if_pos hplain]
  · rw [if_neg hplain]
    by_cases hneg : year < 0
    · have hminus := WritesInt.minus hdigits
      rw [Int.ofNat_natAbs_of_nonpos hneg.le, Int.neg_neg] at hminus
      rwa [if_pos hneg]
    · have hplus := WritesInt.plus hdigits
      rw [Int.natAbs_of_nonneg (not_lt.1 hneg)] at hplus
      rwa [if_neg hneg]

theorem yearText_inj {year year' : Int} (h : yearText year = yearText year') : year = year' := by
  have hread := signed?_eq_some_iff.2 (writesInt_yearText year)
  rw [h, signed?_eq_some_iff.2 (writesInt_yearText year')] at hread
  exact (Option.some.inj hread).symm

theorem Offset.ext {offset offset' : Offset} (h : offset.minutes = offset'.minutes) :
    offset = offset' := by
  cases offset
  cases offset'
  cases h
  rfl

theorem offsetText_inj {offset offset' : Offset} (h : offsetText offset = offsetText offset') :
    offset = offset' := by
  have hbounds := offset.bounded
  have hbounds' := offset'.bounded
  unfold offsetText at h
  obtain ⟨hsign, hfields⟩ := List.cons.inj h
  obtain ⟨hhours, hfields⟩ := padded_two_append_inj (by omega) (by omega) hfields
  rw [← List.append_nil (padded 2 (offset.minutes.natAbs % 60)),
    ← List.append_nil (padded 2 (offset'.minutes.natAbs % 60))] at hfields
  obtain ⟨hminutes, -⟩ := padded_two_append_inj (by omega) (by omega) hfields
  have habs : offset.minutes.natAbs = offset'.minutes.natAbs := by omega
  have hneg : offset.minutes < 0 ↔ offset'.minutes < 0 := by
    by_cases hlt : offset.minutes < 0 <;> by_cases hlt' : offset'.minutes < 0 <;>
      simp [hlt, hlt'] at hsign ⊢
  exact Offset.ext (by omega)

theorem length_offsetText (offset : Offset) : (offsetText offset).length = 5 := by
  have hbounds := offset.bounded
  unfold offsetText
  rw [List.length_cons, List.length_append, length_padded_two (by omega),
    length_padded_two (by omega)]

namespace LocalTime

variable {l l' : LocalTime} {offset offset' : Offset}

theorem Valid.fields_lt (h : l.Valid) : l.date.month < 100 ∧ l.date.day < 100 ∧ l.hour < 100 ∧
    l.minute < 100 ∧ l.second < 100 := by
  have hmonth := h.date.month_le
  have hday : l.date.day ≤ 31 := h.date.day_le.trans (by unfold daysInMonth; split_ifs <;> decide)
  have hhour := h.hour_lt
  have hminute := h.minute_lt
  have hsecond := h.second_lt
  omega

theorem Valid.length_charsAfterYear (h : l.Valid) (offset : Offset) :
    (l.charsAfterYear offset).length = 20 := by
  obtain ⟨hmonth, hday, hhour, hminute, hsecond⟩ := h.fields_lt
  simp only [charsAfterYear, List.length_cons, List.length_append, length_padded_two hmonth,
    length_padded_two hday, length_padded_two hhour, length_padded_two hminute,
    length_padded_two hsecond, length_offsetText]

/-- A shown local time has one reading. -/
theorem Valid.chars_inj (h : l.Valid) (h' : l'.Valid) (heq : l.chars offset = l'.chars offset') :
    l = l' ∧ offset = offset' := by
  have hlength := (h.length_charsAfterYear offset).trans (h'.length_charsAfterYear offset').symm
  obtain ⟨hmonth, hday, hhour, hminute, hsecond⟩ := h.fields_lt
  obtain ⟨hmonth', hday', hhour', hminute', hsecond'⟩ := h'.fields_lt
  obtain ⟨hyears, hrest⟩ := List.append_inj' heq hlength
  have hyear := yearText_inj hyears
  obtain ⟨hmonths, hrest⟩ := padded_two_append_inj hmonth hmonth' (List.cons.inj hrest).2
  obtain ⟨hdays, hrest⟩ := padded_two_append_inj hday hday' (List.cons.inj hrest).2
  obtain ⟨hhours, hrest⟩ := padded_two_append_inj hhour hhour' (List.cons.inj hrest).2
  obtain ⟨hminutes, hrest⟩ := padded_two_append_inj hminute hminute' (List.cons.inj hrest).2
  obtain ⟨hseconds, hrest⟩ := padded_two_append_inj hsecond hsecond' (List.cons.inj hrest).2
  refine ⟨?_, offsetText_inj hrest⟩
  obtain ⟨⟨year, month, day⟩, hour, minute, second⟩ := l
  obtain ⟨⟨year', month', day'⟩, hour', minute', second'⟩ := l'
  dsimp only at hyear hmonths hdays hhours hminutes hseconds
  rw [hyear, hmonths, hdays, hhours, hminutes, hseconds]

end LocalTime

/-- The text is a date of the calendar, a time of day and the offset, and it is the timestamp
when the clock at the offset shows it. -/
def Denotes (text : String) (offset : Offset) (t : Int) : Prop :=
  ∃ l : LocalTime, l.Valid ∧ text = String.ofList (l.chars offset) ∧ l.timestamp offset = t

theorem show?_eq (offset : Offset) (t : Int) : show? offset t =
    if firstTimestamp ≤ t ∧ t ≤ lastTimestamp then
      some (String.ofList ((LocalTime.ofTimestamp offset t).chars offset))
    else none := by
  simp [show?, LocalTime.chars, LocalTime.charsAfterYear, LocalTime.ofTimestamp, dateText, timeText]

theorem denotes_iff {text : String} {offset : Offset} {t : Int} :
    Denotes text offset t ↔
      text = String.ofList ((LocalTime.ofTimestamp offset t).chars offset) := by
  constructor
  · rintro ⟨l, hvalid, rfl, rfl⟩
    rw [← hvalid.eq_ofTimestamp]
  · intro h
    exact ⟨_, LocalTime.valid_ofTimestamp offset t, h, LocalTime.timestamp_ofTimestamp offset t⟩

theorem Denotes.unique {text : String} {offset offset' : Offset} {t t' : Int}
    (h : Denotes text offset t) (h' : Denotes text offset' t') : offset' = offset ∧ t' = t := by
  obtain ⟨l, hvalid, rfl, rfl⟩ := h
  obtain ⟨l', hvalid', htext, rfl⟩ := h'
  obtain ⟨rfl, rfl⟩ := hvalid.chars_inj hvalid' (String.ofList_injective htext)
  exact ⟨rfl, rfl⟩

theorem show?_eq_some_iff {offset : Offset} {t : Int} {text : String} :
    show? offset t = some text ↔
      (firstTimestamp ≤ t ∧ t ≤ lastTimestamp) ∧ Denotes text offset t := by
  rw [show?_eq, denotes_iff]
  split
  · next hrange => simp [hrange, eq_comm]
  · next hrange => simp [hrange]

/-- The text is a numeral of a timestamp that can be shown, blanks around it allowed. -/
def StandsFor (raw : String) (t : Int) : Prop :=
  WritesInt t (Text.trim raw.toList) ∧ -8334601228800 ≤ t ∧ t ≤ 8210266876799

theorem render?_eq_some_iff {offset : Offset} {raw text : String} :
    render? offset raw = some text ↔ ∃ t, StandsFor raw t ∧ Denotes text offset t := by
  rw [render?, Option.bind_eq_some_iff]
  constructor
  · rintro ⟨t, hread, hshow⟩
    obtain ⟨hrange, hdenotes⟩ := show?_eq_some_iff.1 hshow
    exact ⟨t, ⟨(int64?_eq_some_iff.1 hread).1, hrange⟩, hdenotes⟩
  · rintro ⟨t, ⟨hwrites, hrange⟩, hdenotes⟩
    have hword : IsWord t := by
      unfold IsWord minInt64 maxInt64
      omega
    exact ⟨t, int64?_eq_some_iff.2 ⟨hwrites, hword⟩, show?_eq_some_iff.2 ⟨hrange, hdenotes⟩⟩

/-- A date is shown exactly for the texts that stand for a timestamp in range. What is shown
denotes that timestamp at the offset, and nothing else denotes it or is denoted by it. -/
theorem dates_shown_without_loss (offset : Offset) (raw : String) :
    ((render? offset raw).isSome = true ↔ ∃ t, StandsFor raw t) ∧
    (∀ text, render? offset raw = some text ↔ ∃ t, StandsFor raw t ∧ Denotes text offset t) ∧
    ∀ text t, Denotes text offset t →
      ∀ offset' t', Denotes text offset' t' ↔ offset' = offset ∧ t' = t := by
  refine ⟨?_, fun text => render?_eq_some_iff, fun text t h offset' t' => ?_⟩
  · rw [Option.isSome_iff_exists]
    constructor
    · rintro ⟨text, htext⟩
      obtain ⟨t, ht, -⟩ := render?_eq_some_iff.1 htext
      exact ⟨t, ht⟩
    · rintro ⟨t, ht⟩
      exact ⟨_, render?_eq_some_iff.2 ⟨t, ht, denotes_iff.2 rfl⟩⟩
  · constructor
    · exact h.unique
    · rintro ⟨rfl, rfl⟩
      exact h

/-- The last minute before a day east of UTC. -/
def easternmost : Offset := ⟨1439, by decide⟩

/-- The last timestamp, on the next day and in the next year where it is shown. -/
theorem lastTimestamp_shown_without_loss :
    Denotes "+262143-01-01T23:58:59+2359" easternmost 8210266876799 ∧
    render? easternmost " +08210266876799\n" = some "+262143-01-01T23:58:59+2359" ∧
    ∀ offset t, Denotes "+262143-01-01T23:58:59+2359" offset t ↔
      offset = easternmost ∧ t = 8210266876799 := by
  have hdenotes : Denotes "+262143-01-01T23:58:59+2359" easternmost 8210266876799 :=
    denotes_iff.2 (by decide +kernel)
  exact ⟨hdenotes, by decide +kernel,
    (dates_shown_without_loss easternmost "").2.2 _ _ hdenotes⟩

end ContentProjection.Calendar
