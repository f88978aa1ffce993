import ContentProjection.Text.Blank
import ContentProjection.Text.Numeral

/-!
# Timestamps as local date and time

A timestamp counts seconds from the start of 1970 in UTC. It is shown as the
proleptic Gregorian date and the time of day at a fixed offset, followed by the
offset. Days are turned into dates by eras of 400 years that start on the first
of March, so that a leap day ends its year. Timestamps have a bounded range;
the local date of a bound may lie a day beyond it.
-/
namespace ContentProjection.Calendar

structure Date where
  year : Int
  month : Nat
  day : Nat
  deriving DecidableEq, Repr

/-- The date `n` days after 1970-01-01. -/
def dateOfDays (n : Int) : Date :=
  let shifted := n + 719468
  let era := shifted / 146097
  let dayOfEra := (shifted % 146097).toNat
  let yearOfEra :=
    (dayOfEra - dayOfEra / 1460 + dayOfEra / 36524 - dayOfEra / 146096) / 365
  let dayOfYear := dayOfEra - (365 * yearOfEra + yearOfEra / 4 - yearOfEra / 100)
  let marchMonth := (5 * dayOfYear + 2) / 153
  let day := dayOfYear - (153 * marchMonth + 2) / 5 + 1
  let month := if marchMonth < 10 then marchMonth + 3 else marchMonth - 9
  let year := (yearOfEra : Int) + era * 400
  ⟨if month ≤ 2 then year + 1 else year, month, day⟩

/-- Whole minutes east of UTC, less than a day either way. -/
structure Offset where
  minutes : Int
  bounded : -1440 < minutes ∧ minutes < 1440
  deriving DecidableEq, Repr

namespace Offset

def utc : Offset := ⟨0, by decide⟩

def ofMinutes? (minutes : Int) : Option Offset :=
  if h : -1440 < minutes ∧ minutes < 1440 then some ⟨minutes, h⟩ else none

end Offset

def firstTimestamp : Int := -8334601228800

def lastTimestamp : Int := 8210266876799

/-- A number in at least `width` digits. -/
def padded (width n : Nat) : List Char :=
  let ds := Nat.toDigits 10 n
  List.replicate (width - ds.length) '0' ++ ds

/-- Four digits or more, with a sign on years before 0 and after 9999. -/
def yearText (year : Int) : List Char :=
  if 0 ≤ year ∧ year ≤ 9999 then padded 4 year.natAbs
  else (if year < 0 then '-' else '+') :: padded 4 year.natAbs

def dateText (d : Date) : List Char :=
  yearText d.year ++ '-' :: padded 2 d.month ++ '-' :: padded 2 d.day

/-- Hours, minutes and seconds of a second of the day. -/
def timeText (second : Nat) : List Char :=
  padded 2 (second / 3600) ++ ':' :: padded 2 (second / 60 % 60) ++ ':' :: padded 2 (second % 60)

def offsetText (offset : Offset) : List Char :=
  (if offset.minutes < 0 then '-' else '+')
    :: (padded 2 (offset.minutes.natAbs / 60) ++ padded 2 (offset.minutes.natAbs % 60))

/-- The local date and time of a timestamp in range. -/
def show? (offset : Offset) (timestamp : Int) : Option String :=
  if firstTimestamp ≤ timestamp ∧ timestamp ≤ lastTimestamp then
    let seconds := timestamp + 60 * offset.minutes
    some (String.ofList (dateText (dateOfDays (seconds / 86400)) ++ 'T'
      :: timeText (seconds % 86400).toNat ++ offsetText offset))
  else none

/-- The local date and time of a timestamp written as a number, blanks around it ignored. -/
def render? (offset : Offset) (raw : String) : Option String :=
  (Text.Numeral.int64? (Text.trim raw.toList)).bind (show? offset)

end ContentProjection.Calendar
