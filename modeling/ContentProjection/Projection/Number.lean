import ContentProjection.Text.Blank
import ContentProjection.Text.Real
import ContentProjection.Text.Real.Scan

/-!
# Numbers at the start of stored text

Numeric fields are stored as text and shown as numbers. Blanks before the number
are skipped and anything after it is ignored; text that starts with no number
counts as zero. A whole number past the signed 64-bit range becomes the largest
magnitude of that range before its sign is applied, so a negative one becomes
one more than the least word. A real that no finite double is near is zero.
-/
namespace ContentProjection.Projection

/-- The signed value of a run of digits, its magnitude held at the largest signed word. -/
def saturated (negative : Bool) (digits : List Char) : Int :=
  let magnitude := min (Text.Numeral.value digits : Int) Text.Numeral.maxInt64
  if negative then -magnitude else magnitude

def integerAtStart (cs : List Char) : Int :=
  let (negative, unsigned) := Text.Real.sign (Text.trimStart cs)
  match unsigned.takeWhile Char.isDigit with
  | [] => 0
  | ds => saturated negative ds

def integerOf (raw : String) : Int := integerAtStart raw.toList

/-- Stored text without the blanks in front of it. -/
def unindented (raw : String) : String := String.ofList (Text.trimStart raw.toList)

/-- The double nearest to a text that is a decimal real as a whole. -/
def realOfNumber? (number : String) : Option Binary64 :=
  (Text.Real.whole? number.toList).bind Text.Real.Literal.toBinary64?

def realAtStart (s : String) : Except Text.IndexFault Binary64 := do
  match ← Text.Real.Scan.number? s with
  | none => return Binary64.zero
  | some number => return (realOfNumber? number).getD Binary64.zero

/-- The real at the start of stored text. That no text leads to a fault is proved, so zero
stands for nothing there. -/
def realOf (raw : String) : Binary64 :=
  match realAtStart (unindented raw) with
  | .ok x => x
  | .error _ => Binary64.zero

end ContentProjection.Projection
