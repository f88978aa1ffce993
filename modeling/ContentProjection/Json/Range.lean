import ContentProjection.Text.Real

/-!
# The range of JSON numbers

A number is read as a significand of one 64-bit word and a power of ten. The
first whole digit for which the word has no room, and every whole digit after it,
raises the power instead; the first such digit of a fraction ends the fraction.
The number is in range when the doubles nearest to both parts have a product that
is near a double. A negative power takes nothing out of range.
-/
namespace ContentProjection.Json

/-- A significand and the power of ten to scale it by. -/
structure Scaled where
  significand : Nat
  exponent : Int
  deriving DecidableEq, Repr

namespace Scaled

/-- The significand with one more digit, as long as it fits a word. -/
def extended? (n : Nat) (digit : Char) : Option Nat :=
  let more := 10 * n + Text.Numeral.digitValue digit
  if more < UInt64.size then some more else none

/-- The whole part of a number, after the significand `n`. -/
def ofWhole (n : Nat) : List Char → Scaled
  | [] => ⟨n, 0⟩
  | c :: cs =>
    match extended? n c with
    | some more => ofWhole more cs
    | none => ⟨n, (c :: cs).length⟩

/-- The number with the digits of a fraction. -/
def withFraction (s : Scaled) : List Char → Scaled
  | [] => s
  | c :: cs =>
    match extended? s.significand c with
    | some more => withFraction ⟨more, s.exponent - 1⟩ cs
    | none => s

/-- No double is near ten to a larger power than this. -/
def maxExponent : Int := 308

def isInRange (s : Scaled) : Bool :=
  s.significand = 0 || s.exponent < 0 || (s.exponent ≤ maxExponent && product?.isSome)
where
  product? : Option Binary64 := do
    let significand ← Binary64.ofDecimal? false s.significand 0
    significand.times? (← Binary64.ofDecimal? false 1 s.exponent)

/-- What the spelling of a number is read as, its sign left out. -/
def ofSpelling (cs : List Char) : Scaled :=
  let (whole, afterWhole) := Text.Real.digitRun (Text.Real.sign cs).2
  let (part, afterPart) := Text.Real.fraction whole afterWhole
  let s := (ofWhole 0 whole).withFraction part
  ⟨s.significand, s.exponent + (Text.Real.exponent afterPart).1⟩

end Scaled
end ContentProjection.Json
