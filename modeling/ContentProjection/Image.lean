import ContentProjection.Binary64
import ContentProjection.Text.DecimalDigit
import ContentProjection.Text.Numeral

/-!
# Image styles

Derived sizes of an image are grouped by aspect ratio. The ratio of the largest
resolution of a field, rounded to two places, selects the group. The quotient
and the product with 100 are rounded to doubles before the whole is rounded, so
a ratio just at a half may fall to either side.
-/
namespace ContentProjection.Image

/-- The styles of every aspect ratio, the ratio in hundredths. -/
def styleTable : List (Nat × List String) :=
  [(75, ["465x620_img"]),
    (100, ["400x400_img", "414x414_img", "448x448_img"]),
    (133, ["414x312_img", "544x409_img", "640x481_img", "828x623_img", "912x686_img"]),
    (175, ["414x237_img", "533x305_img", "828x473_img", "929x531_img"]),
    (230, ["533x232_img", "1600x696_img"])]

def knownStyles : List String := styleTable.flatMap Prod.snd

/-- The nearest whole number to `m * 2^e`, halves away from zero. -/
def roundHalfUp (x : Binary64) : Nat :=
  if 0 ≤ x.exponent then x.mantissa * Nat.pow 2 x.exponent.toNat
  else
    let unit := Nat.pow 2 (-x.exponent).toNat
    (2 * x.mantissa + unit) / (2 * unit)

/-- The double nearest to `factor` times a double. -/
def timesNat? (x : Binary64) (factor : Nat) : Option Binary64 :=
  let (n, d) := Binary64.scaled (x.mantissa * factor) 1 (-x.exponent)
  Binary64.ofQuotient? x.negative n d

/-- Width over height in hundredths, rounded in doubles at every step. -/
def ratioHundredths? (width height : Nat) : Option Nat :=
  if height = 0 then none
  else
    (Binary64.ofQuotient? false width height).bind fun quotient =>
      (timesNat? quotient 100).map roundHalfUp

/-- Width and height written at the very start of a text as digits, an `x`, digits. -/
def sizeHere? (cs : List Char) : Option (List Char × List Char) :=
  let width := cs.takeWhile Text.isDecimalDigit
  match cs.dropWhile Text.isDecimalDigit with
  | 'x' :: rest =>
    let height := rest.takeWhile Text.isDecimalDigit
    if width.isEmpty || height.isEmpty then none else some (width, height)
  | _ => none

/-- The leftmost size in a text. -/
def size? : List Char → Option (List Char × List Char)
  | [] => none
  | c :: cs => (sizeHere? (c :: cs)).or (size? cs)

def ratioOfResolution? (resolution : String) : Option Nat :=
  (size? resolution.toList).bind fun (width, height) =>
    (Text.Numeral.uint32? width).bind fun w =>
      (Text.Numeral.uint32? height).bind fun h => ratioHundredths? w.toNat h.toNat

/-- The styles of a largest resolution; none when it is missing, malformed or in no group. -/
def stylesFor (resolution : Option String) : List String :=
  ((resolution.bind ratioOfResolution?).bind fun ratio => styleTable.lookup ratio).getD []

end ContentProjection.Image
