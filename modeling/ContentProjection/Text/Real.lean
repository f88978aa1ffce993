import ContentProjection.Binary64
import ContentProjection.Text.Numeral

/-!
# Decimal reals at the start of a text

The longest start of a text that has the form sign, digits with at most one
point among them, exponent. Sign and exponent are optional, at least one digit
before the exponent is not; an exponent mark without digits is not part of the
number. `leading?` returns what it read and the rest of the text.
-/
namespace ContentProjection.Text.Real

/-- A decimal real: its digits without the point, and the power of ten to scale them by. -/
structure Literal where
  negative : Bool
  digits : Nat
  exponent : Int
  deriving DecidableEq, Repr

def Literal.toBinary64? (l : Literal) : Option Binary64 :=
  Binary64.ofDecimal? l.negative l.digits l.exponent

/-- An optional sign and the rest. -/
def sign : List Char → Bool × List Char
  | '-' :: cs => (true, cs)
  | '+' :: cs => (false, cs)
  | cs => (false, cs)

def digitRun (cs : List Char) : List Char × List Char :=
  (cs.takeWhile Char.isDigit, cs.dropWhile Char.isDigit)

/-- The digits after a point; the point counts only beside some digit. -/
def fraction (whole cs : List Char) : List Char × List Char :=
  match cs with
  | '.' :: rest =>
    let (ds, after) := digitRun rest
    if whole.isEmpty && ds.isEmpty then ([], cs) else (ds, after)
  | _ => ([], cs)

/-- The exponent after its mark, zero when it has no digits. -/
def exponent (cs : List Char) : Int × List Char :=
  match cs with
  | c :: rest =>
    if c = 'e' || c = 'E' then
      let (negative, unsigned) := sign rest
      let (ds, after) := digitRun unsigned
      if ds.isEmpty then (0, cs)
      else
        let n : Int := Numeral.value ds
        (if negative then -n else n, after)
    else (0, cs)
  | [] => (0, cs)

def leading? (cs : List Char) : Option (Literal × List Char) :=
  let (negative, unsigned) := sign cs
  let (whole, afterWhole) := digitRun unsigned
  let (part, afterPart) := fraction whole afterWhole
  if whole.isEmpty && part.isEmpty then none
  else
    let (e, rest) := exponent afterPart
    some (⟨negative, Numeral.value (whole ++ part), e - part.length⟩, rest)

/-- A text that is a decimal real as a whole. -/
def whole? (cs : List Char) : Option Literal :=
  match leading? cs with
  | some (l, []) => some l
  | _ => none

end ContentProjection.Text.Real
