/-!
# Finite binary64 numbers

A finite double is a sign, a mantissa below 2^53 and an exponent of at least
-1074, standing for mantissa times 2^exponent; the mantissa is at least 2^52
unless the exponent is -1074. Rounding is to the nearest, ties to an even
mantissa, computed exactly on natural numbers. There is no infinity and no NaN:
a value past the largest double has no rounding here.
-/
namespace ContentProjection

structure Binary64 where
  negative : Bool
  mantissa : Nat
  exponent : Int
  deriving DecidableEq, Repr

namespace Binary64

/-- The mantissa of a normal double is at least this and less than its double. -/
def leastNormal : Nat := 4503599627370496

/-- The place of the sign in the encoding. -/
def signPlace : Nat := 9223372036854775808

def minExponent : Int := -1074

def maxExponent : Int := 971

def zero : Binary64 := ⟨false, 0, minExponent⟩

/-- The natural number nearest to `num / den`, ties to even. -/
def nearestEven (num den : Nat) : Nat :=
  let q := num / den
  let r := num % den
  if 2 * r < den then q else if den < 2 * r then q + 1 else q + q % 2

/-- A numerator and a denominator of `num / den / 2^e`. -/
def scaled (num den : Nat) (e : Int) : Nat × Nat :=
  if 0 ≤ e then (num, den * Nat.pow 2 e.toNat) else (num * Nat.pow 2 (-e).toNat, den)

/-- The exponent at which `num / den` has a mantissa of 53 bits, or the least one. -/
def exponentOf (num den : Nat) : Int :=
  let low : Int := (num.log2 : Int) - den.log2 - 53
  let (n, d) := scaled num den low
  max minExponent (if n / d < 2 * leastNormal then low else low + 1)

/-- The double nearest to the quotient, `none` past the largest one. -/
def ofQuotient? (negative : Bool) (num den : Nat) : Option Binary64 :=
  if num = 0 then some ⟨negative, 0, minExponent⟩ else
  let e := exponentOf num den
  let (n, d) := scaled num den e
  let m := nearestEven n d
  let (m, e) := if m = 2 * leastNormal then (leastNormal, e + 1) else (m, e)
  if maxExponent < e then none else some ⟨negative, m, e⟩

/-- The double nearest to `digits * 10^exponent`. Values no double comes near are
settled by their number of digits, without the power. -/
def ofDecimal? (negative : Bool) (digits : Nat) (exponent : Int) : Option Binary64 :=
  if digits = 0 then some ⟨negative, 0, minExponent⟩ else
  let magnitude : Int := ((Nat.toDigits 10 digits).length : Int) + exponent
  if 310 < magnitude then none
  else if magnitude < -330 then some ⟨negative, 0, minExponent⟩
  else if 0 ≤ exponent then ofQuotient? negative (digits * Nat.pow 10 exponent.toNat) 1
  else ofQuotient? negative digits (Nat.pow 10 (-exponent).toNat)

/-- The double nearest to a product, `none` past the largest one. -/
def times? (x y : Binary64) : Option Binary64 :=
  let (num, den) := scaled (x.mantissa * y.mantissa) 1 (-(x.exponent + y.exponent))
  ofQuotient? (x.negative != y.negative) num den

/-- The IEEE 754 interchange encoding. -/
def bits (x : Binary64) : Nat :=
  let magnitude :=
    if x.mantissa < leastNormal then x.mantissa
    else (x.exponent + 1075).toNat * leastNormal + (x.mantissa - leastNormal)
  if x.negative then signPlace + magnitude else magnitude

/-- Some bit of the exponent is unset in the encoding. Infinities and NaNs have all of them set. -/
def IsFinite (x : Binary64) : Prop := x.bits % signPlace < 2047 * leastNormal

instance (x : Binary64) : Decidable x.IsFinite := inferInstanceAs (Decidable (_ < _))

end Binary64
end ContentProjection
