import ContentProjection.Binary64

/-!
# Shortest decimal of a double

The reals that round to a double form an interval around it, whose ends belong
to it when the mantissa is even. The shortest decimal is the point of the
coarsest decimal grid that meets the interval, the nearer of two, the even digit
of two equally near. All comparisons are exact, in quarters of the last place.
-/
namespace ContentProjection.Binary64

/-- Numerator and denominator of `base^e`. -/
def power (base : Nat) (e : Int) : Nat × Nat :=
  if 0 ≤ e then (Nat.pow base e.toNat, 1) else (1, Nat.pow base (-e).toNat)

/-- A point `c` of the grid of step `10^s` lies at `c * a / b` quarters of the last place. -/
def gridScale (x : Binary64) (s : Int) : Nat × Nat :=
  let (p, q) := power 10 s
  let (n, d) := power 2 (x.exponent - 2)
  (p * d, q * n)

/-- The ends of the rounding interval, in quarters of the last place. -/
def interval (x : Binary64) : Nat × Nat :=
  let narrow := x.mantissa = leastNormal ∧ minExponent < x.exponent
  (if narrow then 4 * x.mantissa - 1 else 4 * x.mantissa - 2, 4 * x.mantissa + 2)

/-- The grid point `c` reads back as the double. -/
def readsBack (x : Binary64) (a b c : Nat) : Bool :=
  let (low, high) := x.interval
  if x.mantissa % 2 = 0 then low * b ≤ c * a && c * a ≤ high * b
  else low * b < c * a && c * a < high * b

/-- The best point of the grid of step `10^s` that reads back, if one does. -/
def gridPoint? (x : Binary64) (s : Int) : Option Nat :=
  let (a, b) := x.gridScale s
  let target := 4 * x.mantissa * b
  let below := target / a
  let above := below + 1
  match x.readsBack a b below, x.readsBack a b above with
  | false, false => none
  | true, false => some below
  | false, true => some above
  | true, true =>
    let down := target - below * a
    let up := above * a - target
    if down < up then some below
    else if up < down then some above
    else some (if below % 2 = 0 then below else above)

/-- The decimal exponent of the first digit. -/
def leadingExponent (x : Binary64) : Int :=
  let estimate := (((x.mantissa.log2 : Int) + x.exponent) * 30103) / 100000
  let reaches (s : Int) : Bool :=
    let (a, b) := x.gridScale s
    a ≤ 4 * x.mantissa * b
  ([estimate + 1, estimate].find? reaches).getD (estimate - 1)

/-- Moves the decimal zeros at the end of a number into its exponent. -/
def dropZeros : Nat → Nat → Int → Nat × Int
  | 0, digits, e => (digits, e)
  | fuel + 1, digits, e =>
    if digits ≠ 0 ∧ digits % 10 = 0 then dropZeros fuel (digits / 10) (e + 1) else (digits, e)

/-- Digits and exponent of the shortest decimal of a nonzero double, the sign left out. -/
def shortest (x : Binary64) : Nat × Int :=
  let first := x.leadingExponent
  let found := (List.range 17).findSome? fun (more : Nat) =>
    let s := first - (more : Int)
    (x.gridPoint? s).map fun c => (c, s)
  let (digits, e) := found.getD (0, 0)
  dropZeros 17 digits e

end ContentProjection.Binary64
