/-!
# Hexadecimal digits

Digits are read in either case and written in lower case. A number is any
non-empty run of digits, leading zeros allowed.
-/
namespace ContentProjection.Text

def hexValue? (c : Char) : Option (Fin 16) :=
  let n := c.toNat
  if 0x30 ≤ n ∧ n ≤ 0x39 then some (Fin.ofNat 16 (n - 0x30))
  else if 0x61 ≤ n ∧ n ≤ 0x66 then some (Fin.ofNat 16 (n - 0x57))
  else if 0x41 ≤ n ∧ n ≤ 0x46 then some (Fin.ofNat 16 (n - 0x37))
  else none

def hexChar (d : Fin 16) : Char :=
  Char.ofNat (if d.val < 10 then 0x30 + d.val else 0x57 + d.val)

/-- The last digit of a number in base 16. -/
def lastHexDigit (n : Nat) : Fin 16 := Fin.ofNat 16 n

def lastHexChar (n : Nat) : Char := hexChar (lastHexDigit n)

def isHexDigit (c : Char) : Bool := (hexValue? c).isSome

/-- The number that digits write in base 16. -/
def hexNumber? (cs : List Char) : Option Nat :=
  if cs.isEmpty then none
  else (cs.mapM hexValue?).map fun ds => ds.foldl (fun n d => 0x10 * n + d.val) 0

/-- The character that digits name. -/
def charOfHex? (cs : List Char) : Option Char :=
  ((hexNumber? cs).filter fun n => n.isValidChar).map Char.ofNat

theorem hexValue?_hexChar (d : Fin 16) : hexValue? (hexChar d) = some d := by
  revert d
  decide

end ContentProjection.Text
