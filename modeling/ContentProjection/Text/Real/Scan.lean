import ContentProjection.Text.Utf8

/-!
# Decimal reals found by index

The number at the start of a text as a walk over its bytes: an index moves over a sign,
digits, a point with its digits and an exponent, and the text is cut where it stops. A look
at a byte past the end finds nothing. To go on from an index past the end, or to cut inside
a character, is a fault; no text leads to one.
-/
namespace ContentProjection.Text

/-- Why an index does not lead into a text. -/
inductive IndexFault where
  | pastEnd
  | insideCharacter
  deriving DecidableEq, Repr

/-- The bytes from an index on. -/
def bytesFrom (bytes : List UInt8) (i : Nat) : Except IndexFault (List UInt8) :=
  if i ≤ bytes.length then .ok (bytes.drop i) else .error .pastEnd

/-- The text in front of an index. -/
def textBefore (s : String) (i : Nat) : Except IndexFault String :=
  match s.pos? ⟨i⟩ with
  | some stop => .ok (s.extract s.startPos stop)
  | none => .error (if s.utf8ByteSize < i then .pastEnd else .insideCharacter)

namespace Real.Scan

def isSign (b : UInt8) : Bool := b = 0x2D || b = 0x2B

def isDigit (b : UInt8) : Bool := 0x30 ≤ b && b ≤ 0x39

def isPoint (b : UInt8) : Bool := b = 0x2E

def isMark (b : UInt8) : Bool := b = 0x65 || b = 0x45

/-- The index behind the sign at an index, if there is one. -/
def afterSign (bytes : List UInt8) (i : Nat) : Nat := if bytes[i]?.any isSign then i + 1 else i

/-- The number of digits from an index on. -/
def digitsFrom (bytes : List UInt8) (i : Nat) : Except IndexFault Nat :=
  return ((← bytesFrom bytes i).takeWhile isDigit).length

/-- The number of digits after the point at an index, and the index behind them. The index
stays in front of a point that no digit is beside. -/
def fraction (bytes : List UInt8) (whole i : Nat) : Except IndexFault (Nat × Nat) :=
  if bytes[i]?.any isPoint then do
    let part ← digitsFrom bytes (i + 1)
    return (part, if 0 < whole || 0 < part then i + 1 + part else i)
  else return (0, i)

/-- The index behind the exponent at an index, if it has digits. -/
def exponent (bytes : List UInt8) (i : Nat) : Except IndexFault Nat :=
  if bytes[i]?.any isMark then do
    let start := afterSign bytes (i + 1)
    let digits ← digitsFrom bytes (min start bytes.length)
    return if 0 < digits then start + digits else i
  else return i

/-- The index behind the number at the start, if there is a number. -/
def stop? (bytes : List UInt8) : Except IndexFault (Option Nat) := do
  let start := afterSign bytes 0
  let whole ← digitsFrom bytes start
  let (part, i) ← fraction bytes whole (start + whole)
  if whole = 0 && part = 0 then return none
  return some (← exponent bytes i)

/-- The number at the start of a text, if there is one. -/
def number? (s : String) : Except IndexFault (Option String) := do
  match ← stop? (Utf8.bytes s) with
  | none => return none
  | some i => return some (← textBefore s i)

end Real.Scan
end ContentProjection.Text
