/-!
# Bytes as text

`strict?` reads bytes that are UTF-8 and nothing else. `lossy` reads any bytes:
each longest broken piece of a character becomes one replacement character. A
broken piece is one to three bytes that start a character and are not continued
as the second and later bytes of that character must be.
-/
namespace ContentProjection.Text.Utf8

def bytes (s : String) : List UInt8 := s.toUTF8.data.toList

def strict? (bs : List UInt8) : Option String := String.fromUTF8? ⟨bs.toArray⟩

theorem fromUTF8?_toUTF8 (s : String) : String.fromUTF8? s.toUTF8 = some s := by
  unfold String.fromUTF8?
  rw [String.toUTF8_eq_toByteArray, dif_pos s.isValidUTF8]
  rfl

theorem strict?_bytes (s : String) : strict? (bytes s) = some s :=
  fromUTF8?_toUTF8 s

def continues (b : UInt8) : Bool := 0x80 ≤ b && b ≤ 0xBF

/-- The number of bytes a character takes and the range of its second byte, by its first. -/
def lead? (b : UInt8) : Option (Nat × UInt8 × UInt8) :=
  if 0xC2 ≤ b && b ≤ 0xDF then some (2, 0x80, 0xBF)
  else if b = 0xE0 then some (3, 0xA0, 0xBF)
  else if b = 0xED then some (3, 0x80, 0x9F)
  else if 0xE1 ≤ b && b ≤ 0xEF then some (3, 0x80, 0xBF)
  else if b = 0xF0 then some (4, 0x90, 0xBF)
  else if b = 0xF4 then some (4, 0x80, 0x8F)
  else if 0xF1 ≤ b && b ≤ 0xF3 then some (4, 0x80, 0xBF)
  else none

/-- How many bytes the first character or broken piece takes, and whether it is a character. -/
def firstPiece (b : UInt8) (bs : List UInt8) : Nat × Bool :=
  if b < 0x80 then (1, true) else
  match lead? b with
  | none => (1, false)
  | some (size, low, high) =>
    match bs with
    | [] => (1, false)
    | second :: rest =>
      if second < low || high < second then (1, false)
      else
        let more := ((rest.take (size - 2)).takeWhile continues).length
        (2 + more, more + 2 == size)

/-- The code point of a whole character. -/
def codePoint : List UInt8 → Nat
  | [] => 0
  | b :: bs =>
    let start := match bs.length with
      | 0 => b.toNat
      | 1 => b.toNat % 0x20
      | 2 => b.toNat % 0x10
      | _ => b.toNat % 0x08
    bs.foldl (fun n c => 0x40 * n + c.toNat % 0x40) start

def replacement : Char := '\ufffd'

def lossyChars : List UInt8 → List Char
  | [] => []
  | b :: bs =>
    let (size, whole) := firstPiece b bs
    let c := if whole then Char.ofNat (codePoint ((b :: bs).take size)) else replacement
    c :: lossyChars (bs.drop (size - 1))
termination_by bs => bs.length

def lossy (bs : List UInt8) : String := String.ofList (lossyChars bs)

end ContentProjection.Text.Utf8
