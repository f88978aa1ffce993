import ContentProjection.Text.Hexadecimal
import ContentProjection.Text.Split
import ContentProjection.Text.Utf8

/-!
# Percent escapes and form data

A percent sign with two hexadecimal digits stands for one byte; any other
percent sign stands for itself. Form data adds a plus sign for a space and cuts
the text into key and value pairs, repeated keys kept in order. A path segment
knows no such plus and must decode to UTF-8; form data is read lossily.
-/
namespace ContentProjection.Text.Percent

/-- The byte that two digits name. -/
def escaped? (high low : UInt8) : Option UInt8 :=
  (hexNumber? [Char.ofNat high.toNat, Char.ofNat low.toNat]).map UInt8.ofNat

def decode : List UInt8 → List UInt8
  | [] => []
  | b :: bs =>
    if b = 0x25 then
      match bs with
      | high :: low :: rest =>
        match escaped? high low with
        | some byte => byte :: decode rest
        | none => b :: decode (high :: low :: rest)
      | rest => b :: decode rest
    else b :: decode bs
termination_by bs => bs.length

/-- The text of a path segment, `none` when its bytes are not UTF-8. -/
def segment? (cs : List Char) : Option String :=
  Utf8.strict? (decode (Utf8.bytes (String.ofList cs)))

def formText (cs : List Char) : String :=
  let plusAsSpace := cs.map fun c => if c = '+' then ' ' else c
  Utf8.lossy (decode (Utf8.bytes (String.ofList plusAsSpace)))

/-- The pairs of form data, empty parts skipped. -/
def formPairs (cs : List Char) : List (String × String) :=
  ((splitOn '&' cs).filter fun part => !part.isEmpty).map fun part =>
    match splitFirst? '=' part with
    | some (key, value) => (formText key, formText value)
    | none => (formText part, "")

def upperHex (n : UInt8) : Char :=
  Char.ofNat (if n < 10 then 0x30 + n.toNat else 0x37 + n.toNat)

/-- Every byte of a text as a percent escape. -/
def encode (s : String) : List Char :=
  (Utf8.bytes s).flatMap fun b => ['%', upperHex (b / 0x10), upperHex (b % 0x10)]

end ContentProjection.Text.Percent
