import ContentProjection.Settings.Yaml.Character
import ContentProjection.Text.Hexadecimal

/-!
# Reading scalars of a YAML document

A scalar goes on over line breaks. The blanks around a line break do not count: a
single line feed reads as one blank, and of several the first is dropped; the
separators of lines and paragraphs are kept. A plain scalar ends before a comment,
before the colon of a key, inside brackets before a bracket or a comma, and outside
brackets before a line that does not stand at `floor` or deeper. A scalar in single
quotes knows only the doubled quote, one in double quotes knows escapes. No scalar
goes over the start or the end of a document.
-/
namespace ContentProjection.Settings.Yaml

/-- What has been read since the last character of a scalar. -/
structure Gap where
  /-- The blanks before the first line break. -/
  blanks : List Char
  /-- The line breaks, as they are read. -/
  breaks : List Char
  /-- The number of blanks after the last line break. -/
  column : Nat
  /-- The gap begins with a line break behind a backslash, which does not count. -/
  escaped : Bool
  deriving DecidableEq, Repr

namespace Gap

def empty : Gap := ⟨[], [], 0, false⟩

def escapedBreak : Gap := ⟨[], [], 0, true⟩

def isBroken (g : Gap) : Bool := g.escaped || !g.breaks.isEmpty

def isEmpty (g : Gap) : Bool := g.blanks.isEmpty && !g.isBroken

def withBlank (g : Gap) (c : Char) : Gap :=
  if g.isBroken then { g with column := g.column + 1 } else { g with blanks := g.blanks ++ [c] }

def withBreak (g : Gap) (c : Char) : Gap := { g with breaks := g.breaks ++ [c], column := 0 }

/-- The characters that stand for the gap. -/
def text (g : Gap) : List Char :=
  if g.escaped then g.breaks
  else
    match g.breaks with
    | [] => g.blanks
    | ['\n'] => [' ']
    | '\n' :: more => more
    | all => all

/-- The text behind the gap starts or ends a document. -/
def isBeforeMark (g : Gap) (cs : List Char) : Bool :=
  g.isBroken && g.column = 0 && startsAnyMark cs

/-- A tab stands where the indentation is not complete. -/
def isTornBy (g : Gap) (floor : Nat) (c : Char) : Bool :=
  g.isBroken && g.column < floor && c = '\t'

/-- A plain scalar ends with the gap, `cs` being the text behind it. -/
def endsPlain (g : Gap) (bracketed : Bool) (floor : Nat) (cs : List Char) : Bool :=
  !g.isEmpty && (cs.head? == some '#' || g.isBeforeMark cs
    || (!bracketed && g.isBroken && g.column < floor))

end Gap

/-- A plain scalar that has been read. -/
structure PlainReading where
  text : List Char
  /-- A line break stands between the scalar and the rest. -/
  isBroken : Bool
  rest : List Char
  deriving DecidableEq, Repr

/-- Inside brackets, a colon before this text is out of place in a plain scalar. -/
def isMisplacedColon : List Char → Bool
  | [] => false
  | c :: _ => c = '?' || isBracketMark c

/-- The rest of a plain scalar after some of its characters and a gap. -/
def plainRest? (bracketed : Bool) (floor : Nat) (gap : Gap) : List Char → Option PlainReading
  | [] => some ⟨[], gap.isBroken, []⟩
  | '\r' :: '\n' :: rest => plainRest? bracketed floor (gap.withBreak '\n') rest
  | c :: rest =>
    if isBlank c then
      if gap.isTornBy floor c then none else plainRest? bracketed floor (gap.withBlank c) rest
    else
      match lineBreak? c with
      | some b => plainRest? bracketed floor (gap.withBreak b) rest
      | none =>
        let ends := gap.endsPlain bracketed floor (c :: rest)
        let isColon := c = ':'
        if !ends && bracketed && isColon && isMisplacedColon rest then none
        else if ends || (isColon && endsWord rest) || (bracketed && isBracketMark c) then
          some ⟨[], gap.isBroken, c :: rest⟩
        else
          (plainRest? bracketed floor Gap.empty rest).map fun r =>
            { r with text := gap.text ++ c :: r.text }

/-- A plain scalar may start with this character, if it is no mark of its own. -/
def mayStartPlain (c : Char) : Bool :=
  !(isBlank c || isBreak c || isBracketMark c || "#&*!|>'\"%@".toList.contains c
    || c.toNat = 0x60)

/-- A text that goes on behind a gap and a character. -/
def prepended (gap : Gap) (c : Char) (found : Option (List Char × List Char)) :
    Option (List Char × List Char) :=
  found.map fun (text, after) => (gap.text ++ c :: text, after)

/-- The text up to the closing single quote, and what follows it. -/
def singleQuoted? (gap : Gap) : List Char → Option (List Char × List Char)
  | [] => none
  | '\r' :: '\n' :: rest => singleQuoted? (gap.withBreak '\n') rest
  | '\'' :: '\'' :: rest => prepended gap '\'' (singleQuoted? Gap.empty rest)
  | '\'' :: rest => some (gap.text, rest)
  | c :: rest =>
    if isBlank c then singleQuoted? (gap.withBlank c) rest
    else
      match lineBreak? c with
      | some b => singleQuoted? (gap.withBreak b) rest
      | none =>
        if gap.isBeforeMark (c :: rest) then none
        else prepended gap c (singleQuoted? Gap.empty rest)

/-- The characters behind one-letter escapes, by code point. -/
def escapes : List (Char × Nat) :=
  [('0', 0), ('a', 0x7), ('b', 0x8), ('t', 0x9), ('\t', 0x9), ('n', 0xA), ('v', 0xB), ('f', 0xC),
    ('r', 0xD), ('e', 0x1B), (' ', 0x20), ('"', 0x22), ('/', 0x2F), ('\\', 0x5C), ('N', 0x85),
    ('_', 0xA0), ('L', 0x2028), ('P', 0x2029)]

/-- The text up to the closing double quote, and what follows it. -/
def doubleQuoted? (gap : Gap) : List Char → Option (List Char × List Char)
  | [] => none
  | '\r' :: '\n' :: rest => doubleQuoted? (gap.withBreak '\n') rest
  | '"' :: rest => some (gap.text, rest)
  | '\\' :: '\r' :: '\n' :: rest =>
    (doubleQuoted? Gap.escapedBreak rest).map fun (text, after) => (gap.text ++ text, after)
  | '\\' :: 'x' :: a :: b :: rest =>
    (Text.charOfHex? [a, b]).bind fun e => prepended gap e (doubleQuoted? Gap.empty rest)
  | '\\' :: 'u' :: a :: b :: c :: d :: rest =>
    (Text.charOfHex? [a, b, c, d]).bind fun e => prepended gap e (doubleQuoted? Gap.empty rest)
  | '\\' :: 'U' :: a :: b :: c :: d :: e :: f :: g :: h :: rest =>
    (Text.charOfHex? [a, b, c, d, e, f, g, h]).bind fun e =>
      prepended gap e (doubleQuoted? Gap.empty rest)
  | '\\' :: c :: rest =>
    if isBreak c then
      (doubleQuoted? Gap.escapedBreak rest).map fun (text, after) => (gap.text ++ text, after)
    else
      (escapes.lookup c).bind fun e => prepended gap (Char.ofNat e) (doubleQuoted? Gap.empty rest)
  | c :: rest =>
    if isBlank c then doubleQuoted? (gap.withBlank c) rest
    else
      match lineBreak? c with
      | some b => doubleQuoted? (gap.withBreak b) rest
      | none =>
        if gap.isBeforeMark (c :: rest) then none
        else prepended gap c (doubleQuoted? Gap.empty rest)

end ContentProjection.Settings.Yaml
