/-!
# Characters of a YAML document

Most controls are allowed nowhere in a document, not even in its comments. There
are two blanks. A line ends at a carriage return, a line feed or both together, at
the next line control, and at the separators of lines and paragraphs; only these
two separators stay what they are when a scalar is read over them, all other
breaks count as line feeds.
-/
namespace ContentProjection.Settings.Yaml

def isAllowed (c : Char) : Bool :=
  let n := c.toNat
  n = 0x9 || n = 0xA || n = 0xD || (0x20 ≤ n && n ≤ 0x7E) || n = 0x85
    || (0xA0 ≤ n && n ≤ 0xFFFD) || 0x10000 ≤ n

def isBlank (c : Char) : Bool := c = ' ' || c = '\t'

/-- What a line break is read as. -/
def lineBreak? (c : Char) : Option Char :=
  if c = '\n' || c = '\r' || c = '\x85' then some '\n'
  else if c = '\u2028' || c = '\u2029' then some c
  else none

def isBreak (c : Char) : Bool := (lineBreak? c).isSome

/-- Nothing more of a word follows: a blank, a line break or the end. -/
def endsWord : List Char → Bool
  | [] => true
  | c :: _ => isBlank c || isBreak c

/-- A text starts with three dashes, or three points, as a word. -/
def startsMark (sign : Char) : List Char → Bool
  | a :: b :: c :: rest => a = sign && b = sign && c = sign && endsWord rest
  | _ => false

/-- At the start of a line this begins or ends a document. -/
def startsAnyMark (cs : List Char) : Bool := startsMark '-' cs || startsMark '.' cs

/-- The characters that divide bracketed collections. -/
def isBracketMark (c : Char) : Bool :=
  c = ',' || c = '[' || c = ']' || c = '\x7b' || c = '\x7d'

/-- The mark that may open a text and is no part of it. -/
def byteOrderMark : Char := '\ufeff'

end ContentProjection.Settings.Yaml
