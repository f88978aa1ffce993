import ContentProjection.Json.Tree

/-!
# Reading the shape of a JSON text

A strict reader: four blanks, no comments, no trailing comma, nothing after the
value. A value is read by a descent whose depth is bounded by the length of the
text, since every level consumes at least its opening bracket.
-/
namespace ContentProjection.Json.Parser

def isSpace (c : Char) : Bool := c = ' ' || c = '\n' || c = '\t' || c = '\r'

def skipSpace (cs : List Char) : List Char := cs.dropWhile isSpace

/-- The spelling of a string up to its closing quote, after the opening one. -/
def stringBody? : List Char → Option (List Char × List Char)
  | [] => none
  | '"' :: rest => some ([], rest)
  | '\\' :: 'u' :: a :: b :: c :: d :: rest =>
    if [a, b, c, d].all Text.isHexDigit then
      (stringBody? rest).map fun (cs, after) => ('\\' :: 'u' :: a :: b :: c :: d :: cs, after)
    else none
  | '\\' :: c :: rest =>
    if (Tree.escaped? c).isSome then
      (stringBody? rest).map fun (cs, after) => ('\\' :: c :: cs, after)
    else none
  | c :: rest =>
    if c.toNat < 0x20 then none
    else (stringBody? rest).map fun (cs, after) => (c :: cs, after)

def digits1? (cs : List Char) : Option (List Char × List Char) :=
  match cs.takeWhile Char.isDigit with
  | [] => none
  | ds => some (ds, cs.dropWhile Char.isDigit)

/-- Digits without a leading zero, or a single zero. -/
def wholePart? : List Char → Option (List Char × List Char)
  | '0' :: rest => some (['0'], rest)
  | cs => digits1? cs

def fractionPart? : List Char → Option (List Char × List Char)
  | '.' :: rest => (digits1? rest).map fun (ds, after) => ('.' :: ds, after)
  | cs => some ([], cs)

def exponentPart? : List Char → Option (List Char × List Char)
  | [] => some ([], [])
  | c :: rest =>
    if c = 'e' || c = 'E' then
      let (mark, unsigned) := match rest with
        | '+' :: r => ([c, '+'], r)
        | '-' :: r => ([c, '-'], r)
        | r => ([c], r)
      (digits1? unsigned).map fun (ds, after) => (mark ++ ds, after)
    else some ([], c :: rest)

def number? (cs : List Char) : Option (List Char × List Char) :=
  let (minus, unsigned) := match cs with
    | '-' :: rest => (['-'], rest)
    | rest => ([], rest)
  (wholePart? unsigned).bind fun (whole, rest) =>
    (fractionPart? rest).bind fun (part, rest') =>
      (exponentPart? rest').map fun (power, after) => (minus ++ whole ++ part ++ power, after)

mutual

/-- One value, blanks before it skipped. -/
def value? (fuel : Nat) (cs : List Char) : Option (Tree × List Char) :=
  match fuel with
  | 0 => none
  | fuel + 1 =>
    match skipSpace cs with
    | '"' :: rest => (stringBody? rest).map fun (s, after) => (.text s, after)
    | '[' :: rest =>
      match skipSpace rest with
      | ']' :: after => some (.array [], after)
      | first => (items? fuel first).map fun (items, after) => (.array items, after)
    | '\x7b' :: rest =>
      match skipSpace rest with
      | '\x7d' :: after => some (.object [], after)
      | first => (members? fuel first).map fun (members, after) => (.object members, after)
    | 't' :: 'r' :: 'u' :: 'e' :: after => some (.bool true, after)
    | 'f' :: 'a' :: 'l' :: 's' :: 'e' :: after => some (.bool false, after)
    | 'n' :: 'u' :: 'l' :: 'l' :: after => some (.null, after)
    | other => (number? other).map fun (spelling, after) => (.number spelling, after)

/-- The items of an array up to its closing bracket. -/
def items? (fuel : Nat) (cs : List Char) : Option (List Tree × List Char) :=
  match fuel with
  | 0 => none
  | fuel + 1 =>
    (value? fuel cs).bind fun (item, rest) =>
      match skipSpace rest with
      | ',' :: more => (items? fuel more).map fun (items, after) => (item :: items, after)
      | ']' :: after => some ([item], after)
      | _ => none

/-- The members of an object up to its closing brace. -/
def members? (fuel : Nat) (cs : List Char) : Option (List (List Char × Tree) × List Char) :=
  match fuel with
  | 0 => none
  | fuel + 1 =>
    match skipSpace cs with
    | '"' :: start =>
      (stringBody? start).bind fun (key, afterKey) =>
        match skipSpace afterKey with
        | ':' :: afterColon =>
          (value? fuel afterColon).bind fun (value, rest) =>
            match skipSpace rest with
            | ',' :: more =>
              (members? fuel more).map fun (members, after) => ((key, value) :: members, after)
            | '\x7d' :: after => some ([(key, value)], after)
            | _ => none
        | _ => none
    | _ => none

end

/-- The tree of a text that is one JSON value. -/
def parse? (cs : List Char) : Option Tree :=
  (value? (2 * cs.length + 2) cs).bind fun (t, rest) =>
    if (skipSpace rest).isEmpty then some t else none

end ContentProjection.Json.Parser
