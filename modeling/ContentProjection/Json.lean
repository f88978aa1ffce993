import ContentProjection.Binary64.Shortest
import ContentProjection.Members
import ContentProjection.Text.Hexadecimal

/-!
# JSON values and their texts

An object keeps the order of its members. Whole numbers and doubles are
different values and are written differently. There are two texts: a compact
one without blanks, and an indented one with two blanks per level.
-/
namespace ContentProjection

inductive Json where
  | null
  | bool (value : Bool)
  | int (value : Int)
  | float (value : Binary64)
  | str (value : String)
  | arr (items : List Json)
  | obj (members : List (String × Json))
  deriving Repr

namespace Json

/-- The members of an object, in order. -/
abbrev Object := Members Json

/-- A double as a number, and `null` for one that is not finite and has no text. -/
def ofReal (x : Binary64) : Json := if x.IsFinite then float x else null

theorem ofReal_eq_or (x : Binary64) : ofReal x = float x ∨ ofReal x = null := by
  rw [ofReal]
  split
  · exact Or.inl rfl
  · exact Or.inr rfl

/-- A character inside a string: quotes, backslashes and control characters are escaped. -/
def escapeChar (c : Char) : List Char :=
  if c = '"' then ['\\', '"']
  else if c = '\\' then ['\\', '\\']
  else if c = '\x08' then ['\\', 'b']
  else if c = '\x0c' then ['\\', 'f']
  else if c = '\n' then ['\\', 'n']
  else if c = '\r' then ['\\', 'r']
  else if c = '\t' then ['\\', 't']
  else if c.toNat < 0x20 then
    ['\\', 'u', '0', '0', Text.lastHexChar (c.toNat / 16), Text.lastHexChar c.toNat]
  else [c]

def quoted (s : String) : String :=
  String.ofList ('"' :: s.toList.flatMap escapeChar ++ ['"'])

/-- Digits `ds`, the first at decimal exponent `e`: plain from -5 to 15, else with an exponent. -/
def positional (ds : List Char) (e : Int) : List Char :=
  if 0 ≤ e ∧ e < 16 then
    let whole := e.toNat + 1
    if ds.length ≤ whole then ds ++ List.replicate (whole - ds.length) '0' ++ ['.', '0']
    else ds.take whole ++ '.' :: ds.drop whole
  else if -5 ≤ e ∧ e < 0 then '0' :: '.' :: List.replicate ((-e).toNat - 1) '0' ++ ds
  else
    let part := if ds.length ≤ 1 then ds else ds.take 1 ++ '.' :: ds.drop 1
    part ++ 'e' :: (if 0 ≤ e then '+' else '-') :: Nat.toDigits 10 e.natAbs

/-- The shortest text that reads back as the double. -/
def floatText (x : Binary64) : String :=
  let body :=
    if x.mantissa = 0 then ['0', '.', '0']
    else
      let (digits, e) := x.shortest
      let ds := Nat.toDigits 10 digits
      positional ds (e + ds.length - 1)
  String.ofList (if x.negative then '-' :: body else body)

mutual

/-- The text without blanks. -/
def compact : Json → String
  | null => "null"
  | bool b => if b then "true" else "false"
  | int n => toString n
  | float x => floatText x
  | str s => quoted s
  | arr items => "[" ++ String.intercalate "," (compactItems items) ++ "]"
  | obj members => "\x7b" ++ String.intercalate "," (compactMembers members) ++ "\x7d"

def compactItems : List Json → List String
  | [] => []
  | item :: items => compact item :: compactItems items

def compactMembers : List (String × Json) → List String
  | [] => []
  | (key, value) :: members => (quoted key ++ ":" ++ compact value) :: compactMembers members

end

def indentation (level : Nat) : String :=
  "\n" ++ String.ofList (List.replicate (2 * level) ' ')

/-- Parts between brackets, one a line; no lines when there are no parts. -/
def bracketed (level : Nat) (opening closing : String) (parts : List String) : String :=
  if parts.isEmpty then opening ++ closing
  else
    let separator := "," ++ indentation (level + 1)
    opening ++ indentation (level + 1) ++ String.intercalate separator parts
      ++ indentation level ++ closing

mutual

/-- The indented text at a nesting level. -/
def indented (level : Nat) : Json → String
  | arr items => bracketed level "[" "]" (indentedItems (level + 1) items)
  | obj members => bracketed level "\x7b" "\x7d" (indentedMembers (level + 1) members)
  | null => "null"
  | bool b => if b then "true" else "false"
  | int n => toString n
  | float x => floatText x
  | str s => quoted s

def indentedItems (level : Nat) : List Json → List String
  | [] => []
  | item :: items => indented level item :: indentedItems level items

def indentedMembers (level : Nat) : List (String × Json) → List String
  | [] => []
  | (key, value) :: members =>
    (quoted key ++ ": " ++ indented level value) :: indentedMembers level members

end

def pretty (j : Json) : String := indented 0 j

def strings (values : List String) : Json := arr (values.map str)

def optional (value : Option String) : Json := (value.map str).getD null

end Json
end ContentProjection
