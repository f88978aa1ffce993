import ContentProjection.Json.Range
import ContentProjection.Text.Hexadecimal

/-!
# The shape of a JSON text

Scalars keep their spelling until something reads them: a member that nobody
asks for must be well-formed, but a lone surrogate or a number out of range in
it does no harm. Reading is strict: a whole number is written without point and
exponent, minus zero is no whole number, and no kind stands in for another.
-/
namespace ContentProjection.Json

inductive Tree where
  | null
  | bool (value : Bool)
  | number (spelling : List Char)
  | text (spelling : List Char)
  | array (items : List Tree)
  | object (members : List (List Char × Tree))
  deriving Repr

namespace Tree

/-- The code unit of a numeric escape. -/
def codeUnit (a b c d : Char) : Nat := (Text.hexNumber? [a, b, c, d]).getD 0

/-- The character behind a one-letter escape. -/
def escaped? (c : Char) : Option Char :=
  if c = '"' then some '"'
  else if c = '\\' then some '\\'
  else if c = '/' then some '/'
  else if c = 'b' then some '\x08'
  else if c = 'f' then some '\x0c'
  else if c = 'n' then some '\n'
  else if c = 'r' then some '\r'
  else if c = 't' then some '\t'
  else none

def isHighSurrogate (n : Nat) : Bool := 0xD800 ≤ n && n ≤ 0xDBFF

def isLowSurrogate (n : Nat) : Bool := 0xDC00 ≤ n && n ≤ 0xDFFF

/-- The characters a spelling stands for, `none` when a surrogate stands alone. -/
def decode? : List Char → Option (List Char)
  | [] => some []
  | '\\' :: 'u' :: a :: b :: c :: d :: rest =>
    let high := codeUnit a b c d
    if isHighSurrogate high then
      match rest with
      | '\\' :: 'u' :: a' :: b' :: c' :: d' :: rest' =>
        let low := codeUnit a' b' c' d'
        if isLowSurrogate low then
          (decode? rest').map fun cs =>
            Char.ofNat (0x10000 + 0x400 * (high - 0xD800) + (low - 0xDC00)) :: cs
        else none
      | _ => none
    else if isLowSurrogate high then none
    else (decode? rest).map fun cs => Char.ofNat high :: cs
  | '\\' :: c :: rest => (escaped? c).bind fun e => (decode? rest).map fun cs => e :: cs
  | c :: rest => (decode? rest).map fun cs => c :: cs

def decodeString? (spelling : List Char) : Option String :=
  (decode? spelling).map String.ofList

def string? : Tree → Option String
  | text spelling => decodeString? spelling
  | _ => none

def bool? : Tree → Option Bool
  | bool b => some b
  | _ => none

def isWholeSpelling (cs : List Char) : Bool :=
  cs != ['-', '0'] && cs.all fun c => c.isDigit || c == '-'

/-- The whole number a spelling stands for. -/
def int? : Tree → Option Int
  | number spelling =>
    if isWholeSpelling spelling then Text.Numeral.signed? spelling else none
  | _ => none

def intBetween? (low high : Int) (t : Tree) : Option Int :=
  t.int?.filter fun n => low ≤ n && n ≤ high

def int64? (t : Tree) : Option Int :=
  t.intBetween? Text.Numeral.minInt64 Text.Numeral.maxInt64

def int32? (t : Tree) : Option Int := t.intBetween? (-2147483648) 2147483647

def uint64? (t : Tree) : Option UInt64 := t.int?.bind Text.Numeral.word64?

/-- A value that may be `null`. -/
def nullable? {α : Type} (read : Tree → Option α) : Tree → Option (Option α)
  | null => some none
  | t => (read t).map some

def list? {α : Type} (read : Tree → Option α) : Tree → Option (List α)
  | array items => items.mapM read
  | _ => none

/-- All members of an object under their decoded keys. -/
def entries? {α : Type} (read : Tree → Option α) : Tree → Option (List (String × α))
  | object members => members.mapM fun member =>
    (decodeString? member.1).bind fun key => (read member.2).map fun value => (key, value)
  | _ => none

mutual

/-- Every string in the tree decodes and every number in it is in range. -/
def isReadable : Tree → Bool
  | null => true
  | bool _ => true
  | number spelling => (Scaled.ofSpelling spelling).isInRange
  | text spelling => (decode? spelling).isSome
  | array items => areReadable items
  | object members => membersReadable members

def areReadable : List Tree → Bool
  | [] => true
  | t :: ts => isReadable t && areReadable ts

def membersReadable : List (List Char × Tree) → Bool
  | [] => true
  | (key, value) :: members =>
    (decode? key).isSome && isReadable value && membersReadable members

end

end Tree
end ContentProjection.Json
