import ContentProjection.Settings.Yaml.Cursor
import ContentProjection.Settings.Yaml.Scalar

/-!
# Tokens of a YAML document

Brackets, commas, dashes, question marks, colons and scalars become tokens, and so
do the starts and ends of indented collections. An indented collection starts
where a dash or a key stands deeper than the one around it, and ends before the
first token that stands less deep; inside brackets indentation means nothing. What
stands before a colon is a key when it starts where a key may start, on the same
line and at most 1024 characters before; its tokens are put before it when the
colon is found. Anchors, aliases, tags, block scalars and directives are no part
of a settings file.
-/
namespace ContentProjection.Settings.Yaml

inductive Token where
  | documentStart
  | documentEnd
  | listStart
  | groupStart
  /-- The end of an indented list or group. -/
  | collectionEnd
  | openList
  | closeList
  | openGroup
  | closeGroup
  | comma
  | item
  | key
  | value
  | scalar (quoted : Bool) (text : List Char)
  deriving DecidableEq, Repr

/-- A place where a key starts if a colon follows what stands there. -/
structure KeyStart where
  /-- The number of tokens before it. -/
  tokensBefore : Nat
  index : Nat
  line : Nat
  column : Nat
  /-- Nothing but a key may start there. -/
  required : Bool
  deriving DecidableEq, Repr

/-- A key has at most this many characters. -/
def maxKeyLength : Nat := 1024

def KeyStart.isPast (k : KeyStart) (c : Cursor) : Bool :=
  k.line < c.line || k.index + maxKeyLength < c.index

/-- How far the tokens of a document have been read. -/
structure TokenState where
  cursor : Cursor
  /-- The tokens so far, the last one first. -/
  tokens : List Token
  /-- The columns of the indented collections around the cursor, the innermost first. -/
  columns : List Nat
  /-- Where a key may have started, inside the innermost brackets. -/
  keyStart : Option KeyStart
  /-- The same for what is around each pair of brackets, the innermost first. -/
  outerKeyStarts : List (Option KeyStart)
  /-- A key may start at the cursor. -/
  takesKey : Bool
  deriving DecidableEq, Repr

namespace TokenState

def ofChars (cs : List Char) : TokenState := ⟨Cursor.ofChars cs, [], [], none, [], true⟩

def isBracketed (s : TokenState) : Bool := !s.outerKeyStarts.isEmpty

/-- The least column of what belongs to the innermost indented collection. -/
def floor (s : TokenState) : Nat :=
  match s.columns with
  | [] => 0
  | column :: _ => column + 1

/-- Reads a token of `length` characters. -/
def emit (s : TokenState) (token : Token) (length : Nat) : TokenState :=
  { s with tokens := token :: s.tokens, cursor := s.cursor.advance length }

/-- Puts a token behind the first `count` tokens. -/
def insertAfter (s : TokenState) (count : Nat) (token : Token) : TokenState :=
  let later := s.tokens.length - count
  { s with tokens := s.tokens.take later ++ token :: s.tokens.drop later }

/-- Starts an indented collection at a deeper column, behind the first `count` tokens. -/
def openAt (s : TokenState) (column count : Nat) (start : Token) : TokenState :=
  if s.isBracketed || column < s.floor then s
  else { s.insertAfter count start with columns := column :: s.columns }

/-- Starts an indented collection at the cursor, if it stands deeper. -/
def openHere (s : TokenState) (start : Token) : TokenState :=
  s.openAt s.cursor.column s.tokens.length start

/-- Ends the indented collections that the predicate picks from the innermost on. -/
def closeWhile (s : TokenState) (ends : Nat → Bool) : TokenState :=
  if s.isBracketed then s
  else
    let ended := s.columns.takeWhile ends
    { s with
      tokens := List.replicate ended.length .collectionEnd ++ s.tokens
      columns := s.columns.drop ended.length }

/-- No key started where one may have; `none` when one had to. -/
def dropKey? (s : TokenState) : Option TokenState :=
  if s.keyStart.any KeyStart.required then none else some { s with keyStart := none }

/-- Notes that a key may start at the cursor. -/
def noteKey? (s : TokenState) : Option TokenState :=
  if s.takesKey then
    let required := !s.isBracketed && s.columns.head? == some s.cursor.column
    let start : KeyStart :=
      ⟨s.tokens.length, s.cursor.index, s.cursor.line, s.cursor.column, required⟩
    s.dropKey?.map fun s' => { s' with keyStart := some start }
  else some s

/-- A start of a key without those that the cursor has left behind. -/
def currentKey? (c : Cursor) : Option KeyStart → Option (Option KeyStart)
  | none => some none
  | some k => if k.isPast c then (if k.required then none else some none) else some (some k)

def dropPastKeys? (s : TokenState) : Option TokenState := do
  let keyStart ← currentKey? s.cursor s.keyStart
  let outerKeyStarts ← s.outerKeyStarts.mapM (currentKey? s.cursor)
  return { s with keyStart, outerKeyStarts }

/-- The characters before the next token, and whether a key may start behind them. -/
def gapLength (bracketed : Bool) (inComment takesKey : Bool) : List Char → Nat × Bool
  | [] => (0, takesKey)
  | c :: rest =>
    let passed (inComment takesKey : Bool) : Nat × Bool :=
      let (length, takesKey') := gapLength bracketed inComment takesKey rest
      (length + 1, takesKey')
    if isBreak c then passed false (takesKey || !bracketed)
    else if inComment || c = '#' then passed true takesKey
    else if c = ' ' || (c = '\t' && (bracketed || !takesKey)) then passed false takesKey
    else (0, takesKey)

/-- Goes to the next token, past blanks and comments. -/
def skipGap (s : TokenState) : TokenState :=
  let (length, takesKey) := gapLength s.isBracketed false s.takesKey s.cursor.rest
  { s with cursor := s.cursor.advance length, takesKey }

/-- Goes to the next token and ends the collections that do not reach it. -/
def settle? (s : TokenState) : Option TokenState :=
  s.skipGap.dropPastKeys?.map fun s' => s'.closeWhile fun column => s'.cursor.column < column

/-- Ends all indented collections, at the end of a document. -/
def closeAll? (s : TokenState) : Option TokenState :=
  (s.closeWhile fun _ => true).dropKey?

def documentMark? (s : TokenState) (mark : Token) : Option TokenState :=
  s.closeAll?.map fun s' => { s' with takesKey := false }.emit mark 3

def openBracket? (s : TokenState) (token : Token) : Option TokenState :=
  s.noteKey?.map fun s' =>
    { s' with
      keyStart := none
      outerKeyStarts := s'.keyStart :: s'.outerKeyStarts
      takesKey := true }.emit token 1

def closeBracket? (s : TokenState) (token : Token) : Option TokenState :=
  s.dropKey?.map fun s' =>
    { s' with
      keyStart := s'.outerKeyStarts.head?.join
      outerKeyStarts := s'.outerKeyStarts.tail
      takesKey := false }.emit token 1

def comma? (s : TokenState) : Option TokenState :=
  s.dropKey?.map fun s' => { s' with takesKey := true }.emit .comma 1

def item? (s : TokenState) : Option TokenState :=
  if s.isBracketed || s.takesKey then
    (s.openHere .listStart).dropKey?.map fun s' => { s' with takesKey := true }.emit .item 1
  else none

def explicitKey? (s : TokenState) : Option TokenState :=
  if s.isBracketed || s.takesKey then
    (s.openHere .groupStart).dropKey?.map fun s' =>
      { s' with takesKey := !s.isBracketed }.emit .key 1
  else none

/-- What stands from here on to the cursor is a key. -/
def withKeyAt (s : TokenState) (k : KeyStart) : TokenState :=
  (s.insertAfter k.tokensBefore .key).openAt k.column k.tokensBefore .groupStart

def value? (s : TokenState) : Option TokenState :=
  match s.keyStart with
  | some k =>
    some ({ s.withKeyAt k with keyStart := none, takesKey := false }.emit .value 1)
  | none =>
    if s.isBracketed || s.takesKey then
      some ({ s.openHere .groupStart with takesKey := !s.isBracketed }.emit .value 1)
    else none

def scalar (s : TokenState) (quoted : Bool) (text rest : List Char) : TokenState :=
  { s with
    tokens := .scalar quoted text :: s.tokens
    cursor := s.cursor.before rest
    takesKey := false }

def quoted? (s : TokenState) (found : Option (List Char × List Char)) : Option TokenState := do
  let s' ← s.noteKey?
  let (text, rest) ← found
  return s'.scalar true text rest

def plain? (s : TokenState) : Option TokenState := do
  let s' ← s.noteKey?
  let found ← plainRest? s.isBracketed s.floor Gap.empty s.cursor.rest
  return { s'.scalar false found.text found.rest with takesKey := found.isBroken }

/-- Reads the token that starts at the cursor. -/
def token? (s : TokenState) : Option TokenState :=
  match s.cursor.rest with
  | [] => none
  | c :: rest =>
    let endsHere := s.isBracketed || endsWord rest
    if s.cursor.column = 0 && startsMark '-' (c :: rest) then s.documentMark? .documentStart
    else if s.cursor.column = 0 && startsMark '.' (c :: rest) then s.documentMark? .documentEnd
    else if c = '[' then s.openBracket? .openList
    else if c = ']' then s.closeBracket? .closeList
    else if c = '\x7b' then s.openBracket? .openGroup
    else if c = '\x7d' then s.closeBracket? .closeGroup
    else if c = ',' then s.comma?
    else if c = '-' && endsWord rest then s.item?
    else if c = '?' && endsHere then s.explicitKey?
    else if c = ':' && endsHere then s.value?
    else if c = '\'' then s.quoted? (singleQuoted? Gap.empty rest)
    else if c = '"' then s.quoted? (doubleQuoted? Gap.empty rest)
    else if mayStartPlain c then s.plain?
    else none

/-- Reads at most `fuel` tokens up to the end of the text. -/
def readAll? (fuel : Nat) (s : TokenState) : Option (List Token) :=
  match fuel with
  | 0 => none
  | fuel + 1 =>
    s.settle?.bind fun s' =>
      if s'.cursor.rest.isEmpty then s'.closeAll?.map fun ended => ended.tokens.reverse
      else s'.token?.bind (readAll? fuel)

end TokenState

/-- The tokens of a text; each takes at least one character. -/
def tokens? (text : String) : Option (List Token) :=
  let cs := text.toList
  if cs.all isAllowed then TokenState.readAll? (cs.length + 1) (TokenState.ofChars cs) else none

end ContentProjection.Settings.Yaml
