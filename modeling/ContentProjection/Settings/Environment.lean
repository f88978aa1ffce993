import ContentProjection.Settings.Layer
import ContentProjection.Text.Blank
import ContentProjection.Text.Hexadecimal
import ContentProjection.Text.Split
import ContentProjection.Text.Utf8

/-!
# Settings from environment variables

A variable belongs to the program when its name starts with `APP__` in any case.
The rest of the name, in lower case, is the path of a setting, its names joined
by double underscores or dots; a variable with an empty name in its path counts
as not set. A value is a truth value, a number, a list in square brackets, a
group in braces, or a quoted text. Where its spelling is none of these as a
whole, the value is its very spelling. Numbers with a point are reals; a number
that fits neither word of 64 bits is text.

A quoted text with an escape keeps only a start of what stands before its first
backslash: as many bytes as that has characters. Where this would cut a character
in two, no settings can be read at all.
-/
namespace ContentProjection.Settings.Environment

def nameStart : String := "app__"

/-- Double underscores as dots, from the left. -/
def dotted : List Char → List Char
  | '_' :: '_' :: rest => '.' :: dotted rest
  | c :: rest => c :: dotted rest
  | [] => []

/-- The path of the setting that a variable of this name sets. -/
def path? (name : String) : Option (List String) :=
  (Text.dropWord? nameStart.toList (name.toList.map Char.toLower)).bind fun rest =>
    let parts := Text.splitOn '.' (dotted rest)
    if parts.any List.isEmpty then none else some (parts.map String.ofList)

def isGap (c : Char) : Bool :=
  c = ' ' || c = '\t' || c = '\n' || c = '\r' || c = '\x0c'

def skipGaps (cs : List Char) : List Char := cs.dropWhile isGap

def isMark (c : Char) : Bool := c = ',' || c = '[' || c = ']' || c = '\x7b' || c = '\x7d'

def isKeyChar (c : Char) : Bool := c.isAlphanum || c = '_' || c = '-'

/-- A real has a point and is spelled as a decimal number. -/
def isReal (cs : List Char) : Bool := cs.contains '.' && (Text.Real.whole? cs).isSome

/-- A value that is neither quoted nor bracketed. -/
def bare (cs : List Char) : Layer :=
  let spelling := Text.trim cs
  if isReal spelling then .real (String.ofList spelling)
  else
    match Text.Numeral.uint64? spelling with
    | some n => .int n.toNat
    | none =>
      match Text.Numeral.int64? spelling with
      | some n => .int n
      | none => .text (String.ofList spelling)

def escapes : List (Char × Char) :=
  [('b', '\x08'), ('t', '\t'), ('n', '\n'), ('f', '\x0c'), ('r', '\r'), ('"', '"'), ('\\', '\\')]

/-- Why a spelling is not read as a value. -/
inductive Misreading where
  /-- It does not have the form of one. -/
  | formless
  /-- A quoted text in it would end inside a character. -/
  | torn
  deriving DecidableEq, Repr

def formless {α : Type} : Except Misreading α := .error .formless

def orFormless {α : Type} : Option α → Except Misreading α
  | some a => .ok a
  | none => formless

/-- What stands before the closing quote, and what follows it. -/
def quotedBody? : List Char → Option (List Char × List Char)
  | [] => none
  | '"' :: rest => some ([], rest)
  | '\\' :: c :: rest =>
    (quotedBody? rest).map fun (body, after) => ('\\' :: c :: body, after)
  | c :: rest => (quotedBody? rest).map fun (body, after) => (c :: body, after)

/-- A tab, or no control of ASCII. -/
def isQuotable (c : Char) : Bool := c = '\t' || (0x20 ≤ c.toNat && c.toNat != 0x7F)

/-- The characters of a quoted text from its first backslash on. -/
def unescaped? : List Char → Option (List Char)
  | [] => some []
  | '\\' :: 'u' :: a :: b :: c :: d :: rest =>
    (Text.charOfHex? [a, b, c, d]).bind fun e => (unescaped? rest).map fun text => e :: text
  | '\\' :: 'U' :: a :: b :: c :: d :: e :: f :: g :: h :: rest =>
    (Text.charOfHex? [a, b, c, d, e, f, g, h]).bind fun e =>
      (unescaped? rest).map fun text => e :: text
  | '\\' :: c :: rest =>
    (escapes.lookup c).bind fun e => (unescaped? rest).map fun text => e :: text
  | c :: rest => if isQuotable c then (unescaped? rest).map fun text => c :: text else none

/-- The start of a text that takes `count` bytes, if a character ends there. -/
def bytesOf? (count : Nat) (cs : List Char) : Option String :=
  Text.Utf8.strict? ((Text.Utf8.bytes (String.ofList cs)).take count)

/-- The text that a quoted body stands for. -/
def ofBody (body : List Char) : Except Misreading String :=
  let raw := body.takeWhile (· != '\\')
  let escaped := body.dropWhile (· != '\\')
  if !raw.all isQuotable then formless
  else if escaped.isEmpty then .ok (String.ofList raw)
  else
    match bytesOf? raw.length raw with
    | none => .error .torn
    | some kept => (orFormless (unescaped? escaped)).map fun rest => kept ++ String.ofList rest

/-- A quoted text after its opening quote, and what follows it. -/
def quoted (cs : List Char) : Except Misreading (String × List Char) := do
  let (body, after) ← orFormless (quotedBody? cs)
  return (← ofBody body, after)

/-- A key in quotes or of key characters, and what follows it. -/
def key (cs : List Char) : Except Misreading (String × List Char) :=
  match cs with
  | '"' :: rest => quoted rest
  | _ =>
    let key := cs.takeWhile isKeyChar
    if key.isEmpty then formless else .ok (String.ofList key, cs.dropWhile isKeyChar)

mutual

/-- A value with the gaps around it, and what follows it. -/
def value (fuel : Nat) (cs : List Char) : Except Misreading (Layer × List Char) :=
  match fuel with
  | 0 => formless
  | fuel + 1 =>
    let found : Except Misreading (Layer × List Char) :=
      match skipGaps cs with
      | 't' :: 'r' :: 'u' :: 'e' :: rest => .ok (.bool true, rest)
      | 'f' :: 'a' :: 'l' :: 's' :: 'e' :: rest => .ok (.bool false, rest)
      | '[' :: rest => (items fuel rest).map fun (items, after) => (.list items, after)
      | '\x7b' :: rest =>
        (entries fuel rest).map fun (entries, after) => (Layer.ofEntries entries, after)
      | '"' :: rest => (quoted rest).map fun (text, after) => (.text text, after)
      | '\'' :: c :: '\'' :: rest => .ok (.text (String.ofList [c]), rest)
      | '\'' :: _ => formless
      | other =>
        .ok (bare (other.takeWhile fun c => !isMark c), other.dropWhile fun c => !isMark c)
    found.map fun (layer, rest) => (layer, skipGaps rest)

/-- The elements of a list up to its closing bracket. -/
def items (fuel : Nat) (cs : List Char) : Except Misreading (List Layer × List Char) :=
  match fuel, cs with
  | 0, _ => formless
  | _ + 1, ']' :: rest => .ok ([], rest)
  | fuel + 1, _ => do
    let (item, rest) ← value fuel cs
    match rest with
    | ',' :: more => (items fuel more).map fun (items, after) => (item :: items, after)
    | ']' :: after => .ok ([item], after)
    | _ => formless

/-- The entries of a group up to its closing brace. -/
def entries (fuel : Nat) (cs : List Char) : Except Misreading (List (String × Layer) × List Char) :=
  match fuel, cs with
  | 0, _ => formless
  | _ + 1, '\x7d' :: rest => .ok ([], rest)
  | fuel + 1, _ => do
    let (key, afterKey) ← key (skipGaps cs)
    match skipGaps afterKey with
    | '=' :: start => do
      let (value, rest) ← value fuel start
      match rest with
      | ',' :: more =>
        (entries fuel more).map fun (entries, after) => ((key, value) :: entries, after)
      | '\x7d' :: after => .ok ([(key, value)], after)
      | _ => formless
    | _ => formless

end

/-- What a variable with this spelling is set to, unless a text in it is torn. -/
def ofSpelling? (spelling : String) : Option Layer :=
  let cs := spelling.toList
  match value (2 * cs.length + 2) cs with
  | .ok (layer, []) => some layer
  | .error .torn => none
  | _ => some (.text spelling)

/-- The variables of a block that separates them by null characters. -/
def ofBlock (block : String) : List (String × String) :=
  (Text.splitOn (Char.ofNat 0) block.toList).filterMap fun entry =>
    (Text.splitFirst? '=' entry).map fun (name, value) => (String.ofList name, String.ofList value)

/-- The layer of all variables, later ones laid over earlier ones, unless one is torn. -/
def layer? (entries : List (String × String)) : Option Layer :=
  entries.foldlM (fun below entry =>
    match path? entry.1 with
    | some path => (ofSpelling? entry.2).map fun leaf => below.under (Layer.atPath path leaf)
    | none => some below) Layer.empty

end ContentProjection.Settings.Environment
