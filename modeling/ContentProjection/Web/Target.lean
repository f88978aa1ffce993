import ContentProjection.Text.Split

/-!
# Request targets

A target is a path and perhaps a query; a fragment is dropped. Some characters
must be escaped in a target, blanks and angle brackets among them, and a text
that holds one unescaped is no target. A target may also start with a scheme and
an authority, which are passed over, or be an authority alone, with no path. An
authority has user information before its last at sign, one host that may stand
in square brackets, and at most one colon behind it.
-/
namespace ContentProjection

structure Target where
  path : List Char
  query : Option String
  deriving DecidableEq, Repr

namespace Target

def maxLength : Nat := 65534

def maxSchemeLength : Nat := 64

/-- Past the blanks and controls of ASCII. -/
def isVisible (c : Char) : Bool := 0x20 < c.toNat && c.toNat != 0x7F

def isPathChar (c : Char) : Bool :=
  isVisible c && c != '<' && c != '>' && c.toNat != 0x60

def isQueryChar (c : Char) : Bool :=
  isVisible c && c != '"' && c != '<' && c != '>'

def ofPathAndQuery? (cs : List Char) : Option Target :=
  let text := cs.takeWhile (· != '#')
  match Text.splitFirst? '?' text with
  | some (path, query) =>
    if path.all isPathChar && query.all isQueryChar then
      some ⟨path, some (String.ofList query)⟩
    else none
  | none => if text.all isPathChar then some ⟨text, none⟩ else none

def isAuthorityChar (c : Char) : Bool :=
  c.isAlphanum || "-._~!$&'()*+,;=".toList.contains c

/-- What an authority has shown so far, counted anew after user information and
after a host in brackets. -/
structure AuthorityMarks where
  colons : Nat
  escaped : Bool
  opened : Bool
  closed : Bool
  deriving DecidableEq, Repr

namespace AuthorityMarks

def start : AuthorityMarks := ⟨0, false, false, false⟩

/-- A host in brackets has at most this many colons. -/
def maxColons : Nat := 8

def next? (m : AuthorityMarks) (c : Char) : Option AuthorityMarks :=
  if c = ':' then if m.colons < maxColons then some { m with colons := m.colons + 1 } else none
  else if c = '[' then
    if m.escaped || m.opened then none else some { m with opened := true }
  else if c = ']' then
    if !m.opened || m.closed then none else some ⟨0, false, true, true⟩
  else if c = '@' then some { m with colons := 0, escaped := false }
  else if c = '%' then some { m with escaped := true }
  else if isAuthorityChar c then some m
  else none

/-- An authority may end after these. -/
def isComplete (m : AuthorityMarks) : Bool :=
  m.opened == m.closed && m.colons ≤ 1 && !m.escaped

end AuthorityMarks

def isAuthority (cs : List Char) : Bool :=
  (cs.foldlM AuthorityMarks.next? AuthorityMarks.start).any AuthorityMarks.isComplete
    && cs.getLast? != some '@'

def isSchemeChar (c : Char) : Bool := c.isAlphanum || "+-.~".toList.contains c

/-- The scheme before a colon and two slashes, and what follows them. -/
def scheme? (cs : List Char) : Option (List Char × List Char) :=
  (Text.splitFirst? ':' cs).bind fun (scheme, after) =>
    if scheme.all isSchemeChar then (Text.dropWord? ['/', '/'] after).map fun rest => (scheme, rest)
    else none

/-- A target behind its scheme: an authority, and the root when the path after it is empty. -/
def ofAbsolute? (cs : List Char) : Option Target :=
  let authority := cs.takeWhile fun c => c != '/' && c != '?' && c != '#'
  if authority.isEmpty || !isAuthority authority then none
  else
    (ofPathAndQuery? (cs.drop authority.length)).map fun target =>
      if target.path.isEmpty then { target with path := ['/'] } else target

def ofText? (s : String) : Option Target :=
  let cs := s.toList
  if maxLength < s.utf8ByteSize then none
  else
    match cs with
    | [] => none
    | '/' :: _ => ofPathAndQuery? cs
    | ['*'] => some ⟨cs, none⟩
    | _ =>
      match scheme? cs with
      | some (scheme, rest) => if maxSchemeLength < scheme.length then none else ofAbsolute? rest
      | none => if isAuthority cs then some ⟨[], none⟩ else none

end Target
end ContentProjection
