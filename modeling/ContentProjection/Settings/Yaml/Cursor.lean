import ContentProjection.Settings.Yaml.Character

/-!
# Places in a YAML document

A cursor holds the text that is still to be read and where it begins: after how
many characters and lines, and after how many characters of its line. Of a carriage
return and a line feed only the second ends the line.
-/
namespace ContentProjection.Settings.Yaml

structure Cursor where
  rest : List Char
  index : Nat
  line : Nat
  column : Nat
  deriving DecidableEq, Repr

namespace Cursor

/-- One character on. -/
def next (c : Cursor) : Cursor :=
  match c.rest with
  | [] => c
  | ch :: rest =>
    if isBreak ch && !(ch = '\r' && rest.head? == some '\n') then
      ⟨rest, c.index + 1, c.line + 1, 0⟩
    else ⟨rest, c.index + 1, c.line, c.column + 1⟩

def advance : Nat → Cursor → Cursor
  | 0, c => c
  | n + 1, c => advance n c.next

/-- Behind the characters that were read when `rest` is left of the text. -/
def before (c : Cursor) (rest : List Char) : Cursor :=
  c.advance (c.rest.length - rest.length)

/-- The start of a text, behind a byte order mark. -/
def ofChars (cs : List Char) : Cursor :=
  let start : Cursor := ⟨cs, 0, 0, 0⟩
  if cs.head? == some byteOrderMark then start.next else start

end Cursor
end ContentProjection.Settings.Yaml
