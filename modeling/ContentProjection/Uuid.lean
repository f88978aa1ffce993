import ContentProjection.Text.Hexadecimal
import ContentProjection.Text.Split

/-!
# Universally unique identifiers

A UUID is its 32 hexadecimal digits. It is always written in lower case, in
groups of 8, 4, 4, 4 and 12 digits joined by hyphens. Four notations are read:
that form, the bare digits, the form in braces, and the form after `urn:uuid:`;
digits of either case are accepted in all of them. `isCanonical` recognises the
written form alone.
-/
namespace ContentProjection

structure Uuid where
  digits : List (Fin 16)
  length_digits : digits.length = 32
  deriving DecidableEq, Repr

namespace Uuid

def isLowerHex (c : Char) : Bool := c.isDigit || ('a' ≤ c && c ≤ 'f')

def groupLengths : List Nat := [8, 4, 4, 4, 12]

/-- The five groups of the digits, in order. -/
def groups (u : Uuid) : List (List (Fin 16)) :=
  [u.digits.take 8, (u.digits.drop 8).take 4, (u.digits.drop 12).take 4,
    (u.digits.drop 16).take 4, u.digits.drop 20]

def chars (u : Uuid) : List Char :=
  ['-'].intercalate (u.groups.map fun group => group.map Text.hexChar)

def text (u : Uuid) : String := String.ofList u.chars

instance : ToString Uuid := ⟨text⟩

/-- The digits without any mark between them. -/
def ofDigits? (cs : List Char) : Option Uuid :=
  (cs.mapM Text.hexValue?).bind fun ds =>
    if h : ds.length = 32 then some ⟨ds, h⟩ else none

def ofGroups? (cs : List Char) : Option Uuid :=
  let parts := Text.splitOn '-' cs
  if parts.map List.length = groupLengths then ofDigits? parts.flatten else none

/-- The text between a leading and a trailing brace. -/
def unbraced? : List Char → Option (List Char)
  | '\x7b' :: cs => if cs.getLast? = some '\x7d' then some cs.dropLast else none
  | _ => none

def ofChars? (cs : List Char) : Option Uuid :=
  match unbraced? cs with
  | some inner => ofGroups? inner
  | none =>
    match Text.dropWord? "urn:uuid:".toList cs with
    | some rest => ofGroups? rest
    | none => if cs.length = 32 then ofDigits? cs else ofGroups? cs

def ofString? (s : String) : Option Uuid := ofChars? s.toList

/-- Exactly the written form: lower-case digits in the five groups. -/
def isCanonical (s : String) : Bool :=
  let parts := Text.splitOn '-' s.toList
  parts.map List.length == groupLengths && parts.all fun part => part.all isLowerHex

/-- The UUID whose digits are all the last digit of a number. -/
def repeating (n : Nat) : Uuid :=
  ⟨List.replicate 32 (Text.lastHexDigit n), List.length_replicate⟩

/-- The UUID whose digits write a number. -/
def ofNat (n : Nat) : Uuid :=
  ⟨(List.range 32).map fun k => Text.lastHexDigit (n >>> (4 * (31 - k))),
    by rw [List.length_map, List.length_range]⟩

theorem hexChar_ne_hyphen (d : Fin 16) : Text.hexChar d ≠ '-' := by
  revert d
  decide

theorem isLowerHex_hexChar (d : Fin 16) : isLowerHex (Text.hexChar d) = true := by
  revert d
  decide

theorem flatten_groups (u : Uuid) : u.groups.flatten = u.digits := by
  have h20 : u.digits.drop 20 = (u.digits.drop 16).drop 4 := by rw [List.drop_drop]
  have h16 : u.digits.drop 16 = (u.digits.drop 12).drop 4 := by rw [List.drop_drop]
  have h12 : u.digits.drop 12 = (u.digits.drop 8).drop 4 := by rw [List.drop_drop]
  simp only [groups, List.flatten_cons, List.flatten_nil, List.append_nil]
  rw [h20, List.take_append_drop, h16, List.take_append_drop, h12, List.take_append_drop,
    List.take_append_drop]

/-- The written form without its hyphens has the digits in their order. -/
theorem filterMap_hexValue?_chars (u : Uuid) : u.chars.filterMap Text.hexValue? = u.digits := by
  have hhyphen : Text.hexValue? '-' = none := by decide
  have hgroup : ∀ ds : List (Fin 16), (ds.map Text.hexChar).filterMap Text.hexValue? = ds := by
    intro ds
    rw [List.filterMap_map, funext (f := Text.hexValue? ∘ Text.hexChar) Text.hexValue?_hexChar,
      List.filterMap_some]
  rw [← u.flatten_groups]
  simp [chars, groups, List.intercalate, hhyphen, hgroup, -List.map_take, -List.map_drop]

theorem text_inj {u v : Uuid} : u.text = v.text ↔ u = v := by
  constructor
  · intro h
    have hchars : u.chars = v.chars := String.ofList_injective h
    have hdigits := congrArg (List.filterMap Text.hexValue?) hchars
    rw [filterMap_hexValue?_chars, filterMap_hexValue?_chars] at hdigits
    cases u
    cases v
    cases hdigits
    rfl
  · exact congrArg text

end Uuid
end ContentProjection
