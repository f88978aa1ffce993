import ContentProjection.Proofs.Answers
import ContentProjection.Proofs.Lists
import Mathlib.Data.List.TakeWhile

/-!
# Tokens that are read back

The written form of a UUID is read as that UUID and as no other notation, so as
a token it names what the UUID finds. The internal path of an entity carries its
id for its own kind: the search inside the path steps over the slash in front
and takes every digit after the root. Any other token is an alias and leads where
its path leads.
-/
namespace ContentProjection

theorem Text.mapM_hexValue?_map (ds : List (Fin 16)) :
    (ds.map hexChar).mapM hexValue? = some ds :=
  mapM_map_eq_some fun d _ => hexValue?_hexChar d

namespace Uuid

theorem hexChar_ne_of_not_lowerHex {c : Char} (h : isLowerHex c = false) (d : Fin 16) :
    Text.hexChar d ≠ c := by
  intro heq
  have hlower := isLowerHex_hexChar d
  rw [heq, h] at hlower
  cases hlower

variable (u : Uuid)

theorem splitOn_chars :
    Text.splitOn '-' u.chars = u.groups.map fun group => group.map Text.hexChar := by
  refine Text.splitOn_intercalate (by simp [groups]) fun part hp hmem => ?_
  obtain ⟨group, -, rfl⟩ := List.mem_map.1 hp
  obtain ⟨d, -, hd⟩ := List.mem_map.1 hmem
  exact hexChar_ne_hyphen d hd

theorem map_length_splitOn_chars :
    (Text.splitOn '-' u.chars).map List.length = groupLengths := by
  rw [splitOn_chars]
  simp [groups, groupLengths, u.length_digits]

theorem flatten_splitOn_chars :
    (Text.splitOn '-' u.chars).flatten = u.digits.map Text.hexChar := by
  rw [splitOn_chars, ← List.map_flatten, flatten_groups]

theorem length_chars : u.chars.length = 36 := by
  simp [chars, groups, List.intercalate, u.length_digits]

/-- The written form starts with a digit, which no other notation but the bare digits does. -/
theorem chars_eq_cons : ∃ d rest, u.chars = Text.hexChar d :: rest := by
  cases hd : u.digits with
  | nil => exact absurd u.length_digits (by simp [hd])
  | cons d ds => exact ⟨d, _, by simp [chars, groups, hd, List.intercalate]; rfl⟩

theorem ofGroups?_chars : ofGroups? u.chars = some u := by
  rw [ofGroups?, map_length_splitOn_chars, if_pos rfl, flatten_splitOn_chars, ofDigits?,
    Text.mapM_hexValue?_map, Option.bind_some, dif_pos u.length_digits]

theorem unbraced?_chars : unbraced? u.chars = none := by
  obtain ⟨d, rest, hchars⟩ := u.chars_eq_cons
  rw [hchars]
  unfold unbraced?
  split
  · next heq => exact absurd (List.cons.inj heq).1 (hexChar_ne_of_not_lowerHex (by decide) d)
  · rfl

theorem dropWord?_urn_chars : Text.dropWord? "urn:uuid:".toList u.chars = none := by
  obtain ⟨d, rest, hchars⟩ := u.chars_eq_cons
  rw [hchars]
  exact if_neg (Ne.symm (hexChar_ne_of_not_lowerHex (by decide) d))

theorem ofString?_text : ofString? u.text = some u := by
  have hlength : u.chars.length ≠ 32 := by simp [length_chars]
  rw [ofString?, text, String.toList_ofList, ofChars?, unbraced?_chars, dropWord?_urn_chars,
    if_neg hlength, ofGroups?_chars]

theorem isCanonical_text : isCanonical u.text = true := by
  rw [isCanonical, text, String.toList_ofList, map_length_splitOn_chars, splitOn_chars]
  simp [isLowerHex_hexChar]

theorem text_ne_empty : u.text ≠ "" := by
  obtain ⟨d, rest, hchars⟩ := u.chars_eq_cons
  simp [text, hchars]

end Uuid

namespace Text.Numeral

theorem unsigned?_of_all_isDigit {ds : List Char} (h : ∀ c ∈ ds, c.isDigit = true) :
    unsigned? ds = natural? ds := by
  unfold unsigned?
  split
  · exact absurd (h '+' List.mem_cons_self) (by decide)
  · rfl

theorem isDigit_of_mem_toDigits {n : Nat} {c : Char} (h : c ∈ Nat.toDigits 10 n) :
    c.isDigit = true :=
  Nat.isDigit_of_mem_toDigits (by decide) (by decide) h

theorem value_toDigits (n : Nat) : value (Nat.toDigits 10 n) = n :=
  Nat.ofDigitChars_ten_toDigits

theorem uint64?_toDigits (w : UInt64) : uint64? (Nat.toDigits 10 w.toNat) = some w := by
  have hdigits : ∀ c ∈ Nat.toDigits 10 w.toNat, c.isDigit = true := fun _ =>
    isDigit_of_mem_toDigits
  have hempty : (Nat.toDigits 10 w.toNat).isEmpty = false := by simp [Nat.toDigits_ne_nil]
  rw [uint64?_eq_some_iff, unsigned?_of_all_isDigit hdigits, natural?, hempty,
    List.all_eq_true.2 hdigits, value_toDigits]
  rfl

end Text.Numeral

namespace Token

theorem digitsAfter?_append {mark ds : List Char} (hm : mark ≠ []) (hne : ds ≠ [])
    (hd : ∀ c ∈ ds, Text.isDecimalDigit c = true) : digitsAfter? mark (mark ++ ds) = some ds := by
  obtain ⟨m, ms, rfl⟩ := List.exists_cons_of_ne_nil hm
  obtain ⟨d, rest, rfl⟩ := List.exists_cons_of_ne_nil hne
  have hdrop : Text.dropWord? (m :: ms) (m :: (ms ++ d :: rest)) = some (d :: rest) :=
    Text.dropWord?_eq_some_iff.2 rfl
  have htake : (d :: rest).takeWhile Text.isDecimalDigit = d :: rest :=
    List.takeWhile_eq_self_iff.2 hd
  rw [List.cons_append, digitsAfter?, hdrop, Option.map_some, htake]

theorem toList_internalPath (kind : EntityKind) (id : EntityId) :
    (kind.internalPath id).toList = '/' :: (pathMark kind ++ Nat.toDigits 10 id.toNat) := by
  rw [EntityKind.internalPath, String.toList_append, Nat.toString_eq_ofList_toDigits,
    String.toList_ofList]
  cases kind <;> rfl

/-- The path of an entity carries its id for its own kind. -/
theorem idOfPath?_internalPath (kind : EntityKind) (id : EntityId) :
    idOfPath? kind (kind.internalPath id) = some id := by
  have hroot : Text.dropWord? (pathMark kind) ('/' :: (pathMark kind ++ Nat.toDigits 10 id.toNat)) =
      none := by
    cases kind <;> rfl
  have hdigits : digitsAfter? (pathMark kind) (pathMark kind ++ Nat.toDigits 10 id.toNat) =
      some (Nat.toDigits 10 id.toNat) := by
    refine digitsAfter?_append (by cases kind <;> decide) Nat.toDigits_ne_nil fun c hc => ?_
    exact Text.isDecimalDigit_of_isDigit (Text.Numeral.isDigit_of_mem_toDigits hc)
  rw [idOfPath?, toList_internalPath, digitsAfter?, hroot, Option.map_none]
  dsimp only
  rw [hdigits, Option.bind_some, Text.Numeral.uint64?_toDigits]

theorem ofString_text (u : Uuid) : ofString u.text = uuid u := by
  rw [ofString, u.ofString?_text]
  exact if_pos u.isCanonical_text

theorem ofString_of_not_canonical {s : String} (h : Uuid.isCanonical s = false) :
    ofString s = publicAlias s := by
  unfold ofString
  split
  · rw [h]
    rfl
  · rfl

end Token

namespace Storage

variable {m : Type → Type} [Monad m] (s : Storage m) (kind : EntityKind)

theorem findEntity_text (u : Uuid) : s.findEntity kind u.text = s.loadByUuid kind u := by
  have hempty : u.text.isEmpty = false := by simpa using u.text_ne_empty
  rw [findEntity, hempty, Token.ofString_text]
  rfl

theorem findEntity_of_alias {name : String} (hne : name ≠ "")
    (hc : Uuid.isCanonical name = false) :
    s.findEntity kind name = s.sourceForAlias ("/" ++ name) >>= fun path =>
      match path.bind (Token.idOfPath? kind) with
      | some id => s.load kind id
      | none => pure none := by
  have hempty : name.isEmpty = false := by simpa using hne
  rw [findEntity, hempty, Token.ofString_of_not_canonical hc]
  rfl

end Storage

end ContentProjection
