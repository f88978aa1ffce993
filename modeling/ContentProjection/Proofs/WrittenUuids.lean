import ContentProjection.Proofs.Lists
import ContentProjection.Proofs.Tokens
import Mathlib.Data.Set.List

/-!
# The written form of UUIDs

A text is the written form of a UUID when it fits a template of 36 places, character by
character. Tokens are recognised by cutting them at their hyphens instead, and a UUID is
read in several notations. The two meet at the written form: a token names a UUID if and
only if it fits the template, it is the written form of that one UUID, and every UUID is
named by its own.
-/
namespace ContentProjection

namespace Uuid

/-- Four hyphens, and `x` for each of the 32 digits. -/
def template : List Char := "xxxxxxxx-xxxx-xxxx-xxxx-xxxxxxxxxxxx".toList

def lowerDigits : List Char := "0123456789abcdef".toList

/-- A lower-case digit stands for `x`, every other place takes its own character. -/
def Fits (place c : Char) : Prop := if place = 'x' then c ∈ lowerDigits else c = place

/-- The text fits the template from its first character to its last. -/
def IsWritten (s : String) : Prop := List.Forall₂ Fits template s.toList

theorem IsWritten.length_eq {s : String} (h : IsWritten s) : s.length = 36 := by
  rw [← String.length_toList, ← List.Forall₂.length_eq h]
  rfl

theorem mem_lowerDigits_iff {c : Char} : c ∈ lowerDigits ↔ ∃ d, Text.hexChar d = c := by
  have hdigits : lowerDigits = (List.finRange 16).map Text.hexChar := by decide
  rw [hdigits]
  simp

theorem mem_lowerDigits_iff_isLowerHex {c : Char} : c ∈ lowerDigits ↔ isLowerHex c = true := by
  constructor
  · rw [mem_lowerDigits_iff]
    rintro ⟨d, rfl⟩
    exact isLowerHex_hexChar d
  · intro h
    have hdigits : ∀ n < 103, 48 ≤ n ∧ n ≤ 57 ∨ 97 ≤ n → Char.ofNat n ∈ lowerDigits := by decide
    have hrange : c.toNat < 103 ∧ (48 ≤ c.toNat ∧ c.toNat ≤ 57 ∨ 97 ≤ c.toNat) := by
      rw [isLowerHex, Bool.or_eq_true, Bool.and_eq_true, decide_eq_true_eq, decide_eq_true_eq] at h
      rcases h with hdigit | ⟨hlow, hhigh⟩
      · have hc := Text.toNat_of_isDigit hdigit
        omega
      · have hlow' : 97 ≤ c.toNat := Char.le_def.1 hlow
        have hhigh' : c.toNat ≤ 102 := Char.le_def.1 hhigh
        omega
    have hmem := hdigits c.toNat hrange.1 hrange.2
    rwa [Char.ofNat_toNat] at hmem

/-- What fits a run of digits. -/
theorem forall₂_fits_replicate_iff {n : Nat} {cs : List Char} :
    List.Forall₂ Fits (List.replicate n 'x') cs ↔
      cs.length = n ∧ ∀ c ∈ cs, isLowerHex c = true := by
  induction n generalizing cs with
  | zero => cases cs <;> simp
  | succ n ih =>
    cases cs with
    | nil => simp [List.replicate_succ]
    | cons c cs =>
      have hfits : Fits 'x' c ↔ isLowerHex c = true := mem_lowerDigits_iff_isLowerHex
      rw [List.replicate_succ, List.forall₂_cons, ih, hfits]
      simp [and_left_comm]

/-- A group of digits, a hyphen and what fits the rest. -/
theorem forall₂_fits_group_iff {n : Nat} {rest cs : List Char} :
    List.Forall₂ Fits (List.replicate n 'x' ++ '-' :: rest) cs ↔
      ∃ group tail, cs = group ++ '-' :: tail ∧ group.length = n ∧
        (∀ c ∈ group, isLowerHex c = true) ∧ List.Forall₂ Fits rest tail := by
  rw [forall₂_append_left_iff]
  constructor
  · rintro ⟨group, back, rfl, hgroup, hback⟩
    obtain ⟨hyphen, tail, rfl, htail, rfl⟩ := List.forall₂_cons_left_iff.1 hback
    obtain ⟨hlength, hdigits⟩ := forall₂_fits_replicate_iff.1 hgroup
    exact ⟨group, tail, rfl, hlength, hdigits, htail⟩
  · rintro ⟨group, tail, rfl, hlength, hdigits, htail⟩
    exact ⟨group, _, rfl, forall₂_fits_replicate_iff.2 ⟨hlength, hdigits⟩, .cons rfl htail⟩

theorem eq_of_map_length {α : Type} {groups : List (List α)}
    (h : groups.map List.length = groupLengths) :
    ∃ a b c d e, groups = [a, b, c, d, e] ∧ a.length = 8 ∧ b.length = 4 ∧ c.length = 4 ∧
      d.length = 4 ∧ e.length = 12 := by
  simp only [groupLengths, List.map_eq_cons_iff, List.map_eq_nil_iff] at h
  obtain ⟨a, _, rfl, ha, b, _, rfl, hb, c, _, rfl, hc, d, _, rfl, hd, e, _, rfl, he, rfl⟩ := h
  exact ⟨a, b, c, d, e, rfl, ha, hb, hc, hd, he⟩

/-- The groups of the written form. -/
structure Grouped (parts : List (List Char)) : Prop where
  lengths : parts.map List.length = groupLengths
  digits : ∀ part ∈ parts, ∀ c ∈ part, isLowerHex c = true

theorem isWritten_iff_grouped {s : String} :
    IsWritten s ↔ ∃ parts, Grouped parts ∧ s.toList = ['-'].intercalate parts := by
  have htemplate : template = List.replicate 8 'x' ++ '-' :: (List.replicate 4 'x' ++ '-' ::
      (List.replicate 4 'x' ++ '-' :: (List.replicate 4 'x' ++ '-' :: List.replicate 12 'x'))) :=
    rfl
  rw [IsWritten, htemplate]
  simp only [forall₂_fits_group_iff, forall₂_fits_replicate_iff]
  constructor
  · rintro ⟨a, _, hs, ha, hda, b, _, rfl, hb, hdb, c, _, rfl, hc, hdc, d, e, rfl, hd, hdd, he, hde⟩
    refine ⟨[a, b, c, d, e], ⟨by simp [groupLengths, ha, hb, hc, hd, he], ?_⟩, ?_⟩
    · simp only [List.forall_mem_cons]
      exact ⟨hda, hdb, hdc, hdd, hde, List.forall_mem_nil _⟩
    · simpa [List.intercalate] using hs
  · rintro ⟨parts, ⟨hlengths, hdigits⟩, hs⟩
    obtain ⟨a, b, c, d, e, rfl, ha, hb, hc, hd, he⟩ := eq_of_map_length hlengths
    simp only [List.forall_mem_cons] at hdigits
    obtain ⟨hda, hdb, hdc, hdd, hde, -⟩ := hdigits
    refine ⟨a, _, ?_, ha, hda, b, _, rfl, hb, hdb, c, _, rfl, hc, hdc, d, e, rfl, hd, hdd, he, hde⟩
    simpa [List.intercalate] using hs

/-- Cutting at the hyphens recognises exactly the written form. -/
theorem isWritten_iff {s : String} : IsWritten s ↔ isCanonical s = true := by
  have hcanonical : isCanonical s = true ↔ Grouped (Text.splitOn '-' s.toList) := by
    rw [isCanonical, Bool.and_eq_true, beq_iff_eq]
    simp only [List.all_eq_true]
    exact ⟨fun h => ⟨h.1, h.2⟩, fun h => ⟨h.lengths, h.digits⟩⟩
  rw [isWritten_iff_grouped, hcanonical]
  constructor
  · rintro ⟨parts, hparts, hs⟩
    have hne : parts ≠ [] := by
      rintro rfl
      exact absurd hparts.lengths (by decide)
    have hsplit : Text.splitOn '-' s.toList = parts := by
      rw [hs]
      refine Text.splitOn_intercalate hne fun part hpart hmem => ?_
      exact absurd (hparts.digits part hpart '-' hmem) (by decide)
    rwa [hsplit]
  · intro hparts
    refine ⟨_, hparts, ?_⟩
    rw [Text.splitOn_eq, List.intercalate_splitOn]

/-- A text of the written form is the one of some UUID. -/
theorem exists_text_eq {s : String} (h : IsWritten s) : ∃ u : Uuid, u.text = s := by
  obtain ⟨parts, ⟨hlengths, hdigits⟩, hs⟩ := isWritten_iff_grouped.1 h
  have hrange : parts ∈ Set.range (List.map (List.map Text.hexChar)) := by
    rw [Set.range_list_map]
    intro part hpart
    rw [Set.range_list_map]
    intro c hc
    exact mem_lowerDigits_iff.1 (mem_lowerDigits_iff_isLowerHex.2 (hdigits part hpart c hc))
  obtain ⟨groups, rfl⟩ := hrange
  have hcounts : groups.map List.length = groupLengths := by
    rw [← hlengths, List.map_map]
    exact List.map_congr_left fun group _ => (List.length_map _).symm
  obtain ⟨a, b, c, d, e, rfl, ha, hb, hc, hd, he⟩ := eq_of_map_length hcounts
  refine ⟨⟨a ++ b ++ c ++ d ++ e, by simp [ha, hb, hc, hd, he]⟩, ?_⟩
  rw [← String.toList_inj, hs, text, String.toList_ofList, chars]
  simp [Uuid.groups, List.drop_append, List.drop_of_length_le, ha, hb, hc, hd]

end Uuid

namespace Token

theorem ofString_of_not_written {s : String} (h : ¬ Uuid.IsWritten s) :
    ofString s = publicAlias s := by
  apply ofString_of_not_canonical
  rwa [Uuid.isWritten_iff, Bool.not_eq_true] at h

theorem text_of_ofString {s : String} {u : Uuid} (h : ofString s = uuid u) : u.text = s := by
  by_cases hwritten : Uuid.IsWritten s
  · obtain ⟨v, rfl⟩ := Uuid.exists_text_eq hwritten
    rw [ofString_text] at h
    rw [Token.uuid.inj h]
  · rw [ofString_of_not_written hwritten] at h
    cases h

theorem isWritten_of_ofString {s : String} {u : Uuid} (h : ofString s = uuid u) :
    Uuid.IsWritten s := by
  rw [Uuid.isWritten_iff, ← text_of_ofString h]
  exact u.isCanonical_text

/-- A token is a UUID if and only if it is the written form of one, and then it is that of the
UUID. Every other token is an alias, as it stands. -/
structure ClassifiedByForm (s : String) : Prop where
  isUuid_iff : (∃ u, ofString s = uuid u) ↔ Uuid.IsWritten s
  text_eq : ∀ u, ofString s = uuid u → u.text = s
  alias_of_not_written : ¬ Uuid.IsWritten s → ofString s = publicAlias s

/-- Tokens are UUIDs exactly in the written form, of 36 characters, and each UUID is found in its
own. -/
theorem tokens_classified_by_form :
    (∀ s, ClassifiedByForm s) ∧ (∀ s, Uuid.IsWritten s → s.length = 36) ∧
      ∀ u : Uuid, ofString u.text = uuid u := by
  refine ⟨fun s => ⟨⟨?_, ?_⟩, fun u => text_of_ofString, ofString_of_not_written⟩,
    fun s => Uuid.IsWritten.length_eq, ofString_text⟩
  · rintro ⟨u, hu⟩
    exact isWritten_of_ofString hu
  · intro hwritten
    obtain ⟨u, rfl⟩ := Uuid.exists_text_eq hwritten
    exact ⟨u, ofString_text u⟩

end Token
end ContentProjection
