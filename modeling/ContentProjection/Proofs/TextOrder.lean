import ContentProjection.Text.Utf8
import Mathlib.Tactic.SplitIfs

/-!
# The order of texts and the order of their bytes

Texts compare by the code points of their characters, and no two texts compare
otherwise by the bytes of their UTF-8 form. The bytes of a character hold its code
point in base 64, the leading digits first, and a character of more bytes has a
greater first byte. So already the bytes of the first characters that differ decide,
whatever follows.
-/
namespace ContentProjection.Text.Utf8

/-- The lesser of two numbers has the lesser digit where their digits first differ. -/
theorem digits_lt {m n : Nat} (h : m < n) :
    m / 262144 < n / 262144 ∨ m / 262144 = n / 262144 ∧
      (m / 4096 % 64 < n / 4096 % 64 ∨ m / 4096 % 64 = n / 4096 % 64 ∧
        (m / 64 % 64 < n / 64 % 64 ∨ m / 64 % 64 = n / 64 % 64 ∧ m % 64 < n % 64)) := by
  have hdigits (k : Nat) :
      k = 262144 * (k / 262144) + 4096 * (k / 4096 % 64) + 64 * (k / 64 % 64) + k % 64 := by
    omega
  have hm := hdigits m
  have hn := hdigits n
  generalize m / 4096 % 64 = digit at *
  omega

theorem toNat_ofNat_byte {n : Nat} (h : n < 256) : (UInt8.ofNat n).toNat = n :=
  UInt8.toNat_ofNat_of_lt' h

theorem codePoint_lt (c : Char) : c.val.toNat < 1114112 := by
  rcases c.valid with hlow | hhigh
  · exact Nat.lt_trans hlow (by decide)
  · exact hhigh.2

theorem encode_append_lt {c d : Char} (h : c < d) (rest rest' : List UInt8) :
    String.utf8EncodeChar c ++ rest < String.utf8EncodeChar d ++ rest' := by
  have hlt : c.val.toNat < d.val.toNat := h
  have hlex := digits_lt hlt
  have hbound := codePoint_lt d
  unfold String.utf8EncodeChar
  generalize c.val.toNat = m at *
  generalize d.val.toNat = n at *
  have hm : m / 262144 % 8 = m / 262144 := by omega
  have hn : n / 262144 % 8 = n / 262144 := by omega
  dsimp only
  split_ifs <;>
    simp (disch := omega) only [List.cons_append, List.nil_append, List.cons_lt_cons_iff,
      UInt8.lt_iff_toNat_lt, ← UInt8.toNat_inj, toNat_ofNat_byte, hm, hn] <;>
    omega

theorem flatMap_encode_lt {x y : List Char} (h : x < y) :
    x.flatMap String.utf8EncodeChar < y.flatMap String.utf8EncodeChar := by
  induction x generalizing y with
  | nil =>
    cases y with
    | nil => exact absurd h (List.lt_irrefl _)
    | cons d y =>
      rw [List.flatMap_cons]
      cases hd : String.utf8EncodeChar d with
      | nil => exact absurd hd String.utf8EncodeChar_ne_nil
      | cons b bs => exact List.nil_lt_cons _ _
  | cons c x ih =>
    cases y with
    | nil => exact absurd h (List.not_lt_nil _)
    | cons d y =>
      rw [List.flatMap_cons, List.flatMap_cons]
      rcases List.cons_lt_cons_iff.1 h with hcd | ⟨rfl, hxy⟩
      · exact encode_append_lt hcd _ _
      · exact List.append_left_lt (ih hxy)

theorem bytes_eq_flatMap (s : String) : bytes s = s.toList.flatMap String.utf8EncodeChar := by
  rw [bytes, String.toUTF8_eq_toByteArray, ← String.utf8Encode_toList, List.utf8Encode]
  simp

/-- Bytes order texts as their characters do. -/
theorem bytes_lt_iff {x y : String} : bytes x < bytes y ↔ x < y := by
  have hlt {x y : String} (h : x < y) : bytes x < bytes y := by
    rw [bytes_eq_flatMap, bytes_eq_flatMap]
    exact flatMap_encode_lt h
  refine ⟨fun h => Decidable.byContradiction fun hxy => ?_, hlt⟩
  have hyx : ¬ y < x := fun hyx => List.lt_asymm h (hlt hyx)
  have heq : x = y := String.le_antisymm (String.not_lt.1 hyx) (String.not_lt.1 hxy)
  rw [heq] at h
  exact List.lt_irrefl _ h

end ContentProjection.Text.Utf8
