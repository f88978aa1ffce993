import ContentProjection.Proofs.PercentEscapes
import ContentProjection.Proofs.RealGrammar
import ContentProjection.Text.DecimalDigit
import ContentProjection.Text.Real.Scan

/-!
# The scan for a real by index

Each step of the scan keeps its index in front of a character: it moves over ASCII characters
only, one byte each, and a byte of any other character looks like none of them. So no step is
a fault, and what the index stands in front of is what is left when the same part is read from
characters. The text in front of the last index is therefore the longest real.
-/
namespace ContentProjection.Text

namespace Utf8

/-- A test of bytes and a test of characters that accept the same ASCII and nothing else. -/
structure SameAscii (accepts : UInt8 → Bool) (acceptsChar : Char → Bool) : Prop where
  byte : ∀ n < 256, accepts (UInt8.ofNat n) = (decide (n < 128) && acceptsChar (Char.ofNat n))
  char : ∀ c, acceptsChar c = true → c.toNat < 128

theorem utf8EncodeChar_of_ascii {c : Char} (h : c.toNat < 128) :
    String.utf8EncodeChar c = [UInt8.ofNat c.toNat] :=
  if_pos (Nat.le_of_lt_succ h : c.val.toNat ≤ 127)

/-- The first byte of a character beyond ASCII is no ASCII byte. -/
theorem exists_utf8EncodeChar {c : Char} (h : 128 ≤ c.toNat) :
    ∃ n bs, String.utf8EncodeChar c = UInt8.ofNat n :: bs ∧ 128 ≤ n ∧ n < 256 := by
  have hbound := codePoint_lt c
  have hval : 128 ≤ c.val.toNat := h
  unfold String.utf8EncodeChar
  generalize c.val.toNat = n at *
  dsimp only
  split_ifs
  · omega
  · exact ⟨_, _, rfl, by omega, by omega⟩
  · exact ⟨_, _, rfl, by omega, by omega⟩
  · exact ⟨_, _, rfl, by omega, by omega⟩

section SameAscii

variable {accepts : UInt8 → Bool} {acceptsChar : Char → Bool}
  (h : SameAscii accepts acceptsChar)
include h

theorem SameAscii.accepts_first (c : Char) :
    ∃ b bs, String.utf8EncodeChar c = b :: bs ∧ accepts b = acceptsChar c := by
  rcases Nat.lt_or_ge c.toNat 128 with hascii | hbeyond
  · refine ⟨_, [], utf8EncodeChar_of_ascii hascii, ?_⟩
    rw [h.byte _ (by omega), Char.ofNat_toNat, decide_eq_true hascii, Bool.true_and]
  · obtain ⟨n, bs, hbytes, hle, hlt⟩ := exists_utf8EncodeChar hbeyond
    refine ⟨_, bs, hbytes, ?_⟩
    have hnot : acceptsChar c = false := Bool.eq_false_iff.2 fun hc =>
      absurd (h.char c hc) (by omega)
    rw [h.byte n hlt, decide_eq_false (by omega), Bool.false_and, hnot]

theorem SameAscii.any_head? (cs : List Char) :
    (cs.flatMap String.utf8EncodeChar).head?.any accepts = cs.head?.any acceptsChar := by
  cases cs with
  | nil => rfl
  | cons c cs =>
    obtain ⟨b, bs, hbytes, hfirst⟩ := h.accepts_first c
    rw [List.flatMap_cons, hbytes]
    exact hfirst

theorem SameAscii.takeWhile (cs : List Char) :
    (cs.flatMap String.utf8EncodeChar).takeWhile accepts =
      (cs.takeWhile acceptsChar).flatMap String.utf8EncodeChar := by
  induction cs with
  | nil => rfl
  | cons c cs ih =>
    obtain ⟨b, bs, hbytes, hfirst⟩ := h.accepts_first c
    by_cases hc : acceptsChar c = true
    · have hone := utf8EncodeChar_of_ascii (h.char c hc)
      rw [hone, List.cons.injEq] at hbytes
      obtain ⟨rfl, rfl⟩ := hbytes
      rw [List.takeWhile_cons_of_pos hc, List.flatMap_cons, List.flatMap_cons, hone,
        List.singleton_append, List.takeWhile_cons_of_pos (hfirst.trans hc), ih]
      rfl
    · rw [List.takeWhile_cons_of_neg hc, List.flatMap_cons, hbytes, List.cons_append,
        List.takeWhile_cons_of_neg (by rwa [hfirst])]
      rfl

end SameAscii

theorem length_flatMap_encode {cs : List Char} (h : ∀ c ∈ cs, c.toNat < 128) :
    (cs.flatMap String.utf8EncodeChar).length = cs.length := by
  have hbytes := bytes_ofList_of_ascii h
  rw [bytes_eq_flatMap, String.toList_ofList] at hbytes
  rw [hbytes, List.length_map]

end Utf8

namespace Real.Scan

open Utf8

theorem sameAscii_sign : SameAscii isSign fun c => c = '-' || c = '+' := by
  refine ⟨by decide +kernel, fun c hc => ?_⟩
  obtain rfl | rfl : c = '-' ∨ c = '+' := by simpa using hc
  · decide
  · decide

theorem sameAscii_digit : SameAscii isDigit Char.isDigit :=
  ⟨by decide +kernel, fun _ hc => Nat.lt_of_le_of_lt (toNat_of_isDigit hc).2 (by decide)⟩

theorem sameAscii_point : SameAscii isPoint fun c => c = '.' := by
  refine ⟨by decide +kernel, fun c hc => ?_⟩
  obtain rfl : c = '.' := by simpa using hc
  decide

theorem sameAscii_mark : SameAscii isMark fun c => c = 'e' || c = 'E' := by
  refine ⟨by decide +kernel, fun c hc => ?_⟩
  obtain rfl | rfl : c = 'e' ∨ c = 'E' := by simpa using hc
  · decide
  · decide

/-- An index stands in front of the characters whose bytes are left from there on. -/
structure StandsBefore (bytes : List UInt8) (i : Nat) (cs : List Char) : Prop where
  le_length : i ≤ bytes.length
  drop_eq : bytes.drop i = cs.flatMap String.utf8EncodeChar

section Steps

variable {bytes : List UInt8} {i : Nat} {c : Char} {cs whole : List Char}

theorem StandsBefore.any_getElem? (h : StandsBefore bytes i cs) {accepts : UInt8 → Bool}
    {acceptsChar : Char → Bool} (hsame : SameAscii accepts acceptsChar) :
    bytes[i]?.any accepts = cs.head?.any acceptsChar := by
  rw [← hsame.any_head?, ← h.drop_eq, List.head?_drop]

/-- ASCII characters are as many bytes. -/
theorem StandsBefore.add {front : List Char} (h : StandsBefore bytes i (front ++ cs))
    (hascii : ∀ c ∈ front, c.toNat < 128) : StandsBefore bytes (i + front.length) cs := by
  have hlength := length_flatMap_encode hascii
  have hdrop := h.drop_eq
  rw [List.flatMap_append] at hdrop
  have hbytes := congrArg List.length hdrop
  rw [List.length_drop, List.length_append, hlength] at hbytes
  have hle := h.le_length
  refine ⟨by omega, ?_⟩
  rw [← List.drop_drop, hdrop, ← hlength, List.drop_left]

theorem StandsBefore.succ (h : StandsBefore bytes i (c :: cs)) (hascii : c.toNat < 128) :
    StandsBefore bytes (i + 1) cs := by
  have hone : StandsBefore bytes i ([c] ++ cs) := h
  exact hone.add fun d hd => by rwa [List.mem_singleton.1 hd]

theorem StandsBefore.afterSign (h : StandsBefore bytes i cs) :
    StandsBefore bytes (afterSign bytes i) (sign cs).2 := by
  rw [Scan.afterSign, h.any_getElem? sameAscii_sign]
  cases cs with
  | nil => exact h
  | cons c cs =>
    by_cases hminus : c = '-'
    · subst hminus
      exact h.succ (by decide)
    by_cases hplus : c = '+'
    · subst hplus
      exact h.succ (by decide)
    have hsign : sign (c :: cs) = (false, c :: cs) :=
      sign_of_head fun d hd => Option.some.inj hd ▸ ⟨hminus, hplus⟩
    rw [hsign, if_neg (by simp [hminus, hplus])]
    exact h

theorem StandsBefore.digitsFrom (h : StandsBefore bytes i cs) :
    digitsFrom bytes i = .ok (digitRun cs).1.length ∧
      StandsBefore bytes (i + (digitRun cs).1.length) (digitRun cs).2 := by
  have hdigits := isDigits_digitRun cs
  have hascii : ∀ c ∈ (digitRun cs).1, c.toNat < 128 := fun c hc =>
    sameAscii_digit.char c (hdigits c hc)
  constructor
  · rw [Scan.digitsFrom, bytesFrom, if_pos h.le_length, h.drop_eq]
    have htake := sameAscii_digit.takeWhile cs
    exact congrArg Except.ok ((congrArg List.length htake).trans (length_flatMap_encode hascii))
  · apply StandsBefore.add _ hascii
    rwa [digitRun_append_eq]

theorem StandsBefore.fraction (h : StandsBefore bytes i cs) (whole : List Char) :
    ∃ j, fraction bytes whole.length i = .ok ((Real.fraction whole cs).1.length, j) ∧
      StandsBefore bytes j (Real.fraction whole cs).2 := by
  rw [Scan.fraction, h.any_getElem? sameAscii_point]
  cases cs with
  | nil => exact ⟨i, rfl, h⟩
  | cons c cs =>
    by_cases hpoint : c = '.'
    · subst hpoint
      obtain ⟨hpart, hafter⟩ := (h.succ (by decide)).digitsFrom
      rw [if_pos (by simp), hpart, fraction_point]
      by_cases hnone : whole = [] ∧ (digitRun cs).1 = []
      · rw [if_pos hnone, hnone.1, hnone.2]
        exact ⟨i, rfl, h⟩
      · rw [if_neg hnone]
        have hdigit :
            (decide (0 < whole.length) || decide (0 < (digitRun cs).1.length)) = true := by
          simpa [List.length_pos_iff, ← not_and_or] using hnone
        refine ⟨_, ?_, hafter⟩
        exact congrArg (fun j => Except.ok ((digitRun cs).1.length, j)) (if_pos hdigit)
    · have hfraction : Real.fraction whole (c :: cs) = ([], c :: cs) :=
        fraction_of_head whole fun d hd => Option.some.inj hd ▸ hpoint
      rw [if_neg (by simpa using hpoint), hfraction]
      exact ⟨i, rfl, h⟩

theorem StandsBefore.exponent (h : StandsBefore bytes i cs) :
    ∃ j, exponent bytes i = .ok j ∧ StandsBefore bytes j (Real.exponent cs).2 := by
  rw [Scan.exponent, h.any_getElem? sameAscii_mark]
  cases cs with
  | nil => exact ⟨i, rfl, h⟩
  | cons c cs =>
    by_cases hmark : c = 'e' ∨ c = 'E'
    · have hascii : c.toNat < 128 := by rcases hmark with rfl | rfl <;> decide
      have hstart := (h.succ hascii).afterSign
      obtain ⟨hdigits, hafter⟩ := hstart.digitsFrom
      rw [if_pos (by simpa using hmark), exponent_mark hmark]
      dsimp only
      rw [Nat.min_eq_left hstart.le_length, hdigits]
      by_cases hnone : (digitRun (sign cs).2).1 = []
      · rw [if_pos hnone, hnone]
        exact ⟨i, rfl, h⟩
      · rw [if_neg hnone]
        refine ⟨_, ?_, hafter⟩
        exact congrArg Except.ok (if_pos (List.length_pos_iff.2 hnone))
    · have hexponent : Real.exponent (c :: cs) = (0, c :: cs) :=
        exponent_of_head fun d hd => Option.some.inj hd ▸ not_or.1 hmark
      rw [if_neg (by simpa using hmark), hexponent]
      exact ⟨i, rfl, h⟩

/-- The scan ends where the reading of characters does, and finds no number where that does not. -/
theorem StandsBefore.stop? (h : StandsBefore bytes 0 cs) :
    (afterReal? cs = none ∧ stop? bytes = .ok none) ∨
      ∃ rest j, afterReal? cs = some rest ∧ stop? bytes = .ok (some j) ∧
        StandsBefore bytes j rest := by
  obtain ⟨hwhole, hafter⟩ := h.afterSign.digitsFrom
  rw [afterReal?_eq, afterMantissa?]
  generalize digitRun (sign cs).2 = whole at *
  obtain ⟨i, hpart, hmantissa⟩ := hafter.fraction whole.1
  generalize Real.fraction whole.1 whole.2 = part at *
  obtain ⟨j, hexponent, hrest⟩ := hmantissa.exponent
  have hstop : Scan.stop? bytes =
      if whole.1 = [] ∧ part.1 = [] then .ok none else .ok (some j) := by
    simp only [Scan.stop?, hwhole, hpart, hexponent, bind, Except.bind, pure, Except.pure,
      Bool.and_eq_true, decide_eq_true_eq, List.length_eq_zero_iff]
  rw [hstop]
  by_cases hnone : whole.1 = [] ∧ part.1 = []
  · rw [if_pos hnone, if_pos hnone]
    exact Or.inl ⟨rfl, rfl⟩
  · rw [if_neg hnone, if_neg hnone]
    exact Or.inr ⟨_, j, rfl, rfl, hrest⟩

end Steps

theorem textBefore_append (front rest : String) :
    textBefore (front ++ rest) front.utf8ByteSize = .ok front := by
  have hvalid : String.Pos.Raw.IsValid (front ++ rest) ⟨front.utf8ByteSize⟩ :=
    String.Pos.Raw.isValid_iff_exists_append.2 ⟨front, rest, rfl, rfl⟩
  have hpos : (front ++ rest).pos? ⟨front.utf8ByteSize⟩ =
      some ((front ++ rest).pos ⟨front.utf8ByteSize⟩ hvalid) := by
    rw [String.pos?, String.Slice.pos?,
      dif_pos (String.Pos.Raw.isValidForSlice_eq_true_iff.2 hvalid.toSlice)]
    rfl
  rw [textBefore, hpos]
  refine congrArg Except.ok (String.toByteArray_inj.1 ?_)
  rw [String.toByteArray_extract, String.toByteArray_append]
  exact ByteArray.extract_append_eq_left String.size_toByteArray.symm

theorem StandsBefore.textBefore {front rest : String} {i : Nat}
    (h : StandsBefore (bytes (front ++ rest)) i rest.toList) :
    textBefore (front ++ rest) i = .ok front := by
  have hlength (s : String) : (bytes s).length = s.utf8ByteSize := String.size_toByteArray
  have hle := h.le_length
  have hrest := congrArg List.length h.drop_eq
  rw [List.length_drop, ← bytes_eq_flatMap, hlength, hlength, String.utf8ByteSize_append] at hrest
  rw [hlength, String.utf8ByteSize_append] at hle
  have hi : i = front.utf8ByteSize := by omega
  rw [hi, textBefore_append]

/-- No text leads the scan to a fault, and the number that it finds is the longest real. -/
theorem exists_number? (s : String) : ∃ found, number? s = .ok found ∧
    ∀ number, found = some number ↔ LongestReal number.toList s.toList := by
  have hstart : StandsBefore (bytes s) 0 s.toList :=
    ⟨Nat.zero_le _, by rw [List.drop_zero, bytes_eq_flatMap]⟩
  rcases hstart.stop? with ⟨hnone, hstop⟩ | ⟨rest, j, hrest, hstop, hafter⟩
  · refine ⟨none, ?_, fun number => ?_⟩
    · rw [number?, hstop]
      rfl
    · refine iff_of_false (by simp) fun h => ?_
      exact afterReal?_eq_none_iff.1 hnone _ h.starts h.isReal
  · obtain ⟨number, hs, hlongest⟩ := afterReal?_eq_some_iff.1 hrest
    have hcut : s = String.ofList number ++ String.ofList rest := by
      rw [← String.ofList_append, ← hs, String.ofList_toList]
    have hbefore : textBefore s j = .ok (String.ofList number) := by
      rw [hcut] at hafter ⊢
      apply StandsBefore.textBefore
      rwa [String.toList_ofList]
    refine ⟨some (String.ofList number), ?_, fun other => ?_⟩
    · rw [number?, hstop]
      show (textBefore s j >>= _) = _
      rw [hbefore]
      rfl
    · rw [Option.some.injEq]
      constructor
      · rintro rfl
        rwa [String.toList_ofList]
      · intro h
        rw [hlongest.unique h, String.ofList_toList]

end Real.Scan
end ContentProjection.Text
