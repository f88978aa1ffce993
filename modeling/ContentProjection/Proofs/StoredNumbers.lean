import ContentProjection.Calendar
import ContentProjection.Projection.Number
import ContentProjection.Proofs.Tokens

/-!
# Numbers that are stored as text

Records hold numbers, fields hold texts: a number is stored in decimal and read
again when it is shown. A date reads a signed word and gets the number back. An
integer field reads any number of digits and holds the magnitude at the largest
signed word, before the sign, so the least signed word is one number too low for
it and comes back one higher.
-/
namespace ContentProjection

namespace Text

theorem isBlank_of_isDigit {c : Char} (h : c.isDigit = true) : isBlank c = false := by
  have hc := toNat_of_isDigit h
  simp [isBlank, blankRanges]
  omega

theorem trimStart_of_no_blank {cs : List Char} (h : ∀ c ∈ cs, isBlank c = false) :
    trimStart cs = cs := by
  cases cs with
  | nil => rfl
  | cons c cs => exact trimStart_cons_of_not_isBlank (h c List.mem_cons_self) cs

theorem trim_of_no_blank {cs : List Char} (h : ∀ c ∈ cs, isBlank c = false) : trim cs = cs := by
  have hreverse : trimStart cs.reverse = cs.reverse :=
    trimStart_of_no_blank fun c hc => h c (List.mem_reverse.1 hc)
  rw [trimStart] at hreverse
  rw [trim, trimStart_of_no_blank h, trimEnd, hreverse, List.reverse_reverse]

namespace Numeral

theorem toList_toString (n : Int) :
    (toString n).toList =
      if n < 0 then '-' :: Nat.toDigits 10 n.natAbs else Nat.toDigits 10 n.natAbs := by
  have hnat : ∀ m : Nat, (toString m).toList = Nat.toDigits 10 m := by
    intro m
    rw [Nat.toString_eq_ofList_toDigits, String.toList_ofList]
  cases n with
  | ofNat m => exact hnat m
  | negSucc m =>
    have hwritten : toString (Int.negSucc m) = "-" ++ toString (m + 1) := rfl
    rw [hwritten, String.toList_append, hnat]
    simp [Int.natAbs_negSucc]

theorem not_blank_of_mem_toString {n : Int} {c : Char} (h : c ∈ (toString n).toList) :
    isBlank c = false := by
  have hdigit : c ∈ Nat.toDigits 10 n.natAbs → isBlank c = false := fun hc =>
    isBlank_of_isDigit (isDigit_of_mem_toDigits hc)
  rw [toList_toString] at h
  split at h
  · rcases List.mem_cons.1 h with rfl | hc
    · decide
    · exact hdigit hc
  · exact hdigit h

theorem natural?_toDigits (n : Nat) : natural? (Nat.toDigits 10 n) = some n := by
  have hdigits : (Nat.toDigits 10 n).all Char.isDigit = true :=
    List.all_eq_true.2 fun _ => isDigit_of_mem_toDigits
  rw [natural?, hdigits, value_toDigits]
  simp [Nat.toDigits_ne_nil]

theorem signed?_of_all_isDigit {ds : List Char} (h : ∀ c ∈ ds, c.isDigit = true) :
    signed? ds = (natural? ds).map Int.ofNat := by
  unfold signed?
  split
  · exact absurd (h '+' List.mem_cons_self) (by decide)
  · exact absurd (h '-' List.mem_cons_self) (by decide)
  · rfl

theorem signed?_toString (n : Int) : signed? (toString n).toList = some n := by
  rw [toList_toString]
  split
  · next h =>
    have habs : -(n.natAbs : Int) = n := by omega
    rw [signed?, natural?_toDigits]
    exact congrArg some habs
  · next h =>
    have habs : (n.natAbs : Int) = n := by omega
    rw [signed?_of_all_isDigit fun _ => isDigit_of_mem_toDigits, natural?_toDigits]
    exact congrArg some habs

/-- A whole number that fits into a signed word. -/
def IsWord (n : Int) : Prop := minInt64 ≤ n ∧ n ≤ maxInt64

instance (n : Int) : Decidable (IsWord n) := inferInstanceAs (Decidable (_ ∧ _))

theorem int64?_toString {n : Int} (h : IsWord n) : int64? (toString n).toList = some n := by
  rw [int64?, signed?_toString]
  simp [h.1, h.2]

theorem int64?_toString_eq_none {n : Int} (h : ¬ IsWord n) :
    int64? (toString n).toList = none := by
  rw [int64?, signed?_toString]
  simpa [IsWord] using h

theorem toString_inj {m n : Int} : toString m = toString n ↔ m = n := by
  refine ⟨fun h => ?_, congrArg toString⟩
  have hread := signed?_toString m
  rw [h, signed?_toString] at hread
  exact (Option.some.inj hread).symm

end Numeral

end Text

/-- A stored date is shown as the date it was stored for. -/
theorem Calendar.render?_toString (offset : Offset) {n : Int} (h : Text.Numeral.IsWord n) :
    render? offset (toString n) = show? offset n := by
  rw [render?, Text.trim_of_no_blank fun _ => Text.Numeral.not_blank_of_mem_toString,
    Text.Numeral.int64?_toString h, Option.bind_some]

namespace Projection

open Text.Numeral

theorem sign_of_all_isDigit {ds : List Char} (h : ∀ c ∈ ds, c.isDigit = true) :
    Text.Real.sign ds = (false, ds) := by
  unfold Text.Real.sign
  split
  · exact absurd (h '-' List.mem_cons_self) (by decide)
  · exact absurd (h '+' List.mem_cons_self) (by decide)
  · rfl

/-- The sign of a written number and its digits. -/
theorem sign_toString (n : Int) :
    Text.Real.sign (toString n).toList = (decide (n < 0), Nat.toDigits 10 n.natAbs) := by
  rw [toList_toString]
  split
  · next h => simp [Text.Real.sign, h]
  · next h => simp [sign_of_all_isDigit fun _ => isDigit_of_mem_toDigits, h]

/-- A stored number is shown within the magnitude of the largest signed word. -/
theorem integerOf_toString (n : Int) :
    integerOf (toString n) = max (-maxInt64) (min n maxInt64) := by
  have htrim : Text.trimStart (toString n).toList = (toString n).toList :=
    Text.trimStart_of_no_blank fun _ => not_blank_of_mem_toString
  have htake : (Nat.toDigits 10 n.natAbs).takeWhile Char.isDigit = Nat.toDigits 10 n.natAbs :=
    List.takeWhile_eq_self_iff.2 fun _ => isDigit_of_mem_toDigits
  have hne : Nat.toDigits 10 n.natAbs ≠ [] := Nat.toDigits_ne_nil
  obtain ⟨d, ds, hdigits⟩ := List.exists_cons_of_ne_nil hne
  have hvalue : value (d :: ds) = n.natAbs := by rw [← hdigits, value_toDigits]
  rw [integerOf, integerAtStart, htrim, sign_toString]
  dsimp only
  rw [htake, hdigits]
  dsimp only
  rw [saturated, hvalue, maxInt64]
  by_cases h : n < 0
  · simp only [h, decide_true, if_true]
    omega
  · simp only [h, decide_false, Bool.false_eq_true, if_false]
    omega

/-- An unsigned word is shown as it is, up to the largest signed one. -/
theorem integerOf_toString_nat (n : Nat) :
    integerOf (toString n) = min (n : Int) maxInt64 := by
  have h := integerOf_toString (n : Int)
  rw [maxInt64] at h ⊢
  exact h.trans (by omega)

end Projection

end ContentProjection
