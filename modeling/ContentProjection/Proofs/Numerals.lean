import ContentProjection.Proofs.StoredNumbers
import Mathlib.Data.List.Induction

/-!
# What numerals write

A numeral is the decimal digits of its number, with zeros before them if any. A whole
number may have a sign as well. The readers accept exactly these texts, each of them for
one number, and those of words only refuse the numbers that do not fit.
-/
namespace ContentProjection.Text.Numeral

/-- The decimal digits of a number, zeros before them allowed. -/
def Writes (n : Nat) (cs : List Char) : Prop :=
  ∃ zeros, cs = List.replicate zeros '0' ++ Nat.toDigits 10 n

/-- A numeral with or without a sign. -/
inductive WritesInt : Int → List Char → Prop
  | bare {n : Nat} {ds : List Char} : Writes n ds → WritesInt n ds
  | plus {n : Nat} {ds : List Char} : Writes n ds → WritesInt n ('+' :: ds)
  | minus {n : Nat} {ds : List Char} : Writes n ds → WritesInt (-n) ('-' :: ds)

variable {n : Nat} {cs : List Char}

theorem Writes.isDigit (h : Writes n cs) {c : Char} (hc : c ∈ cs) : c.isDigit = true := by
  obtain ⟨zeros, rfl⟩ := h
  rcases List.mem_append.1 hc with hzero | hdigit
  · rw [List.eq_of_mem_replicate hzero]
    decide
  · exact isDigit_of_mem_toDigits hdigit

theorem value_replicate_append (zeros : Nat) (ds : List Char) :
    value (List.replicate zeros '0' ++ ds) = value ds := by
  induction zeros with
  | zero => rfl
  | succ zeros ih => exact ih

theorem Writes.value_eq (h : Writes n cs) : value cs = n := by
  obtain ⟨zeros, rfl⟩ := h
  rw [value_replicate_append, value_toDigits]

theorem Writes.ne_nil (h : Writes n cs) : cs ≠ [] := by
  obtain ⟨zeros, rfl⟩ := h
  exact List.append_ne_nil_of_right_ne_nil _ Nat.toDigits_ne_nil

/-- A reader that takes characters as long as they are digits takes the whole numeral. -/
theorem Writes.takeWhile_append (h : Writes n cs) {accepts : Char → Bool}
    (haccepts : ∀ {c : Char}, c.isDigit = true → accepts c = true) {rest : List Char}
    (hrest : ∀ c ∈ rest.head?, accepts c = false) :
    (cs ++ rest).takeWhile accepts = cs ∧ (cs ++ rest).dropWhile accepts = rest := by
  have hdigits : ∀ c ∈ cs, accepts c = true := fun c hc => haccepts (h.isDigit hc)
  rw [List.takeWhile_append_of_pos hdigits, List.dropWhile_append_of_pos hdigits]
  cases rest with
  | nil => simp
  | cons c rest => simp [hrest c rfl]

theorem Writes.natural? (h : Writes n cs) : natural? cs = some n := by
  have hdigits : cs.all Char.isDigit = true := List.all_eq_true.2 fun _ hc => h.isDigit hc
  have hempty : cs.isEmpty = false := List.isEmpty_eq_false_iff.2 h.ne_nil
  rw [Numeral.natural?, hempty, hdigits, h.value_eq]
  rfl

theorem Writes.unsigned? (h : Writes n cs) : unsigned? cs = some n := by
  rw [unsigned?_of_all_isDigit fun _ => h.isDigit, h.natural?]

theorem Writes.uint64? (h : Writes n cs) :
    uint64? cs = if hn : n < UInt64.size then some (UInt64.ofNatLT n hn) else none := by
  rw [Numeral.uint64?, h.unsigned?, Option.bind_some]

theorem Writes.uint32? (h : Writes n cs) :
    uint32? cs = if hn : n < UInt32.size then some (UInt32.ofNatLT n hn) else none := by
  rw [Numeral.uint32?, h.unsigned?, Option.bind_some]

theorem Writes.uint32?_eq_some {word : UInt32} (h : Writes word.toNat cs) :
    Numeral.uint32? cs = some word := by
  rw [h.uint32?, dif_pos word.toNat_lt_size, UInt32.ofNatLT_toNat]

/-- A numeral has no blanks around it. -/
theorem Writes.trim_eq (h : Writes n cs) : trim cs = cs :=
  trim_of_no_blank fun _ hc => isBlank_of_isDigit (h.isDigit hc)

theorem digitValue_lt {c : Char} (h : c.isDigit = true) : digitValue c < 10 := by
  have hc := toNat_of_isDigit h
  unfold digitValue
  omega

theorem toDigits_digitValue {c : Char} (h : c.isDigit = true) :
    Nat.toDigits 10 (digitValue c) = [c] := by
  have hc := toNat_of_isDigit h
  have hchar : (digitValue c).digitChar.toNat = c.toNat := by
    rw [Nat.toNat_digitChar_of_lt_ten (digitValue_lt h), digitValue]
    omega
  rw [Nat.toDigits_of_lt_base (digitValue_lt h), Char.toNat_inj.1 hchar]

theorem Writes.append_digit (h : Writes n cs) {c : Char} (hc : c.isDigit = true) :
    Writes (10 * n + digitValue c) (cs ++ [c]) := by
  obtain ⟨zeros, rfl⟩ := h
  rcases Nat.eq_zero_or_pos n with rfl | hpos
  · refine ⟨zeros + 1, ?_⟩
    rw [Nat.mul_zero, Nat.zero_add, toDigits_digitValue hc, List.replicate_succ', Nat.toDigits_zero]
  · refine ⟨zeros, ?_⟩
    rw [← Nat.toDigits_append_toDigits (by decide) hpos (digitValue_lt hc),
      toDigits_digitValue hc, List.append_assoc]

/-- Any digits write their value. -/
theorem writes_value (hne : cs ≠ []) (h : ∀ c ∈ cs, c.isDigit = true) : Writes (value cs) cs := by
  induction cs using List.reverseRecOn with
  | nil => exact absurd rfl hne
  | append_singleton ds c ih =>
    have hc : c.isDigit = true := h c (by simp)
    rw [value_append_singleton]
    cases ds with
    | nil => exact ⟨0, by simp [value, toDigits_digitValue hc]⟩
    | cons d ds => exact (ih (by simp) fun d hd => h d (List.mem_append_left _ hd)).append_digit hc

theorem natural?_eq_some_iff : natural? cs = some n ↔ Writes n cs := by
  refine ⟨fun h => ?_, Writes.natural?⟩
  unfold natural? at h
  split at h
  · cases h
  · next hread =>
    obtain ⟨hne, hdigits⟩ : cs ≠ [] ∧ ∀ c ∈ cs, c.isDigit = true := by simpa using hread
    rw [← Option.some.inj h]
    exact writes_value hne hdigits

theorem map_natural?_eq_some_iff {f : Nat → Int} {t : Int} :
    (natural? cs).map f = some t ↔ ∃ n, Writes n cs ∧ f n = t := by
  simp [natural?_eq_some_iff]

theorem signed?_eq_some_iff {t : Int} : signed? cs = some t ↔ WritesInt t cs := by
  unfold signed?
  split
  · next ds =>
    rw [map_natural?_eq_some_iff]
    constructor
    · rintro ⟨n, hn, rfl⟩
      exact .plus hn
    · intro h
      cases h with
      | bare h => exact absurd (h.isDigit List.mem_cons_self) (by decide)
      | plus h => exact ⟨_, h, rfl⟩
  · next ds =>
    rw [map_natural?_eq_some_iff]
    constructor
    · rintro ⟨n, hn, rfl⟩
      exact .minus hn
    · intro h
      cases h with
      | bare h => exact absurd (h.isDigit List.mem_cons_self) (by decide)
      | minus h => exact ⟨_, h, rfl⟩
  · next hplus hminus =>
    rw [map_natural?_eq_some_iff]
    constructor
    · rintro ⟨n, hn, rfl⟩
      exact .bare hn
    · intro h
      cases h with
      | bare h => exact ⟨_, h, rfl⟩
      | plus h => exact absurd rfl (hplus _)
      | minus h => exact absurd rfl (hminus _)

/-- A signed word is read from its numerals and from no other text. -/
theorem int64?_eq_some_iff {t : Int} : int64? cs = some t ↔ WritesInt t cs ∧ IsWord t := by
  rw [int64?, Option.filter_eq_some_iff, signed?_eq_some_iff]
  simp [IsWord]

end ContentProjection.Text.Numeral
