import ContentProjection.Proofs.Numerals

/-!
# Whole numbers at the start of text

Stored text is read as a whole number by what it starts with: blanks, a sign or none, and
a run of digits of any length. What follows the digits does not count, and a text without
them is zero. A number past the signed words is brought back to their greatest magnitude.
That is the nearest word on the positive side; on the negative side the least word lies one
further out and is never read.
-/
namespace ContentProjection.Projection

open Text.Numeral

/-- A text starts with a whole number: blanks, its numeral, and no further digit. -/
def StartsWithInt (n : Int) (cs : List Char) : Prop :=
  ∃ blanks numeral rest, cs = blanks ++ (numeral ++ rest) ∧
    (∀ c ∈ blanks, Text.isBlank c = true) ∧ WritesInt n numeral ∧
    ∀ c ∈ rest.head?, c.isDigit = false

/-- The digits that are read as the number at the start of a text. -/
def leadingDigits (cs : List Char) : List Char :=
  (Text.Real.sign (Text.trimStart cs)).2.takeWhile Char.isDigit

/-- The number that these digits write under the sign in front of them. -/
def leadingInt (cs : List Char) : Int :=
  if (Text.Real.sign (Text.trimStart cs)).1 then -(value (leadingDigits cs) : Int)
  else value (leadingDigits cs)

section Read

variable {n : Nat} {ds blanks numeral rest : List Char}

theorem isBlank_sign {c : Char} (h : c = '+' ∨ c = '-') : Text.isBlank c = false := by
  rcases h with rfl | rfl <;> decide

theorem sign_of_writes (h : Writes n ds) (rest : List Char) :
    Text.Real.sign (ds ++ rest) = (false, ds ++ rest) := by
  obtain ⟨d, tail, rfl⟩ := List.exists_cons_of_ne_nil h.ne_nil
  have hd : d.isDigit = true := h.isDigit List.mem_cons_self
  rw [List.cons_append]
  unfold Text.Real.sign
  split
  · next heq => cases heq; exact absurd hd (by decide)
  · next heq => cases heq; exact absurd hd (by decide)
  · rfl

theorem trimStart_append_of_blanks (h : ∀ c ∈ blanks, Text.isBlank c = true) (cs : List Char) :
    Text.trimStart (blanks ++ cs) = Text.trimStart cs :=
  List.dropWhile_append_of_pos h

/-- A numeral begins with a digit or a sign, neither of which is a blank. -/
theorem trimStart_numeral {t : Int} (h : WritesInt t numeral) (rest : List Char) :
    Text.trimStart (numeral ++ rest) = numeral ++ rest := by
  cases h with
  | @bare n ds hwrites =>
    obtain ⟨d, tail, rfl⟩ := List.exists_cons_of_ne_nil hwrites.ne_nil
    apply Text.trimStart_cons_of_not_isBlank
    exact Text.isBlank_of_isDigit (hwrites.isDigit List.mem_cons_self)
  | plus => exact Text.trimStart_cons_of_not_isBlank (isBlank_sign (Or.inl rfl)) _
  | minus => exact Text.trimStart_cons_of_not_isBlank (isBlank_sign (Or.inr rfl)) _

end Read

variable {cs : List Char} {n : Int}

/-- The number that a text starts with is the one its leading digits write. -/
theorem StartsWithInt.leadingInt_eq (h : StartsWithInt n cs) :
    leadingDigits cs ≠ [] ∧ leadingInt cs = n := by
  obtain ⟨blanks, numeral, rest, rfl, hblanks, hnumeral, hrest⟩ := h
  have htrim : Text.trimStart (blanks ++ (numeral ++ rest)) = numeral ++ rest := by
    rw [trimStart_append_of_blanks hblanks, trimStart_numeral hnumeral]
  have htake : ∀ {m ds}, Writes m ds → (ds ++ rest).takeWhile Char.isDigit = ds :=
    fun hwrites => (hwrites.takeWhile_append id hrest).1
  rw [leadingInt, leadingDigits, htrim]
  cases hnumeral with
  | bare hwrites =>
    rw [sign_of_writes hwrites]
    simp [htake hwrites, hwrites.ne_nil, hwrites.value_eq]
  | plus hwrites =>
    simp [Text.Real.sign, htake hwrites, hwrites.ne_nil,
      hwrites.value_eq]
  | minus hwrites =>
    simp [Text.Real.sign, htake hwrites, hwrites.ne_nil,
      hwrites.value_eq]

/-- A minus, a plus or nothing stands in front of the rest. -/
theorem sign_cases (cs : List Char) :
    (∃ rest, cs = '-' :: rest ∧ Text.Real.sign cs = (true, rest)) ∨
    (∃ rest, cs = '+' :: rest ∧ Text.Real.sign cs = (false, rest)) ∨
    Text.Real.sign cs = (false, cs) := by
  unfold Text.Real.sign
  split
  · next rest => exact Or.inl ⟨rest, rfl, rfl⟩
  · next rest => exact Or.inr (Or.inl ⟨rest, rfl, rfl⟩)
  · exact Or.inr (Or.inr rfl)

/-- Where there are digits, they are those of a number that the text starts with. -/
theorem startsWithInt_leadingInt (h : leadingDigits cs ≠ []) :
    StartsWithInt (leadingInt cs) cs := by
  have hwrites : Writes (value (leadingDigits cs)) (leadingDigits cs) :=
    writes_value h fun c hc => List.mem_takeWhile_imp hc
  have hend : ∀ c ∈ ((Text.Real.sign (Text.trimStart cs)).2.dropWhile Char.isDigit).head?,
      c.isDigit = false := fun c hc => eq_false_of_mem_head?_dropWhile hc
  have hstarts : ∀ numeral, WritesInt (leadingInt cs) numeral →
      Text.trimStart cs =
        numeral ++ (Text.Real.sign (Text.trimStart cs)).2.dropWhile Char.isDigit →
      StartsWithInt (leadingInt cs) cs := by
    intro numeral hnumeral htrim
    refine ⟨cs.takeWhile Text.isBlank, numeral, _, ?_, fun c hc => List.mem_takeWhile_imp hc,
      hnumeral, hend⟩
    rw [← htrim]
    exact List.takeWhile_append_dropWhile.symm
  have hsplit : (Text.Real.sign (Text.trimStart cs)).2 =
      leadingDigits cs ++ (Text.Real.sign (Text.trimStart cs)).2.dropWhile Char.isDigit :=
    List.takeWhile_append_dropWhile.symm
  rcases sign_cases (Text.trimStart cs) with ⟨rest, htrim, hsign⟩ | ⟨rest, htrim, hsign⟩ | hsign
  case inl =>
    apply hstarts ('-' :: leadingDigits cs)
    · simpa [leadingInt, hsign] using WritesInt.minus hwrites
    · rw [List.cons_append, ← hsplit, hsign, htrim]
  case inr.inl =>
    apply hstarts ('+' :: leadingDigits cs)
    · simpa [leadingInt, hsign] using WritesInt.plus hwrites
    · rw [List.cons_append, ← hsplit, hsign, htrim]
  case inr.inr =>
    apply hstarts (leadingDigits cs)
    · simpa [leadingInt, hsign] using WritesInt.bare hwrites
    · rw [← hsplit, hsign]

/-- A text starts with at most one number. -/
theorem startsWithInt_iff : StartsWithInt n cs ↔ leadingDigits cs ≠ [] ∧ leadingInt cs = n := by
  refine ⟨StartsWithInt.leadingInt_eq, ?_⟩
  rintro ⟨hne, rfl⟩
  exact startsWithInt_leadingInt hne

theorem integerAtStart_eq (cs : List Char) :
    integerAtStart cs =
      if leadingDigits cs = [] then 0 else max (-maxInt64) (min (leadingInt cs) maxInt64) := by
  rw [integerAtStart]
  dsimp only
  rw [← leadingDigits]
  split
  · next hnone => rw [if_pos hnone]
  · next ds hne =>
    rw [if_neg hne, saturated, leadingInt, maxInt64]
    cases (Text.Real.sign (Text.trimStart cs)).1 with
    | true => simp only [if_true]; omega
    | false => simp only [Bool.false_eq_true, if_false]; omega

theorem integerAtStart_of_startsWithInt (h : StartsWithInt n cs) :
    integerAtStart cs = max (-maxInt64) (min n maxInt64) := by
  obtain ⟨hne, rfl⟩ := startsWithInt_iff.1 h
  rw [integerAtStart_eq, if_neg hne]

theorem integerAtStart_of_no_int (h : ∀ n, ¬ StartsWithInt n cs) : integerAtStart cs = 0 := by
  have hnone : leadingDigits cs = [] := by
    by_contra hne
    exact h _ (startsWithInt_leadingInt hne)
  rw [integerAtStart_eq, if_pos hnone]

/-- A text is read as the signed word nearest to the number that it starts with, and as zero
without one. -/
structure ReadsNearestWord (raw : String) : Prop where
  number : ∀ n, StartsWithInt n raw.toList → integerOf raw = max minInt64 (min n maxInt64)
  zero : (∀ n, ¬ StartsWithInt n raw.toList) → integerOf raw = 0

/-- The nearest word is read unless that is the least one. Numbers from there down are read as
the word after it, so that the least word alone is not read back from its numeral. -/
theorem reads_nearest_word_iff (raw : String) :
    (ReadsNearestWord raw ↔ ∀ n, StartsWithInt n raw.toList → minInt64 < n) ∧
    (∀ n, StartsWithInt n raw.toList → integerOf raw = max (minInt64 + 1) (min n maxInt64)) ∧
    ∀ n, IsWord n → (integerOf (toString n) = n ↔ n ≠ minInt64) := by
  have hread : ∀ n, StartsWithInt n raw.toList →
      integerOf raw = max (minInt64 + 1) (min n maxInt64) := fun n =>
    integerAtStart_of_startsWithInt
  refine ⟨⟨fun hnearest n hn => ?_, fun hgreater => ⟨fun n hn => ?_, ?_⟩⟩, hread, ?_⟩
  · have hboth := (hread n hn).symm.trans (hnearest.number n hn)
    rw [minInt64, maxInt64] at hboth
    rw [minInt64]
    omega
  · have hn' := hgreater n hn
    rw [hread n hn]
    rw [minInt64, maxInt64] at *
    omega
  · exact integerAtStart_of_no_int
  · rintro n ⟨hmin, hmax⟩
    rw [integerOf_toString]
    rw [minInt64, maxInt64] at *
    omega

/-- The numeral of the least signed word. -/
theorem leastWord_not_reads_nearest_word :
    toString minInt64 = "-9223372036854775808" ∧
    StartsWithInt minInt64 "-9223372036854775808".toList ∧
    integerOf "-9223372036854775808" = -9223372036854775807 ∧
    ¬ ReadsNearestWord "-9223372036854775808" := by
  have hstarts : StartsWithInt minInt64 "-9223372036854775808".toList := by
    refine ⟨[], "-9223372036854775808".toList, [], (List.append_nil _).symm,
      List.forall_mem_nil _, ?_, by simp⟩
    exact WritesInt.minus (n := 9223372036854775808) ⟨0, by decide⟩
  refine ⟨by decide, hstarts, by decide, fun hnearest => ?_⟩
  exact absurd (hnearest.number minInt64 hstarts) (by decide)

end ContentProjection.Projection
