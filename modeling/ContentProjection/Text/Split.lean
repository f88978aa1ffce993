/-!
# Splitting text

Lists of characters cut at a character, at the first occurrence of a character,
or at every occurrence of a word. Cutting at a character keeps empty parts and
always gives at least one; no part contains the separator.
-/
namespace ContentProjection.Text

/-- All parts between occurrences of `sep`. -/
def splitOn (sep : Char) : List Char → List (List Char)
  | [] => [[]]
  | c :: cs =>
    match splitOn sep cs with
    | [] => [[]]
    | part :: parts => if c = sep then [] :: part :: parts else (c :: part) :: parts

/-- The text before the first `sep` and the text after it. -/
def splitFirst? (sep : Char) : List Char → Option (List Char × List Char)
  | [] => none
  | c :: cs =>
    if c = sep then some ([], cs)
    else (splitFirst? sep cs).map fun parts => (c :: parts.1, parts.2)

/-- The rest of a text that starts with `word`. -/
def dropWord? : List Char → List Char → Option (List Char)
  | [], cs => some cs
  | _ :: _, [] => none
  | w :: ws, c :: cs => if w = c then dropWord? ws cs else none

/-- The text before the first occurrence of `word` and the text after it. -/
def splitWord? (word : List Char) : List Char → Option (List Char × List Char)
  | [] => (dropWord? word []).map fun rest => ([], rest)
  | c :: cs =>
    match dropWord? word (c :: cs) with
    | some rest => some ([], rest)
    | none => (splitWord? word cs).map fun parts => (c :: parts.1, parts.2)

theorem dropWord?_eq_some_iff {word cs rest : List Char} :
    dropWord? word cs = some rest ↔ cs = word ++ rest := by
  induction word generalizing cs with
  | nil => simp [dropWord?]
  | cons w ws ih =>
    cases cs with
    | nil => simp [dropWord?]
    | cons c cs =>
      by_cases h : w = c
      · simp [dropWord?, h, ih]
      · simp [dropWord?, h, Ne.symm h]

theorem splitWord?_eq_append {word cs before rest : List Char}
    (h : splitWord? word cs = some (before, rest)) : cs = before ++ word ++ rest := by
  induction cs generalizing before with
  | nil =>
    simp only [splitWord?, Option.map_eq_some_iff, dropWord?_eq_some_iff, Prod.mk.injEq] at h
    obtain ⟨_, h₀, rfl, rfl⟩ := h
    simpa using h₀
  | cons c cs ih =>
    rw [splitWord?] at h
    split at h
    · next r hr =>
      cases h
      simpa using dropWord?_eq_some_iff.1 hr
    · obtain ⟨⟨b, r⟩, hb, he⟩ := Option.map_eq_some_iff.1 h
      cases he
      rw [ih hb]
      simp

theorem splitWord?_eq_none_iff {word cs : List Char} :
    splitWord? word cs = none ↔ ∀ before rest, cs ≠ before ++ word ++ rest := by
  constructor
  · intro h before rest hcs
    induction cs generalizing before with
    | nil =>
      obtain ⟨hempty, -⟩ := List.append_eq_nil_iff.1 hcs.symm
      obtain ⟨-, rfl⟩ := List.append_eq_nil_iff.1 hempty
      simp [splitWord?, dropWord?] at h
    | cons c cs ih =>
      rw [splitWord?] at h
      split at h
      · cases h
      · next hdrop =>
        cases before with
        | nil =>
          have hfront : dropWord? word (c :: cs) = some rest := dropWord?_eq_some_iff.2 hcs
          rw [hfront] at hdrop
          cases hdrop
        | cons b before => exact ih (by simpa using h) before (List.cons.inj hcs).2
  · intro h
    cases hs : splitWord? word cs with
    | none => rfl
    | some parts => exact absurd (splitWord?_eq_append hs) (h parts.1 parts.2)

/-- The cut is at the first occurrence. -/
theorem length_le_of_splitWord? {word cs before rest before' rest' : List Char}
    (h : splitWord? word cs = some (before, rest)) (ho : cs = before' ++ word ++ rest') :
    before.length ≤ before'.length := by
  induction cs generalizing before before' with
  | nil =>
    have hcut := splitWord?_eq_append h
    rw [List.append_assoc] at hcut
    rw [(List.append_eq_nil_iff.1 hcut.symm).1]
    exact Nat.zero_le _
  | cons c cs ih =>
    rw [splitWord?] at h
    split at h
    · cases h
      exact Nat.zero_le _
    · next hdrop =>
      obtain ⟨⟨b, r⟩, hb, he⟩ := Option.map_eq_some_iff.1 h
      cases he
      cases before' with
      | nil =>
        have hfront : dropWord? word (c :: cs) = some rest' := dropWord?_eq_some_iff.2 ho
        rw [hfront] at hdrop
        cases hdrop
      | cons b' before' => exact Nat.succ_le_succ (ih hb (List.cons.inj ho).2)

theorem splitOn_eq (sep : Char) (cs : List Char) : splitOn sep cs = cs.splitOn sep := by
  induction cs with
  | nil => rfl
  | cons c cs ih =>
    rw [splitOn, ih, List.splitOn_cons_eq_if_modifyHead]
    cases hparts : cs.splitOn sep with
    | nil => exact absurd hparts (List.splitOn_ne_nil sep cs)
    | cons part parts => by_cases h : c = sep <;> simp [h]

theorem splitOn_intercalate {sep : Char} {parts : List (List Char)} (hne : parts ≠ [])
    (h : ∀ part ∈ parts, sep ∉ part) : splitOn sep ([sep].intercalate parts) = parts := by
  rw [splitOn_eq, List.splitOn_intercalate sep h hne]

/-- A part has only characters of the text, and not the separator. -/
theorem mem_of_mem_splitOn {sep c : Char} {cs part : List Char} (h : part ∈ splitOn sep cs)
    (hc : c ∈ part) : c ∈ cs ∧ c ≠ sep := by
  induction cs generalizing part with
  | nil =>
    rw [splitOn, List.mem_singleton] at h
    rw [h] at hc
    exact absurd hc List.not_mem_nil
  | cons d ds ih =>
    have hlater {other : List Char} (ho : other ∈ splitOn sep ds) (hc : c ∈ other) :
        c ∈ d :: ds ∧ c ≠ sep := (ih ho hc).imp_left (List.mem_cons_of_mem d)
    rw [splitOn] at h
    split at h
    · rw [List.mem_singleton.1 h] at hc
      exact absurd hc List.not_mem_nil
    next first parts hparts =>
      split at h
      · rcases List.mem_cons.1 h with rfl | h
        · exact absurd hc List.not_mem_nil
        · exact hlater (hparts ▸ h) hc
      next hd =>
        rcases List.mem_cons.1 h with rfl | h
        · rcases List.mem_cons.1 hc with rfl | hc
          · exact ⟨List.mem_cons_self, hd⟩
          · exact hlater (hparts ▸ List.mem_cons_self) hc
        · exact hlater (hparts ▸ List.mem_cons_of_mem first h) hc

end ContentProjection.Text
