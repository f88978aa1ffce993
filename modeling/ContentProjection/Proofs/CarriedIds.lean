import ContentProjection.Proofs.Numerals

/-!
# Ids carried by internal paths

An id is looked for at the leftmost place of a path where the mark of its kind stands in
front of a decimal digit of any script. All digits from there on are taken, and they are the
id if they write one in ASCII; no later place is tried when they do not. The path of an entity
carries its id, and nothing for the other kind, whose mark has a letter that the path lacks.
-/
namespace ContentProjection.Token

/-- A mark stands behind `before` and in front of a decimal digit, the first character of `rest`. -/
def MarksDigit (mark before rest text : List Char) : Prop :=
  text = before ++ (mark ++ rest) ∧ ∃ d ∈ rest.head?, Text.isDecimalDigit d = true

/-- No mark in front of a digit stands further left. -/
structure FirstMark (mark before rest text : List Char) : Prop where
  marks : MarksDigit mark before rest text
  leftmost : ∀ before' rest', MarksDigit mark before' rest' text → before.length ≤ before'.length

/-- All the digits behind the first mark of a kind, as far as they go, write an id in ASCII. -/
def CarriesId (kind : EntityKind) (id : EntityId) (path : String) : Prop :=
  ∃ before digits after, FirstMark (pathMark kind) before (digits ++ after) path.toList ∧
    Text.Numeral.Writes id.toNat digits ∧ ∀ c ∈ after.head?, Text.isDecimalDigit c = false

section Search

variable {mark before rest cs : List Char} {c : Char}

theorem MarksDigit.cons (h : MarksDigit mark before rest cs) (c : Char) :
    MarksDigit mark (c :: before) rest (c :: cs) := by
  obtain ⟨rfl, hdigit⟩ := h
  exact ⟨rfl, hdigit⟩

theorem digitsAfter?_of_marks_here (h : MarksDigit mark [] rest cs) :
    digitsAfter? mark cs = some (rest.takeWhile Text.isDecimalDigit) := by
  obtain ⟨hcs, d, hd, hdigit⟩ := h
  obtain ⟨tail, rfl⟩ := List.head?_eq_some_iff.1 hd
  have hdrop : Text.dropWord? mark cs = some (d :: tail) := Text.dropWord?_eq_some_iff.2 hcs
  have htake : (d :: tail).takeWhile Text.isDecimalDigit =
      d :: tail.takeWhile Text.isDecimalDigit := List.takeWhile_cons_of_pos hdigit
  cases cs with
  | nil => simp at hcs
  | cons c cs => rw [digitsAfter?, hdrop, Option.map_some, htake]

theorem digitsAfter?_cons (h : ∀ rest, ¬ MarksDigit mark [] rest (c :: cs)) :
    digitsAfter? mark (c :: cs) = digitsAfter? mark cs := by
  rw [digitsAfter?]
  split
  · next d ds heq =>
    obtain ⟨rest, hdrop, htake⟩ := Option.map_eq_some_iff.1 heq
    have hd : d ∈ rest.takeWhile Text.isDecimalDigit := by
      rw [htake]
      exact List.mem_cons_self
    have hcs : c :: cs = mark ++ rest := Text.dropWord?_eq_some_iff.1 hdrop
    refine absurd ⟨hcs, d, ?_, List.mem_takeWhile_imp hd⟩ (h rest)
    obtain ⟨tail, htail⟩ := List.takeWhile_prefix (l := rest) Text.isDecimalDigit
    rw [← htail, htake]
    rfl
  · rfl

/-- The mark that the search stops at is the first one. -/
theorem exists_firstMark {ds : List Char} (h : digitsAfter? mark cs = some ds) :
    ∃ before rest, FirstMark mark before rest cs := by
  induction cs with
  | nil => cases h
  | cons c cs ih =>
    by_cases hhere : ∃ rest, MarksDigit mark [] rest (c :: cs)
    · obtain ⟨rest, hrest⟩ := hhere
      exact ⟨[], rest, hrest, fun _ _ _ => Nat.zero_le _⟩
    · rw [digitsAfter?_cons (not_exists.1 hhere)] at h
      obtain ⟨before, rest, hfirst⟩ := ih h
      refine ⟨c :: before, rest, hfirst.marks.cons c, fun before' rest' hmarks => ?_⟩
      cases before' with
      | nil => exact absurd ⟨rest', hmarks⟩ hhere
      | cons c' before' =>
        obtain ⟨hcs, hdigit⟩ := hmarks
        exact Nat.succ_le_succ (hfirst.leftmost before' rest' ⟨(List.cons.inj hcs).2, hdigit⟩)

/-- The search takes the digits behind the first mark. -/
theorem FirstMark.digitsAfter?_eq (h : FirstMark mark before rest cs) :
    digitsAfter? mark cs = some (rest.takeWhile Text.isDecimalDigit) := by
  induction before generalizing cs with
  | nil => exact digitsAfter?_of_marks_here h.marks
  | cons c before ih =>
    obtain ⟨hcs, hdigit⟩ := h.marks
    rw [List.cons_append] at hcs
    subst hcs
    have hnot : ∀ rest', ¬ MarksDigit mark [] rest' (c :: (before ++ (mark ++ rest))) :=
      fun rest' hmarks => absurd (h.leftmost [] rest' hmarks) (Nat.not_succ_le_zero _)
    rw [digitsAfter?_cons hnot]
    refine ih ⟨⟨rfl, hdigit⟩, fun before' rest' hmarks => ?_⟩
    exact Nat.le_of_succ_le_succ (h.leftmost (c :: before') rest' (hmarks.cons c))

end Search

variable {kind : EntityKind} {id : EntityId} {path : String}

/-- Among digits of any script the word-sized numerals are those in ASCII. -/
theorem uint64?_eq_some_iff_writes {ds : List Char} {w : UInt64}
    (h : ∀ c ∈ ds, Text.isDecimalDigit c = true) :
    Text.Numeral.uint64? ds = some w ↔ Text.Numeral.Writes w.toNat ds := by
  have hunsigned : Text.Numeral.unsigned? ds = Text.Numeral.natural? ds := by
    unfold Text.Numeral.unsigned?
    split
    · exact absurd (h '+' List.mem_cons_self) (by decide)
    · rfl
  rw [Text.Numeral.uint64?_eq_some_iff, hunsigned, Text.Numeral.natural?_eq_some_iff]

theorem idOfPath?_eq_some_iff : idOfPath? kind path = some id ↔ CarriesId kind id path := by
  rw [idOfPath?, Option.bind_eq_some_iff]
  constructor
  · rintro ⟨ds, hds, hid⟩
    obtain ⟨before, rest, hfirst⟩ := exists_firstMark hds
    rw [hfirst.digitsAfter?_eq, Option.some.injEq] at hds
    subst hds
    refine ⟨before, rest.takeWhile Text.isDecimalDigit, rest.dropWhile Text.isDecimalDigit,
      ?_, ?_, ?_⟩
    · rwa [List.takeWhile_append_dropWhile]
    · exact (uint64?_eq_some_iff_writes fun c hc => List.mem_takeWhile_imp hc).1 hid
    · exact fun c hc => eq_false_of_mem_head?_dropWhile hc
  · rintro ⟨before, digits, after, hfirst, hwrites, hafter⟩
    have htake := (hwrites.takeWhile_append Text.isDecimalDigit_of_isDigit hafter).1
    refine ⟨digits, ?_, ?_⟩
    · rw [hfirst.digitsAfter?_eq, htake]
    · rw [hwrites.uint64?, dif_pos id.toNat_lt_size, UInt64.ofNatLT_toNat]

/-- Each mark has a letter that no path of the other kind has. -/
theorem exists_letter_of_ne {other : EntityKind} (h : other ≠ kind) (id : EntityId) :
    ∃ letter ∈ pathMark other, letter ∉ (kind.internalPath id).toList := by
  have hletter : ∃ letter ∈ pathMark other, letter ∉ '/' :: pathMark kind ∧
      letter.isDigit = false := by
    cases kind <;> cases other
    case node.node => exact absurd rfl h
    case node.taxonomyTerm => exact ⟨'t', by decide, by decide, by decide⟩
    case taxonomyTerm.node => exact ⟨'d', by decide, by decide, by decide⟩
    case taxonomyTerm.taxonomyTerm => exact absurd rfl h
  obtain ⟨letter, hmark, hroot, hdigit⟩ := hletter
  refine ⟨letter, hmark, fun hmem => ?_⟩
  rw [toList_internalPath, ← List.cons_append] at hmem
  rcases List.mem_append.1 hmem with hin | hin
  · exact hroot hin
  · rw [Text.Numeral.isDigit_of_mem_toDigits hin] at hdigit
    cases hdigit

theorem idOfPath?_internalPath_of_ne {other : EntityKind} (h : other ≠ kind) (id : EntityId) :
    idOfPath? other (kind.internalPath id) = none := by
  obtain ⟨letter, hmark, hpath⟩ := exists_letter_of_ne h id
  refine Option.eq_none_iff_forall_ne_some.2 fun found hfound => hpath ?_
  obtain ⟨before, digits, after, hfirst, -, -⟩ := idOfPath?_eq_some_iff.1 hfound
  rw [hfirst.marks.1]
  exact List.mem_append_right before (List.mem_append_left _ hmark)

/-- The path of an entity carries its id for its own kind only, and any path carries the id that
the digits behind the first mark write. -/
theorem paths_carry_ids (kind : EntityKind) (id : EntityId) (path : String) :
    idOfPath? kind (kind.internalPath id) = some id ∧
      (∀ other, other ≠ kind → idOfPath? other (kind.internalPath id) = none) ∧
      (idOfPath? kind path = some id ↔ CarriesId kind id path) :=
  ⟨idOfPath?_internalPath kind id, fun _ hother => idOfPath?_internalPath_of_ne hother id,
    idOfPath?_eq_some_iff⟩

/-- The first mark is the one in front of the Arabic digit, and the second one is not tried. -/
example : idOfPath? .node "/node/x/node/\u0664/node/2" = none := by decide

end ContentProjection.Token
