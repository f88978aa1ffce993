import ContentProjection.Proofs.Lists
import ContentProjection.Text.Real
import Mathlib.Data.List.TakeWhile

/-!
# The grammar of decimal reals

A decimal real is a sign or none, digits with at most one point, and an exponent or none.
What is read at the start of a text is the longest piece of it in this form. Each part is
read as far as it goes, and none can be read shorter in favour of the next: the mark of an
exponent is no part of the digits before it.
-/
namespace ContentProjection.Text.Real

def IsDigits (ds : List Char) : Prop := ∀ c ∈ ds, c.isDigit = true

inductive IsSign : List Char → Prop
  | none : IsSign []
  | plus : IsSign ['+']
  | minus : IsSign ['-']

/-- Digits with or without a point behind them or among them, or behind a point. -/
inductive IsMantissa : List Char → Prop
  | whole {ds : List Char} : ds ≠ [] → IsDigits ds → IsMantissa ds
  | point {ds part : List Char} : ds ≠ [] → IsDigits ds → IsDigits part →
      IsMantissa (ds ++ '.' :: part)
  | part {part : List Char} : part ≠ [] → IsDigits part → IsMantissa ('.' :: part)

inductive IsExponent : List Char → Prop
  | none : IsExponent []
  | some {mark : Char} {sign ds : List Char} : mark = 'e' ∨ mark = 'E' → IsSign sign → ds ≠ [] →
      IsDigits ds → IsExponent (mark :: (sign ++ ds))

def IsReal (cs : List Char) : Prop :=
  ∃ sign mantissa exponent, cs = sign ++ (mantissa ++ exponent) ∧ IsSign sign ∧
    IsMantissa mantissa ∧ IsExponent exponent

/-- The longest decimal real that a text starts with. -/
structure LongestReal (number cs : List Char) : Prop where
  starts : number <+: cs
  isReal : IsReal number
  longest : ∀ other, other <+: cs → IsReal other → other.length ≤ number.length

variable {cs ds whole part rest : List Char}

theorem isDigits_digitRun (cs : List Char) : IsDigits (digitRun cs).1 :=
  fun _ hc => List.mem_takeWhile_imp hc

theorem digitRun_append_eq (cs : List Char) : (digitRun cs).1 ++ (digitRun cs).2 = cs :=
  List.takeWhile_append_dropWhile

theorem length_digitRun_le (cs : List Char) : (digitRun cs).2.length ≤ cs.length :=
  (List.dropWhile_suffix _).length_le

theorem digitRun_append (h : IsDigits ds) (cs : List Char) :
    digitRun (ds ++ cs) = (ds ++ (digitRun cs).1, (digitRun cs).2) := by
  rw [digitRun, List.takeWhile_append_of_pos h, List.dropWhile_append_of_pos h]
  rfl

theorem digitRun_of_head (h : ∀ c ∈ cs.head?, c.isDigit = false) : digitRun cs = ([], cs) := by
  cases cs with
  | nil => rfl
  | cons c cs => simp [digitRun, h c rfl]

theorem exists_sign (cs : List Char) : ∃ s, IsSign s ∧ cs = s ++ (sign cs).2 := by
  unfold sign
  split
  · exact ⟨['-'], .minus, rfl⟩
  · exact ⟨['+'], .plus, rfl⟩
  · exact ⟨[], .none, rfl⟩

theorem sign_of_head (h : ∀ c ∈ cs.head?, c ≠ '-' ∧ c ≠ '+') : sign cs = (false, cs) := by
  unfold sign
  split
  · exact absurd rfl (h '-' rfl).1
  · exact absurd rfl (h '+' rfl).2
  · rfl

theorem sign_append {s : List Char} (hs : IsSign s) (h : ∀ c ∈ cs.head?, c ≠ '-' ∧ c ≠ '+') :
    (sign (s ++ cs)).2 = cs := by
  cases hs with
  | plus => rfl
  | minus => rfl
  | none => rw [List.nil_append, sign_of_head h]

theorem fraction_point (whole rest : List Char) : fraction whole ('.' :: rest) =
    if whole = [] ∧ (digitRun rest).1 = [] then ([], '.' :: rest) else digitRun rest := by
  simp [fraction]

theorem fraction_of_head (whole : List Char) (h : ∀ c ∈ cs.head?, c ≠ '.') :
    fraction whole cs = ([], cs) := by
  unfold fraction
  split
  · next rest => exact absurd rfl (h '.' rfl)
  · rfl

theorem exponent_mark {mark : Char} (h : mark = 'e' ∨ mark = 'E') (rest : List Char) :
    (exponent (mark :: rest)).2 =
      if (digitRun (sign rest).2).1 = [] then mark :: rest else (digitRun (sign rest).2).2 := by
  have hmark : (decide (mark = 'e') || decide (mark = 'E')) = true := by simpa using h
  simp only [exponent, hmark, if_true, List.isEmpty_iff]
  split <;> rfl

theorem exponent_of_head (h : ∀ c ∈ cs.head?, c ≠ 'e' ∧ c ≠ 'E') : exponent cs = (0, cs) := by
  cases cs with
  | nil => rfl
  | cons c cs =>
    obtain ⟨hlower, hupper⟩ := h c rfl
    simp [exponent, hlower, hupper]

theorem length_fraction_le (whole cs : List Char) :
    (fraction whole cs).2.length ≤ cs.length := by
  by_cases h : ∃ rest, cs = '.' :: rest
  · obtain ⟨rest, rfl⟩ := h
    have hrest := length_digitRun_le rest
    rw [fraction_point]
    split
    · exact Nat.le_refl _
    · rw [List.length_cons]
      omega
  · have hhead : ∀ c ∈ cs.head?, c ≠ '.' := by
      rintro c hc rfl
      exact h (List.head?_eq_some_iff.1 hc)
    rw [fraction_of_head whole hhead]

theorem exists_exponent (cs : List Char) : ∃ e, IsExponent e ∧ cs = e ++ (exponent cs).2 := by
  by_cases h : ∃ mark rest, cs = mark :: rest ∧ (mark = 'e' ∨ mark = 'E')
  · obtain ⟨mark, rest, rfl, hmark⟩ := h
    rw [exponent_mark hmark]
    split
    · exact ⟨[], .none, rfl⟩
    · next hne =>
      obtain ⟨s, hs, hrest⟩ := exists_sign rest
      refine ⟨_, .some hmark hs hne (isDigits_digitRun _), ?_⟩
      rw [List.cons_append, List.append_assoc, digitRun_append_eq, ← hrest]
  · have hhead : ∀ c ∈ cs.head?, c ≠ 'e' ∧ c ≠ 'E' := by
      intro c hc
      obtain ⟨rest, hcs⟩ := List.head?_eq_some_iff.1 hc
      exact not_or.1 fun hmark => h ⟨c, rest, hcs, hmark⟩
    exact ⟨[], .none, by rw [exponent_of_head hhead, List.nil_append]⟩

theorem length_exponent_le (cs : List Char) : (exponent cs).2.length ≤ cs.length := by
  obtain ⟨e, -, hcs⟩ := exists_exponent cs
  exact (List.IsSuffix.length_le ⟨e, hcs.symm⟩)

theorem isDigit_of_mem_head? (hne : ds ≠ []) (hds : IsDigits ds) {cs : List Char} {c : Char}
    (h : c ∈ (ds ++ cs).head?) : c.isDigit = true := by
  rw [List.head?_append_of_ne_nil ds hne] at h
  exact hds c (List.mem_of_mem_head? h)

/-- An exponent is read to its end at least. -/
theorem length_exponent_append_le {e : List Char} (h : IsExponent e) (cs : List Char) :
    (exponent (e ++ cs)).2.length ≤ cs.length := by
  cases h with
  | none => exact length_exponent_le cs
  | @some mark s ds hmark hs hne hds =>
    have hsign : (sign (s ++ (ds ++ cs))).2 = ds ++ cs := by
      refine sign_append hs fun c hc => ?_
      have hdigit := isDigit_of_mem_head? hne hds hc
      constructor <;> rintro rfl <;> exact absurd hdigit (by decide)
    rw [List.cons_append, List.append_assoc, exponent_mark hmark, hsign, digitRun_append hds,
      if_neg (by simp [hne])]
    exact length_digitRun_le cs

/-- What is left behind the mantissa at the start of a text, if a digit is in it. -/
def afterMantissa? (cs : List Char) : Option (List Char) :=
  if (digitRun cs).1 = [] ∧ (fraction (digitRun cs).1 (digitRun cs).2).1 = [] then none
  else some (fraction (digitRun cs).1 (digitRun cs).2).2

theorem afterMantissa?_of_point (h : digitRun cs = (whole, '.' :: rest)) : afterMantissa? cs =
    if whole = [] ∧ (digitRun rest).1 = [] then none else some (digitRun rest).2 := by
  rw [afterMantissa?, h, fraction_point]
  by_cases hnone : whole = [] ∧ (digitRun rest).1 = [] <;> simp [hnone]

theorem afterMantissa?_of_no_point (h : digitRun cs = (whole, rest))
    (hrest : ∀ c ∈ rest.head?, c ≠ '.') :
    afterMantissa? cs = if whole = [] then none else some rest := by
  rw [afterMantissa?, h, fraction_of_head whole hrest]
  simp

theorem exists_mantissa (h : afterMantissa? cs = some rest) :
    ∃ m, IsMantissa m ∧ cs = m ++ rest := by
  have hwhole := isDigits_digitRun cs
  have hcs := digitRun_append_eq cs
  cases hrun : digitRun cs with
  | mk whole after =>
  rw [hrun] at hwhole hcs
  by_cases hpoint : ∃ tail, after = '.' :: tail
  · obtain ⟨tail, rfl⟩ := hpoint
    have hpart := isDigits_digitRun tail
    have htail := digitRun_append_eq tail
    rw [afterMantissa?_of_point hrun] at h
    split at h
    · cases h
    next hne =>
      cases h
      rcases eq_or_ne whole [] with rfl | hsome
      · refine ⟨_, .part (fun hnone => hne ⟨rfl, hnone⟩) hpart, ?_⟩
        rw [← hcs, List.nil_append, List.cons_append, htail]
      · refine ⟨_, .point hsome hwhole hpart, ?_⟩
        rw [← hcs, List.append_assoc, List.cons_append, htail]
  · have hrest : ∀ c ∈ after.head?, c ≠ '.' := by
      rintro c hc rfl
      exact hpoint (List.head?_eq_some_iff.1 hc)
    rw [afterMantissa?_of_no_point hrun hrest] at h
    split at h
    · cases h
    next hne =>
      cases h
      exact ⟨whole, .whole hne hwhole, hcs.symm⟩

/-- A mantissa is read to its end at least, and no further unless a digit or a point follows. -/
theorem afterMantissa?_append {m : List Char} (h : IsMantissa m) (cs : List Char) :
    ∃ rest, afterMantissa? (m ++ cs) = some rest ∧ rest.length ≤ cs.length ∧
      ((∀ c ∈ cs.head?, c.isDigit = false ∧ c ≠ '.') → rest = cs) := by
  have hlength := length_digitRun_le cs
  have hstop : (∀ c ∈ cs.head?, c.isDigit = false ∧ c ≠ '.') → digitRun cs = ([], cs) :=
    fun hhead => digitRun_of_head fun c hc => (hhead c hc).1
  cases h with
  | whole hne hds =>
    have hsome : ¬(m ++ (digitRun cs).1 = [] ∧
        (fraction (m ++ (digitRun cs).1) (digitRun cs).2).1 = []) := by simp [hne]
    refine ⟨_, by rw [afterMantissa?, digitRun_append hds, if_neg hsome], ?_, fun hhead => ?_⟩
    · exact (length_fraction_le _ _).trans hlength
    · rw [hstop hhead, fraction_of_head _ fun c hc => (hhead c hc).2]
  | @point ds part hne hds hpart =>
    have hrun : digitRun (ds ++ '.' :: (part ++ cs)) = (ds, '.' :: (part ++ cs)) := by
      rw [digitRun_append hds, digitRun_of_head (by simp), List.append_nil]
    refine ⟨(digitRun cs).2, ?_, hlength, fun hhead => by rw [hstop hhead]⟩
    rw [List.append_assoc, List.cons_append, afterMantissa?_of_point hrun,
      if_neg fun hnone => hne hnone.1, digitRun_append hpart]
  | @part part hne hpart =>
    have hrun : digitRun ('.' :: (part ++ cs)) = ([], '.' :: (part ++ cs)) :=
      digitRun_of_head (by simp)
    refine ⟨(digitRun cs).2, ?_, hlength, fun hhead => by rw [hstop hhead]⟩
    rw [List.cons_append, afterMantissa?_of_point hrun, digitRun_append hpart,
      if_neg (by simp [hne])]

/-- What is left of a text behind the real that it starts with. -/
def afterReal? (cs : List Char) : Option (List Char) := (leading? cs).map Prod.snd

theorem afterReal?_eq (cs : List Char) :
    afterReal? cs = (afterMantissa? (sign cs).2).map fun rest => (exponent rest).2 := by
  simp only [afterReal?, leading?, afterMantissa?, Bool.and_eq_true, List.isEmpty_iff]
  split <;> rfl

theorem exists_isReal (h : afterReal? cs = some rest) :
    ∃ number, IsReal number ∧ cs = number ++ rest := by
  rw [afterReal?_eq] at h
  obtain ⟨tail, htail, rfl⟩ := Option.map_eq_some_iff.1 h
  obtain ⟨s, hs, hcs⟩ := exists_sign cs
  obtain ⟨m, hm, hunsigned⟩ := exists_mantissa htail
  obtain ⟨e, he, hexponent⟩ := exists_exponent tail
  refine ⟨s ++ (m ++ e), ⟨s, m, e, rfl, hs, hm, he⟩, ?_⟩
  rw [List.append_assoc, List.append_assoc, ← hexponent, ← hunsigned, ← hcs]

theorem IsMantissa.mem_head? {m : List Char} (h : IsMantissa m) {c : Char}
    (hc : c ∈ (m ++ cs).head?) : c.isDigit = true ∨ c = '.' := by
  cases h with
  | whole hne hds => exact Or.inl (isDigit_of_mem_head? hne hds hc)
  | point hne hds hpart =>
    rw [List.append_assoc] at hc
    exact Or.inl (isDigit_of_mem_head? hne hds hc)
  | part hne hpart => exact Or.inr (Option.some.inj hc).symm

/-- A real is read to its end at least. -/
theorem afterReal?_append {number : List Char} (h : IsReal number) (cs : List Char) :
    ∃ rest, afterReal? (number ++ cs) = some rest ∧ rest.length ≤ cs.length := by
  obtain ⟨s, m, e, rfl, hs, hm, he⟩ := h
  have hsign : (sign (s ++ (m ++ (e ++ cs)))).2 = m ++ (e ++ cs) := by
    refine sign_append hs fun c hc => ?_
    rcases hm.mem_head? hc with hdigit | rfl
    · constructor <;> rintro rfl <;> exact absurd hdigit (by decide)
    · decide
  obtain ⟨rest, hrest, hle, hstop⟩ := afterMantissa?_append hm (e ++ cs)
  refine ⟨(exponent rest).2, ?_, ?_⟩
  · rw [afterReal?_eq, List.append_assoc, List.append_assoc, hsign, hrest, Option.map_some]
  · cases he with
    | none => exact (length_exponent_le rest).trans hle
    | @some mark s ds hmark hs hne hds =>
      rw [hstop]
      · exact length_exponent_append_le (.some hmark hs hne hds) cs
      · rintro c ⟨rfl⟩
        rcases hmark with rfl | rfl <;> decide

/-- The real at the start of a text is its longest piece of that form. -/
theorem afterReal?_eq_some_iff :
    afterReal? cs = some rest ↔ ∃ number, cs = number ++ rest ∧ LongestReal number cs := by
  constructor
  · intro h
    obtain ⟨number, hreal, hcs⟩ := exists_isReal h
    refine ⟨number, hcs, ⟨rest, hcs.symm⟩, hreal, ?_⟩
    rintro other ⟨tail, hother⟩ hother'
    obtain ⟨rest', hrest', hle⟩ := afterReal?_append hother' tail
    rw [hother, h] at hrest'
    cases hrest'
    have hlength := congrArg List.length (hother.trans hcs)
    rw [List.length_append, List.length_append] at hlength
    omega
  · rintro ⟨number, hcs, hlongest⟩
    obtain ⟨rest', hrest', hle⟩ := afterReal?_append hlongest.isReal rest
    rw [← hcs] at hrest'
    obtain ⟨number', hreal', hcs'⟩ := exists_isReal hrest'
    have hle' := hlongest.longest number' ⟨rest', hcs'.symm⟩ hreal'
    have hsame : number ++ rest = number' ++ rest' := hcs.symm.trans hcs'
    have hlength := congrArg List.length hsame
    rw [List.length_append, List.length_append] at hlength
    rw [hrest', (List.append_inj' hsame (by omega)).2]

theorem LongestReal.unique {number number' : List Char} (h : LongestReal number cs)
    (h' : LongestReal number' cs) : number = number' := by
  have hle := h.longest number' h'.starts h'.isReal
  have hle' := h'.longest number h.starts h.isReal
  exact (List.prefix_of_prefix_length_le h.starts h'.starts hle').eq_of_length (by omega)

theorem afterReal?_eq_none_iff :
    afterReal? cs = none ↔ ∀ number, number <+: cs → ¬ IsReal number := by
  constructor
  · rintro h number ⟨tail, hcs⟩ hreal
    obtain ⟨rest, hrest, -⟩ := afterReal?_append hreal tail
    rw [hcs, h] at hrest
    cases hrest
  · intro h
    refine Option.eq_none_iff_forall_ne_some.2 fun rest hrest => ?_
    obtain ⟨number, hreal, hcs⟩ := exists_isReal hrest
    exact h number ⟨rest, hcs.symm⟩ hreal

/-- The texts that are read as a whole are the decimal reals. -/
theorem exists_whole?_iff : (∃ l, whole? cs = some l) ↔ IsReal cs := by
  have hwhole : (∃ l, whole? cs = some l) ↔ afterReal? cs = some [] := by
    rw [afterReal?, whole?]
    cases leading? cs with
    | none => simp
    | some read => obtain ⟨l, _ | ⟨c, rest⟩⟩ := read <;> simp
  rw [hwhole, afterReal?_eq_some_iff]
  constructor
  · rintro ⟨number, hcs, hlongest⟩
    rw [hcs, List.append_nil]
    exact hlongest.isReal
  · intro h
    refine ⟨cs, (List.append_nil cs).symm, List.prefix_rfl, h, ?_⟩
    exact fun other hother _ => hother.length_le

end ContentProjection.Text.Real
