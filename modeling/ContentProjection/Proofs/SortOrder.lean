import ContentProjection.Proofs.SortRuns
import ContentProjection.Store.Selection
import Mathlib.Data.List.Nodup

/-!
# What sort keys put in order

Entities compare by the first values under each key in turn and by id at last.
The comparison turns around with its arguments, and different ids never compare
equal. It is transitive only as far as the two rules for texts agree: two numerals
compare as numbers, any other two texts by their characters. A text that is no
numeral can join numerals into a circle, as in "9" < "10" < "1a" < "9". There are no
other circles, so entities without such a text between two numerals of the other
order are put in one order, from whatever arrangement sorting starts.
-/
namespace ContentProjection

/-- Steps that never go up lead back to their start only when they stay level. -/
theorem eq_of_isLE_circle {α : Type} {cmp : α → α → Ordering} [Std.TransCmp cmp] {a b c : α}
    (hab : (cmp a b).isLE) (hbc : (cmp b c).isLE) (hca : (cmp c a).isLE) :
    cmp a b = .eq ∧ cmp b c = .eq ∧ cmp c a = .eq := by
  have hba : (cmp b a).isLE := Std.TransCmp.isLE_trans hbc hca
  have hcb : (cmp c b).isLE := Std.TransCmp.isLE_trans hca hab
  have hac : (cmp a c).isLE := Std.TransCmp.isLE_trans hab hbc
  exact ⟨Std.OrientedCmp.isLE_antisymm hab hba, Std.OrientedCmp.isLE_antisymm hbc hcb,
    Std.OrientedCmp.isLE_antisymm hca hac⟩

/-- A text that compares by its number with others of its kind. -/
def IsNumeral (text : String) : Prop := (Text.Numeral.int64? text.toList).isSome

instance (text : String) : Decidable (IsNumeral text) :=
  inferInstanceAs (Decidable (_ = true))

/-- As texts the values go up, and only the middle one is no numeral. -/
def Straddles : Option String → Option String → Option String → Prop
  | some low, some text, some high =>
    IsNumeral low ∧ ¬ IsNumeral text ∧ IsNumeral high ∧ low < text ∧ text < high
  | _, _, _ => False

instance (u v w : Option String) : Decidable (Straddles u v w) :=
  match u, v, w with
  | some low, some text, some high => inferInstanceAs
    (Decidable (IsNumeral low ∧ ¬ IsNumeral text ∧ IsNumeral high ∧ low < text ∧ text < high))
  | none, _, _ | some _, none, _ | some _, some _, none => inferInstanceAs (Decidable False)

namespace Store

section Texts

variable {x y z : String}

theorem compareText_of_numerals {m n : Int} (hx : Text.Numeral.int64? x.toList = some m)
    (hy : Text.Numeral.int64? y.toList = some n) : compareText x y = compare m n := by
  rw [compareText, hx, hy]

theorem compareText_of_not_numerals (h : IsNumeral x → ¬ IsNumeral y) :
    compareText x y = compare x y := by
  unfold compareText
  unfold IsNumeral at h
  cases hx : Text.Numeral.int64? x.toList with
  | none => rfl
  | some m =>
    cases hy : Text.Numeral.int64? y.toList with
    | none => rfl
    | some n =>
      rw [hx, hy] at h
      exact absurd rfl (h rfl)

theorem compareText_swap (x y : String) : compareText y x = (compareText x y).swap := by
  unfold compareText
  cases Text.Numeral.int64? x.toList with
  | none => cases Text.Numeral.int64? y.toList <;> exact Std.OrientedOrd.eq_swap
  | some m => cases Text.Numeral.int64? y.toList <;> exact Std.OrientedOrd.eq_swap

/-- A text and a numeral are different, so that one of them is the lesser. -/
theorem lt_of_isLE_compareText (h : (compareText x y).isLE) (hne : IsNumeral x ↔ ¬ IsNumeral y) :
    x < y := by
  rw [compareText_of_not_numerals hne.1] at h
  rcases Ordering.isLE_iff_eq_lt_or_eq_eq.1 h with hlt | heq
  · exact compareOfLessAndEq_eq_lt.1 hlt
  · have hxy : x = y := Std.LawfulEqOrd.eq_of_compare heq
    rw [hxy] at hne
    exact absurd hne (by simp)

theorem straddles_of_isLE (hx : IsNumeral x) (hy : ¬ IsNumeral y) (hz : IsNumeral z)
    (hxy : (compareText x y).isLE) (hyz : (compareText y z).isLE) :
    Straddles (some x) (some y) (some z) :=
  ⟨hx, hy, hz, lt_of_isLE_compareText hxy (by simp [hx, hy]),
    lt_of_isLE_compareText hyz (by simp [hy, hz])⟩

section Circle

variable (hxy : (compareText x y).isLE) (hyz : (compareText y z).isLE)
  (hzx : (compareText z x).isLE)
include hxy hyz hzx

theorem eq_of_circle_of_numerals (hx : IsNumeral x) (hy : IsNumeral y) (hz : IsNumeral z) :
    compareText x y = .eq ∧ compareText y z = .eq ∧ compareText z x = .eq := by
  obtain ⟨l, hl⟩ := Option.isSome_iff_exists.1 hx
  obtain ⟨m, hm⟩ := Option.isSome_iff_exists.1 hy
  obtain ⟨n, hn⟩ := Option.isSome_iff_exists.1 hz
  rw [compareText_of_numerals hl hm] at hxy ⊢
  rw [compareText_of_numerals hm hn] at hyz ⊢
  rw [compareText_of_numerals hn hl] at hzx ⊢
  exact eq_of_isLE_circle hxy hyz hzx

/-- At most one of three texts is a numeral, so that all compare by their characters. -/
theorem eq_of_circle_of_texts (hx : IsNumeral x → ¬ IsNumeral y) (hy : IsNumeral y → ¬ IsNumeral z)
    (hz : IsNumeral z → ¬ IsNumeral x) :
    compareText x y = .eq ∧ compareText y z = .eq ∧ compareText z x = .eq := by
  rw [compareText_of_not_numerals hx] at hxy ⊢
  rw [compareText_of_not_numerals hy] at hyz ⊢
  rw [compareText_of_not_numerals hz] at hzx ⊢
  exact eq_of_isLE_circle hxy hyz hzx

/-- Texts that never go up around a circle are level, or a text stands between two numerals. -/
theorem circle_compareText :
    (compareText x y = .eq ∧ compareText y z = .eq ∧ compareText z x = .eq) ∨
      Straddles (some x) (some y) (some z) ∨ Straddles (some y) (some z) (some x) ∨
      Straddles (some z) (some x) (some y) := by
  by_cases hx : IsNumeral x
  · by_cases hy : IsNumeral y
    · by_cases hz : IsNumeral z
      · exact Or.inl (eq_of_circle_of_numerals hxy hyz hzx hx hy hz)
      · exact Or.inr (Or.inr (Or.inl (straddles_of_isLE hy hz hx hyz hzx)))
    · by_cases hz : IsNumeral z
      · exact Or.inr (Or.inl (straddles_of_isLE hx hy hz hxy hyz))
      · exact Or.inl (eq_of_circle_of_texts hxy hyz hzx (by simp [hy]) (by simp [hy])
          (by simp [hz]))
  · by_cases hyz' : IsNumeral y ∧ IsNumeral z
    · exact Or.inr (Or.inr (Or.inr (straddles_of_isLE hyz'.2 hx hyz'.1 hzx hxy)))
    · exact Or.inl (eq_of_circle_of_texts hxy hyz hzx (by simp [hx]) (not_and.1 hyz')
        (by simp [hx]))

end Circle

end Texts

section Values

variable {u v w : Option String}

theorem compareFirst_swap (u v : Option String) : compareFirst v u = (compareFirst u v).swap := by
  cases u with
  | none => cases v <;> rfl
  | some x =>
    cases v with
    | none => rfl
    | some y => exact compareText_swap x y

theorem eq_none_of_isLE (h : (compareFirst u none).isLE) : u = none := by
  cases u with
  | none => rfl
  | some x => cases h

theorem circle_compareFirst (huv : (compareFirst u v).isLE) (hvw : (compareFirst v w).isLE)
    (hwu : (compareFirst w u).isLE) :
    (compareFirst u v = .eq ∧ compareFirst v w = .eq ∧ compareFirst w u = .eq) ∨
      Straddles u v w ∨ Straddles v w u ∨ Straddles w u v := by
  cases u with
  | none =>
    obtain rfl := eq_none_of_isLE hwu
    obtain rfl := eq_none_of_isLE hvw
    exact Or.inl ⟨rfl, rfl, rfl⟩
  | some x =>
    cases v with
    | none => cases huv
    | some y =>
      cases w with
      | none => cases hvw
      | some z => exact circle_compareText huv hvw hwu

theorem Straddles.compareFirst_eq_lt (h : Straddles u v w) :
    compareFirst u v = .lt ∧ compareFirst v w = .lt := by
  match u, v, w, h with
  | some x, some y, some z, ⟨_, hy, _, hxy, hyz⟩ =>
    constructor
    · exact (compareText_of_not_numerals fun _ => hy).trans (compareOfLessAndEq_eq_lt.2 hxy)
    · exact (compareText_of_not_numerals (absurd · hy)).trans (compareOfLessAndEq_eq_lt.2 hyz)

end Values

/-- In the order of a key's texts, the value of `t` stands between those of `a` and `b`. -/
def Interposed (key : SortKey) (a t b : Entity) : Prop :=
  match key.direction with
  | .ascending =>
    Straddles (firstValue a key.field) (firstValue t key.field) (firstValue b key.field)
  | .descending =>
    Straddles (firstValue b key.field) (firstValue t key.field) (firstValue a key.field)

instance (key : SortKey) (a t b : Entity) : Decidable (Interposed key a t b) := by
  unfold Interposed
  cases key.direction <;> infer_instance

/-- A key that tells no two of three entities apart. -/
def Level (key : SortKey) (a t b : Entity) : Prop :=
  compareBy key a t = .eq ∧ compareBy key t b = .eq ∧ compareBy key b a = .eq

instance (key : SortKey) (a t b : Entity) : Decidable (Level key a t b) :=
  inferInstanceAs (Decidable (_ ∧ _ ∧ _))

/-- Under the first key that tells them apart, the value of `t` stands between two numerals that
the numbers, or later keys and ids where the numbers are equal, put the other way round. -/
def Misordered : List SortKey → Entity → Entity → Entity → Prop
  | [], _, _, _ => False
  | key :: rest, a, t, b =>
    Interposed key a t b ∧ compareEntities (key :: rest) b a = .lt ∨
      Level key a t b ∧ Misordered rest a t b

instance decidableMisordered (keys : List SortKey) (a t b : Entity) :
    Decidable (Misordered keys a t b) :=
  match keys with
  | [] => inferInstanceAs (Decidable False)
  | key :: rest =>
    have := decidableMisordered rest a t b
    inferInstanceAs (Decidable (Interposed key a t b ∧ _ ∨ Level key a t b ∧ Misordered rest a t b))

section Keys

variable {key : SortKey} {keys : List SortKey} {a t b : Entity}

theorem compareBy_descending (field : String) (a b : Entity) :
    compareBy ⟨field, .descending⟩ a b =
      compareFirst (firstValue b field) (firstValue a field) :=
  (compareFirst_swap _ _).symm

theorem compareBy_swap (key : SortKey) (a b : Entity) :
    compareBy key b a = (compareBy key a b).swap := by
  obtain ⟨field, direction⟩ := key
  cases direction with
  | ascending => exact compareFirst_swap _ _
  | descending =>
    rw [compareBy_descending, compareBy_descending]
    exact compareFirst_swap _ _

theorem Interposed.compareBy_eq_lt (h : Interposed key a t b) :
    compareBy key a t = .lt ∧ compareBy key t b = .lt := by
  obtain ⟨field, direction⟩ := key
  cases direction with
  | ascending => exact Straddles.compareFirst_eq_lt h
  | descending =>
    rw [compareBy_descending, compareBy_descending]
    exact (Straddles.compareFirst_eq_lt h).symm

theorem Level.rotate (h : Level key a t b) : Level key t b a := ⟨h.2.1, h.2.2, h.1⟩

theorem circle_compareBy (hat : (compareBy key a t).isLE) (htb : (compareBy key t b).isLE)
    (hba : (compareBy key b a).isLE) :
    Level key a t b ∨ Interposed key a t b ∨ Interposed key t b a ∨ Interposed key b a t := by
  obtain ⟨field, direction⟩ := key
  cases direction with
  | ascending => exact circle_compareFirst hat htb hba
  | descending =>
    rw [compareBy_descending] at hat htb hba
    rcases circle_compareFirst htb hat hba with ⟨htb, hat, hba⟩ | h | h | h
    · simp only [Level, compareBy_descending]
      exact Or.inl ⟨hat, htb, hba⟩
    · exact Or.inr (Or.inl h)
    · exact Or.inr (Or.inr (Or.inr h))
    · exact Or.inr (Or.inr (Or.inl h))

theorem compareEntities_swap (keys : List SortKey) (a b : Entity) :
    compareEntities keys b a = (compareEntities keys a b).swap := by
  induction keys with
  | nil => exact Std.OrientedOrd.eq_swap
  | cons key rest ih =>
    rw [compareEntities, compareEntities, compareBy_swap, ih, Ordering.swap_then]

theorem id_eq_of_compareEntities_eq (h : compareEntities keys a b = .eq) : a.id = b.id := by
  induction keys with
  | nil => exact Std.LawfulEqOrd.eq_of_compare h
  | cons key rest ih => exact ih (Ordering.then_eq_eq.1 h).2

theorem compareEntities_cons_of_eq {rest : List SortKey} (h : compareBy key a b = .eq) :
    compareEntities (key :: rest) a b = compareEntities rest a b := by
  rw [compareEntities, h, Ordering.eq_then]

/-- Entities, each less than the next one and the last less than the first. -/
def Circle (keys : List SortKey) (a t b : Entity) : Prop :=
  compareEntities keys a t = .lt ∧ compareEntities keys t b = .lt ∧ compareEntities keys b a = .lt

instance (keys : List SortKey) (a t b : Entity) : Decidable (Circle keys a t b) :=
  inferInstanceAs (Decidable (_ ∧ _ ∧ _))

theorem Level.circle_iff {rest : List SortKey} (h : Level key a t b) :
    Circle (key :: rest) a t b ↔ Circle rest a t b := by
  unfold Circle
  rw [compareEntities_cons_of_eq h.1, compareEntities_cons_of_eq h.2.1,
    compareEntities_cons_of_eq h.2.2]

theorem circle_of_misordered (h : Misordered keys a t b) : Circle keys a t b := by
  induction keys with
  | nil => exact h.elim
  | cons key rest ih =>
    rcases h with ⟨hbetween, hba⟩ | ⟨hlevel, hrest⟩
    · obtain ⟨hat, htb⟩ := hbetween.compareBy_eq_lt
      exact ⟨Ordering.then_eq_lt.2 (Or.inl hat), Ordering.then_eq_lt.2 (Or.inl htb), hba⟩
    · exact hlevel.circle_iff.2 (ih hrest)

/-- Seen from one of its entities, every circle is a misplaced text. -/
theorem misordered_of_circle (h : Circle keys a t b) :
    Misordered keys a t b ∨ Misordered keys t b a ∨ Misordered keys b a t := by
  induction keys with
  | nil =>
    have hat : compare a.id t.id = .lt := h.1
    have htb : compare t.id b.id = .lt := h.2.1
    have hba : compare b.id a.id = .lt := h.2.2
    have hlevel := eq_of_isLE_circle (Ordering.isLE_of_eq_lt hat) (Ordering.isLE_of_eq_lt htb)
      (Ordering.isLE_of_eq_lt hba)
    exact absurd (hlevel.1.symm.trans hat) (by decide)
  | cons key rest ih =>
    obtain ⟨hat, htb, hba⟩ := h
    rcases circle_compareBy (Ordering.isLE_left_of_isLE_then (Ordering.isLE_of_eq_lt hat))
      (Ordering.isLE_left_of_isLE_then (Ordering.isLE_of_eq_lt htb))
      (Ordering.isLE_left_of_isLE_then (Ordering.isLE_of_eq_lt hba)) with hlevel | hi | hi | hi
    · rcases ih (hlevel.circle_iff.1 ⟨hat, htb, hba⟩) with hm | hm | hm
      · exact Or.inl (Or.inr ⟨hlevel, hm⟩)
      · exact Or.inr (Or.inl (Or.inr ⟨hlevel.rotate, hm⟩))
      · exact Or.inr (Or.inr (Or.inr ⟨hlevel.rotate.rotate, hm⟩))
    · exact Or.inl (Or.inl ⟨hi, hba⟩)
    · exact Or.inr (Or.inl (Or.inl ⟨hi, hat⟩))
    · exact Or.inr (Or.inr (Or.inl ⟨hi, htb⟩))

end Keys

/-- The comparison by the keys is a strict total order of the entities. -/
structure OrdersStrictly (keys : List SortKey) (entities : List Entity) : Prop where
  swap : ∀ a ∈ entities, ∀ b ∈ entities,
    compareEntities keys b a = (compareEntities keys a b).swap
  apart : ∀ a ∈ entities, ∀ b ∈ entities, compareEntities keys a b = .eq → a = b
  trans : ∀ a ∈ entities, ∀ b ∈ entities, ∀ c ∈ entities, compareEntities keys a b = .lt →
    compareEntities keys b c = .lt → compareEntities keys a c = .lt

section Sorting

variable {keys : List SortKey} {entities : List Entity}

theorem not_lt_of_lt {a b : Entity} (h : compareEntities keys a b = .lt) :
    compareEntities keys b a ≠ .lt := by
  rw [compareEntities_swap, h]
  decide

theorem eq_of_compareEntities_eq (hids : (entities.map Entity.id).Nodup) {a b : Entity}
    (ha : a ∈ entities) (hb : b ∈ entities) (h : compareEntities keys a b = .eq) : a = b :=
  List.inj_on_of_nodup_map hids ha hb (id_eq_of_compareEntities_eq h)

theorem not_misordered_of_ordersStrictly (h : OrdersStrictly keys entities) {a t b : Entity}
    (ha : a ∈ entities) (ht : t ∈ entities) (hb : b ∈ entities) : ¬ Misordered keys a t b := by
  intro hm
  obtain ⟨hat, htb, hba⟩ := circle_of_misordered hm
  exact not_lt_of_lt hba (h.trans a ha t ht b hb hat htb)

theorem ordersStrictly_of_not_misordered (hids : (entities.map Entity.id).Nodup)
    (h : ∀ a ∈ entities, ∀ t ∈ entities, ∀ b ∈ entities, ¬ Misordered keys a t b) :
    OrdersStrictly keys entities where
  swap a _ b _ := compareEntities_swap keys a b
  apart a ha b hb := eq_of_compareEntities_eq hids ha hb
  trans a ha b hb c hc hab hbc := by
    cases hac : compareEntities keys a c with
    | lt => rfl
    | eq =>
      have heq := eq_of_compareEntities_eq hids ha hc hac
      exact absurd hbc (heq ▸ not_lt_of_lt hab)
    | gt =>
      have hca : compareEntities keys c a = .lt := by rw [compareEntities_swap, hac]; rfl
      rcases misordered_of_circle ⟨hab, hbc, hca⟩ with hm | hm | hm
      · exact absurd hm (h a ha b hb c hc)
      · exact absurd hm (h b hb c hc a ha)
      · exact absurd hm (h c hc a ha b hb)

theorem sorted?_perm {sorted : List Entity} (h : sorted? keys entities = some sorted) :
    sorted.Perm entities :=
  StableSort.sort?_perm h

theorem isLess_iff {a b : Entity} : isLess keys a b = true ↔ compareEntities keys a b = .lt :=
  beq_iff_eq

theorem isLess_eq_false_iff {a b : Entity} :
    isLess keys a b = false ↔ compareEntities keys a b ≠ .lt := by
  rw [← Bool.not_eq_true, isLess_iff]

/-- Of two entities with different ids the comparison puts one first. -/
theorem tournament (keys : List SortKey) (hids : (entities.map Entity.id).Nodup) :
    StableSort.Tournament (isLess keys) entities where
  asymm a _ b _ hab := isLess_eq_false_iff.2 (not_lt_of_lt (isLess_iff.1 hab))
  connected a ha b hb hab hba := by
    refine eq_of_compareEntities_eq hids ha hb (?_ : compareEntities keys a b = .eq)
    rw [isLess_eq_false_iff] at hab hba
    cases hcmp : compareEntities keys a b with
    | lt => exact absurd hcmp hab
    | eq => rfl
    | gt => exact absurd (by rw [compareEntities_swap, hcmp]; rfl) hba

theorem transitiveOn_of_ordersStrictly (h : OrdersStrictly keys entities) :
    StableSort.TransitiveOn (isLess keys) entities :=
  fun a ha b hb c hc hab hbc =>
    isLess_iff.2 (h.trans a ha b hb c hc (isLess_iff.1 hab) (isLess_iff.1 hbc))

/-- Different entities of which none is less than an earlier one go up. -/
theorem pairwise_lt_of_not_isLess (hids : (entities.map Entity.id).Nodup)
    (h : entities.Pairwise fun a b => isLess keys b a = false) :
    entities.Pairwise fun a b => compareEntities keys a b = .lt := by
  refine (h.and (hids.of_map Entity.id)).imp_of_mem fun {a b} ha hb ⟨hnot, hne⟩ => ?_
  cases hlt : isLess keys a b with
  | true => exact isLess_iff.1 hlt
  | false => exact absurd ((tournament keys hids).connected a ha b hb hlt hnot) hne

/-- Under a strict order sorting ends, and the entities go up. -/
theorem exists_sorted?_of_ordersStrictly (hids : (entities.map Entity.id).Nodup)
    (h : OrdersStrictly keys entities) {arranged : List Entity} (hperm : arranged.Perm entities) :
    ∃ sorted, sorted? keys arranged = some sorted ∧
      sorted.Pairwise fun a b => compareEntities keys a b = .lt := by
  have hids' : (arranged.map Entity.id).Nodup := (hperm.map Entity.id).nodup_iff.2 hids
  have htrans : StableSort.TransitiveOn (isLess keys) arranged := fun a ha b hb c hc =>
    transitiveOn_of_ordersStrictly h a (hperm.mem_iff.1 ha) b (hperm.mem_iff.1 hb) c
      (hperm.mem_iff.1 hc)
  obtain ⟨sorted, hsorted, hup⟩ :=
    StableSort.exists_sort?_of_transitive (tournament keys hids') htrans
  exact ⟨sorted, hsorted, pairwise_lt_of_not_isLess
    (((sorted?_perm hsorted).map Entity.id).nodup_iff.2 hids') hup⟩

/-- Only one arrangement of the entities goes up from each to all later ones. -/
theorem eq_of_pairwise_lt {l l' : List Entity} (hperm : l.Perm l')
    (hl : l.Pairwise fun a b => compareEntities keys a b = .lt)
    (hl' : l'.Pairwise fun a b => compareEntities keys a b = .lt) : l = l' :=
  hperm.eq_of_pairwise (fun _ _ _ _ hab hba => absurd hba (not_lt_of_lt hab)) hl hl'

/-- The comparison of entities with different ids turns around with its arguments and keeps
them apart. It is a strict total order, in which every arrangement is sorted the same way, if
and only if no text stands between two numerals that go the other way. -/
theorem ordersStrictly_iff_not_misordered (keys : List SortKey) {entities : List Entity}
    (hids : (entities.map Entity.id).Nodup) :
    (∀ a ∈ entities, ∀ b ∈ entities,
      compareEntities keys b a = (compareEntities keys a b).swap ∧
        (compareEntities keys a b = .eq → a = b)) ∧
    (OrdersStrictly keys entities ↔
      ∀ a ∈ entities, ∀ t ∈ entities, ∀ b ∈ entities, ¬ Misordered keys a t b) ∧
    (OrdersStrictly keys entities → ∃ sorted : List Entity,
      sorted.Pairwise (fun a b => compareEntities keys a b = .lt) ∧
        ∀ arranged : List Entity, arranged.Perm entities →
          sorted? keys arranged = some sorted) := by
  refine ⟨fun a ha b hb => ?_, ⟨fun h a ha t ht b hb => ?_, ?_⟩, fun h => ?_⟩
  · exact ⟨compareEntities_swap keys a b, eq_of_compareEntities_eq hids ha hb⟩
  · exact not_misordered_of_ordersStrictly h ha ht hb
  · exact ordersStrictly_of_not_misordered hids
  · obtain ⟨sorted, hsorted, hup⟩ :=
      exists_sorted?_of_ordersStrictly hids h (List.Perm.refl entities)
    refine ⟨sorted, hup, fun arranged hperm => ?_⟩
    obtain ⟨sorted', hsorted', hup'⟩ := exists_sorted?_of_ordersStrictly hids h hperm
    have hsame : sorted'.Perm sorted :=
      ((sorted?_perm hsorted').trans hperm).trans (sorted?_perm hsorted).symm
    rw [hsorted', eq_of_pairwise_lt hsame hup' hup]

/-- Pages with these sizes, numbered from 1. -/
def pagesOfSizes (sizes : List String) : List Entity :=
  sizes.mapIdx fun n size => NodeRecord.entity
    ⟨UInt64.ofNat (n + 1), Uuid.repeating 0, "page", "", true, 0, none,
      [("field_size", [.value size])]⟩

theorem pagesOfSizes_ordersStrictly :
    ((pagesOfSizes ["2", "10", "large"]).map Entity.id).Nodup ∧
    OrdersStrictly [.asc "field_size"] (pagesOfSizes ["2", "10", "large"]) ∧
    sorted? [.asc "field_size"] (pagesOfSizes ["2", "10", "large"]).reverse =
      some (pagesOfSizes ["2", "10", "large"]) := by
  have hids : ((pagesOfSizes ["2", "10", "large"]).map Entity.id).Nodup := by decide
  obtain ⟨-, hiff, hsorted⟩ := ordersStrictly_iff_not_misordered [.asc "field_size"] hids
  have h : OrdersStrictly [.asc "field_size"] (pagesOfSizes ["2", "10", "large"]) :=
    hiff.2 (by decide +kernel)
  obtain ⟨sorted, -, harranged⟩ := hsorted h
  refine ⟨hids, h, ?_⟩
  rw [harranged _ (List.reverse_perm _), ← harranged _ (List.Perm.refl _)]
  decide +kernel

/-- As numbers 9 is less than 10, as texts "10" is less than "1a" and that less than "9". -/
theorem pagesOfSizes_not_ordersStrictly :
    ((pagesOfSizes ["9", "10", "1a"]).map Entity.id).Nodup ∧
    ¬ OrdersStrictly [.asc "field_size"] (pagesOfSizes ["9", "10", "1a"]) := by
  refine ⟨by decide, fun h => ?_⟩
  have hcircle : Circle [.asc "field_size"]
      ((pagesOfSizes ["9", "10", "1a"])[0]) ((pagesOfSizes ["9", "10", "1a"])[1])
      ((pagesOfSizes ["9", "10", "1a"])[2]) := by decide +kernel
  exact not_lt_of_lt hcircle.2.2
    (h.trans _ (by simp) _ (by simp) _ (by simp) hcircle.1 hcircle.2.1)

end Sorting

end Store

end ContentProjection
