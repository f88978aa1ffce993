import ContentProjection.Proofs.Paging
import ContentProjection.Proofs.TextOrder

/-!
# The order of a listing

Sort keys ask which of two first values is below the other: a missing one is below any
other, numerals go by their numbers, other texts by their bytes. Where the values of
every key are all numerals or all other texts, a listing is the one list that holds
every match once and puts one match before another exactly when the first key that
tells them apart ranks it first, or when no key does and its id is smaller. A range
leaves out the first matches of that list and stops after so many others.
-/
namespace ContentProjection

section Positions

variable {α : Type} [DecidableEq α] {R : α → α → Prop} {l : List α}

theorem pairwise_of_idxOf (hnodup : l.Nodup)
    (h : ∀ a ∈ l, ∀ b ∈ l, l.idxOf a < l.idxOf b → R a b) : l.Pairwise R := by
  refine List.pairwise_iff_getElem.2 fun i j hi hj hij => ?_
  refine h _ (List.getElem_mem hi) _ (List.getElem_mem hj) ?_
  rwa [hnodup.idxOf_getElem, hnodup.idxOf_getElem]

/-- In a list that goes up along a relation, places are in the order of the relation. -/
theorem idxOf_lt_idxOf_iff (hasymm : ∀ a b, R a b → ¬ R b a) (h : l.Pairwise R) {a b : α}
    (ha : a ∈ l) (hb : b ∈ l) : l.idxOf a < l.idxOf b ↔ R a b := by
  have hR {a b : α} (ha : a ∈ l) (hb : b ∈ l) (hlt : l.idxOf a < l.idxOf b) : R a b := by
    have hget := List.pairwise_iff_getElem.1 h _ _ (List.idxOf_lt_length_of_mem ha)
      (List.idxOf_lt_length_of_mem hb) hlt
    rwa [List.getElem_idxOf, List.getElem_idxOf] at hget
  refine ⟨hR ha hb, fun hab => ?_⟩
  rcases Nat.lt_trichotomy (l.idxOf a) (l.idxOf b) with hlt | heq | hgt
  · exact hlt
  · rw [(List.idxOf_inj ha).1 heq] at hab
    exact absurd hab (hasymm _ _ hab)
  · exact absurd (hR hb ha hgt) (hasymm _ _ hab)

end Positions

/-- One first value is below another. A numeral and another text are not compared. -/
inductive Below : Option String → Option String → Prop
  | missing (text : String) : Below none (some text)
  | numbers {x y : String} {m n : Int} (hx : Text.Numeral.int64? x.toList = some m)
      (hy : Text.Numeral.int64? y.toList = some n) (h : m < n) : Below (some x) (some y)
  | texts {x y : String} (hx : ¬ IsNumeral x) (hy : ¬ IsNumeral y)
      (h : Text.Utf8.bytes x < Text.Utf8.bytes y) : Below (some x) (some y)

namespace SortKey

open Store (firstValue)

/-- The key puts the first of two entities before the second. -/
def Ranks (key : SortKey) (a b : Entity) : Prop :=
  match key.direction with
  | .ascending => Below (firstValue a key.field) (firstValue b key.field)
  | .descending => Below (firstValue b key.field) (firstValue a key.field)

/-- The key does not tell two entities apart. -/
def Ties (key : SortKey) (a b : Entity) : Prop := ¬ key.Ranks a b ∧ ¬ key.Ranks b a

end SortKey

/-- The first key that tells two entities apart ranks `a` first, or no key tells them apart and
`a` has the smaller id. -/
def ListedBefore (keys : List SortKey) (a b : Entity) : Prop :=
  (∃ front key back, keys = front ++ key :: back ∧ (∀ other ∈ front, other.Ties a b) ∧
    key.Ranks a b) ∨
  (∀ key ∈ keys, key.Ties a b) ∧ a.id < b.id

/-- The first values of a field are all numerals or all other texts. -/
def Uniform (entities : List Entity) (field : String) : Prop :=
  (∀ e ∈ entities, ∀ text ∈ Store.firstValue e field, IsNumeral text) ∨
    ∀ e ∈ entities, ∀ text ∈ Store.firstValue e field, ¬ IsNumeral text

instance (entities : List Entity) (field : String) : Decidable (Uniform entities field) :=
  inferInstanceAs (Decidable ((∀ e ∈ entities, ∀ text ∈ _, _) ∨ ∀ e ∈ entities, ∀ text ∈ _, _))

theorem listedBefore_nil {a b : Entity} : ListedBefore [] a b ↔ a.id < b.id := by
  simp [ListedBefore]

theorem listedBefore_cons {key : SortKey} {keys : List SortKey} {a b : Entity} :
    ListedBefore (key :: keys) a b ↔ key.Ranks a b ∨ key.Ties a b ∧ ListedBefore keys a b := by
  constructor
  · rintro (⟨front, first, back, heq, hties, hranks⟩ | ⟨hties, hid⟩)
    · cases front with
      | nil =>
        cases heq
        exact Or.inl hranks
      | cons other front =>
        cases heq
        obtain ⟨hother, hfront⟩ := List.forall_mem_cons.1 hties
        exact Or.inr ⟨hother, Or.inl ⟨front, first, back, rfl, hfront, hranks⟩⟩
    · obtain ⟨hkey, hkeys⟩ := List.forall_mem_cons.1 hties
      exact Or.inr ⟨hkey, Or.inr ⟨hkeys, hid⟩⟩
  · rintro (hranks | ⟨hkey, ⟨front, first, back, heq, hties, hranks⟩ | ⟨hties, hid⟩⟩)
    · exact Or.inl ⟨[], key, keys, rfl, by simp, hranks⟩
    · exact Or.inl ⟨key :: front, first, back, by rw [heq]; rfl,
        List.forall_mem_cons.2 ⟨hkey, hties⟩, hranks⟩
    · exact Or.inr ⟨List.forall_mem_cons.2 ⟨hkey, hties⟩, hid⟩

namespace Store

/-- Two values, if both are there, are both numerals or both other texts. -/
def SameForm (u v : Option String) : Prop := ∀ x ∈ u, ∀ y ∈ v, (IsNumeral x ↔ IsNumeral y)

theorem SameForm.symm {u v : Option String} (h : SameForm u v) : SameForm v u :=
  fun x hx y hy => (h y hy x hx).symm

theorem compareText_eq_lt_iff {x y : String} (h : IsNumeral x ↔ IsNumeral y) :
    compareText x y = .lt ↔ Below (some x) (some y) := by
  by_cases hx : IsNumeral x
  · obtain ⟨m, hm⟩ := Option.isSome_iff_exists.1 hx
    obtain ⟨n, hn⟩ := Option.isSome_iff_exists.1 (h.1 hx)
    rw [compareText_of_numerals hm hn, Std.compare_eq_lt]
    constructor
    · exact Below.numbers hm hn
    · rintro (_ | ⟨hm', hn', hlt⟩ | ⟨hx', -, -⟩)
      · rw [hm] at hm'
        rw [hn] at hn'
        cases hm'
        cases hn'
        exact hlt
      · exact absurd hx hx'
  · have hy : ¬ IsNumeral y := fun hy => hx (h.2 hy)
    rw [compareText_of_not_numerals (absurd · hx)]
    refine compareOfLessAndEq_eq_lt.trans ⟨fun hlt => ?_, ?_⟩
    · exact Below.texts hx hy (Text.Utf8.bytes_lt_iff.2 hlt)
    · rintro (_ | ⟨hm, -, -⟩ | ⟨-, -, hlt⟩)
      · exact absurd (Option.isSome_iff_exists.2 ⟨_, hm⟩) hx
      · exact Text.Utf8.bytes_lt_iff.1 hlt

theorem compareFirst_eq_lt_iff {u v : Option String} (h : SameForm u v) :
    compareFirst u v = .lt ↔ Below u v := by
  cases u with
  | none =>
    cases v with
    | none => exact ⟨by rintro ⟨⟩, by rintro ⟨⟩⟩
    | some y => exact ⟨fun _ => Below.missing y, fun _ => rfl⟩
  | some x =>
    cases v with
    | none => exact ⟨by rintro ⟨⟩, by rintro ⟨⟩⟩
    | some y => exact compareText_eq_lt_iff (h x rfl y rfl)

section Keys

variable {key : SortKey} {keys : List SortKey} {a b : Entity}

theorem compareBy_eq_lt_iff (h : SameForm (firstValue a key.field) (firstValue b key.field)) :
    compareBy key a b = .lt ↔ key.Ranks a b := by
  obtain ⟨field, direction⟩ := key
  cases direction with
  | ascending => exact compareFirst_eq_lt_iff h
  | descending =>
    rw [compareBy_descending]
    exact compareFirst_eq_lt_iff h.symm

theorem compareBy_eq_eq_iff (h : SameForm (firstValue a key.field) (firstValue b key.field)) :
    compareBy key a b = .eq ↔ key.Ties a b := by
  rw [SortKey.Ties, ← compareBy_eq_lt_iff h, ← compareBy_eq_lt_iff h.symm, compareBy_swap key a b]
  cases compareBy key a b <;> decide

theorem compareEntities_eq_lt_iff
    (h : ∀ key ∈ keys, SameForm (firstValue a key.field) (firstValue b key.field)) :
    compareEntities keys a b = .lt ↔ ListedBefore keys a b := by
  induction keys with
  | nil => exact Std.compare_eq_lt.trans listedBefore_nil.symm
  | cons key rest ih =>
    obtain ⟨hkey, hrest⟩ := List.forall_mem_cons.1 h
    rw [compareEntities, Ordering.then_eq_lt, compareBy_eq_lt_iff hkey, compareBy_eq_eq_iff hkey,
      ih hrest, listedBefore_cons]

theorem exists_interposed_of_misordered {t : Entity} (h : Misordered keys a t b) :
    ∃ key ∈ keys, Interposed key a t b := by
  induction keys with
  | nil => exact h.elim
  | cons key rest ih =>
    rcases h with ⟨hbetween, -⟩ | ⟨-, hrest⟩
    · exact ⟨key, List.mem_cons_self, hbetween⟩
    · obtain ⟨other, ho, hbetween⟩ := ih hrest
      exact ⟨other, List.mem_cons_of_mem _ ho, hbetween⟩

end Keys

theorem Straddles.not_sameForm {u v w : Option String} (h : Straddles u v w) :
    ¬ SameForm u v := by
  match u, v, w, h with
  | some x, some y, some z, ⟨hx, hy, _⟩ => exact fun hform => hy ((hform x rfl y rfl).1 hx)

section Matches

variable {entities : List Entity} {keys : List SortKey}

theorem sameForm_of_uniform {field : String} (h : Uniform entities field) {a b : Entity}
    (ha : a ∈ entities) (hb : b ∈ entities) :
    SameForm (firstValue a field) (firstValue b field) := by
  intro x hx y hy
  rcases h with h | h
  · exact iff_of_true (h a ha x hx) (h b hb y hy)
  · exact iff_of_false (h a ha x hx) (h b hb y hy)

theorem not_misordered_of_uniform (h : ∀ key ∈ keys, Uniform entities key.field) {a t b : Entity}
    (ha : a ∈ entities) (ht : t ∈ entities) (hb : b ∈ entities) : ¬ Misordered keys a t b := by
  intro hm
  obtain ⟨⟨field, direction⟩, hkey, hbetween⟩ := exists_interposed_of_misordered hm
  cases direction with
  | ascending => exact Straddles.not_sameForm hbetween (sameForm_of_uniform (h _ hkey) ha ht)
  | descending => exact Straddles.not_sameForm hbetween (sameForm_of_uniform (h _ hkey) hb ht)

end Matches

/-- The list holds the id of every match once, one before another as the sort keys ask. -/
structure ListsMatches (s : Store) (q : Query) (ids : List EntityId) : Prop where
  nodup : ids.Nodup
  mem_iff : ∀ id, id ∈ ids ↔ ∃ e ∈ s.selected q, e.id = id
  before_iff : ∀ a ∈ s.selected q, ∀ b ∈ s.selected q,
    (ids.idxOf a.id < ids.idxOf b.id ↔ ListedBefore q.sorts a b)

section Listing

variable {s : Store} {q : Query} (ho : (s.shelf q.kind).Ordered)
  (h : ∀ key ∈ q.sorts, Uniform (s.selected q) key.field)

/-- The ids of two matches, the first of them to be listed before the second. -/
def IdsListedBefore (s : Store) (q : Query) (m n : EntityId) : Prop :=
  ∃ a ∈ s.selected q, ∃ b ∈ s.selected q, a.id = m ∧ b.id = n ∧ ListedBefore q.sorts a b

include h in
theorem listedBefore_iff_of_uniform {a b : Entity} (ha : a ∈ s.selected q)
    (hb : b ∈ s.selected q) : compareEntities q.sorts a b = .lt ↔ ListedBefore q.sorts a b :=
  compareEntities_eq_lt_iff fun key hkey => sameForm_of_uniform (h key hkey) ha hb

include ho in
theorem idsListedBefore_iff {a b : Entity} (ha : a ∈ s.selected q) (hb : b ∈ s.selected q) :
    s.IdsListedBefore q a.id b.id ↔ ListedBefore q.sorts a b := by
  refine ⟨?_, fun hab => ⟨a, ha, b, hb, rfl, rfl, hab⟩⟩
  rintro ⟨a', ha', b', hb', hida, hidb, hab⟩
  rwa [List.inj_on_of_nodup_map (nodup_ids_selected ho) ha' ha hida,
    List.inj_on_of_nodup_map (nodup_ids_selected ho) hb' hb hidb] at hab

include ho h in
theorem not_idsListedBefore_swap (m n : EntityId) (hmn : s.IdsListedBefore q m n) :
    ¬ s.IdsListedBefore q n m := by
  obtain ⟨a, ha, b, hb, rfl, rfl, hab⟩ := hmn
  rw [idsListedBefore_iff ho hb ha, ← listedBefore_iff_of_uniform h hb ha]
  exact not_lt_of_lt ((listedBefore_iff_of_uniform h ha hb).2 hab)

include ho h in
theorem ordersStrictly_of_uniform : OrdersStrictly q.sorts (s.selected q) :=
  ordersStrictly_of_not_misordered (nodup_ids_selected ho)
    fun _ ha _ ht _ hb => not_misordered_of_uniform h ha ht hb

include ho h in
theorem pairwise_matchingIds : (s.matchingIds q).Pairwise (s.IdsListedBefore q) := by
  obtain ⟨sorted, hsorted, hup⟩ := exists_sorted?_of_ordersStrictly (nodup_ids_selected ho)
    (ordersStrictly_of_uniform ho h) (List.Perm.refl _)
  have hmem {e : Entity} (he : e ∈ sorted) : e ∈ s.selected q :=
    (sorted?_perm hsorted).mem_iff.1 he
  rw [matchingIds, arranged_of_sorted? hsorted]
  refine List.pairwise_map.2 (hup.imp_of_mem fun {a b} ha hb hlt => ?_)
  exact ⟨a, hmem ha, b, hmem hb, rfl, rfl,
    (listedBefore_iff_of_uniform h (hmem ha) (hmem hb)).1 hlt⟩

theorem mem_matchingIds_iff {id : EntityId} :
    id ∈ s.matchingIds q ↔ ∃ e ∈ s.selected q, e.id = id := by
  rw [matchingIds, List.mem_map]
  simp only [(arranged_perm q.sorts (s.selected q)).mem_iff]

include ho h in
theorem listsMatches_matchingIds : s.ListsMatches q (s.matchingIds q) where
  nodup := nodup_matchingIds ho
  mem_iff _ := mem_matchingIds_iff
  before_iff a ha b hb := by
    rw [← idsListedBefore_iff ho ha hb]
    exact idxOf_lt_idxOf_iff (not_idsListedBefore_swap ho h) (pairwise_matchingIds ho h)
      (mem_matchingIds_iff.2 ⟨a, ha, rfl⟩) (mem_matchingIds_iff.2 ⟨b, hb, rfl⟩)

include ho h in
/-- Every list of the matches in their order is the one that sorting makes. -/
theorem ListsMatches.eq_matchingIds {ids : List EntityId} (hids : s.ListsMatches q ids) :
    ids = s.matchingIds q := by
  have hperm : ids.Perm (s.matchingIds q) :=
    (List.perm_ext_iff_of_nodup hids.nodup (nodup_matchingIds ho)).2 fun id =>
      (hids.mem_iff id).trans mem_matchingIds_iff.symm
  have hup : ids.Pairwise (s.IdsListedBefore q) := by
    refine pairwise_of_idxOf hids.nodup fun m hm n hn hlt => ?_
    obtain ⟨a, ha, rfl⟩ := (hids.mem_iff m).1 hm
    obtain ⟨b, hb, rfl⟩ := (hids.mem_iff n).1 hn
    exact ⟨a, ha, b, hb, rfl, rfl, (hids.before_iff a ha b hb).1 hlt⟩
  exact hperm.eq_of_pairwise
    (fun m n _ _ hmn hnm => absurd hnm (not_idsListedBefore_swap ho h m n hmn))
    hup (pairwise_matchingIds ho h)

end Listing

/-- A query over a filled store whose sort fields are uniform is answered by the one list of all
matches in the order of its keys, and with a range by a stretch of that list. -/
theorem listsMatches_iff_eq_fetchIds (dump : Dump) (baseUrl : String) {q : Query}
    (h : ∀ key ∈ q.sorts, Uniform ((Store.ofDump dump baseUrl).selected q) key.field) :
    ∃ all : List EntityId,
      (Store.ofDump dump baseUrl).storage.fetchIds { q with range := none } = .ok all ∧
      (∀ ids : List EntityId, (Store.ofDump dump baseUrl).ListsMatches q ids ↔ ids = all) ∧
      ∀ slice : Slice, (Store.ofDump dump baseUrl).storage.fetchIds (q.withSlice slice) =
        .ok ((all.drop slice.offset.toNat).take slice.length.toNat) := by
  have ho := Store.ordered_ofDump dump baseUrl q.kind
  generalize Store.ofDump dump baseUrl = s at h ho ⊢
  have hs : s.Sorts q := Orderly.sorts ho (Or.inr (ordersStrictly_of_uniform ho h))
  refine ⟨s.matchingIds q, storage_fetchIds_of_sorts (q := { q with range := none }) hs, ?_,
    fun slice => storage_fetchIds_of_sorts (q := q.withSlice slice) hs⟩
  refine fun ids => ⟨fun hids => hids.eq_matchingIds ho h, ?_⟩
  rintro rfl
  exact listsMatches_matchingIds ho h

/-- Pages of which one has no size and two have the same size written differently. -/
def sizedPages : Dump :=
  { Dump.empty with nodes := [(1, ["+5"]), (2, []), (3, ["10"]), (4, ["05"])].map fun page =>
      ⟨page.1, Uuid.repeating 0, "page", "", true, 0, none,
        [("field_size", page.2.map Item.value)]⟩ }

/-- The published pages, the largest first. -/
def bySize : Query :=
  { (Listing.nodes true).query with sorts := [.desc "field_size"] }

theorem sizedPages_listsMatches :
    (∀ key ∈ bySize.sorts, Uniform ((Store.ofDump sizedPages "").selected bySize) key.field) ∧
    (Store.ofDump sizedPages "").ListsMatches bySize [3, 1, 4, 2] ∧
    (Store.ofDump sizedPages "").storage.fetchIds (bySize.withSlice ⟨1, 2⟩) = .ok [1, 4] := by
  have h : ∀ key ∈ bySize.sorts,
      Uniform ((Store.ofDump sizedPages "").selected bySize) key.field := by decide +kernel
  obtain ⟨all, hall, hiff, hslice⟩ := listsMatches_iff_eq_fetchIds sizedPages "" h
  have hids : (Store.ofDump sizedPages "").storage.fetchIds { bySize with range := none } =
      .ok [3, 1, 4, 2] := by decide +kernel
  obtain rfl := Except.ok.inj (hall.symm.trans hids)
  exact ⟨h, (hiff _).2 rfl, hslice ⟨1, 2⟩⟩

end Store
end ContentProjection
