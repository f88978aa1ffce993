import ContentProjection.Proofs.Paging

/-!
# What a listing asks for

A listing is described without its query: the publication it asks for, and which
fields hold which values. A field holds the values that its path reaches, where
a path is cut at its first mark into a field and a rest, and the rest is followed
from every entity that the field refers to. The query of a listing selects
exactly the entities that the listing describes.
-/
namespace ContentProjection

/-- The mark between a field and what is asked of the entities it refers to. -/
def referenceMark : String := ".entity."

/-- The first mark of a path stands between `field` and `rest`. -/
structure FirstCut (path field rest : String) : Prop where
  whole : path = field ++ referenceMark ++ rest
  first : ∀ field' rest', path = field' ++ referenceMark ++ rest' → field.length ≤ field'.length

namespace Store

/-- The values that a path reaches from an entity: those stored under it, or, past its first
mark, those that the rest reaches from some stored target that exists. -/
inductive Reaches (s : Store) : Entity → String → String → Prop where
  | stored {e : Entity} {path : String} {item : Item}
      (uncut : ∀ field rest, path ≠ field ++ referenceMark ++ rest) (mem : item ∈ e.field path) :
      Reaches s e path item.scalar
  | along {e target : Entity} {path field rest value : String} {item : Item} {id : EntityId}
      (cut : FirstCut path field rest) (mem : item ∈ e.field field)
      (names : item.targetEntityId? = some id)
      (loads : s.get? (s.targetKindOf e field) id = some target)
      (reaches : Reaches s target rest value) : Reaches s e path value

end Store

/-- Some stored item of a field of the entity has this value. -/
def Entity.Stores (e : Entity) (field value : String) : Prop :=
  ∃ item ∈ e.field field, item.scalar = value

/-- A publication filter lets an entity pass: there is none, or the entity is published, or it
is a draft and drafts are wanted too. -/
def Entity.Passes (e : Entity) (published : Option Bool) : Prop :=
  published = none ∨ e.Stores "status" "1" ∨ published = some false ∧ e.Stores "status" "0"

/-- What a listing says about an entity that it lists. -/
structure Listing.Describes (l : Listing) (s : Store) (e : Entity) : Prop where
  publication : e.Passes l.published
  orGroups : ∀ group ∈ l.orGroups, group ≠ [] → ∃ q ∈ group, s.Reaches e q.field q.value
  anyOfGroups : ∀ group ∈ l.anyOfGroups, group.2 ≠ [] → ∃ v ∈ group.2, s.Reaches e group.1 v
  conditions : ∀ q ∈ l.conditions, s.Reaches e q.field q.value

theorem eq_cut_iff {path field rest : String} :
    path = field ++ referenceMark ++ rest ↔
      path.toList = field.toList ++ ".entity.".toList ++ rest.toList := by
  rw [← String.toList_inj, String.toList_append, String.toList_append, referenceMark]

theorem firstCut_iff {path field rest : String} :
    FirstCut path field rest ↔
      Text.splitWord? ".entity.".toList path.toList = some (field.toList, rest.toList) := by
  constructor
  · intro h
    have hwhole := eq_cut_iff.1 h.whole
    cases hs : Text.splitWord? ".entity.".toList path.toList with
    | none => exact absurd hwhole (Text.splitWord?_eq_none_iff.1 hs _ _)
    | some parts =>
      obtain ⟨before, after⟩ := parts
      have hcut := Text.splitWord?_eq_append hs
      have hle := Text.length_le_of_splitWord? hs hwhole
      have hge := h.first (String.ofList before) (String.ofList after)
        (eq_cut_iff.2 (by simpa only [String.toList_ofList] using hcut))
      rw [← String.length_toList, ← String.length_toList, String.toList_ofList] at hge
      have hlength : before.length = field.toList.length := Nat.le_antisymm hle hge
      rw [hwhole, List.append_assoc, List.append_assoc] at hcut
      obtain ⟨rfl, hrest⟩ := List.append_inj hcut hlength.symm
      rw [List.append_cancel_left hrest]
  · intro h
    refine ⟨eq_cut_iff.2 (Text.splitWord?_eq_append h), fun field' rest' hcut => ?_⟩
    rw [← String.length_toList, ← String.length_toList]
    exact Text.length_le_of_splitWord? h (eq_cut_iff.1 hcut)

theorem uncut_iff {path : String} :
    (∀ field rest, path ≠ field ++ referenceMark ++ rest) ↔
      Text.splitWord? ".entity.".toList path.toList = none := by
  rw [Text.splitWord?_eq_none_iff]
  constructor
  · intro h before rest hcut
    refine h (String.ofList before) (String.ofList rest) (eq_cut_iff.2 ?_)
    simpa only [String.toList_ofList] using hcut
  · exact fun h field rest hcut => h _ _ (eq_cut_iff.1 hcut)

theorem FirstCut.unique {path field rest field' rest' : String} (h : FirstCut path field rest)
    (h' : FirstCut path field' rest') : field = field' ∧ rest = rest' := by
  have heq := (firstCut_iff.1 h).symm.trans (firstCut_iff.1 h')
  simp only [Option.some.injEq, Prod.mk.injEq, String.toList_inj] at heq
  exact heq

/-- A field without a dot cannot hold the mark, which starts with one. -/
theorem firstCut_of_dotless {field : String} (h : '.' ∉ field.toList) (rest : String) :
    FirstCut (field ++ referenceMark ++ rest) field rest where
  whole := rfl
  first := by
    intro field' rest' hcut
    by_contra hlt
    rw [Nat.not_le] at hlt
    have hlists := eq_cut_iff.1 hcut
    simp only [String.toList_append, List.append_assoc] at hlists
    rcases List.append_eq_append_iff.1 hlists with ⟨between, hf, -⟩ | ⟨between, hf, hmark⟩
    · have hle := congrArg List.length hf
      rw [List.length_append, String.length_toList, String.length_toList] at hle
      omega
    · cases between with
      | nil =>
        have heq := congrArg List.length hf
        rw [List.append_nil, String.length_toList, String.length_toList] at heq
        omega
      | cons c between =>
        have hc : c = '.' := (List.cons.inj hmark).1.symm
        exact h (hf ▸ hc ▸ List.mem_append_right _ List.mem_cons_self)

theorem pathFields_of_uncut {path : String}
    (h : Text.splitWord? ".entity.".toList path.toList = none) (fuel : Nat) :
    pathFields fuel path.toList = [path] := by
  cases fuel with
  | zero => rw [pathFields, String.ofList_toList]
  | succ fuel =>
    rw [pathFields, h]
    simp

theorem pathFields_ne_nil (fuel : Nat) (path : List Char) : pathFields fuel path ≠ [] := by
  cases fuel with
  | zero => simp [pathFields]
  | succ fuel =>
    rw [pathFields]
    split <;> simp

namespace Store

variable (s : Store)

theorem mem_valuesAlong_singleton_iff {e : Entity} {field value : String} :
    value ∈ s.valuesAlong e [field] ↔ e.Stores field value := by
  rw [valuesAlong, List.mem_map]
  rfl

theorem mem_valuesAlong_cons_iff {e : Entity} {field value : String} {rest : List String}
    (h : rest ≠ []) :
    value ∈ s.valuesAlong e (field :: rest) ↔
      ∃ target ∈ s.targetsOf e field, value ∈ s.valuesAlong target rest := by
  rw [valuesAlong, List.mem_flatMap]
  exact h

theorem mem_targetsOf_iff {e target : Entity} {field : String} :
    target ∈ s.targetsOf e field ↔ ∃ item ∈ e.field field, ∃ id,
      item.targetEntityId? = some id ∧ s.get? (s.targetKindOf e field) id = some target := by
  simp only [targetsOf, List.mem_filterMap]
  constructor
  · rintro ⟨id, ⟨item, hi, hid⟩, hget⟩
    exact ⟨item, hi, id, hid, hget⟩
  · rintro ⟨item, hi, id, hid, hget⟩
    exact ⟨id, ⟨item, hi, hid⟩, hget⟩

theorem reaches_iff_of_uncut {e : Entity} {path value : String}
    (h : ∀ field rest, path ≠ field ++ referenceMark ++ rest) :
    s.Reaches e path value ↔ e.Stores path value := by
  constructor
  · intro hr
    cases hr with
    | stored _ mem => exact ⟨_, mem, rfl⟩
    | along cut => exact absurd cut.whole (h _ _)
  · rintro ⟨item, mem, rfl⟩
    exact Reaches.stored h mem

theorem reaches_iff_of_cut {e : Entity} {path field rest value : String}
    (h : FirstCut path field rest) :
    s.Reaches e path value ↔ ∃ target ∈ s.targetsOf e field, s.Reaches target rest value := by
  constructor
  · intro hr
    cases hr with
    | stored uncut => exact absurd h.whole (uncut _ _)
    | @along _ target _ _ _ _ item id cut mem names loads reaches =>
      obtain ⟨rfl, rfl⟩ := cut.unique h
      exact ⟨target, s.mem_targetsOf_iff.2 ⟨item, mem, id, names, loads⟩, reaches⟩
  · rintro ⟨target, ht, hr⟩
    obtain ⟨item, mem, id, names, loads⟩ := s.mem_targetsOf_iff.1 ht
    exact Reaches.along h mem names loads hr

/-- The fields of a path find what the path reaches. Each cut takes the mark off the path, so
the length of the path bounds the number of cuts. -/
theorem mem_valuesAlong_pathFields_iff {fuel : Nat} {e : Entity} {path value : String}
    (h : path.length ≤ fuel) :
    value ∈ s.valuesAlong e (pathFields fuel path.toList) ↔ s.Reaches e path value := by
  induction fuel generalizing e path with
  | zero =>
    have hpath : path = "" := String.length_eq_zero_iff.1 (Nat.le_zero.1 h)
    have hnone : Text.splitWord? ".entity.".toList path.toList = none := by
      rw [hpath]
      decide
    rw [pathFields_of_uncut hnone, mem_valuesAlong_singleton_iff,
      s.reaches_iff_of_uncut (uncut_iff.2 hnone)]
  | succ fuel ih =>
    cases hs : Text.splitWord? ".entity.".toList path.toList with
    | none =>
      rw [pathFields_of_uncut hs, mem_valuesAlong_singleton_iff,
        s.reaches_iff_of_uncut (uncut_iff.2 hs)]
    | some parts =>
      obtain ⟨before, rest⟩ := parts
      have hcut : FirstCut path (String.ofList before) (String.ofList rest) := by
        rw [firstCut_iff, hs, String.toList_ofList, String.toList_ofList]
      have hrest : (String.ofList rest).length ≤ fuel := by
        have hlength := congrArg List.length (Text.splitWord?_eq_append hs)
        rw [← String.length_toList] at h ⊢
        simp only [String.toList_ofList, List.length_append] at hlength ⊢
        have hmark : ".entity.".toList.length = 8 := by decide
        omega
      rw [pathFields, hs]
      dsimp only
      rw [mem_valuesAlong_cons_iff s (pathFields_ne_nil _ _), s.reaches_iff_of_cut hcut]
      refine exists_congr fun target => and_congr_right fun _ => ?_
      have hi := ih (e := target) hrest
      rwa [String.toList_ofList] at hi

theorem meets_iff_reaches {e : Entity} {q : Equality} :
    s.meets e q = true ↔ s.Reaches e q.field q.value := by
  rw [meets, List.contains_iff_mem, fieldsOfPath]
  exact s.mem_valuesAlong_pathFields_iff (Nat.le_refl _)

end Store

namespace Listing

variable (l : Listing) (s : Store) (e : Entity)

theorem reaches_publicationField_iff {value : String} :
    s.Reaches e publicationField value ↔ e.Stores "status" value :=
  s.reaches_iff_of_uncut (uncut_iff.2 (by decide))

theorem all_publicationConditions_iff :
    (publicationConditions l.published).all (s.fulfils e) = true ↔ e.Passes l.published := by
  unfold Entity.Passes
  cases l.published with
  | none => simp [publicationConditions]
  | some published =>
    cases published with
    | true =>
      simp [publicationConditions, Store.fulfils, s.meets_iff_reaches,
        reaches_publicationField_iff]
    | false =>
      simp [publicationConditions, Store.fulfils, s.meets_iff_reaches,
        reaches_publicationField_iff]

theorem all_orConditions_iff (groups : List (List Equality)) :
    (orConditions groups).all (s.fulfils e) = true ↔
      ∀ group ∈ groups, group ≠ [] → ∃ q ∈ group, s.Reaches e q.field q.value := by
  simp [orConditions, Store.fulfils, s.meets_iff_reaches, or_iff_not_imp_left]

theorem all_anyOfConditions_iff (groups : List (String × List String)) :
    (anyOfConditions groups).all (s.fulfils e) = true ↔
      ∀ group ∈ groups, group.2 ≠ [] → ∃ v ∈ group.2, s.Reaches e group.1 v := by
  simp [anyOfConditions, Store.fulfils, s.meets_iff_reaches, or_iff_not_imp_left]

theorem all_equals_iff (conditions : List Equality) :
    (conditions.map Condition.equals).all (s.fulfils e) = true ↔
      ∀ q ∈ conditions, s.Reaches e q.field q.value := by
  simp [Store.fulfils, s.meets_iff_reaches]

theorem all_fulfils_query_iff :
    l.query.conditions.all (s.fulfils e) = true ↔ l.Describes s e := by
  have hparts : l.query.conditions = publicationConditions l.published ++
      orConditions l.orGroups ++ anyOfConditions l.anyOfGroups ++
        l.conditions.map Condition.equals := rfl
  rw [hparts, List.all_append, List.all_append, List.all_append, Bool.and_eq_true,
    Bool.and_eq_true, Bool.and_eq_true, all_publicationConditions_iff, all_orConditions_iff,
    all_anyOfConditions_iff, all_equals_iff]
  constructor
  · rintro ⟨⟨⟨hpublication, hor⟩, hany⟩, hconditions⟩
    exact ⟨hpublication, hor, hany, hconditions⟩
  · rintro ⟨hpublication, hor, hany, hconditions⟩
    exact ⟨⟨⟨hpublication, hor⟩, hany⟩, hconditions⟩

section Parts

variable {l s e} {field value : String} {values : List String}

@[simp] theorem describes_nodes_iff {published : Bool} :
    (nodes published).Describes s e ↔ e.Passes (some published) := by
  refine ⟨Describes.publication, fun h => ⟨h, ?_, ?_, ?_⟩⟩ <;> simp [nodes]

@[simp] theorem describes_terms : terms.Describes s e := by
  refine ⟨Or.inl rfl, ?_, ?_, ?_⟩ <;> simp [terms]

@[simp] theorem describes_requiring_iff :
    (l.requiring field value).Describes s e ↔ l.Describes s e ∧ s.Reaches e field value := by
  have hconditions : (∀ q ∈ l.conditions ++ [⟨field, value⟩], s.Reaches e q.field q.value) ↔
      (∀ q ∈ l.conditions, s.Reaches e q.field q.value) ∧ s.Reaches e field value := by
    simp [or_imp, forall_and]
  constructor
  · rintro ⟨hpublication, hor, hany, hall⟩
    obtain ⟨hrest, hlast⟩ := hconditions.1 hall
    exact ⟨⟨hpublication, hor, hany, hrest⟩, hlast⟩
  · rintro ⟨⟨hpublication, hor, hany, hrest⟩, hlast⟩
    exact ⟨hpublication, hor, hany, hconditions.2 ⟨hrest, hlast⟩⟩

@[simp] theorem describes_requiringAnyOf_iff :
    (l.requiringAnyOf field values).Describes s e ↔
      l.Describes s e ∧ (values ≠ [] → ∃ v ∈ values, s.Reaches e field v) := by
  have hgroups : (∀ group ∈ l.anyOfGroups ++ [(field, values)],
        group.2 ≠ [] → ∃ v ∈ group.2, s.Reaches e group.1 v) ↔
      (∀ group ∈ l.anyOfGroups, group.2 ≠ [] → ∃ v ∈ group.2, s.Reaches e group.1 v) ∧
        (values ≠ [] → ∃ v ∈ values, s.Reaches e field v) := by
    simp only [List.mem_append, List.mem_singleton, or_imp, forall_and, forall_eq]
  constructor
  · rintro ⟨hpublication, hor, hall, hconditions⟩
    obtain ⟨hrest, hlast⟩ := hgroups.1 hall
    exact ⟨⟨hpublication, hor, hrest, hconditions⟩, hlast⟩
  · rintro ⟨⟨hpublication, hor, hrest, hconditions⟩, hlast⟩
    exact ⟨hpublication, hor, hgroups.2 ⟨hrest, hlast⟩, hconditions⟩

@[simp] theorem describes_orderedBy_iff {keys : List SortKey} :
    (l.orderedBy keys).Describes s e ↔ l.Describes s e :=
  ⟨fun ⟨hp, ho, ha, hc⟩ => ⟨hp, ho, ha, hc⟩, fun ⟨hp, ho, ha, hc⟩ => ⟨hp, ho, ha, hc⟩⟩

@[simp] theorem describes_onPage_iff {page limit : UInt64} :
    (l.onPage page limit).Describes s e ↔ l.Describes s e :=
  ⟨fun ⟨hp, ho, ha, hc⟩ => ⟨hp, ho, ha, hc⟩, fun ⟨hp, ho, ha, hc⟩ => ⟨hp, ho, ha, hc⟩⟩

end Parts

end Listing

theorem Store.mem_selected_iff (s : Store) (l : Listing) (e : Entity) :
    e ∈ s.selected l.query ↔ e ∈ (s.shelf l.kind).entities ∧ l.Describes s e := by
  rw [selected, List.mem_filter, l.all_fulfils_query_iff]
  rfl

section Congruence

variable (s : Store) {l l' : Listing} (hkind : l.kind = l'.kind)
  (h : ∀ e, l.Describes s e ↔ l'.Describes s e)
include hkind h

theorem Store.selected_congr : s.selected l.query = s.selected l'.query := by
  have hshelf : s.shelf l.query.kind = s.shelf l'.query.kind := congrArg s.shelf hkind
  rw [selected, selected, hshelf]
  refine List.filter_congr fun e _ => ?_
  rw [Bool.eq_iff_iff, l.all_fulfils_query_iff, l'.all_fulfils_query_iff, h]

variable (hsorts : l.query.sorts = l'.query.sorts)
include hsorts

/-- Listings of one kind and order that describe the same entities list the same. -/
theorem Store.matching_congr : s.matching l = s.matching l' := by
  rw [matching, matching, s.selected_congr hkind h, hsorts]

theorem Store.sorts_congr : s.Sorts l.query ↔ s.Sorts l'.query := by
  rw [Sorts, Sorts, s.selected_congr hkind h, hsorts]

end Congruence

/-- The query of a listing selects the entities of its kind that the listing describes, and
the ids that storage answers with are theirs. It answers if it can sort them. -/
theorem Store.selects_iff_describes (s : Store) (l : Listing) :
    (∀ e, e ∈ s.selected l.query ↔ e ∈ (s.shelf l.kind).entities ∧ l.Describes s e) ∧
    (s.Sorts l.query → ∃ ids, s.storage.fetchIds l.query = .ok ids) ∧
    ∀ ids, s.storage.fetchIds l.query = .ok ids →
      ∀ id, id ∈ ids ↔ ∃ e ∈ (s.shelf l.kind).entities, e.id = id ∧ l.Describes s e := by
  refine ⟨s.mem_selected_iff l, fun hs => ⟨_, storage_fetchIds_of_sorts hs⟩, ?_⟩
  intro ids hids id
  have hs := sorts_of_storage_fetchIds hids
  obtain rfl : s.matchingIds l.query = ids :=
    Except.ok.inj ((storage_fetchIds_of_sorts hs).symm.trans hids)
  rw [matchingIds, List.mem_map]
  constructor
  · rintro ⟨e, he, rfl⟩
    obtain ⟨hmem, hdescribes⟩ := (s.mem_selected_iff l e).1 ((arranged_perm _ _).mem_iff.1 he)
    exact ⟨e, hmem, rfl, hdescribes⟩
  · rintro ⟨e, hmem, rfl, hdescribes⟩
    have he : e ∈ s.selected l.query := (s.mem_selected_iff l e).2 ⟨hmem, hdescribes⟩
    exact ⟨e, (arranged_perm _ _).mem_iff.2 he, rfl⟩

end ContentProjection
