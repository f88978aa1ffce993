import ContentProjection.Proofs.ListedLookups
import ContentProjection.Proofs.ListedPages
import ContentProjection.Proofs.SortOrder
import ContentProjection.Proofs.StoredNumbers
import Mathlib.Data.List.Chain

/-!
# The order of the terms of a vocabulary

Terms are listed by their ids, which are stored in decimal and compared as they are
stored: as numbers if both fit into a signed word, as texts otherwise. Sorting starts
from the order of the ids and leaves a list alone as long as no entity is below the one
right before it. That it left the list alone tells in turn that no entity is, because the
ids agree with each detour by a pivot. So a vocabulary is listed in the order of its ids if
and only if each id too large for a signed word is above the next smaller one as a text too.
Otherwise it is listed in another order, or not at all.
-/
namespace ContentProjection

open Text.Numeral (IsWord maxInt64)

/-- Of the ids in a list, `n` is the next one above `m`. -/
def Neighbours (ids : List EntityId) (m n : EntityId) : Prop :=
  m ∈ ids ∧ n ∈ ids ∧ m < n ∧ ∀ k ∈ ids, k ≤ m ∨ n ≤ k

theorem neighbours_congr {ids ids' : List EntityId} (h : ∀ k, k ∈ ids ↔ k ∈ ids')
    {m n : EntityId} : Neighbours ids m n ↔ Neighbours ids' m n := by
  simp only [Neighbours, h]

section Increasing

variable {first m n : EntityId} {ids : List EntityId}

theorem Neighbours.cons (hfirst : ∀ k ∈ ids, first < k) (h : Neighbours ids m n) :
    Neighbours (first :: ids) m n := by
  obtain ⟨hm, hn, hlt, hbetween⟩ := h
  refine ⟨List.mem_cons_of_mem _ hm, List.mem_cons_of_mem _ hn, hlt, fun k hk => ?_⟩
  rcases List.mem_cons.1 hk with rfl | hk
  · exact Or.inl (UInt64.le_of_lt (hfirst m hm))
  · exact hbetween k hk

/-- Above the first id comes the second one, the neighbours of other ids are further on. -/
theorem Neighbours.of_cons {second : EntityId} (hfirst : ∀ k ∈ second :: ids, first < k)
    (hsecond : ∀ k ∈ ids, second < k) (h : Neighbours (first :: second :: ids) m n) :
    m = first ∧ n = second ∨ Neighbours (second :: ids) m n := by
  obtain ⟨hm, hn, hlt, hbetween⟩ := h
  have hn' : n ∈ second :: ids := by
    rcases List.mem_cons.1 hn with rfl | hn
    · rcases List.mem_cons.1 hm with rfl | hm
      · exact absurd hlt (UInt64.lt_irrefl _)
      · exact absurd hlt (UInt64.lt_asymm (hfirst m hm))
    · exact hn
  rcases List.mem_cons.1 hm with rfl | hm
  · refine Or.inl ⟨rfl, ?_⟩
    have hle : n ≤ second := by
      rcases hbetween second (by simp) with hle | hle
      · exact absurd (hfirst second List.mem_cons_self) (UInt64.not_lt.2 hle)
      · exact hle
    rcases List.mem_cons.1 hn' with rfl | hrest
    · rfl
    · exact absurd (hsecond n hrest) (UInt64.not_lt.2 hle)
  · exact Or.inr ⟨hm, hn', hlt, fun k hk => hbetween k (List.mem_cons_of_mem _ hk)⟩

/-- In increasing ids, the links of the list are the pairs of neighbours. -/
theorem isChain_iff_neighbours {R : EntityId → EntityId → Prop}
    (h : ids.Pairwise (· < ·)) : ids.IsChain R ↔ ∀ m n, Neighbours ids m n → R m n := by
  induction ids with
  | nil =>
    refine iff_of_true List.IsChain.nil fun m n hmn => ?_
    exact absurd hmn.1 List.not_mem_nil
  | cons first ids ih =>
    obtain ⟨hfirst, hrest⟩ := List.pairwise_cons.1 h
    cases ids with
    | nil =>
      refine iff_of_true (List.IsChain.singleton _) fun m n ⟨hm, hn, hlt, _⟩ => ?_
      rw [List.mem_singleton.1 hm, List.mem_singleton.1 hn] at hlt
      exact absurd hlt (UInt64.lt_irrefl _)
    | cons second ids =>
      obtain ⟨hsecond, -⟩ := List.pairwise_cons.1 hrest
      rw [List.isChain_cons_cons, ih hrest]
      constructor
      · rintro ⟨hstep, hlater⟩ m n hmn
        rcases hmn.of_cons hfirst hsecond with ⟨rfl, rfl⟩ | hmn
        · exact hstep
        · exact hlater m n hmn
      · intro hall
        refine ⟨hall first second ⟨by simp, by simp, hfirst second List.mem_cons_self, ?_⟩,
          fun m n hmn => hall m n (hmn.cons hfirst)⟩
        intro k hk
        rcases List.mem_cons.1 hk with rfl | hk
        · exact Or.inl (UInt64.le_refl _)
        · rcases List.mem_cons.1 hk with rfl | hk
          · exact Or.inr (UInt64.le_refl _)
          · exact Or.inr (UInt64.le_of_lt (hsecond k hk))

end Increasing

theorem isChain_congr_of_pairwise {α : Type} {R S : α → α → Prop} {as : List α}
    (h : as.Pairwise fun a b => R a b ↔ S a b) : as.IsChain R ↔ as.IsChain S := by
  induction as with
  | nil => exact iff_of_true List.IsChain.nil List.IsChain.nil
  | cons a as ih =>
    obtain ⟨ha, has⟩ := List.pairwise_cons.1 h
    cases as with
    | nil => exact iff_of_true (List.IsChain.singleton a) (List.IsChain.singleton a)
    | cons b as =>
      rw [List.isChain_cons_cons, List.isChain_cons_cons, ih has, ha b List.mem_cons_self]

/-- Sorting keeps the order of the ids if and only if no entity is below the one before it. -/
theorem Store.sorted?_increasing_iff {keys : List SortKey} {entities : List Entity}
    (h : entities.Pairwise fun a b => a.id < b.id)
    (hdetours : StableSort.DetoursAgree (isLess keys) entities fun a b => a.id < b.id) :
    (∃ sorted, sorted? keys entities = some sorted ∧ sorted.Pairwise fun a b => a.id < b.id) ↔
      entities.IsChain fun a b => isLess keys b a = false := by
  constructor
  · rintro ⟨sorted, hsorted, hup⟩
    have hids : (entities.map Entity.id).Nodup :=
      List.pairwise_map.2 (h.imp fun {a b} hlt => UInt64.ne_of_lt hlt)
    have hsame : sorted = entities := (sorted?_perm hsorted).eq_of_pairwise
      (fun _ _ _ _ hab hba => absurd hba (UInt64.lt_asymm hab)) hup h
    have hends := StableSort.sort?_ends (tournament keys hids) hdetours
    exact hsame ▸ hends.good sorted hsorted hup
  · exact fun hclimbs => ⟨entities, StableSort.sort?_of_climbs hclimbs, h⟩

/-- Of two ids the larger one comes after the smaller as they are written, too: it fits into a
signed word, or its text is above. -/
def ReadsUp (m n : EntityId) : Prop :=
  (n.toNat : Int) ≤ maxInt64 ∨ toString m.toNat < toString n.toNat

instance (m n : EntityId) : Decidable (ReadsUp m n) := inferInstanceAs (Decidable (_ ∨ _))

/-- What reads up to an id, while another one does not, reads up to the other one. -/
theorem ReadsUp.of_not_readsUp {m n k : EntityId} (hm : ReadsUp m k) (hn : ¬ ReadsUp n k) :
    ReadsUp m n := by
  obtain ⟨hlarge, htext⟩ := not_or.1 hn
  have hlt : toString m.toNat < toString k.toNat := hm.resolve_left hlarge
  exact Or.inr (Std.lt_of_lt_of_le hlt (String.not_lt.1 htext))

theorem toString_natCast (n : Nat) : toString (n : Int) = toString n := rfl

theorem isWord_natCast {n : Nat} : IsWord n ↔ (n : Int) ≤ maxInt64 := by
  have hmin : Text.Numeral.minInt64 ≤ (n : Int) := by
    rw [Text.Numeral.minInt64]
    omega
  exact and_iff_right hmin

namespace Store

/-- Written numbers compare as numbers up to the largest signed word, and as texts past it. -/
theorem compareText_toString_ne_lt_iff {m n : Nat} (h : m < n) :
    compareText (toString n) (toString m) ≠ .lt ↔
      (n : Int) ≤ maxInt64 ∨ toString m < toString n := by
  have hread (k : Nat) (hk : (k : Int) ≤ maxInt64) :
      Text.Numeral.int64? (toString k).toList = some (k : Int) := by
    rw [← toString_natCast]
    exact Text.Numeral.int64?_toString (isWord_natCast.2 hk)
  by_cases hn : (n : Int) ≤ maxInt64
  · have hgt : compare (n : Int) (m : Int) = .gt := by
      rw [Std.compare_eq_gt]
      omega
    refine iff_of_true ?_ (Or.inl hn)
    rw [compareText_of_numerals (hread n hn) (hread m (by omega)), hgt]
    decide
  · have hnone : ¬ IsNumeral (toString n) := by
      rw [IsNumeral, ← toString_natCast,
        Text.Numeral.int64?_toString_eq_none (mt isWord_natCast.1 hn)]
      decide
    have hne : toString m ≠ toString n := by
      rw [← toString_natCast, ← toString_natCast, Ne, Text.Numeral.toString_inj]
      omega
    have hcompare : compareText (toString n) (toString m) = .lt ↔ toString n < toString m := by
      rw [compareText_of_not_numerals fun hnum => absurd hnum hnone]
      exact compareOfLessAndEq_eq_lt
    rw [Ne, hcompare, or_iff_right hn, String.not_lt]
    refine ⟨fun hle => ?_, fun hlt => String.not_lt.1 (String.lt_asymm hlt)⟩
    by_contra hnlt
    exact hne (String.le_antisymm hle (String.not_lt.1 hnlt))

/-- An entity that stores its id, as terms do. -/
def StoresTid (e : Entity) : Prop := firstValue e "tid" = some (toString e.id.toNat)

section Ids

variable {entities : List Entity} (htid : ∀ e ∈ entities, StoresTid e)
include htid

/-- The entity with the larger id is below the other one where their ids do not read up. -/
theorem isLess_tid_eq_false_iff {a b : Entity} (ha : a ∈ entities) (hb : b ∈ entities)
    (hlt : a.id < b.id) : isLess [.asc "tid"] b a = false ↔ ReadsUp a.id b.id := by
  have hids : compare b.id a.id = .gt := Std.compare_eq_gt.2 hlt
  have htexts : compareBy (.asc "tid") b a =
      compareText (toString b.id.toNat) (toString a.id.toNat) := by
    rw [compareBy, SortKey.asc, htid a ha, htid b hb]
    rfl
  have hthen : ∀ order : Ordering, order.then .gt ≠ .lt ↔ order ≠ .lt := by decide
  rw [isLess_eq_false_iff, compareEntities, compareEntities, hids, hthen, htexts]
  exact compareText_toString_ne_lt_iff (UInt64.lt_iff_toNat_lt.1 hlt)

theorem detoursAgree_tid (hids : (entities.map Entity.id).Nodup) :
    StableSort.DetoursAgree (isLess [.asc "tid"]) entities fun a b => a.id < b.id := by
  intro a ha b hb pivot hp hab hbp hless hnot
  have ht := tournament [.asc "tid"] hids
  rcases hbp with hbp | rfl
  · have hup := (isLess_tid_eq_false_iff htid ha hp (UInt64.lt_trans hab hbp)).1
      (ht.asymm a ha pivot hp hless)
    have hnup : ¬ ReadsUp b.id pivot.id := by
      intro hup
      have hsame := ht.connected b hb pivot hp hnot
        ((isLess_tid_eq_false_iff htid hb hp hbp).2 hup)
      exact UInt64.lt_irrefl _ (hsame ▸ hbp)
    exact (isLess_tid_eq_false_iff htid ha hb hab).2 (hup.of_not_readsUp hnup)
  · exact ht.asymm a ha b hb hless

end Ids

end Store

theorem TermRecord.id_entity (r : TermRecord) : r.entity.id = r.id := by rw [entity_eq]

theorem TermRecord.id_comp_entity : Entity.id ∘ TermRecord.entity = TermRecord.id :=
  funext id_entity

/-- The records of a vocabulary. -/
def Dump.termsOf (d : Dump) (vocabulary : String) : List TermRecord :=
  d.terms.filter fun r => r.vocabulary == vocabulary

namespace Store

theorem describes_termListing_iff {s : Store} {e : Entity} (vocabulary : String)
    (options : ListOptions) :
    (Service.termListing vocabulary options).Describes s e ↔ e.Stores "vid" vocabulary := by
  rw [← s.reaches_iff_of_uncut (uncut_iff.2 (by decide))]
  simp [Service.termListing]

section Vocabulary

variable {dump : Dump} (baseUrl : String) (ht : dump.TermsKeepBase)
  (hids : (dump.terms.map TermRecord.id).Nodup) (vocabulary : String) (options : ListOptions)
include ht hids

theorem mem_selected_termListing_iff {e : Entity} :
    e ∈ (ofDump dump baseUrl).selected (Service.termListing vocabulary options).query ↔
      e ∈ (dump.termsOf vocabulary).map TermRecord.entity := by
  have hids' : ((dump.entities .taxonomyTerm).map Entity.id).Nodup := by
    rwa [Dump.entities, List.map_map, TermRecord.id_comp_entity]
  have hstores (r : TermRecord) (hr : r ∈ dump.terms) :
      r.entity.Stores "vid" vocabulary ↔ r.vocabulary = vocabulary := by
    rw [Entity.Stores, (ht r hr).field_vid]
    simp [Item.scalar]
  rw [mem_selected_iff, describes_termListing_iff, List.mem_map]
  constructor
  · rintro ⟨he, hvocabulary⟩
    obtain ⟨r, hr, rfl⟩ := mem_terms_ofDump he
    exact ⟨r, List.mem_filter.2 ⟨hr, beq_iff_eq.2 ((hstores r hr).1 hvocabulary)⟩, rfl⟩
  · rintro ⟨r, hr, rfl⟩
    obtain ⟨hmem, hvocabulary⟩ := List.mem_filter.1 hr
    refine ⟨(mem_entities_ofDump_iff hids').2 (List.mem_map_of_mem hmem), ?_⟩
    exact (hstores r hmem).2 (beq_iff_eq.1 hvocabulary)

theorem mem_ids_selected_termListing_iff (id : EntityId) :
    id ∈ ((ofDump dump baseUrl).selected
        (Service.termListing vocabulary options).query).map Entity.id ↔
      id ∈ (dump.termsOf vocabulary).map TermRecord.id := by
  rw [← TermRecord.id_comp_entity, ← List.map_map, List.mem_map, List.mem_map]
  simp only [mem_selected_termListing_iff baseUrl ht hids]

theorem matching_termListing_perm :
    ((ofDump dump baseUrl).matching (Service.termListing vocabulary options)).Perm
      ((dump.termsOf vocabulary).map TermRecord.entity) := by
  have hnodup : ((dump.termsOf vocabulary).map TermRecord.entity).Nodup := by
    refine List.Nodup.of_map Entity.id ?_
    rw [List.map_map, TermRecord.id_comp_entity]
    exact hids.sublist (List.filter_sublist.map TermRecord.id)
  refine (List.perm_ext_iff_of_nodup (nodup_matching (ordered_ofDump dump baseUrl) _) hnodup).2 ?_
  intro e
  rw [matching, (arranged_perm _ _).mem_iff, mem_selected_termListing_iff baseUrl ht hids]

theorem storesTid_of_mem_selected (e : Entity) (he : e ∈ (ofDump dump baseUrl).selected
    (Service.termListing vocabulary options).query) : StoresTid e := by
  obtain ⟨r, hr, rfl⟩ := List.mem_map.1 ((mem_selected_termListing_iff baseUrl ht hids _ _).1 he)
  rw [StoresTid, firstValue, (ht r (List.mem_filter.1 hr).1).field_tid, r.id_entity]
  rfl

/-- The terms stay in the order of their ids if and only if neighbouring ids read up. -/
theorem sorts_increasing_iff :
    ((ofDump dump baseUrl).Sorts (Service.termListing vocabulary options).query ∧
      ((ofDump dump baseUrl).matching (Service.termListing vocabulary options)).Pairwise
        fun a b => a.id < b.id) ↔
      ∀ m n, Neighbours ((dump.termsOf vocabulary).map TermRecord.id) m n → ReadsUp m n := by
  have hmem := mem_ids_selected_termListing_iff baseUrl ht hids vocabulary options
  have htid := storesTid_of_mem_selected baseUrl ht hids vocabulary options
  have hup : ((ofDump dump baseUrl).selected
      (Service.termListing vocabulary options).query).Pairwise fun a b => a.id < b.id :=
    List.Pairwise.filter _ (ordered_ofDump dump baseUrl .taxonomyTerm)
  have hnodup := nodup_ids_selected (q := (Service.termListing vocabulary options).query)
    (ordered_ofDump dump baseUrl .taxonomyTerm)
  rw [Sorts, matching]
  generalize (ofDump dump baseUrl).selected _ = entities at hmem htid hup hnodup ⊢
  have hsorted : ((sorted? [.asc "tid"] entities).isSome ∧
      (arranged [.asc "tid"] entities).Pairwise fun a b => a.id < b.id) ↔
      ∃ sorted, sorted? [.asc "tid"] entities = some sorted ∧
        sorted.Pairwise fun a b => a.id < b.id := by
    rw [arranged]
    cases sorted? [.asc "tid"] entities <;> simp
  have hlinks : entities.Pairwise fun a b =>
      (isLess [.asc "tid"] b a = false ↔ ReadsUp a.id b.id) :=
    hup.imp_of_mem fun {a b} ha hb hlt => isLess_tid_eq_false_iff htid ha hb hlt
  refine hsorted.trans ((sorted?_increasing_iff hup (detoursAgree_tid htid hnodup)).trans ?_)
  refine (isChain_congr_of_pairwise hlinks).trans ?_
  rw [← List.isChain_map Entity.id, isChain_iff_neighbours (List.pairwise_map.2 hup)]
  simp only [neighbours_congr hmem]

end Vocabulary

/-- The pages of a vocabulary show this list, which has all its terms. -/
structure ListsVocabulary (dump : Dump) (baseUrl : String) (offset : Calendar.Offset)
    (policy : Policy) (vocabulary : String) (options : ListOptions) (listed : List Entity) :
    Prop where
  fetched : (ofDump dump baseUrl).storage.fetchIds (Service.termListing vocabulary options).query =
    .ok (listed.map Entity.id)
  shown : ((ofDump dump baseUrl).service offset policy).Lists (.listTerms vocabulary) options none
    ((ofDump dump baseUrl).shown offset
      (((ofDump dump baseUrl).service offset policy).listingContext options) .whole) listed
  complete : listed.Perm ((dump.termsOf vocabulary).map TermRecord.entity)

section Listed

variable {dump : Dump} {baseUrl : String} (offset : Calendar.Offset) (policy : Policy)
  {vocabulary : String} (he : (ofDump dump baseUrl).bundleExists .taxonomyTerm vocabulary = true)
  (hp : policy.permitsVocabulary vocabulary = true) {options : ListOptions}
include he hp

theorem plan_listTerms_onPage (page : UInt64) :
    ((ofDump dump baseUrl).service offset policy).plan
        (.listTerms vocabulary { options with page }) =
      .ok (.page ((Service.termListing vocabulary options).onPage page options.limit)
        (((ofDump dump baseUrl).service offset policy).listingContext options) .whole) :=
  plan_listTerms_of_permitted _ offset policy he hp

variable (ht : dump.TermsKeepBase) (hids : (dump.terms.map TermRecord.id).Nodup)
include ht hids

theorem listsVocabulary_of_sorts (hl : 1 ≤ options.limit.toNat)
    (hs : (ofDump dump baseUrl).Sorts (Service.termListing vocabulary options).query) :
    ListsVocabulary dump baseUrl offset policy vocabulary options
      ((ofDump dump baseUrl).matching (Service.termListing vocabulary options)) where
  fetched := storage_fetchIds_of_sorts hs
  shown := lists_of_plan (ordered_ofDump dump baseUrl) offset policy (.listTerms vocabulary)
    (plan_listTerms_onPage offset policy he hp) hl hs
  complete := matching_termListing_perm baseUrl ht hids vocabulary options

theorem listed_by_id_iff (hl : 1 ≤ options.limit.toNat) :
    (∃ listed, ListsVocabulary dump baseUrl offset policy vocabulary options listed ∧
      listed.Pairwise fun a b => a.id < b.id) ↔
      ∀ m n, Neighbours ((dump.termsOf vocabulary).map TermRecord.id) m n → ReadsUp m n := by
  rw [← sorts_increasing_iff baseUrl ht hids vocabulary options]
  constructor
  · rintro ⟨listed, hlisted, hup⟩
    have hs := sorts_of_storage_fetchIds hlisted.fetched
    have hsame : (ofDump dump baseUrl).matchingIds (Service.termListing vocabulary options).query =
        listed.map Entity.id :=
      Except.ok.inj ((storage_fetchIds_of_sorts hs).symm.trans hlisted.fetched)
    have hup' : (listed.map Entity.id).Pairwise (· < ·) := List.pairwise_map.2 hup
    rw [← hsame] at hup'
    exact ⟨hs, List.pairwise_map.1 hup'⟩
  · rintro ⟨hs, hup⟩
    exact ⟨_, listsVocabulary_of_sorts offset policy he hp ht hids hl hs, hup⟩

end Listed

/-- The pages of a vocabulary show its terms in the order of their ids if and only if the id of
each term that is too large for a signed word is above the next smaller one as a text too. If not,
they show the terms in another order, or no page is shown, since the terms cannot be sorted. -/
theorem vocabulary_listed_by_id_iff (dump : Dump) (baseUrl : String) (offset : Calendar.Offset)
    (policy : Policy) (ht : dump.TermsKeepBase) (hids : (dump.terms.map TermRecord.id).Nodup)
    {vocabulary : String} (he : (ofDump dump baseUrl).bundleExists .taxonomyTerm vocabulary = true)
    (hp : policy.permitsVocabulary vocabulary = true) {options : ListOptions}
    (hl : 1 ≤ options.limit.toNat) :
    ((∃ listed, ListsVocabulary dump baseUrl offset policy vocabulary options listed ∧
        listed.Pairwise fun a b => a.id < b.id) ↔
      ∀ m n, Neighbours ((dump.termsOf vocabulary).map TermRecord.id) m n → ReadsUp m n) ∧
    ((ofDump dump baseUrl).Sorts (Service.termListing vocabulary options).query →
      ∃ listed, ListsVocabulary dump baseUrl offset policy vocabulary options listed) ∧
    (¬ (ofDump dump baseUrl).Sorts (Service.termListing vocabulary options).query →
      ((ofDump dump baseUrl).service offset policy).Unlisted (.listTerms vocabulary) options) ∧
    ((ofDump dump baseUrl).Orderly (Service.termListing vocabulary options).query →
      (ofDump dump baseUrl).Sorts (Service.termListing vocabulary options).query) :=
  ⟨listed_by_id_iff offset policy he hp ht hids hl,
    fun hs => ⟨_, listsVocabulary_of_sorts offset policy he hp ht hids hl hs⟩,
    unlisted_of_plan offset policy (.listTerms vocabulary)
      (plan_listTerms_onPage offset policy he hp),
    Orderly.sorts (ordered_ofDump dump baseUrl .taxonomyTerm)⟩

/-- Tags with these ids, named by their ids. -/
def tagsOf (ids : List EntityId) : Dump :=
  { Dump.empty with terms := ids.map fun id =>
      ⟨id, Uuid.repeating 0, "tag", toString id.toNat, "", 0, none, 0, []⟩ }

theorem ids_termsOf_tagsOf (ids : List EntityId) :
    ((tagsOf ids).termsOf "tag").map TermRecord.id = ids := by
  have hall : (tagsOf ids).termsOf "tag" = (tagsOf ids).terms := by
    refine List.filter_eq_self.2 fun r hr => ?_
    obtain ⟨id, -, rfl⟩ := List.mem_map.1 hr
    rfl
  rw [hall, tagsOf, List.map_map]
  exact List.map_id ids

/-- The results that these tags are listed by with the default options. -/
def shownTags (ids : List EntityId) : Entity → Json :=
  (ofDump (tagsOf ids) "").shown .utc
    (((ofDump (tagsOf ids) "").service .utc Policy.default).listingContext ListOptions.default)
    .whole

/-- The pages of these tags, asked for with the default options, show this list. -/
def ListsTags (ids : List EntityId) (listed : List Entity) : Prop :=
  ((ofDump (tagsOf ids) "").service .utc Policy.default).Lists (.listTerms "tag")
    ListOptions.default none (shownTags ids) listed

/-- These tags may be listed, and no two are the same term. -/
def TagsListable (ids : List EntityId) : Prop :=
  (tagsOf ids).TermsKeepBase ∧ ((tagsOf ids).terms.map TermRecord.id).Nodup ∧
    (ofDump (tagsOf ids) "").bundleExists .taxonomyTerm "tag" = true ∧
    Policy.default.permitsVocabulary "tag" = true ∧ 1 ≤ ListOptions.default.limit.toNat

instance (ids : List EntityId) : Decidable (TagsListable ids) :=
  inferInstanceAs (Decidable (_ ∧ _))

/-- The least id that is too large for a signed word is written above 10. -/
theorem tagsOf_listed_by_id :
    TagsListable [10, 9223372036854775808, 2] ∧
    ∃ listed, ListsTags [10, 9223372036854775808, 2] listed ∧ listed.length = 3 ∧
      listed.Pairwise fun a b => a.id < b.id := by
  have h : TagsListable [10, 9223372036854775808, 2] := by decide +kernel
  have ⟨ht, hids, he, hp, hl⟩ := h
  have hup : ∀ m n, Neighbours (((tagsOf [10, 9223372036854775808, 2]).termsOf "tag").map
      TermRecord.id) m n → ReadsUp m n := by
    rintro m n ⟨hm, hn, hlt, -⟩
    rw [ids_termsOf_tagsOf] at hm hn
    have hmem (k : EntityId) (hk : k ∈ [10, 9223372036854775808, 2]) :
        k = 10 ∨ k = 9223372036854775808 ∨ k = 2 := by simpa using hk
    rcases hmem n hn with rfl | rfl | rfl
    · exact Or.inl (by decide)
    · rcases hmem m hm with rfl | rfl | rfl
      · exact Or.inr (by decide +kernel)
      · exact absurd hlt (UInt64.lt_irrefl _)
      · exact Or.inr (by decide +kernel)
    · exact Or.inl (by decide)
  obtain ⟨hiff, -⟩ := vocabulary_listed_by_id_iff _ "" .utc Policy.default ht hids he hp hl
  obtain ⟨listed, hlisted, hincreasing⟩ := hiff.2 hup
  exact ⟨h, listed, hlisted.shown, hlisted.complete.length_eq, hincreasing⟩

/-- Written, 10000000000000000000 is below 9223372036854775808. -/
theorem tagsOf_not_listed_by_id :
    TagsListable [9223372036854775808, 10000000000000000000] ∧
    (∃ listed, ListsTags [9223372036854775808, 10000000000000000000] listed ∧
      listed.map Entity.id = [10000000000000000000, 9223372036854775808]) ∧
    ∀ listed, ListsTags [9223372036854775808, 10000000000000000000] listed →
      listed ≠ (tagsOf [9223372036854775808, 10000000000000000000]).terms.map
        TermRecord.entity := by
  have hlists : ListsTags [9223372036854775808, 10000000000000000000] _ :=
    lists_of_plan (ordered_ofDump _ "") .utc Policy.default (.listTerms "tag")
      (plan_listTerms_onPage .utc Policy.default (by decide) (by decide)) (by decide)
      (by decide +kernel)
  refine ⟨by decide +kernel, ⟨_, hlists, by decide +kernel⟩, ?_⟩
  rintro listed hlists' rfl
  have htexts := congrArg (List.map Json.compact) (hlists.map_shown_eq hlists')
  exact absurd htexts (by decide +kernel)

end Store

end ContentProjection
