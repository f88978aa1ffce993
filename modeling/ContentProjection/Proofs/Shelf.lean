import ContentProjection.Proofs.HeaderFields
import ContentProjection.Store

/-!
# The order of a shelf

A shelf keeps its entities in strictly increasing order of ids, whatever the
order of the records it is filled from and however many share an id. Ids on a
shelf are therefore distinct, and an entity on it is the one its id finds.
-/
namespace ContentProjection

section Insertion

variable {e other : Entity} {entities : List Entity}

theorem mem_insertById (h : other ∈ insertById e entities) : other = e ∨ other ∈ entities := by
  induction entities with
  | nil => exact Or.inl (List.mem_singleton.1 h)
  | cons first rest ih =>
    unfold insertById at h
    split at h
    · exact List.mem_cons.1 h
    · split at h
      · exact (List.mem_cons.1 h).imp_right (List.mem_cons_of_mem _)
      · rcases List.mem_cons.1 h with rfl | hr
        · exact Or.inr List.mem_cons_self
        · exact (ih hr).imp_right (List.mem_cons_of_mem _)

theorem ordered_insertById (h : entities.Pairwise fun a b => a.id < b.id) :
    (insertById e entities).Pairwise fun a b => a.id < b.id := by
  induction entities with
  | nil => exact List.pairwise_singleton _ e
  | cons first rest ih =>
    obtain ⟨hfirst, hrest⟩ := List.pairwise_cons.1 h
    unfold insertById
    split
    · next hlt =>
      refine List.pairwise_cons.2 ⟨fun a ha => ?_, h⟩
      rcases List.mem_cons.1 ha with rfl | ha
      · exact hlt
      · exact UInt64.lt_trans hlt (hfirst a ha)
    · next hge =>
      split
      · next heq => exact List.pairwise_cons.2 ⟨fun a ha => heq ▸ hfirst a ha, hrest⟩
      · next hne =>
        have hlt : first.id < e.id :=
          UInt64.lt_of_le_of_ne (UInt64.not_lt.1 hge) (Ne.symm hne)
        refine List.pairwise_cons.2 ⟨fun a ha => ?_, ih hrest⟩
        rcases mem_insertById ha with rfl | ha
        · exact hlt
        · exact hfirst a ha

theorem find?_id_of_mem (h : entities.Pairwise fun a b => a.id < b.id) (he : e ∈ entities) :
    entities.find? (fun a => a.id == e.id) = some e := by
  induction entities with
  | nil => exact absurd he List.not_mem_nil
  | cons first rest ih =>
    obtain ⟨hfirst, hrest⟩ := List.pairwise_cons.1 h
    rcases List.mem_cons.1 he with rfl | he
    · simp
    · have hne : (first.id == e.id) = false := by
        simpa using UInt64.ne_of_lt (hfirst e he)
      rw [List.find?_cons, hne]
      exact ih hrest he

end Insertion

namespace Shelf

/-- Entities in increasing order of ids, one per id. -/
def Ordered (s : Shelf) : Prop := s.entities.Pairwise fun a b => a.id < b.id

theorem Ordered.insert {s : Shelf} (h : s.Ordered) (e : Entity) : (s.insert e).Ordered :=
  ordered_insertById h

theorem Ordered.insertAll {s : Shelf} (h : s.Ordered) (entities : List Entity) :
    (s.insertAll entities).Ordered := by
  induction entities generalizing s with
  | nil => exact h
  | cons e entities ih => exact ih (h.insert e)

theorem ordered_ofBundles (bundles : List (String × Schema)) : (ofBundles bundles).Ordered :=
  List.Pairwise.nil

theorem mem_insertAll {s : Shelf} {e : Entity} {entities : List Entity}
    (h : e ∈ (s.insertAll entities).entities) : e ∈ entities ∨ e ∈ s.entities := by
  induction entities generalizing s with
  | nil => exact Or.inr h
  | cons first entities ih =>
    rcases ih h with he | he
    · exact Or.inl (List.mem_cons_of_mem first he)
    · rcases mem_insertById he with rfl | hs
      · exact Or.inl List.mem_cons_self
      · exact Or.inr hs

theorem mem_of_get? {s : Shelf} {id : EntityId} {e : Entity} (h : s.get? id = some e) :
    e ∈ s.entities :=
  List.mem_of_find?_eq_some h

theorem Ordered.nodup_ids {s : Shelf} (h : s.Ordered) : (s.entities.map Entity.id).Nodup :=
  List.pairwise_map.2 (List.Pairwise.imp UInt64.ne_of_lt h)

theorem Ordered.get?_of_mem {s : Shelf} (h : s.Ordered) {e : Entity} (he : e ∈ s.entities) :
    s.get? e.id = some e :=
  find?_id_of_mem h he

theorem Ordered.mem_iff {s : Shelf} (h : s.Ordered) {e : Entity} :
    e ∈ s.entities ↔ s.get? e.id = some e :=
  ⟨h.get?_of_mem, mem_of_get?⟩

theorem bundle?_insert (s : Shelf) (e : Entity) (name : String) :
    (s.insert e).bundle? name =
      (s.bundle? name).or (if name = e.bundle then some [] else none) := by
  unfold insert bundle?
  cases hb : s.bundles.lookup e.bundle with
  | some fields =>
    simp only [Option.isSome_some, if_true]
    split
    · next heq => rw [heq, hb, Option.some_or]
    · rw [Option.or_none]
  | none =>
    simp only [Option.isSome_none, Bool.false_eq_true, if_false, List.lookup_cons]
    by_cases heq : name = e.bundle
    · rw [heq, hb, beq_self_eq_true, if_pos rfl, Option.none_or]
    · have hbeq : (name == e.bundle) = false := by simpa using heq
      rw [hbeq, if_neg heq, Option.or_none]

/-- The bundle of every entity is known. -/
def Housed (s : Shelf) : Prop := ∀ e ∈ s.entities, (s.bundle? e.bundle).isSome

theorem Housed.insert {s : Shelf} (h : s.Housed) (e : Entity) : (s.insert e).Housed := by
  intro other ho
  rw [bundle?_insert]
  rcases mem_insertById ho with rfl | ho
  · cases s.bundle? other.bundle <;> simp
  · rw [Option.isSome_or, h other ho, Bool.true_or]

theorem Housed.insertAll {s : Shelf} (h : s.Housed) (entities : List Entity) :
    (s.insertAll entities).Housed := by
  induction entities generalizing s with
  | nil => exact h
  | cons e entities ih => exact ih (h.insert e)

/-- The known bundles are those given and, without fields, those that entities name. -/
theorem bundle?_insertAll (s : Shelf) (entities : List Entity) (name : String) :
    (s.insertAll entities).bundle? name =
      (s.bundle? name).or (if name ∈ entities.map Entity.bundle then some [] else none) := by
  induction entities generalizing s with
  | nil => simp [insertAll]
  | cons e entities ih =>
    rw [insertAll, List.foldl_cons, ← insertAll, ih, bundle?_insert, Option.or_assoc]
    by_cases h : name = e.bundle <;> simp [h]

/-- A schema is one that was given, or empty. -/
theorem given_of_bundle?_insertAll {s : Shelf} {entities : List Entity} {name : String}
    {fields : Schema} (h : (s.insertAll entities).bundle? name = some fields) :
    s.bundle? name = some fields ∨ fields = [] := by
  rw [bundle?_insertAll, Option.or_eq_some_iff] at h
  refine h.imp_right fun hnamed => ?_
  split at hnamed
  · exact (Option.some.inj hnamed.2).symm
  · cases hnamed.2

end Shelf

theorem Store.ordered_ofDump (dump : Dump) (baseUrl : String) (kind : EntityKind) :
    ((Store.ofDump dump baseUrl).shelf kind).Ordered := by
  cases kind with
  | node => exact (Shelf.ordered_ofBundles _).insertAll _
  | taxonomyTerm => exact (Shelf.ordered_ofBundles _).insertAll _

theorem Store.housed_ofDump (dump : Dump) (baseUrl : String) (kind : EntityKind) :
    ((Store.ofDump dump baseUrl).shelf kind).Housed := by
  cases kind with
  | node => exact Shelf.Housed.insertAll (fun _ he => absurd he List.not_mem_nil) _
  | taxonomyTerm => exact Shelf.Housed.insertAll (fun _ he => absurd he List.not_mem_nil) _

theorem Store.mem_nodes_ofDump {dump : Dump} {baseUrl : String} {e : Entity}
    (h : e ∈ (Store.ofDump dump baseUrl).nodes.entities) : ∃ r ∈ dump.nodes, r.entity = e :=
  (Shelf.mem_insertAll h).elim List.mem_map.1 fun he => absurd he List.not_mem_nil

theorem Store.mem_terms_ofDump {dump : Dump} {baseUrl : String} {e : Entity}
    (h : e ∈ (Store.ofDump dump baseUrl).terms.entities) : ∃ r ∈ dump.terms, r.entity = e :=
  (Shelf.mem_insertAll h).elim List.mem_map.1 fun he => absurd he List.not_mem_nil

namespace Store

variable {dump : Dump} {baseUrl : String} {e : Entity}

theorem kind_of_mem_nodes (h : e ∈ (ofDump dump baseUrl).nodes.entities) : e.kind = .node := by
  obtain ⟨r, -, rfl⟩ := mem_nodes_ofDump h
  exact r.kind_entity

theorem kind_of_mem_terms (h : e ∈ (ofDump dump baseUrl).terms.entities) :
    e.kind = .taxonomyTerm := by
  obtain ⟨r, -, rfl⟩ := mem_terms_ofDump h
  exact r.kind_entity

theorem kind_of_mem_shelf {kind : EntityKind}
    (h : e ∈ ((ofDump dump baseUrl).shelf kind).entities) : e.kind = kind := by
  cases kind with
  | node => exact kind_of_mem_nodes h
  | taxonomyTerm => exact kind_of_mem_terms h

end Store

end ContentProjection
