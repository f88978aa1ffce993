import ContentProjection.Proofs.Lists
import ContentProjection.Proofs.Shelf

/-!
# Entities found by id and by UUID

An id finds the entity put in last under it. A UUID finds the id of its own last
record and then whatever that id finds, which may be an entity that took the
place of its own. Over a filled store every UUID finds its own entity as long as
the UUID of a replaced record is in some later record too, in particular when no
id is used twice.
-/
namespace ContentProjection

theorem find?_id_insertById (e : Entity) (entities : List Entity) (id : EntityId) :
    (insertById e entities).find? (fun a => a.id == id) =
      if e.id = id then some e else entities.find? fun a => a.id == id := by
  induction entities with
  | nil =>
    by_cases h : e.id = id <;> simp [insertById, h]
  | cons first rest ih =>
    unfold insertById
    split
    · by_cases h : e.id = id <;> simp [h]
    · split
      · next heq =>
        rw [List.find?_cons, List.find?_cons, ← heq]
        by_cases h : e.id = id
        · simp [h]
        · have hbeq : (e.id == id) = false := by simpa using h
          rw [hbeq, if_neg h]
      · next hne =>
        rw [List.find?_cons, ih, List.find?_cons]
        by_cases h : e.id = id
        · have hfirst : (first.id == id) = false := by simpa [h] using Ne.symm hne
          rw [hfirst, if_pos h]
        · rw [if_neg h, if_neg h]

namespace Shelf

variable (s : Shelf) (e : Entity) (entities : List Entity)

theorem get?_insert (id : EntityId) :
    (s.insert e).get? id = if e.id = id then some e else s.get? id :=
  find?_id_insertById e s.entities id

theorem lookup_uuidIndex_insert (uuid : Uuid) :
    (s.insert e).uuidIndex.lookup uuid =
      if e.uuid = uuid then some e.id else s.uuidIndex.lookup uuid := by
  rw [insert, List.lookup_cons]
  by_cases h : e.uuid = uuid
  · rw [h, beq_self_eq_true, if_pos rfl]
  · have hne : (uuid == e.uuid) = false := by simpa using Ne.symm h
    rw [hne, if_neg h]

/-- An id finds the last of the entities that were put in with it. -/
theorem get?_insertAll (id : EntityId) :
    (s.insertAll entities).get? id =
      (entities.findRev? fun e => e.id == id).or (s.get? id) := by
  induction entities generalizing s with
  | nil => rfl
  | cons e entities ih =>
    rw [insertAll, List.foldl_cons, ← insertAll, ih, get?_insert, findRev?_cons, Option.or_assoc]
    by_cases h : e.id = id <;> simp [h]

theorem lookup_uuidIndex_insertAll (uuid : Uuid) :
    (s.insertAll entities).uuidIndex.lookup uuid =
      ((entities.findRev? fun e => e.uuid == uuid).map Entity.id).or
        (s.uuidIndex.lookup uuid) := by
  induction entities generalizing s with
  | nil => rfl
  | cons e entities ih =>
    rw [insertAll, List.foldl_cons, ← insertAll, ih, lookup_uuidIndex_insert, findRev?_cons,
      Option.map_or, Option.or_assoc]
    by_cases h : e.uuid = uuid <;> simp [h]

theorem id_of_get? {s : Shelf} {id : EntityId} {e : Entity} (h : s.get? id = some e) :
    e.id = id := by
  simpa using List.find?_some h

end Shelf

/-- The entities that the records of a kind stand for, in the order of the records. -/
def Dump.entities (d : Dump) : EntityKind → List Entity
  | .node => d.nodes.map NodeRecord.entity
  | .taxonomyTerm => d.terms.map TermRecord.entity

/-- No two records of a kind have the same UUID. -/
def Dump.DistinctUuids (d : Dump) : Prop := ∀ kind, ((d.entities kind).map Entity.uuid).Nodup

instance (d : Dump) : Decidable d.DistinctUuids :=
  decidable_of_iff (((d.entities .node).map Entity.uuid).Nodup ∧
      ((d.entities .taxonomyTerm).map Entity.uuid).Nodup)
    ⟨fun h kind => match kind with
      | .node => h.1
      | .taxonomyTerm => h.2, fun h => ⟨h .node, h .taxonomyTerm⟩⟩

/-- A UUID whose record loses its id to a later record is in some later record too. -/
def Dump.HandsOnUuids (d : Dump) (kind : EntityKind) : Prop :=
  ∀ before replaced after, d.entities kind = before ++ replaced :: after →
    (∃ newer ∈ after, newer.id = replaced.id) → ∃ heir ∈ after, heir.uuid = replaced.uuid

theorem Dump.handsOnUuids_of_nodup {d : Dump} {kind : EntityKind}
    (h : ((d.entities kind).map Entity.id).Nodup) : d.HandsOnUuids kind := by
  rintro before replaced after hsplit ⟨newer, hnewer, hid⟩
  rw [hsplit, List.map_append, List.map_cons] at h
  have honce : replaced.id ∉ after.map Entity.id := (List.nodup_cons.1 h.of_append_right).1
  exact absurd (hid ▸ List.mem_map_of_mem hnewer) honce

namespace Store

/-- Every entity that a UUID finds has that UUID, and is the one that its id finds. -/
def FindsOwners (s : Store) (kind : EntityKind) : Prop :=
  ∀ uuid e, s.getByUuid? kind uuid = some e → e.uuid = uuid ∧ s.get? kind e.id = some e

theorem get?_of_getByUuid? {s : Store} {kind : EntityKind} {uuid : Uuid} {e : Entity}
    (h : s.getByUuid? kind uuid = some e) : s.get? kind e.id = some e := by
  obtain ⟨id, -, hget⟩ := Option.bind_eq_some_iff.1 h
  rw [Shelf.id_of_get? hget]
  exact hget

section

variable (dump : Dump) (baseUrl : String) (kind : EntityKind)

theorem get?_ofDump (id : EntityId) :
    (ofDump dump baseUrl).get? kind id = (dump.entities kind).findRev? fun e => e.id == id := by
  cases kind with
  | node => exact (Shelf.get?_insertAll _ _ id).trans Option.or_none
  | taxonomyTerm => exact (Shelf.get?_insertAll _ _ id).trans Option.or_none

/-- A UUID finds the entity that took the id of its last record. -/
theorem getByUuid?_ofDump (uuid : Uuid) :
    (ofDump dump baseUrl).getByUuid? kind uuid =
      ((dump.entities kind).findRev? fun e => e.uuid == uuid).bind fun e =>
        (ofDump dump baseUrl).get? kind e.id := by
  have hindex : ((ofDump dump baseUrl).shelf kind).uuidIndex.lookup uuid =
      ((dump.entities kind).findRev? fun e => e.uuid == uuid).map Entity.id := by
    cases kind with
    | node => exact (Shelf.lookup_uuidIndex_insertAll _ _ uuid).trans Option.or_none
    | taxonomyTerm => exact (Shelf.lookup_uuidIndex_insertAll _ _ uuid).trans Option.or_none
  rw [getByUuid?, Shelf.getByUuid?, hindex, Option.bind_map]
  rfl

end

variable {dump : Dump} {baseUrl : String} {kind : EntityKind}

theorem mem_entities_ofDump {e : Entity} (h : e ∈ ((ofDump dump baseUrl).shelf kind).entities) :
    e ∈ dump.entities kind := by
  cases kind with
  | node => exact List.mem_map.2 (mem_nodes_ofDump h)
  | taxonomyTerm => exact List.mem_map.2 (mem_terms_ofDump h)

/-- Where no two records share an id, every record is loaded. -/
theorem mem_entities_ofDump_iff (hids : ((dump.entities kind).map Entity.id).Nodup) {e : Entity} :
    e ∈ ((ofDump dump baseUrl).shelf kind).entities ↔ e ∈ dump.entities kind := by
  refine ⟨mem_entities_ofDump, fun h => ?_⟩
  have hget : (ofDump dump baseUrl).get? kind e.id = some e := by
    rw [get?_ofDump]
    exact (findRev?_key_eq_some_iff hids).2 ⟨h, rfl⟩
  exact Shelf.mem_of_get? hget

theorem handsOnUuids_of_findsOwners (h : (ofDump dump baseUrl).FindsOwners kind) :
    dump.HandsOnUuids kind := by
  rintro before replaced after hsplit ⟨newer, hnewer, hid⟩
  by_contra hlost
  have howner : (dump.entities kind).findRev? (fun e => e.uuid == replaced.uuid) =
      some replaced := by
    refine findRev?_eq_some_iff.2 ⟨beq_self_eq_true _, before, after, hsplit, fun later hl => ?_⟩
    exact beq_eq_false_iff_ne.2 fun heq => hlost ⟨later, hl, heq⟩
  obtain ⟨last, hlast⟩ := exists_findRev?_of_mem (p := fun e => e.id == replaced.id) hnewer
    (beq_iff_eq.2 hid)
  have hget : (ofDump dump baseUrl).get? kind replaced.id = some last := by
    rw [get?_ofDump, hsplit, findRev?_append, findRev?_cons, hlast, Option.some_or, Option.some_or]
  have hfound : (ofDump dump baseUrl).getByUuid? kind replaced.uuid = some last := by
    rw [getByUuid?_ofDump, howner]
    exact hget
  exact hlost ⟨last, mem_of_findRev?_eq_some hlast, (h _ _ hfound).1⟩

theorem findsOwners_of_handsOnUuids (h : dump.HandsOnUuids kind) :
    (ofDump dump baseUrl).FindsOwners kind := by
  intro uuid e hfound
  refine ⟨?_, get?_of_getByUuid? hfound⟩
  rw [getByUuid?_ofDump] at hfound
  obtain ⟨owner, howner, hget⟩ := Option.bind_eq_some_iff.1 hfound
  obtain ⟨huuid, before, after, hsplit, hlast⟩ := findRev?_eq_some_iff.1 howner
  have hkept : ∀ later ∈ after, (later.id == owner.id) = false := by
    intro later hl
    refine beq_eq_false_iff_ne.2 fun hid => ?_
    obtain ⟨heir, hh, heq⟩ := h before owner after hsplit ⟨later, hl, hid⟩
    have hnone := hlast heir hh
    rw [heq, huuid] at hnone
    cases hnone
  have hown : (ofDump dump baseUrl).get? kind owner.id = some owner := by
    rw [get?_ofDump]
    exact findRev?_eq_some_iff.2 ⟨beq_self_eq_true _, before, after, hsplit, hkept⟩
  rw [← Option.some.inj (hown.symm.trans hget)]
  exact beq_iff_eq.1 huuid

theorem findsOwners_of_nodup_ids (h : ((dump.entities kind).map Entity.id).Nodup) :
    (ofDump dump baseUrl).FindsOwners kind :=
  findsOwners_of_handsOnUuids (Dump.handsOnUuids_of_nodup h)

/-- UUIDs that are all different find every entity that is there. -/
theorem getByUuid?_of_mem (hu : dump.DistinctUuids) {e : Entity}
    (he : e ∈ ((ofDump dump baseUrl).shelf kind).entities) :
    (ofDump dump baseUrl).getByUuid? kind e.uuid = some e := by
  have howner := (findRev?_key_eq_some_iff (hu kind)).2 ⟨mem_entities_ofDump he, rfl⟩
  rw [getByUuid?_ofDump, howner]
  exact (ordered_ofDump dump baseUrl kind).get?_of_mem he

/-- An entity found by a UUID is the one that its id finds. It has that UUID itself, for every
UUID, if and only if the UUID of each record that is replaced is in a later record too. -/
theorem findsOwners_iff_handsOnUuids (dump : Dump) (baseUrl : String) (kind : EntityKind) :
    (∀ uuid e, (ofDump dump baseUrl).getByUuid? kind uuid = some e →
      (ofDump dump baseUrl).get? kind e.id = some e) ∧
    ((ofDump dump baseUrl).FindsOwners kind ↔ dump.HandsOnUuids kind) :=
  ⟨fun _ _ => get?_of_getByUuid?, handsOnUuids_of_findsOwners, findsOwners_of_handsOnUuids⟩

/-- A node that takes the id of another one, whose UUID is in no other record. -/
def renumberedNodes : Dump :=
  { Dump.empty with nodes := [1, 2].map fun digit =>
      ⟨1, Uuid.repeating digit, "page", "", true, 0, none, []⟩ }

theorem renumberedNodes_not_findsOwners : ¬ (ofDump renumberedNodes "").FindsOwners .node := by
  intro h
  have hfound : (ofDump renumberedNodes "").getByUuid? .node (Uuid.repeating 1) =
      some (NodeRecord.entity ⟨1, Uuid.repeating 2, "page", "", true, 0, none, []⟩) := by
    decide +kernel
  exact absurd (h _ _ hfound).1 (by decide)

end Store
end ContentProjection
