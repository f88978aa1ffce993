import ContentProjection.Proofs.Lists
import ContentProjection.Store.Record

/-!
# Fields from the header of a record

An entity looks its fields up from the last one set, so a field of the record
hides one of the header with the same name. A record that names no base field in
its own fields keeps what its header says, which is what publication, identity
and dates are read from.
-/
namespace ContentProjection

namespace Entity

theorem putFields_eq (e : Entity) (fields : List (String × List Item)) :
    e.putFields fields = { e with fields := fields.reverse ++ e.fields } := by
  induction fields generalizing e with
  | nil => rfl
  | cons field fields ih =>
    rw [putFields, List.foldl_cons, ← putFields, ih, List.reverse_cons, List.append_assoc]
    rfl

end Entity

/-- Fields that have none of some names leave what a header says under them. -/
theorem lookup_header {header own : List (String × List Item)} {names : List String}
    (h : ∀ field ∈ own, field.1 ∉ names) {name : String} (hn : name ∈ names) :
    (header ++ own).reverse.lookup name = header.reverse.lookup name := by
  refine lookup_reverse_append fun hm => ?_
  obtain ⟨field, hf, rfl⟩ := List.mem_map.1 hm
  exact h field hf hn

namespace NodeRecord

/-- The names of the fields that every node has. -/
def baseNames : List String := nodeOwnFields.map FieldDefinition.name

/-- No field of the record hides a base field. -/
def KeepsBase (r : NodeRecord) : Prop := ∀ field ∈ r.fields, field.1 ∉ baseNames

instance (r : NodeRecord) : Decidable r.KeepsBase :=
  inferInstanceAs (Decidable (∀ field ∈ r.fields, field.1 ∉ baseNames))

theorem entity_eq (r : NodeRecord) :
    r.entity = ⟨.node, r.id, r.uuid, r.bundle, r.published,
      (r.headerFields ++ r.fields).reverse⟩ := by
  rw [entity, Entity.putFields_eq, List.append_nil]

theorem kind_entity (r : NodeRecord) : r.entity.kind = .node := by rw [entity_eq]

theorem nodup_names_headerFields (r : NodeRecord) : (r.headerFields.map Prod.fst).Nodup := by
  unfold headerFields textField
  split <;> simp

theorem names_headerFields_subset (r : NodeRecord) :
    r.headerFields.map Prod.fst ⊆ baseNames := by
  unfold headerFields textField
  split <;> simp [baseNames, nodeOwnFields, FieldDefinition.single]

variable {r : NodeRecord} (h : r.KeepsBase)
include h

theorem KeepsBase.field_of_mem {name : String} {items : List Item}
    (hm : (name, items) ∈ r.headerFields) : r.entity.field name = items := by
  have hname : name ∈ baseNames := r.names_headerFields_subset (List.mem_map_of_mem hm)
  rw [entity_eq, Entity.field, lookup_header h hname,
    lookup_reverse_of_mem r.nodup_names_headerFields hm]
  rfl

theorem KeepsBase.field_nid : r.entity.field "nid" = [idItem r.id] :=
  h.field_of_mem (by simp [headerFields])

theorem KeepsBase.field_uuid : r.entity.field "uuid" = [.value r.uuid.text] :=
  h.field_of_mem (by simp [headerFields])

theorem KeepsBase.field_type : r.entity.field "type" = [.target r.bundle] :=
  h.field_of_mem (by simp [headerFields])

theorem KeepsBase.field_status : r.entity.field "status" = [flagItem r.published] :=
  h.field_of_mem (by simp [headerFields])

theorem KeepsBase.field_created : r.entity.field "created" = [intItem r.created] :=
  h.field_of_mem (by simp [headerFields])

theorem KeepsBase.field_changed :
    r.entity.field "changed" = [intItem (r.changed.getD r.created)] :=
  h.field_of_mem (by simp [headerFields])

end NodeRecord

namespace TermRecord

/-- The names of the fields that every term has. -/
def baseNames : List String := termOwnFields.map FieldDefinition.name

/-- No field of the record hides a base field. -/
def KeepsBase (r : TermRecord) : Prop := ∀ field ∈ r.fields, field.1 ∉ baseNames

instance (r : TermRecord) : Decidable r.KeepsBase :=
  inferInstanceAs (Decidable (∀ field ∈ r.fields, field.1 ∉ baseNames))

theorem entity_eq (r : TermRecord) :
    r.entity = ⟨.taxonomyTerm, r.id, r.uuid, r.vocabulary, true,
      (r.headerFields ++ r.fields).reverse⟩ := by
  rw [entity, Entity.putFields_eq, List.append_nil]

theorem kind_entity (r : TermRecord) : r.entity.kind = .taxonomyTerm := by rw [entity_eq]

theorem nodup_names_headerFields (r : TermRecord) : (r.headerFields.map Prod.fst).Nodup := by
  unfold headerFields textField
  split <;> simp

theorem names_headerFields_subset (r : TermRecord) :
    r.headerFields.map Prod.fst ⊆ baseNames := by
  unfold headerFields textField
  split <;> simp [baseNames, termOwnFields, FieldDefinition.single]

variable {r : TermRecord} (h : r.KeepsBase)
include h

theorem KeepsBase.field_of_mem {name : String} {items : List Item}
    (hm : (name, items) ∈ r.headerFields) : r.entity.field name = items := by
  have hname : name ∈ baseNames := r.names_headerFields_subset (List.mem_map_of_mem hm)
  rw [entity_eq, Entity.field, lookup_header h hname,
    lookup_reverse_of_mem r.nodup_names_headerFields hm]
  rfl

theorem KeepsBase.field_tid : r.entity.field "tid" = [idItem r.id] :=
  h.field_of_mem (by simp [headerFields])

theorem KeepsBase.field_uuid : r.entity.field "uuid" = [.value r.uuid.text] :=
  h.field_of_mem (by simp [headerFields])

theorem KeepsBase.field_vid : r.entity.field "vid" = [.target r.vocabulary] :=
  h.field_of_mem (by simp [headerFields])

theorem KeepsBase.field_name : r.entity.field "name" = [.value r.name] :=
  h.field_of_mem (by simp [headerFields])

theorem KeepsBase.field_weight : r.entity.field "weight" = [intItem r.weight] :=
  h.field_of_mem (by simp [headerFields])

end TermRecord

end ContentProjection
