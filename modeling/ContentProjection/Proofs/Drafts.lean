import ContentProjection.Proofs.Answers
import ContentProjection.Proofs.HeaderFields
import ContentProjection.Proofs.Shelf

/-!
# Stores that differ in their drafts

A draft is a node that is not published. Two stores are alike when they hold the
same but for their drafts, which have the same ids, UUIDs and types and anything
else. Listings of published nodes read a draft only by its identity: its status
keeps it out of the listing, and a condition on what a node refers to asks for
nothing but UUIDs. Alike stores therefore plan and list the same.
-/
namespace ContentProjection

namespace Entity

/-- A node that is not published, with the base fields that its header gives. -/
structure Draft (e : Entity) : Prop where
  kind : e.kind = .node
  unpublished : e.published = false
  status : e.field "status" = [flagItem false]
  uuid : e.field "uuid" = [.value e.uuid.text]

/-- The same entity, or two drafts with the same identity. -/
inductive Alike : Entity → Entity → Prop where
  | same (e : Entity) : Alike e e
  | drafts {e e' : Entity} (he : e.Draft) (he' : e'.Draft) (id : e.id = e'.id)
    (uuid : e.uuid = e'.uuid) (bundle : e.bundle = e'.bundle) : Alike e e'

namespace Alike

variable {e e' : Entity} (h : Alike e e')
include h

theorem id_eq : e.id = e'.id := by
  cases h with
  | same => rfl
  | drafts _ _ id => exact id

theorem uuid_eq : e.uuid = e'.uuid := by
  cases h with
  | same => rfl
  | drafts _ _ _ uuid => exact uuid

theorem bundle_eq : e.bundle = e'.bundle := by
  cases h with
  | same => rfl
  | drafts _ _ _ _ bundle => exact bundle

theorem kind_eq : e.kind = e'.kind := by
  cases h with
  | same => rfl
  | drafts he he' => rw [he.kind, he'.kind]

theorem published_eq : e.published = e'.published := by
  cases h with
  | same => rfl
  | drafts he he' => rw [he.unpublished, he'.unpublished]

theorem field_uuid_eq : e.field "uuid" = e'.field "uuid" := by
  cases h with
  | same => rfl
  | drafts he he' _ uuid => rw [he.uuid, he'.uuid, uuid]

end Alike

end Entity

/-- The same record, or two records of unpublished nodes with the same identity. -/
inductive NodeRecord.DraftVariant : NodeRecord → NodeRecord → Prop where
  | same (r : NodeRecord) : DraftVariant r r
  | drafts {r r' : NodeRecord} (hr : r.published = false) (hr' : r'.published = false)
    (id : r.id = r'.id) (uuid : r.uuid = r'.uuid) (bundle : r.bundle = r'.bundle) :
    DraftVariant r r'

namespace Dump

/-- Dumps that differ at most in the titles, dates and fields of unpublished nodes. -/
structure DraftVariant (d d' : Dump) : Prop where
  nodes : List.Forall₂ NodeRecord.DraftVariant d.nodes d'.nodes
  nodeBundles : d.nodeBundles = d'.nodeBundles
  termBundles : d.termBundles = d'.termBundles
  terms : d.terms = d'.terms
  files : d.files = d'.files
  aliases : d.aliases = d'.aliases
  imageStyles : d.imageStyles = d'.imageStyles

/-- No node hides a base field behind one of its own. -/
def KeepsBase (d : Dump) : Prop := ∀ r ∈ d.nodes, r.KeepsBase

instance (d : Dump) : Decidable d.KeepsBase :=
  inferInstanceAs (Decidable (∀ r ∈ d.nodes, r.KeepsBase))

end Dump

theorem NodeRecord.KeepsBase.draft {r : NodeRecord} (h : r.KeepsBase) (hr : r.published = false) :
    r.entity.Draft where
  kind := by rw [r.entity_eq]
  unpublished := by rw [r.entity_eq, hr]
  status := by rw [h.field_status, hr]
  uuid := by rw [h.field_uuid, r.entity_eq]

theorem NodeRecord.DraftVariant.alike {r r' : NodeRecord} (h : r.DraftVariant r')
    (hr : r.KeepsBase) (hr' : r'.KeepsBase) : r.entity.Alike r'.entity := by
  cases h with
  | same => exact Entity.Alike.same _
  | drafts hd hd' id uuid bundle =>
    refine Entity.Alike.drafts (hr.draft hd) (hr'.draft hd') ?_ ?_ ?_ <;>
      rw [r.entity_eq, r'.entity_eq]
    · exact id
    · exact uuid
    · exact bundle

theorem forall₂_insertById {e e' : Entity} (he : e.Alike e') {entities entities' : List Entity}
    (h : List.Forall₂ Entity.Alike entities entities') :
    List.Forall₂ Entity.Alike (insertById e entities) (insertById e' entities') := by
  induction h with
  | nil => exact List.Forall₂.cons he List.Forall₂.nil
  | cons hfirst hrest ih =>
    rw [insertById, insertById, ← he.id_eq, ← hfirst.id_eq]
    split
    · exact List.Forall₂.cons he (List.Forall₂.cons hfirst hrest)
    · split
      · exact List.Forall₂.cons he hrest
      · exact List.Forall₂.cons hfirst ih

namespace Shelf

structure Alike (s s' : Shelf) : Prop where
  entities : List.Forall₂ Entity.Alike s.entities s'.entities
  uuidIndex : s.uuidIndex = s'.uuidIndex
  bundles : s.bundles = s'.bundles

variable {s s' : Shelf}

theorem Alike.insert (h : s.Alike s') {e e' : Entity} (he : e.Alike e') :
    (s.insert e).Alike (s'.insert e') where
  entities := forall₂_insertById he h.entities
  uuidIndex := by simp only [Shelf.insert, he.uuid_eq, he.id_eq, h.uuidIndex]
  bundles := by
    unfold Shelf.insert bundle?
    rw [he.bundle_eq, h.bundles]

theorem Alike.insertAll (h : s.Alike s') {entities entities' : List Entity}
    (he : List.Forall₂ Entity.Alike entities entities') :
    (s.insertAll entities).Alike (s'.insertAll entities') := by
  induction he generalizing s s' with
  | nil => exact h
  | cons hfirst hrest ih => exact ih (h.insert hfirst)

theorem Alike.get? (h : s.Alike s') (id : EntityId) :
    Option.Rel Entity.Alike (s.get? id) (s'.get? id) := by
  have key : ∀ entities entities', List.Forall₂ Entity.Alike entities entities' →
      Option.Rel Entity.Alike (entities.find? fun e => e.id == id)
        (entities'.find? fun e => e.id == id) := by
    intro entities entities' he
    induction he with
    | nil => exact Option.Rel.none
    | @cons e e' _ _ hfirst hrest ih =>
      rw [List.find?_cons, List.find?_cons, ← hfirst.id_eq]
      split
      · exact Option.Rel.some hfirst
      · exact ih
  exact key _ _ h.entities

end Shelf

namespace Store

structure Alike (s s' : Store) : Prop where
  nodes : s.nodes.Alike s'.nodes
  terms : s.terms = s'.terms
  files : s.files = s'.files
  aliases : s.aliases = s'.aliases
  imageStyles : s.imageStyles = s'.imageStyles
  baseUrl : s.baseUrl = s'.baseUrl

/-- Alike stores are the same but for their nodes. -/
theorem Alike.exists_nodes {s s' : Store} (h : s.Alike s') :
    ∃ nodes, s' = { s with nodes := nodes } := by
  obtain ⟨-, hterms, hfiles, haliases, hstyles, hurl⟩ := h
  exact ⟨s'.nodes, by rw [hterms, hfiles, haliases, hstyles, hurl]⟩

theorem alike_ofDump {d d' : Dump} (h : d.DraftVariant d') (hd : d.KeepsBase) (hd' : d'.KeepsBase)
    (baseUrl : String) : (ofDump d baseUrl).Alike (ofDump d' baseUrl) where
  nodes := by
    have hempty : (Shelf.ofBundles d.nodeBundles).Alike (Shelf.ofBundles d'.nodeBundles) :=
      ⟨List.Forall₂.nil, rfl, by rw [h.nodeBundles]⟩
    refine hempty.insertAll ?_
    have hn := h.nodes
    unfold Dump.KeepsBase at hd hd'
    generalize d.nodes = records, d'.nodes = records' at hn hd hd'
    induction hn with
    | nil => exact List.Forall₂.nil
    | cons hfirst hrest ih =>
      rw [List.forall_mem_cons] at hd hd'
      exact List.Forall₂.cons (hfirst.alike hd.1 hd'.1) (ih hd.2 hd'.2)
  terms := by simp only [ofDump, h.terms, h.termBundles]
  files := h.files
  aliases := h.aliases
  imageStyles := by simp only [ofDump, h.imageStyles]
  baseUrl := rfl

end Store

end ContentProjection
