import ContentProjection.Proofs.QueryMeaning
import ContentProjection.Proofs.UuidIndex

/-!
# Conditions on what a field refers to

A stored reference is an id without a kind. A condition on a property of what a field
refers to looks the id up among the entities of one kind only, the one that the field is
declared to refer to. Where the declared target is no entity, and where nothing is declared,
that is content.
-/
namespace ContentProjection

/-- A stored item of a field refers to an id. -/
def Entity.RefersTo (e : Entity) (field : String) (id : EntityId) : Prop :=
  ∃ item ∈ e.field field, item.targetEntityId? = some id

/-- The kind of entity that references with a declared target are followed to. -/
def ReferenceTarget.followedKind (target : ReferenceTarget) : EntityKind :=
  target.entityKind?.getD .node

theorem ReferenceTarget.followedKind_of_ne {target : ReferenceTarget} (h : target ≠ .taxonomyTerm) :
    target.followedKind = .node := by
  cases target with
  | taxonomyTerm => exact absurd rfl h
  | node | nodeType | other name => rfl

/-- Of the base fields, only the parents of a term are references to terms. -/
theorem type_ne_of_mem_ownFields {kind : EntityKind} {d : FieldDefinition} (h : d ∈ ownFields kind)
    (hparent : kind = .taxonomyTerm → d.name ≠ "parent") :
    d.type ≠ .entityReference .taxonomyTerm := by
  have hall : ∀ kind, ∀ d ∈ ownFields kind, (kind = .taxonomyTerm → d.name ≠ "parent") →
      d.type ≠ .entityReference .taxonomyTerm := by
    intro kind
    cases kind <;> decide
  exact hall kind d h hparent

namespace Store

/-- A field has one definition among the base fields of a kind and the fields of a bundle, as
references to a target. -/
def DeclaresReference (s : Store) (kind : EntityKind) (bundle field : String)
    (target : ReferenceTarget) : Prop :=
  ∃ multiple, (s.schemaOf kind bundle).filter (fun d => d.name == field) =
    [⟨field, .entityReference target, multiple⟩]

section Declared

variable {s : Store} {kind : EntityKind} {bundle field : String} {target : ReferenceTarget}
  {e : Entity}

/-- A definition that is the only one stands either among the base fields or in the bundle. -/
theorem DeclaresReference.base_or_own (h : s.DeclaresReference kind bundle field target) :
    ∃ fields, (s.shelf kind).bundle? bundle = some fields ∧ ∃ multiple,
      (⟨field, .entityReference target, multiple⟩ ∈ ownFields kind ∧
        fields.filter (fun d => d.name == field) = [] ∨
        fields.filter (fun d => d.name == field) =
          [⟨field, .entityReference target, multiple⟩]) := by
  obtain ⟨multiple, honce⟩ := h
  cases hb : (s.shelf kind).bundle? bundle with
  | none =>
    rw [schemaOf, hb] at honce
    cases honce
  | some fields =>
    refine ⟨fields, rfl, multiple, ?_⟩
    rw [schemaOf, hb] at honce
    dsimp only at honce
    rw [List.filter_append] at honce
    cases hbase : (ownFields kind).filter (fun d => d.name == field) with
    | nil => exact Or.inr (by rwa [hbase] at honce)
    | cons d rest =>
      rw [hbase, List.cons_append, List.cons.injEq, List.append_eq_nil_iff] at honce
      obtain ⟨rfl, -, hown⟩ := honce
      exact Or.inl ⟨(List.mem_filter.1 (hbase ▸ List.mem_cons_self)).1, hown⟩

/-- Only the bundle is asked for the kind, so that the base fields count as declaring nothing. -/
theorem DeclaresReference.targetKindOf_eq (h : s.DeclaresReference kind bundle field target)
    (hparent : kind = .taxonomyTerm → field ≠ "parent") (hk : e.kind = kind)
    (hb : e.bundle = bundle) : s.targetKindOf e field = target.followedKind := by
  obtain ⟨fields, hfields, multiple, hcase⟩ := h.base_or_own
  have hfind : fields.find? (fun d => d.name == field) =
      (fields.filter fun d => d.name == field).head? := (List.head?_filter ..).symm
  rw [targetKindOf, hk, hb, hfields, Option.getD_some, hfind]
  rcases hcase with ⟨hbase, hown⟩ | hown
  · have hne : target ≠ .taxonomyTerm := fun heq =>
      type_ne_of_mem_ownFields hbase hparent (congrArg FieldType.entityReference heq)
    rw [hown, ReferenceTarget.followedKind_of_ne hne]
    rfl
  · rw [hown]
    rfl

theorem mem_targetsOf_iff_refersTo (ho : (s.shelf (s.targetKindOf e field)).Ordered)
    {reached : Entity} :
    reached ∈ s.targetsOf e field ↔
      reached ∈ (s.shelf (s.targetKindOf e field)).entities ∧ e.RefersTo field reached.id := by
  rw [mem_targetsOf_iff]
  constructor
  · rintro ⟨item, hitem, id, hid, hget⟩
    have hreached : reached.id = id := Shelf.id_of_get? hget
    exact ⟨Shelf.mem_of_get? hget, item, hitem, hreached ▸ hid⟩
  · rintro ⟨hmem, item, hitem, hid⟩
    exact ⟨item, hitem, reached.id, hid, ho.get?_of_mem hmem⟩

end Declared

/-- A condition on a property of what a declared field refers to is fulfilled if and only if an
entity of the declared kind has the property and one of the ids that the field refers to. Where
the declared target is no entity, the kind is content. -/
theorem fulfils_reference_iff (dump : Dump) (baseUrl : String) {kind : EntityKind}
    {bundle field : String} {target : ReferenceTarget}
    (h : (ofDump dump baseUrl).DeclaresReference kind bundle field target)
    (hparent : kind = .taxonomyTerm → field ≠ "parent") {e : Entity}
    (he : e ∈ ((ofDump dump baseUrl).shelf kind).entities) (hb : e.bundle = bundle)
    {path property : String} (hcut : FirstCut path field property) (value : String) :
    (ofDump dump baseUrl).fulfils e (.equals ⟨path, value⟩) = true ↔
      ∃ reached ∈ ((ofDump dump baseUrl).shelf target.followedKind).entities,
        e.RefersTo field reached.id ∧ (ofDump dump baseUrl).Reaches reached property value := by
  have hkind := h.targetKindOf_eq hparent (kind_of_mem_shelf he) hb
  rw [fulfils, meets_iff_reaches, reaches_iff_of_cut _ hcut]
  simp only [mem_targetsOf_iff_refersTo (ordered_ofDump dump baseUrl _), hkind, and_assoc]

/-- A page tagged 2, beside a page and a tag of that id. -/
def taggedPage : NodeRecord where
  id := 1
  uuid := Uuid.repeating 1
  bundle := "page"
  title := ""
  published := true
  created := 0
  changed := none
  fields := [("field_tag", [.target "2"])]

def taggedDump : Dump :=
  { Dump.empty with
    nodeBundles := [("page", [⟨"field_tag", .entityReference .taxonomyTerm, true⟩])]
    nodes := [taggedPage, { taggedPage with id := 2, uuid := Uuid.repeating 2, fields := [] }]
    terms := [⟨2, Uuid.repeating 3, "tag", "", "", 0, none, 0, []⟩] }

/-- The page reaches the UUID of the tag, and not that of the page with the same id. -/
theorem taggedPage_reaches_tag :
    ((ofDump taggedDump "").DeclaresReference .node "page" "field_tag" .taxonomyTerm ∧
      taggedPage.entity ∈ ((ofDump taggedDump "").shelf .node).entities ∧
      FirstCut "field_tag.entity.uuid" "field_tag" "uuid") ∧
    (∃ reached ∈ (ofDump taggedDump "").terms.entities,
      taggedPage.entity.RefersTo "field_tag" reached.id ∧
        (ofDump taggedDump "").Reaches reached "uuid" (Uuid.repeating 3).text) ∧
    ¬ ∃ reached ∈ (ofDump taggedDump "").terms.entities,
      taggedPage.entity.RefersTo "field_tag" reached.id ∧
        (ofDump taggedDump "").Reaches reached "uuid" (Uuid.repeating 2).text := by
  have h : (ofDump taggedDump "").DeclaresReference .node "page" "field_tag" .taxonomyTerm :=
    ⟨true, by decide +kernel⟩
  have he : taggedPage.entity ∈ ((ofDump taggedDump "").shelf .node).entities := by decide +kernel
  have hcut : FirstCut "field_tag.entity.uuid" "field_tag" "uuid" := firstCut_iff.2 (by decide)
  have hiff := fulfils_reference_iff taggedDump "" h (by decide) he rfl hcut
  exact ⟨⟨h, he, hcut⟩, (hiff _).1 (by decide +kernel), mt (hiff _).2 (by decide +kernel)⟩

/-- A page that refers to itself under two names, which joined by the mark are the name of a
field for terms that it has not stored. -/
def dottedPage : NodeRecord :=
  { taggedPage with fields := [("field_a", [.target "1"]), ("field_b", [.target "1"])] }

def dottedDump : Dump :=
  { Dump.empty with
    nodeBundles := [("page", [⟨"field_a.entity.field_b", .entityReference .taxonomyTerm, true⟩])]
    nodes := [dottedPage] }

/-- A reference to a user is followed to the content of the same id, and a name that holds the
mark is read as two. -/
theorem references_followed_to_content :
    ((ofDump taggedDump "").DeclaresReference .node "page" "uid" (.other "user") ∧
      (ReferenceTarget.other "user").entityKind? = none ∧
      (ofDump taggedDump "").fulfils taggedPage.entity
        (.equals ⟨"uid" ++ referenceMark ++ "uuid", (Uuid.repeating 1).text⟩) = true) ∧
    (ofDump dottedDump "").DeclaresReference .node "page" "field_a.entity.field_b"
        .taxonomyTerm ∧
      dottedPage.entity.field "field_a.entity.field_b" = [] ∧
      (ofDump dottedDump "").fulfils dottedPage.entity
        (.equals ⟨"field_a.entity.field_b" ++ referenceMark ++ "uuid", (Uuid.repeating 1).text⟩) =
          true :=
  ⟨⟨⟨false, by decide +kernel⟩, rfl, by decide +kernel⟩, ⟨true, by decide +kernel⟩,
    by decide +kernel, by decide +kernel⟩

end Store

end ContentProjection
