import ContentProjection.Proofs.Cardinality
import ContentProjection.Proofs.HeaderFields
import ContentProjection.Proofs.Shelf
import ContentProjection.Proofs.StoredNumbers

/-!
# What a header shows

A record says in its header what its entity is, and the base fields of the entity
store it as text. A projection reads that text again: identity, type, status and
dates come out as they went in, whatever else the record holds. Integer fields
are read as signed words, so an id past the largest of them, and the least
weight, are shown as the nearest number that such a field can show.
-/
namespace ContentProjection

open Text.Numeral (IsWord minInt64 maxInt64)

theorem filter_name_ownFields {kind : EntityKind} {d : FieldDefinition} (h : d ∈ ownFields kind) :
    (ownFields kind).filter (fun other => other.name == d.name) = [d] := by
  have hnames : ((ownFields kind).map FieldDefinition.name).Nodup := by cases kind <;> decide
  exact filter_key_eq_singleton hnames h

theorem Rendering.lacksValue_of_scalar_ne {r : Rendering} {item : Item} (h : item.scalar ≠ "") :
    r.lacksValue [item] = false := by
  cases r <;> simp [lacksValue, h]

theorem scalar_intItem_ne (n : Int) : (intItem n).scalar ≠ "" := by
  intro h
  have hlist : (toString n).toList = [] := congrArg String.toList h
  rw [Text.Numeral.toList_toString] at hlist
  split at hlist
  · cases hlist
  · exact Nat.toDigits_ne_nil hlist

theorem scalar_idItem_ne (id : EntityId) : (idItem id).scalar ≠ "" := scalar_intItem_ne id.toNat

theorem scalar_flagItem_ne (flag : Bool) : (flagItem flag).scalar ≠ "" := by
  cases flag <;> simp [flagItem, Item.scalar]

namespace Store

/-- A bundle defines none of the fields that every entity of its kind has. -/
def AddsToBase (s : Store) (kind : EntityKind) (bundle : String) : Prop :=
  ∀ d ∈ ((s.shelf kind).bundle? bundle).getD [],
    d.name ∉ (ownFields kind).map FieldDefinition.name

instance (s : Store) (kind : EntityKind) (bundle : String) :
    Decidable (s.AddsToBase kind bundle) :=
  inferInstanceAs (Decidable (∀ d ∈ ((s.shelf kind).bundle? bundle).getD [],
    d.name ∉ (ownFields kind).map FieldDefinition.name))

variable {s : Store}

/-- A base field is then defined once. -/
theorem AddsToBase.filter_schemaOf {kind : EntityKind} {bundle : String}
    (h : s.AddsToBase kind bundle) (hb : ((s.shelf kind).bundle? bundle).isSome)
    {d : FieldDefinition} (hd : d ∈ ownFields kind) :
    (s.schemaOf kind bundle).filter (fun other => other.name == d.name) = [d] := by
  obtain ⟨fields, hfields⟩ := Option.isSome_iff_exists.1 hb
  have hnone : fields.filter (fun other => other.name == d.name) = [] := by
    refine List.filter_eq_nil_iff.2 fun other ho heq => h other (by rwa [hfields]) ?_
    rw [beq_iff_eq.1 heq]
    exact List.mem_map_of_mem hd
  rw [schemaOf, hfields]
  dsimp only
  rw [List.filter_append, filter_name_ownFields hd, hnone, List.append_nil]

/-- An entity of a kind whose bundle is known and leaves the base fields alone. -/
structure ShowsBase (s : Store) (ctx : Context) (kind : EntityKind) (e : Entity) : Prop where
  kind_eq : e.kind = kind
  known : ((s.shelf kind).bundle? e.bundle).isSome
  addsToBase : s.AddsToBase kind e.bundle
  unlimited : ctx.allowList = none

variable {ctx : Context} {kind : EntityKind} {e : Entity} (h : s.ShowsBase ctx kind e)
  (offset : Calendar.Offset)
include h

/-- Every base field that is not ignored is shown. -/
theorem ShowsBase.followsCardinality (d : FieldDefinition) (hd : d ∈ ownFields kind)
    (hshown : Projection.isIgnored d.name = false) {r : Rendering}
    (hr : Rendering.ofType? d.type = some r) :
    Projector.FollowsCardinality ⟨s.answers, offset⟩ ctx
      (Projector.shownBehind ⟨s.answers, offset⟩ ctx) e d r
      ((Projector.project ⟨s.answers, offset⟩ ctx e).run.get? d.name) := by
  obtain ⟨rfl, hknown, hadds, hunlimited⟩ := h
  exact Projector.followsCardinality_project _ ctx (hadds.filter_schemaOf hknown hd)
    (Context.admits_of_no_allowList hunlimited _ hshown) hr

/-- A base field that stores one value shows what that item shows. -/
theorem ShowsBase.get?_project (name : String) (type : FieldType)
    (hd : .single name type ∈ ownFields kind) (hshown : Projection.isIgnored name = false)
    {r : Rendering} (hr : Rendering.ofType? type = some r) {item : Item}
    (hitem : e.field name = [item]) (hv : r.lacksValue [item] = false) :
    (Projector.project ⟨s.answers, offset⟩ ctx e).run.get? name =
      some (Projector.alone ⟨s.answers, offset⟩ ctx
        (Projector.shownBehind ⟨s.answers, offset⟩ ctx) e (.single name type) r item) :=
  (h.followsCardinality offset _ hd hshown hr).first_item (Or.inr (hitem ▸ hv)) rfl item [] hitem

/-- In a base field that goes item by item, the element of the item. -/
theorem ShowsBase.get?_project_element (name : String) (type : FieldType)
    (hd : .single name type ∈ ownFields kind) (hshown : Projection.isIgnored name = false)
    {r : Rendering} (hr : Rendering.ofType? type = some r) (hw : r.manner ≠ .whole) {item : Item}
    (hitem : e.field name = [item]) (hv : item.scalar ≠ "") :
    (Projector.project ⟨s.answers, offset⟩ ctx e).run.get? name =
      some ((Projector.element? ⟨s.answers, offset⟩ ctx
        (Projector.shownBehind ⟨s.answers, offset⟩ ctx) r item).getD .null) := by
  rw [h.get?_project offset name type hd hshown hr hitem (Rendering.lacksValue_of_scalar_ne hv),
    Projector.alone_eq _ _ _ hw]

end Store

namespace NodeRecord

/-- An object shows what a record says of its node, the id held at the largest signed word. -/
structure ShownBy (r : NodeRecord) (offset : Calendar.Offset) (object : Json.Object) : Prop where
  nid : object.get? "nid" = some (.int (min r.id.toNat maxInt64))
  uuid : object.get? "uuid" = some (.str r.uuid.text)
  type : object.get? "type" = some (.str r.bundle)
  status : object.get? "status" = some (.bool r.published)
  created : object.get? "created" = some (Json.optional (Calendar.show? offset r.created))
  changed : object.get? "changed" =
    some (Json.optional (Calendar.show? offset (r.changed.getD r.created)))

variable {s : Store} {ctx : Context} {r : NodeRecord}

/-- What a record says is shown, if its own fields and its bundle leave the base fields alone. -/
theorem shownBy_project (h : s.ShowsBase ctx .node r.entity) (hk : r.KeepsBase)
    (hcreated : IsWord r.created) (hchanged : IsWord (r.changed.getD r.created))
    (offset : Calendar.Offset) :
    r.ShownBy offset (Projector.project ⟨s.answers, offset⟩ ctx r.entity).run := by
  have hdate {n : Int} (hn : IsWord n) :
      Projection.dateOf offset (intItem n) = Json.optional (Calendar.show? offset n) :=
    congrArg Json.optional (Calendar.render?_toString offset hn)
  constructor
  case nid =>
    rw [h.get?_project_element offset "nid" .integer (by decide) (by decide) rfl (by decide)
      hk.field_nid (scalar_idItem_ne _)]
    exact congrArg (fun n => some (Json.int n)) (Projection.integerOf_toString_nat _)
  case uuid =>
    rw [h.get?_project_element offset "uuid" .uuid (by decide) (by decide) rfl (by decide)
      hk.field_uuid r.uuid.text_ne_empty]
    rfl
  case type =>
    rw [h.get?_project offset "type" (.entityReference .nodeType) (by decide) (by decide) rfl
      hk.field_type rfl, Projector.alone_bundle, Item.scalar]
  case status =>
    rw [h.get?_project offset "status" .boolean (by decide) (by decide) rfl hk.field_status
      (Rendering.lacksValue_of_scalar_ne (scalar_flagItem_ne _)), Projector.alone_boolean]
    cases r.published <;> rfl
  case created =>
    rw [h.get?_project_element offset "created" .date (by decide) (by decide) rfl (by decide)
      hk.field_created (scalar_intItem_ne _)]
    exact congrArg some (hdate hcreated)
  case changed =>
    rw [h.get?_project_element offset "changed" .date (by decide) (by decide) rfl (by decide)
      hk.field_changed (scalar_intItem_ne _)]
    exact congrArg some (hdate hchanged)

end NodeRecord

namespace TermRecord

/-- An object shows what a record says of its term, the weight held above the least signed
word. -/
structure ShownBy (r : TermRecord) (object : Json.Object) : Prop where
  uuid : object.get? "uuid" = some (.str r.uuid.text)
  name : object.get? "name" = some (.str r.name)
  weight : object.get? "weight" = some (.int (max r.weight (-maxInt64)))

variable {s : Store} {ctx : Context} {r : TermRecord}

theorem shownBy_project (h : s.ShowsBase ctx .taxonomyTerm r.entity) (hk : r.KeepsBase)
    (hweight : IsWord r.weight) (offset : Calendar.Offset) :
    r.ShownBy (Projector.project ⟨s.answers, offset⟩ ctx r.entity).run := by
  constructor
  case uuid =>
    rw [h.get?_project_element offset "uuid" .uuid (by decide) (by decide) rfl (by decide)
      hk.field_uuid r.uuid.text_ne_empty]
    rfl
  case name =>
    by_cases hname : r.name = ""
    · have hshown := h.followsCardinality offset (.single "name" .text) (by decide) (by decide) rfl
      have hnone : ¬ Rendering.plain.HasValue (r.entity.field "name") := by
        rw [hk.field_name, hname]
        decide
      have hempty := hshown.without_value hnone
      rw [r.kind_entity] at hempty
      rw [hname]
      exact hempty
    · rw [h.get?_project_element offset "name" .text (by decide) (by decide) rfl (by decide)
        hk.field_name hname]
      rfl
  case weight =>
    rw [h.get?_project_element offset "weight" .integer (by decide) (by decide) rfl (by decide)
      hk.field_weight (scalar_intItem_ne _)]
    have hshown : Projection.integerOf (toString r.weight) = max r.weight (-maxInt64) := by
      have hmax := hweight.2
      rw [Projection.integerOf_toString]
      omega
    exact congrArg (fun n => some (Json.int n)) hshown

end TermRecord

theorem Store.showsBase_ofDump {dump : Dump} {baseUrl : String} {ctx : Context}
    (hc : ctx.allowList = none) {kind : EntityKind} {e : Entity} (hkind : e.kind = kind)
    {id : EntityId} (hloaded : (ofDump dump baseUrl).get? kind id = some e)
    (hadds : (ofDump dump baseUrl).AddsToBase kind e.bundle) :
    (ofDump dump baseUrl).ShowsBase ctx kind e :=
  ⟨hkind, housed_ofDump dump baseUrl kind e (Shelf.mem_of_get? hloaded), hadds, hc⟩

/-- Records that are loaded, with base fields that nothing redefines, are shown as they are but for
two ends of the words: an id past the largest signed word, and the least weight. -/
theorem Store.shows_headers (dump : Dump) (baseUrl : String) (offset : Calendar.Offset)
    {ctx : Context} (hc : ctx.allowList = none) :
    (∀ r : NodeRecord, (ofDump dump baseUrl).get? .node r.id = some r.entity → r.KeepsBase →
      (ofDump dump baseUrl).AddsToBase .node r.bundle → IsWord r.created →
      (∀ changed ∈ r.changed, IsWord changed) →
        ∃ object, (ofDump dump baseUrl).answers.Projects offset ctx r.entity object ∧
          r.ShownBy offset object ∧
          (object.get? "nid" = some (.int r.id.toNat) ↔ (r.id.toNat : Int) ≤ maxInt64)) ∧
    ∀ r : TermRecord, (ofDump dump baseUrl).get? .taxonomyTerm r.id = some r.entity → r.KeepsBase →
      (ofDump dump baseUrl).AddsToBase .taxonomyTerm r.vocabulary → IsWord r.weight →
        ∃ object, (ofDump dump baseUrl).answers.Projects offset ctx r.entity object ∧
          r.ShownBy object ∧
          (object.get? "weight" = some (.int r.weight) ↔ r.weight ≠ minInt64) := by
  constructor
  · intro r hloaded hk hadds hcreated hchanged
    have hbase := showsBase_ofDump hc r.kind_entity hloaded (by rwa [r.entity_eq])
    have hlast : IsWord (r.changed.getD r.created) := by
      cases h : r.changed with
      | none => exact hcreated
      | some changed => exact hchanged changed (by rw [h]; rfl)
    have hshown := r.shownBy_project hbase hk hcreated hlast offset
    refine ⟨_, Storage.projects_iff.2 rfl, hshown, ?_⟩
    rw [hshown.nid, Option.some.injEq, Json.int.injEq]
    omega
  · intro r hloaded hk hadds hweight
    have hbase := showsBase_ofDump hc r.kind_entity hloaded (by rwa [r.entity_eq])
    have hshown := r.shownBy_project hbase hk hweight offset
    refine ⟨_, Storage.projects_iff.2 rfl, hshown, ?_⟩
    have hmin := hweight.1
    rw [hshown.weight]
    simp only [minInt64, maxInt64, Option.some.injEq, Json.int.injEq] at hmin ⊢
    omega

/-- A node with the largest id. -/
def lastNode : NodeRecord where
  id := 18446744073709551615
  uuid := Uuid.repeating 0
  bundle := "page"
  title := ""
  published := true
  created := 0
  changed := none
  fields := []

/-- A term with the least weight. -/
def lightestTerm : TermRecord where
  id := 1
  uuid := Uuid.repeating 1
  vocabulary := "tags"
  name := ""
  description := ""
  weight := -9223372036854775808
  parent := none
  changed := 0
  fields := []

def extremesDump : Dump := { Dump.empty with nodes := [lastNode], terms := [lightestTerm] }

theorem extremes_loaded :
    (Store.ofDump extremesDump "").get? .node lastNode.id = some lastNode.entity ∧
    (Store.ofDump extremesDump "").get? .taxonomyTerm lightestTerm.id =
      some lightestTerm.entity := by decide +kernel

theorem extremes_addsToBase :
    (Store.ofDump extremesDump "").AddsToBase .node lastNode.bundle ∧
    (Store.ofDump extremesDump "").AddsToBase .taxonomyTerm lightestTerm.vocabulary := by
  decide +kernel

/-- All that the two records say is shown, the id and the weight as near as they can be. -/
theorem extremes_shownBy :
    Context.default.allowList = none ∧
    ((Store.ofDump extremesDump "").get? .node lastNode.id = some lastNode.entity ∧
      lastNode.KeepsBase ∧ (Store.ofDump extremesDump "").AddsToBase .node lastNode.bundle ∧
      IsWord lastNode.created ∧ (∀ changed ∈ lastNode.changed, IsWord changed) ∧
      ∃ object, (Store.ofDump extremesDump "").answers.Projects .utc Context.default
        lastNode.entity object ∧ lastNode.ShownBy .utc object) ∧
    (Store.ofDump extremesDump "").get? .taxonomyTerm lightestTerm.id = some lightestTerm.entity ∧
      lightestTerm.KeepsBase ∧
      (Store.ofDump extremesDump "").AddsToBase .taxonomyTerm lightestTerm.vocabulary ∧
      IsWord lightestTerm.weight ∧
      ∃ object, (Store.ofDump extremesDump "").answers.Projects .utc Context.default
        lightestTerm.entity object ∧ lightestTerm.ShownBy object := by
  have hc : Context.default.allowList = none := rfl
  obtain ⟨hnode, hterm⟩ := extremes_loaded
  obtain ⟨hnodeAdds, htermAdds⟩ := extremes_addsToBase
  have hcreated : IsWord lastNode.created := by decide
  have hchanged : ∀ changed ∈ lastNode.changed, IsWord changed := by simp [lastNode]
  have hweight : IsWord lightestTerm.weight := by decide
  obtain ⟨hnodes, hterms⟩ := Store.shows_headers extremesDump "" .utc hc
  obtain ⟨object, hprojects, hshown, -⟩ :=
    hnodes lastNode hnode (by decide) hnodeAdds hcreated hchanged
  obtain ⟨object', hprojects', hshown', -⟩ :=
    hterms lightestTerm hterm (by decide) htermAdds hweight
  exact ⟨hc, ⟨hnode, by decide, hnodeAdds, hcreated, hchanged, object, hprojects, hshown⟩,
    hterm, by decide, htermAdds, hweight, object', hprojects', hshown'⟩

/-- Both records are loaded with their base fields untouched, and the id and the weight that are
shown are not theirs. -/
theorem extremes_shown_changed :
    ((Store.ofDump extremesDump "").get? .node lastNode.id = some lastNode.entity ∧
      lastNode.KeepsBase ∧ (Store.ofDump extremesDump "").AddsToBase .node lastNode.bundle ∧
      ∀ object, (Store.ofDump extremesDump "").answers.Projects .utc Context.default
        lastNode.entity object →
          object.get? "nid" = some (.int 9223372036854775807) ∧
          object.get? "nid" ≠ some (.int lastNode.id.toNat)) ∧
    (Store.ofDump extremesDump "").get? .taxonomyTerm lightestTerm.id =
        some lightestTerm.entity ∧
      lightestTerm.KeepsBase ∧
      (Store.ofDump extremesDump "").AddsToBase .taxonomyTerm lightestTerm.vocabulary ∧
      ∀ object, (Store.ofDump extremesDump "").answers.Projects .utc Context.default
        lightestTerm.entity object →
          object.get? "weight" = some (.int (-9223372036854775807)) ∧
          object.get? "weight" ≠ some (.int lightestTerm.weight) := by
  obtain ⟨hnode, hterm⟩ := extremes_loaded
  obtain ⟨hnodeAdds, htermAdds⟩ := extremes_addsToBase
  have hc : Context.default.allowList = none := rfl
  refine ⟨⟨hnode, by decide, hnodeAdds, fun object hprojects => ?_⟩, hterm, by decide, htermAdds,
    fun object hprojects => ?_⟩
  · have hbase := Store.showsBase_ofDump hc lastNode.kind_entity hnode
      (by rwa [lastNode.entity_eq])
    have hshown := (lastNode.shownBy_project hbase (by decide) (by decide) (by decide) .utc).nid
    rw [Storage.projects_iff.1 hprojects, hshown]
    exact ⟨rfl, fun heq => absurd (Json.int.inj (Option.some.inj heq)) (by decide)⟩
  · have hbase := Store.showsBase_ofDump hc lightestTerm.kind_entity hterm
      (by rwa [lightestTerm.entity_eq])
    have hshown := (lightestTerm.shownBy_project hbase (by decide) (by decide) .utc).weight
    rw [Storage.projects_iff.1 hprojects, hshown]
    exact ⟨rfl, fun heq => absurd (Json.int.inj (Option.some.inj heq)) (by decide)⟩

end ContentProjection
