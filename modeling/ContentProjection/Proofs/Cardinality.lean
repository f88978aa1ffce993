import ContentProjection.Proofs.ObjectMembers
import ContentProjection.Proofs.Outline

/-!
# Cardinality

A definition says whether a field holds one value or many, and each type of field
goes over its items in its own manner. A multi-valued field shows an array with an
element for every item, or for every item whose target is found; each element is
what a field that holds that item alone would show. A single-valued field looks at
its first item only. Booleans, paths and bundle names are one value for all items.
A field without a value shows what stands for none in its kind of entity.
-/
namespace ContentProjection

def Json.isArray : Json → Bool
  | arr _ => true
  | _ => false

namespace Rendering

/-- How a rendering goes over the items of a field. -/
inductive Manner where
  /-- Every item is shown. -/
  | each
  /-- Every item is shown whose target is found. -/
  | found
  /-- One value is shown for all items. -/
  | whole
  deriving DecidableEq

def manner : Rendering → Manner
  | plain | integer | float | date | link => .each
  | file | image _ | reference .node | reference .taxonomyTerm => .found
  | boolean | pathAlias | reference .nodeType | reference (.other _) => .whole

/-- There is something to show. -/
def HasValue (r : Rendering) (items : List Item) : Prop :=
  r.isComputed = true ∨ r.lacksValue items = false

instance (r : Rendering) (items : List Item) : Decidable (r.HasValue items) :=
  inferInstanceAs (Decidable (_ ∨ _))

theorem not_hasValue_iff {r : Rendering} {items : List Item} :
    ¬ r.HasValue items ↔ (!r.isComputed && r.lacksValue items) = true := by
  simp [HasValue]

end Rendering

/-- Whether the file or the entity behind an item is found. -/
def Storage.finds (s : Storage Id) : Rendering → Item → Bool
  | .file, item | .image _, item =>
    (item.targetEntityId?.bind fun id => (s.fileUrl id).run).isSome
  | .reference target, item => (target.entityKind?.bind fun kind => s.target? kind item).isSome
  | _, _ => true

theorem Storage.finds_of_each (s : Storage Id) {r : Rendering} (h : r.manner = .each)
    (item : Item) : s.finds r item = true := by
  cases r with
  | plain | integer | float | date | link => rfl
  | reference target => cases target <;> cases h
  | _ => cases h

namespace Projector

variable (p : Projector Id) (ctx : Context) (shown : Entity → Json.Object)

/-- What an item adds to a field that is shown item by item. -/
def element? (r : Rendering) (item : Item) : Option Json :=
  match r with
  | .plain => some (.str item.scalar)
  | .integer => some (.int (Projection.integerOf item.scalar))
  | .float => some (.ofReal (Projection.realOf item.scalar))
  | .date => some (Projection.dateOf p.offset item)
  | .link => some (Projection.linkOf item)
  | .file => (p.fileOf item).run.map .str
  | .image maxResolution => (p.imageOf (imageStyles ctx maxResolution) item).run
  | .reference target =>
    target.entityKind?.bind fun kind => (p.storage.target? kind item).map fun e => .obj (shown e)
  | .boolean | .pathAlias => none

/-- A rendering that goes item by item shows the elements, or the first item's element. -/
theorem run_render_of_items {r : Rendering} (h : r.manner ≠ .whole) (e : Entity)
    (d : FieldDefinition) :
    (p.render ctx (fun target => pure (.obj (shown target))) e d r).run =
      if d.multiple then .arr ((e.field d.name).filterMap (p.element? ctx shown r))
      else ((e.field d.name).head?.bind (p.element? ctx shown r)).getD .null := by
  have hitems (render : Item → Json) :
      Projection.perItem d.multiple (e.field d.name) render =
        if d.multiple then .arr ((e.field d.name).filterMap fun item => some (render item))
        else ((e.field d.name).head?.bind fun item => some (render item)).getD .null := by
    rw [Projection.perItem, ← List.filterMap_eq_map, Option.map_eq_bind]
    rfl
  cases r with
  | plain | integer | float | date | link => exact hitems _
  | file => exact run_perFoundItem _ _ _
  | image => exact run_perFoundItem _ _ _
  | reference target =>
    cases target with
    | node | taxonomyTerm =>
      refine (run_perFoundItem _ _ _).trans ?_
      simp only [run_entityOf]
      rfl
    | nodeType | other => exact absurd rfl h
  | boolean | pathAlias => exact absurd rfl h

/-- What a field with this definition would show if it held one item, and room for no more. -/
def alone (e : Entity) (d : FieldDefinition) (r : Rendering) (item : Item) : Json :=
  (p.render ctx (fun target => pure (.obj (shown target))) (e.putField d.name [item])
    (.single d.name d.type) r).run

theorem alone_eq {r : Rendering} (h : r.manner ≠ .whole) (e : Entity) (d : FieldDefinition)
    (item : Item) : p.alone ctx shown e d r item = (p.element? ctx shown r item).getD .null := by
  rw [alone, run_render_of_items p ctx shown h]
  simp [FieldDefinition.single, Entity.field_putField_self]

theorem run_fileOf (item : Item) :
    (p.fileOf item).run = item.targetEntityId?.bind fun id => (p.storage.fileUrl id).run := by
  unfold fileOf
  cases item.targetEntityId? <;> rfl

/-- An image is an object, there if its file is. -/
theorem run_imageOf (styles : List String) (item : Item) :
    ∃ derived, (p.imageOf styles item).run =
      (item.targetEntityId?.bind fun id => (p.storage.fileUrl id).run).map fun full =>
        .obj (Members.ofList (("full", .str full) :: derived)) := by
  unfold imageOf
  cases item.targetEntityId? with
  | none => exact ⟨[], rfl⟩
  | some id =>
    refine ⟨(styles.filterMapM fun style => do
      return (← p.storage.styleUrl id style).map fun url => (style, Json.str url)).run, ?_⟩
    cases h : (p.storage.fileUrl id).run <;> simp [h]

/-- An item has an element if what is behind it is found. -/
theorem isSome_element? {r : Rendering} (h : r.manner ≠ .whole) (item : Item) :
    (p.element? ctx shown r item).isSome = p.storage.finds r item := by
  cases r with
  | plain | integer | float | date | link => rfl
  | file => rw [element?, run_fileOf, Option.isSome_map]; rfl
  | image maxResolution =>
    obtain ⟨derived, hrun⟩ := p.run_imageOf (imageStyles ctx maxResolution) item
    rw [element?, hrun, Option.isSome_map]
    rfl
  | reference target =>
    rw [element?, Storage.finds]
    cases target.entityKind? with
    | none => rfl
    | some kind => simp
  | boolean | pathAlias => exact absurd rfl h

/-- Elements are no arrays, and of files, images and entities not `null` either. -/
theorem shape_of_element? {r : Rendering} {item : Item} {value : Json}
    (h : p.element? ctx shown r item = some value) :
    value.isArray = false ∧ (r.manner = .found → value ≠ .null) := by
  cases r with
  | plain | integer =>
    cases h
    exact ⟨rfl, fun hm => by cases hm⟩
  | float =>
    cases h
    refine ⟨?_, fun hm => by cases hm⟩
    rcases Json.ofReal_eq_or (Projection.realOf item.scalar) with h | h <;> rw [h] <;> rfl
  | date =>
    cases h
    refine ⟨?_, fun hm => by cases hm⟩
    rw [Projection.dateOf]
    cases Calendar.render? p.offset item.scalar <;> rfl
  | link =>
    cases h
    refine ⟨?_, fun hm => by cases hm⟩
    cases item <;> rfl
  | file =>
    obtain ⟨url, -, rfl⟩ := Option.map_eq_some_iff.1 h
    exact ⟨rfl, fun _ => by simp⟩
  | image maxResolution =>
    obtain ⟨derived, hrun⟩ := p.run_imageOf (imageStyles ctx maxResolution) item
    rw [element?, hrun] at h
    obtain ⟨url, -, rfl⟩ := Option.map_eq_some_iff.1 h
    exact ⟨rfl, fun _ => by simp⟩
  | reference target =>
    obtain ⟨kind, -, htarget⟩ := Option.bind_eq_some_iff.1 h
    obtain ⟨e, -, rfl⟩ := Option.map_eq_some_iff.1 htarget
    exact ⟨rfl, fun _ => by simp⟩
  | boolean | pathAlias => cases h

/-- The elements of the items are what the found ones would show alone. -/
theorem filterMap_element? {r : Rendering} (h : r.manner ≠ .whole) (e : Entity)
    (d : FieldDefinition) (items : List Item) :
    items.filterMap (p.element? ctx shown r) =
      (items.filter (p.storage.finds r)).map (p.alone ctx shown e d r) := by
  have halone : p.alone ctx shown e d r = fun item => (p.element? ctx shown r item).getD .null :=
    funext (p.alone_eq ctx shown h e d)
  have hfinds : p.storage.finds r = fun item => (p.element? ctx shown r item).isSome :=
    funext fun item => (p.isSome_element? ctx shown h item).symm
  rw [halone, hfinds]
  induction items with
  | nil => rfl
  | cons item items ih => cases hi : p.element? ctx shown r item <;> simp [hi, ih]

theorem alone_boolean (e : Entity) (d : FieldDefinition) (item : Item) :
    p.alone ctx shown e d .boolean item = .bool (item.scalar == "1") := by
  simp [alone, render, Projection.booleanOf, FieldDefinition.single, Entity.field_putField_self]

theorem alone_bundle (e : Entity) (d : FieldDefinition) (item : Item) :
    p.alone ctx shown e d (.reference .nodeType) item = .str item.scalar := by
  simp [alone, render, referencesOf, Projection.bundleOf, FieldDefinition.single,
    Entity.field_putField_self]

/-- Values for all items at once do not depend on the cardinality, nor on items after the
first. -/
theorem run_render_of_whole {r : Rendering} (h : r.manner = .whole) (e : Entity)
    (d : FieldDefinition) :
    (p.render ctx (fun target => pure (.obj (shown target))) e d r).run.isArray = false ∧
      ∀ first rest, e.field d.name = first :: rest →
        (p.render ctx (fun target => pure (.obj (shown target))) e d r).run =
          p.alone ctx shown e d r first := by
  cases r with
  | boolean =>
    refine ⟨rfl, fun first rest hitems => ?_⟩
    simp [alone_boolean, render, Projection.booleanOf, hitems]
  | pathAlias => exact ⟨rfl, fun first rest hitems => rfl⟩
  | reference target =>
    cases target with
    | nodeType =>
      refine ⟨rfl, fun first rest hitems => ?_⟩
      simp [alone_bundle, render, referencesOf, Projection.bundleOf, hitems]
    | other => exact ⟨rfl, fun first rest hitems => rfl⟩
    | node | taxonomyTerm => cases h
  | _ => cases h

/-- Only a multi-valued field that goes item by item shows an array. -/
theorem isArray_run_render {r : Rendering} {d : FieldDefinition}
    (h : d.multiple = false ∨ r.manner = .whole) (e : Entity) :
    (p.render ctx (fun target => pure (.obj (shown target))) e d r).run.isArray = false := by
  by_cases hw : r.manner = .whole
  · exact (p.run_render_of_whole ctx shown hw e d).1
  · rw [run_render_of_items p ctx shown hw, h.resolve_right hw]
    cases hvalue : (e.field d.name).head?.bind (p.element? ctx shown r) with
    | none => rfl
    | some value =>
      obtain ⟨item, -, hitem⟩ := Option.bind_eq_some_iff.1 hvalue
      exact (p.shape_of_element? ctx shown hitem).1

/-- The value of a field, or its absence, is what type and cardinality of its definition tell. -/
structure FollowsCardinality (e : Entity) (d : FieldDefinition) (r : Rendering)
    (value? : Option Json) : Prop where
  without_value : ¬ r.HasValue (e.field d.name) → value? =
    match e.kind, ctx.allowList with
    | .node, none => some .null
    | .node, some _ => none
    | .taxonomyTerm, _ => some (.str "")
  every_item : r.HasValue (e.field d.name) → d.multiple = true → r.manner = .each →
    value? = some (.arr ((e.field d.name).map (p.alone ctx shown e d r)))
  found_items : r.HasValue (e.field d.name) → d.multiple = true → r.manner = .found →
    ∃ values, value? = some (.arr values) ∧ .null ∉ values ∧
      values = ((e.field d.name).filter (p.storage.finds r)).map (p.alone ctx shown e d r)
  first_item : r.HasValue (e.field d.name) → d.multiple = false →
    ∀ first rest, e.field d.name = first :: rest → value? = some (p.alone ctx shown e d r first)
  not_found : r.HasValue (e.field d.name) → d.multiple = false → r.manner = .found →
    ∀ first rest, e.field d.name = first :: rest → p.storage.finds r first = false →
      value? = some .null
  not_array : r.HasValue (e.field d.name) → d.multiple = false ∨ r.manner = .whole →
    ∃ value, value? = some value ∧ value.isArray = false

/-- Whatever definition contributes to an entity follows its type and cardinality. -/
theorem followsCardinality_field? {e : Entity} {d : FieldDefinition}
    (h : ctx.Admits e.kind d.name) {r : Rendering} (hr : Rendering.ofType? d.type = some r) :
    p.FollowsCardinality ctx shown e d r
      (p.field? ctx (fun target => pure (.obj (shown target))) e d).run := by
  have hrun := p.run_field?_of_admitted ctx (fun target => pure (.obj (shown target))) e h hr
  have hvalue (hv : r.HasValue (e.field d.name)) := hrun.trans
    (if_neg fun hn => Rendering.not_hasValue_iff.2 hn hv)
  constructor
  case without_value =>
    intro hv
    rw [hrun, if_pos (Rendering.not_hasValue_iff.1 hv)]
    cases e.kind with
    | node => cases hc : ctx.allowList <;> simp [Projection.emptyValue?, Context.omitsEmpty, hc]
    | taxonomyTerm => rfl
  case every_item =>
    intro hv hm hr
    have hw : r.manner ≠ .whole := by simp [hr]
    rw [hvalue hv, run_render_of_items p ctx shown hw, if_pos hm,
      filterMap_element? p ctx shown hw e d,
      List.filter_eq_self.2 fun item _ => p.storage.finds_of_each hr item]
  case found_items =>
    intro hv hm hr
    have hw : r.manner ≠ .whole := by simp [hr]
    refine ⟨_, ?_, fun hnull => ?_, filterMap_element? p ctx shown hw e d _⟩
    · rw [hvalue hv, run_render_of_items p ctx shown hw, if_pos hm]
    · obtain ⟨item, -, hitem⟩ := List.mem_filterMap.1 hnull
      exact (p.shape_of_element? ctx shown hitem).2 hr rfl
  case first_item =>
    intro hv hm first rest hitems
    rw [hvalue hv]
    by_cases hw : r.manner = .whole
    · rw [(p.run_render_of_whole ctx shown hw e d).2 first rest hitems]
    · rw [run_render_of_items p ctx shown hw, hm, hitems, alone_eq p ctx shown hw]
      rfl
  case not_found =>
    intro hv hm hr first rest hitems hfinds
    have hw : r.manner ≠ .whole := by simp [hr]
    have hnone : p.element? ctx shown r first = none := by
      simpa [← p.isSome_element? ctx shown hw] using hfinds
    rw [hvalue hv, run_render_of_items p ctx shown hw, hm, hitems, List.head?_cons,
      Option.bind_some, hnone]
    rfl
  case not_array =>
    intro hv hm
    exact ⟨_, hvalue hv, p.isArray_run_render ctx shown hm e⟩

/-- So does what a projection shows under a name that is defined once. -/
theorem followsCardinality_project {e : Entity} {d : FieldDefinition}
    (honce : (p.storage.fieldDefinitions e.kind e.bundle).run.filter
      (fun other => other.name == d.name) = [d])
    (h : ctx.Admits e.kind d.name) {r : Rendering} (hr : Rendering.ofType? d.type = some r) :
    p.FollowsCardinality ctx (p.shownBehind ctx) e d r ((p.project ctx e).run.get? d.name) := by
  rw [run_project, get?_run_object_of_admitted p ctx _ honce h hr]
  exact p.followsCardinality_field? ctx _ h hr

end Projector

/-- A projection succeeds, and each field that it admits follows its type and cardinality. -/
theorem Storage.projects_by_cardinality (s : Storage Id) (offset : Calendar.Offset) (ctx : Context)
    (e : Entity) :
    ∃ object, s.Projects offset ctx e object ∧
      ∀ d r, (s.fieldDefinitions e.kind e.bundle).run.filter (fun other => other.name == d.name)
          = [d] →
        ctx.Admits e.kind d.name → Rendering.ofType? d.type = some r →
          Projector.FollowsCardinality ⟨s, offset⟩ ctx (Projector.shownBehind ⟨s, offset⟩ ctx) e d r
            (object.get? d.name) :=
  ⟨_, Storage.projects_iff.2 rfl, fun _ _ honce hadmits hr =>
    Projector.followsCardinality_project ⟨s, offset⟩ ctx honce hadmits hr⟩

/-- A page with two files, the first of them missing. -/
def twoFiles : NodeRecord where
  id := 1
  uuid := Uuid.repeating 0
  bundle := "page"
  title := ""
  published := true
  created := 0
  changed := none
  fields := [("field_files", [.target "9", .target "1"])]

def twoFilesStorage : Storage Id :=
  (Store.ofDump { Dump.empty with
    nodeBundles := [("page", [⟨"field_files", .file, true⟩])]
    nodes := [twoFiles]
    files := [⟨1, "public://notes.txt"⟩] } "").answers

theorem twoFiles_projects_by_cardinality :
    ∃ object, twoFilesStorage.Projects .utc Context.default twoFiles.entity object ∧
      object.get? "field_files" = some (.arr [.str "/sites/default/files/notes.txt"]) := by
  obtain ⟨object, hprojects, hfields⟩ :=
    twoFilesStorage.projects_by_cardinality .utc Context.default twoFiles.entity
  obtain ⟨values, hvalue, -, hvalues⟩ := (hfields ⟨"field_files", .file, true⟩ .file
    (by decide +kernel) (Context.admits_of_no_allowList rfl _ (by decide)) rfl).found_items
    (by decide +kernel) rfl rfl
  have hfound : (twoFiles.entity.field "field_files").filter (twoFilesStorage.finds .file) =
      [.target "1"] := by decide +kernel
  have hurl : ((Item.target "1").targetEntityId?.bind fun id => (twoFilesStorage.fileUrl id).run) =
      some "/sites/default/files/notes.txt" := by decide +kernel
  refine ⟨object, hprojects, ?_⟩
  rw [hvalue, hvalues, hfound, List.map_singleton, Projector.alone_eq _ _ _ (by decide),
    Projector.element?, Projector.run_fileOf, hurl]
  rfl

end ContentProjection
