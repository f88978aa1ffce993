import ContentProjection.Proofs.Cardinality
import ContentProjection.Proofs.DumpOrder

/-!
# The order of names

The names of an object follow the schema: those of the definitions that give the
entity a member, each where it comes first. A term puts its parent and its
vocabulary before them. Which definitions give a member depends on the context
for nodes only. Under a name that several of them share stands what the last of
them contributes.
-/
namespace ContentProjection

/-- Whether a definition gives an entity a member: it is of a supported type and not ignored,
and on a node that shows certain fields only, it is one of them and there is something to show. -/
def Context.shows (ctx : Context) (e : Entity) (d : FieldDefinition) : Bool :=
  match Rendering.ofType? d.type with
  | none => false
  | some r =>
    !Projection.isIgnored d.name &&
      match e.kind, ctx.allowList with
      | .node, some allowed => allowed.contains d.name && decide (r.HasValue (e.field d.name))
      | _, _ => true

/-- What a term shows does not depend on the context. -/
theorem Context.shows_of_term {ctx : Context} {e : Entity} (h : e.kind = .taxonomyTerm)
    (d : FieldDefinition) :
    ctx.shows e d = ((Rendering.ofType? d.type).isSome && !Projection.isIgnored d.name) := by
  rw [shows, h]
  cases Rendering.ofType? d.type <;> simp

theorem Context.shows_of_admitted {ctx : Context} {e : Entity} {d : FieldDefinition}
    (h : ctx.Admits e.kind d.name) {r : Rendering} (hr : Rendering.ofType? d.type = some r) :
    ctx.shows e d =
      (decide (r.HasValue (e.field d.name)) || !(e.kind == .node && ctx.omitsEmpty)) := by
  rw [shows, hr]
  dsimp only
  rw [h.shown, Bool.not_false, Bool.true_and]
  cases hk : e.kind with
  | taxonomyTerm => simp
  | node =>
    cases hl : ctx.allowList with
    | none => simp [omitsEmpty, hl]
    | some allowed =>
      have hmem : d.name ∈ allowed := by simpa [allows, hl] using h.wanted hk
      simp [omitsEmpty, hl, hmem]

theorem Context.shows_of_not_admitted {ctx : Context} {e : Entity} {d : FieldDefinition}
    (h : ¬ ctx.Admits e.kind d.name) : ctx.shows e d = false := by
  rw [shows]
  cases Rendering.ofType? d.type with
  | none => rfl
  | some r =>
    dsimp only
    cases hi : Projection.isIgnored d.name with
    | true => rfl
    | false =>
      cases hk : e.kind with
      | taxonomyTerm => exact absurd ⟨by simp [hk], hi⟩ h
      | node =>
        cases hl : ctx.allowList with
        | none => exact absurd (ctx.admits_of_no_allowList hl e.kind hi) h
        | some allowed =>
          have hmem : d.name ∉ allowed := fun hmem =>
            h ⟨fun _ => by simpa [allows, hl] using hmem, hi⟩
          simp [hmem]

/-- What stands for a value that is not there. -/
def Projection.blank : EntityKind → Json
  | .node => .null
  | .taxonomyTerm => .str ""

theorem Projection.emptyValue?_eq_ite (kind : EntityKind) (omitted : Bool) :
    emptyValue? kind omitted = if kind == .node && omitted then none else some (blank kind) := by
  cases kind <;> cases omitted <;> rfl

namespace Projector

variable (p : Projector Id) (ctx : Context) (expand : Entity → Id Json) (e : Entity)

/-- What a definition that gives an entity a member puts under its name. -/
def contribution (d : FieldDefinition) : Json :=
  match Rendering.ofType? d.type with
  | some r =>
    if r.HasValue (e.field d.name) then (p.render ctx expand e d r).run
    else Projection.blank e.kind
  | none => .null

/-- The definitions that give an entity a member, in the order of its schema. -/
def shownDefinitions : Schema :=
  (p.storage.fieldDefinitions e.kind e.bundle).run.filter (ctx.shows e)

theorem run_field?_of_admitted_eq_ite {d : FieldDefinition} (h : ctx.Admits e.kind d.name)
    {r : Rendering} (hr : Rendering.ofType? d.type = some r) :
    (p.field? ctx expand e d).run =
      if r.HasValue (e.field d.name) then some (p.render ctx expand e d r).run
      else Projection.emptyValue? e.kind ctx.omitsEmpty := by
  rw [p.run_field?_of_admitted ctx expand e h hr]
  by_cases hv : r.HasValue (e.field d.name)
  · rw [if_pos hv, if_neg fun hn => Rendering.not_hasValue_iff.2 hn hv]
  · rw [if_neg hv, if_pos (Rendering.not_hasValue_iff.1 hv)]

theorem run_field?_eq_ite (d : FieldDefinition) :
    (p.field? ctx expand e d).run =
      if ctx.shows e d then some (p.contribution ctx expand e d) else none := by
  cases hr : Rendering.ofType? d.type with
  | none =>
    rw [p.run_field?_of_unsupported ctx expand e hr, Context.shows, hr]
    rfl
  | some r =>
    by_cases ha : ctx.Admits e.kind d.name
    · rw [p.run_field?_of_admitted_eq_ite ctx expand e ha hr, Context.shows_of_admitted ha hr,
        contribution, hr, Projection.emptyValue?_eq_ite]
      by_cases hv : r.HasValue (e.field d.name)
      · simp [hv]
      · cases e.kind == .node && ctx.omitsEmpty <;> simp [hv]
    · have hnot := eq_true_of_ne_false (mt Context.admits_iff.2 ha)
      rw [field?, if_pos hnot, Context.shows_of_not_admitted ha]
      rfl

theorem run_object_eq_shown :
    (p.object ctx expand e).run =
      Members.ofList ((p.header e).run ++
        (p.shownDefinitions ctx e).map fun d => (d.name, p.contribution ctx expand e d)) := by
  rw [run_object, shownDefinitions, ← List.filterMap_eq_map, List.filterMap_filter]
  refine congrArg (fun fields => Members.ofList (_ ++ fields)) (List.filterMap_congr fun d _ => ?_)
  rw [run_field?_eq_ite]
  split <;> rfl

/-- The last definition with a name that gives a member decides what stands under it. -/
theorem get?_run_object_eq_last (name : String) :
    (p.object ctx expand e).run.get? name =
      (((p.shownDefinitions ctx e).findRev? fun d => d.name == name).map
        (p.contribution ctx expand e)).or ((p.header e).run.reverse.lookup name) := by
  have hget := Members.get?_ofList_header (p.header e).run FieldDefinition.name
    (fun d => some (p.contribution ctx expand e d)) (p.shownDefinitions ctx e) name
  simp only [Option.map_some, List.filterMap_eq_map'] at hget
  rw [run_object_eq_shown, hget, List.findRev?_eq_find?_reverse, ← List.head?_filter,
    List.filter_reverse, ← List.head?_filterMap, List.filterMap_eq_map', List.head?_map]

/-- The names of an object are those of the definitions that give it a member, each where it
comes first, and the last definition of a name gives what stands under it. -/
structure InSchemaOrder (object : Json.Object) : Prop where
  names_of_node : e.kind = .node →
    object.names = ((p.shownDefinitions ctx e).map FieldDefinition.name).eraseDups
  names_of_term : e.kind = .taxonomyTerm →
    object.names = "parent" :: "type" ::
      ((((p.storage.fieldDefinitions e.kind e.bundle).run.filter fun d =>
          (Rendering.ofType? d.type).isSome && !Projection.isIgnored d.name).map
        FieldDefinition.name).removeAll ["parent", "type"]).eraseDups
  last_value : ∀ name d,
    (p.shownDefinitions ctx e).findRev? (fun d => d.name == name) = some d →
    object.get? name =
      some (p.contribution ctx (fun target => pure (.obj (p.shownBehind ctx target))) e d)

theorem inSchemaOrder_project : p.InSchemaOrder ctx e (p.project ctx e).run := by
  rw [run_project]
  constructor
  case names_of_node =>
    intro hk
    rw [run_object_eq_shown, run_header_of_node p hk, Members.names_ofList, List.nil_append,
      List.map_map]
    rfl
  case names_of_term =>
    intro hk
    have hshown : ctx.shows e = fun d =>
        (Rendering.ofType? d.type).isSome && !Projection.isIgnored d.name :=
      funext (Context.shows_of_term hk)
    rw [run_object_eq_shown, run_header_of_term p hk, Members.names_ofList, List.map_append,
      List.eraseDups_append, shownDefinitions, hshown, List.map_map]
    rfl
  case last_value =>
    intro name d hd
    rw [get?_run_object_eq_last, hd, Option.map_some, Option.some_or]

end Projector

/-- The fields that a dump gives last for a bundle. -/
def Dump.declaredFields (dump : Dump) (kind : EntityKind) (bundle : String) : Schema :=
  ((dump.bundles kind).reverse.lookup bundle).getD []

/-- The schema of what is stored has the fields of its kind first and those declared after. -/
theorem Store.schemaOf_ofDump {dump : Dump} {baseUrl : String} (kind : EntityKind) {e : Entity}
    (h : e ∈ ((ofDump dump baseUrl).shelf kind).entities) :
    (ofDump dump baseUrl).schemaOf kind e.bundle =
      ownFields kind ++ dump.declaredFields kind e.bundle := by
  obtain ⟨fields, hfields⟩ := Option.isSome_iff_exists.1 (housed_ofDump dump baseUrl kind e h)
  have hdeclared : dump.declaredFields kind e.bundle = fields := by
    rw [bundle?_ofDump, Shelf.bundle?, Shelf.ofBundles, Option.or_eq_some_iff] at hfields
    rw [Dump.declaredFields]
    rcases hfields with hgiven | ⟨hnone, hnamed⟩
    · rw [hgiven, Option.getD_some]
    · rw [hnone, Option.getD_none]
      split at hnamed
      · exact Option.some.inj hnamed
      · cases hnamed
  rw [schemaOf, hfields, hdeclared]

/-- A projection succeeds with its names in the order of the schema, and in a store filled from
a dump the schema of an entity has the fields of its kind before those declared for its bundle. -/
theorem Storage.projects_in_schema_order :
    (∀ (s : Storage Id) (offset : Calendar.Offset) (ctx : Context) (e : Entity),
      ∃ object, s.Projects offset ctx e object ∧
        Projector.InSchemaOrder ⟨s, offset⟩ ctx e object) ∧
    ∀ (dump : Dump) (baseUrl : String) (kind : EntityKind),
      ∀ e ∈ ((Store.ofDump dump baseUrl).shelf kind).entities,
        ((Store.ofDump dump baseUrl).answers.fieldDefinitions kind e.bundle).run =
          ownFields kind ++ dump.declaredFields kind e.bundle :=
  ⟨fun s offset ctx e =>
      ⟨_, projects_iff.2 rfl, Projector.inSchemaOrder_project ⟨s, offset⟩ ctx e⟩,
    fun _ _ kind _ he => Store.schemaOf_ofDump kind he⟩

/-- A page whose bundle repeats a base field and one of its own, and leaves a field empty. -/
def repeatedFields : NodeRecord where
  id := 1
  uuid := Uuid.repeating 0
  bundle := "page"
  title := ""
  published := true
  created := 0
  changed := none
  fields := [("field_steps", [.value "3"]), ("path", [.value "x"])]

def repeatedFieldsDump : Dump :=
  { Dump.empty with
    nodeBundles := [("page", [.single "field_steps" .text, .single "field_notes" .text,
      .single "path" .text, ⟨"field_steps", .integer, true⟩])]
    nodes := [repeatedFields] }

/-- Steps and notes of a page, and its path. -/
def stepsContext : Context :=
  { Context.default with allowList := some ["field_notes", "field_steps", "path"] }

theorem repeatedFields_projects_in_schema_order :
    ∃ object, (Store.ofDump repeatedFieldsDump "").answers.Projects .utc stepsContext
        repeatedFields.entity object ∧
      object.names = ["path", "field_steps"] ∧
      object.get? "path" = some (.str "x") ∧
      object.get? "field_steps" = some (.arr [.int 3]) := by
  obtain ⟨object, hprojects, horder⟩ := Storage.projects_in_schema_order.1
    (Store.ofDump repeatedFieldsDump "").answers .utc stepsContext repeatedFields.entity
  refine ⟨object, hprojects, ?_, ?_, ?_⟩
  · rw [horder.names_of_node rfl]
    decide +kernel
  · rw [horder.last_value "path" (.single "path" .text) (by decide +kernel)]
    rfl
  · rw [horder.last_value "field_steps" ⟨"field_steps", .integer, true⟩ (by decide +kernel)]
    rfl

end ContentProjection
