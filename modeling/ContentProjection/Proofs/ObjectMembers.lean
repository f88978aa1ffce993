import ContentProjection.Proofs.PureProjection

/-!
# What stands under a name

An object is made by setting names in order: those of the header first, then one
for each definition that contributes. A name keeps the place where it was first
set and the value that was set last. So the contribution of the last definition
with a name stands under it, and what the header says only where no definition
contributes.
-/
namespace ContentProjection

/-- Entities of a kind show a field: a node if it is wanted, and none if it is ignored. -/
structure Context.Admits (ctx : Context) (kind : EntityKind) (field : String) : Prop where
  wanted : kind = .node → ctx.allows field = true
  shown : Projection.isIgnored field = false

theorem Context.admits_iff {ctx : Context} {kind : EntityKind} {field : String} :
    ctx.Admits kind field ↔
      ((kind == .node && !ctx.allows field) || Projection.isIgnored field) = false := by
  constructor
  · rintro ⟨hwanted, hshown⟩
    cases kind with
    | node => simp [hwanted rfl, hshown]
    | taxonomyTerm => simpa using hshown
  · intro h
    rw [Bool.or_eq_false_iff] at h
    refine ⟨?_, h.2⟩
    rintro rfl
    simpa using h.1

theorem Context.admits_of_no_allowList {ctx : Context} (h : ctx.allowList = none)
    (kind : EntityKind) {field : String} (hf : Projection.isIgnored field = false) :
    ctx.Admits kind field :=
  ⟨fun _ => by rw [allows, h], hf⟩

namespace Projector

variable (p : Projector Id) (ctx : Context) (expand : Entity → Id Json) (e : Entity)

theorem run_field?_of_admitted {d : FieldDefinition} (h : ctx.Admits e.kind d.name) {r : Rendering}
    (hr : Rendering.ofType? d.type = some r) :
    (p.field? ctx expand e d).run =
      if (!r.isComputed && r.lacksValue (e.field d.name)) = true then
        Projection.emptyValue? e.kind ctx.omitsEmpty
      else some (p.render ctx expand e d r).run := by
  rw [field?, Context.admits_iff.1 h, if_neg Bool.false_ne_true, hr]
  dsimp only
  split <;> rfl

/-- A name that no definition contributes to is left to the header. -/
theorem get?_run_object_of_no_field {name : String}
    (h : ∀ d ∈ (p.storage.fieldDefinitions e.kind e.bundle).run, d.name = name →
      (p.field? ctx expand e d).run = none) :
    (p.object ctx expand e).run.get? name = (p.header e).run.reverse.lookup name := by
  rw [get?_run_object_eq, List.findSome?_eq_none_iff.2, Option.none_or]
  intro d hd
  obtain ⟨hmem, hname⟩ := List.mem_filter.1 (List.mem_reverse.1 hd)
  exact h d hmem (beq_iff_eq.1 hname)

/-- Where a definition contributes, what stands under its name is contributed by one. -/
theorem exists_field_of_get?_run_object {d : FieldDefinition}
    (hd : d ∈ (p.storage.fieldDefinitions e.kind e.bundle).run)
    (hs : (p.field? ctx expand e d).run.isSome) :
    ∃ other ∈ (p.storage.fieldDefinitions e.kind e.bundle).run, other.name = d.name ∧
      (p.object ctx expand e).run.get? d.name = (p.field? ctx expand e other).run := by
  have hsome : (((p.storage.fieldDefinitions e.kind e.bundle).run.filter
      fun other => other.name == d.name).reverse.findSome? fun other =>
        (p.field? ctx expand e other).run).isSome :=
    List.findSome?_isSome_iff.2 ⟨d, by simp [hd], hs⟩
  obtain ⟨value, hvalue⟩ := Option.isSome_iff_exists.1 hsome
  obtain ⟨other, hother, hfield⟩ := List.exists_of_findSome?_eq_some hvalue
  obtain ⟨hmem, hname⟩ := List.mem_filter.1 (List.mem_reverse.1 hother)
  refine ⟨other, hmem, beq_iff_eq.1 hname, ?_⟩
  rw [get?_run_object_eq, hvalue, hfield, Option.some_or]

theorem run_field?_of_isIgnored {d : FieldDefinition} (h : Projection.isIgnored d.name = true) :
    (p.field? ctx expand e d).run = none := by
  rw [field?, h, Bool.or_true, if_pos rfl]
  rfl

theorem run_field?_of_unsupported {d : FieldDefinition} (h : Rendering.ofType? d.type = none) :
    (p.field? ctx expand e d).run = none := by
  rw [field?, h]
  split <;> rfl

/-- The names of the header come first. -/
theorem names_header_isPrefix :
    (Members.ofList (p.header e).run).names <+: (p.object ctx expand e).run.names := by
  rw [run_object]
  exact Members.names_ofList_isPrefix _ _

theorem run_header_of_node {e : Entity} (h : e.kind = .node) : (p.header e).run = [] := by
  rw [header, h]
  rfl

theorem run_header_of_term {e : Entity} (h : e.kind = .taxonomyTerm) :
    (p.header e).run = [("parent", .str (p.parentText e).run), ("type", .str e.bundle)] := by
  rw [header, h]
  rfl

/-- On a term every supported definition contributes, so that the header shows through none. -/
theorem get?_run_object_of_admitted {e : Entity} {d : FieldDefinition}
    (h : (p.storage.fieldDefinitions e.kind e.bundle).run.filter
      (fun other => other.name == d.name) = [d])
    (ha : ctx.Admits e.kind d.name) {r : Rendering} (hr : Rendering.ofType? d.type = some r) :
    (p.object ctx expand e).run.get? d.name = (p.field? ctx expand e d).run := by
  rw [p.get?_run_object_of_defined_once ctx expand h]
  cases hk : e.kind with
  | node => rw [run_header_of_node p hk, List.reverse_nil, List.lookup_nil, Option.or_none]
  | taxonomyTerm =>
    rw [p.run_field?_of_admitted ctx expand e ha hr, hk]
    split <;> rfl

/-- The members that an entity behind a reference shows while some levels are left. -/
def shownWithin : Nat → Entity → Json.Object
  | 0, target => [("uuid", .str target.uuid.text), ("type", .str target.bundle)]
  | levels + 1, target => (p.within ctx levels target).run

theorem run_within (levels : Nat) :
    (p.within ctx levels e).run =
      (p.object ctx (fun target => pure (.obj (p.shownWithin ctx levels target))) e).run := by
  cases levels with
  | zero => rfl
  | succ levels => rfl

/-- What an entity behind a reference of a projection shows. -/
def shownBehind : Entity → Json.Object := p.shownWithin ctx (ctx.levels Depth.root)

/-- However far a projection follows references, it shows one object around others. -/
theorem run_project :
    (p.project ctx e).run =
      (p.object ctx (fun target => pure (.obj (p.shownBehind ctx target))) e).run :=
  p.run_within ctx e (ctx.levels Depth.root)

end Projector

end ContentProjection
