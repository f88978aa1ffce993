import ContentProjection.Proofs.Answers
import ContentProjection.Proofs.Lists
import ContentProjection.Proofs.PureProjection

/-!
# Objects before their references are shown

The outline of an entity has its members in their order, with the entities that
its reference fields lead to in place of what shows them. How entities are shown
is no part of it, so projections that follow references differently fill the
same outline in different ways.
-/
namespace ContentProjection

namespace Members

variable {α β : Type}

/-- The same names with changed values. -/
def mapValues (f : α → β) (members : Members α) : Members β :=
  members.map fun member => (member.1, f member.2)

theorem mapValues_insert (f : α → β) (members : Members α) (name : String) (value : α) :
    (insert members name value).mapValues f = insert (members.mapValues f) name (f value) := by
  induction members with
  | nil => rfl
  | cons member rest ih =>
    by_cases h : member.1 = name
    · simp [insert, mapValues, h]
    · simpa [insert, mapValues, h] using ih

theorem mapValues_ofList (f : α → β) (pairs : List (String × α)) :
    (ofList pairs).mapValues f = ofList (mapValues f pairs) := by
  suffices H : ∀ start : Members α,
      mapValues f (pairs.foldl (fun members pair => insert members pair.1 pair.2) start) =
        (mapValues f pairs).foldl (fun members pair => insert members pair.1 pair.2)
          (mapValues f start) from H []
  induction pairs with
  | nil => exact fun start => rfl
  | cons pair pairs ih =>
    intro start
    rw [List.foldl_cons, ih, mapValues_insert]
    rfl

theorem get?_mapValues (f : α → β) (members : Members α) (name : String) :
    (members.mapValues f).get? name = (members.get? name).map f := by
  induction members with
  | nil => rfl
  | cons member rest ih =>
    obtain ⟨key, value⟩ := member
    simp only [get?, mapValues, List.map_cons, List.lookup_cons] at ih ⊢
    cases name == key with
    | true => rfl
    | false => exact ih

end Members

/-- What stands under a name before references are shown. -/
inductive Slot where
  | value (json : Json)
  /-- The entities that a reference field leads to: shown in an array, or one of them alone. -/
  | targets (multiple : Bool) (entities : List Entity)

/-- The value once every entity is shown. -/
def Slot.fill (shown : Entity → Json) : Slot → Json
  | value json => json
  | targets multiple entities => Projection.together multiple (entities.map shown)

theorem FieldType.eq_entityReference {type : FieldType} {kind : EntityKind}
    (h : type.targetKind? = some kind) :
    ∃ target, type = entityReference target ∧ target.entityKind? = some kind := by
  cases type with
  | entityReference target => exact ⟨target, rfl, h⟩
  | _ => cases h

namespace Projector

variable (p : Projector Id) (ctx : Context)

/-- What a definition contributes to the outline of an entity. -/
def slot? (e : Entity) (d : FieldDefinition) : Option Slot :=
  if (e.kind == .node && !ctx.allows d.name) || Projection.isIgnored d.name then none
  else
    match d.type.targetKind? with
    | some kind =>
      if (e.field d.name).isEmpty then (Projection.emptyValue? e.kind ctx.omitsEmpty).map .value
      else some (.targets d.multiple (p.storage.targets kind d.multiple (e.field d.name)))
    | none => (p.field? ctx (fun _ => pure .null) e d).run.map .value

/-- The members of an entity before its references are shown. -/
def outline (e : Entity) : Members Slot :=
  Members.ofList ((p.header e).run.mapValues .value ++
    (p.storage.fieldDefinitions e.kind e.bundle).run.filterMap fun d =>
      (p.slot? ctx e d).map fun slot => (d.name, slot))

/-- The outline with every entity shown. -/
def filled (shown : Entity → Json) (e : Entity) : Json.Object :=
  (p.outline ctx e).mapValues (Slot.fill shown)

variable (expand : Entity → Id Json)

theorem render_of_no_target {r : Rendering} (h : r.targetKind? = none) (e : Entity)
    (d : FieldDefinition) (expand' : Entity → Id Json) :
    p.render ctx expand e d r = p.render ctx expand' e d r := by
  cases r with
  | reference target =>
    cases target with
    | node | taxonomyTerm => cases h
    | nodeType | other => rfl
  | _ => rfl

theorem field?_of_no_target {d : FieldDefinition} (h : d.type.targetKind? = none) (e : Entity)
    (expand' : Entity → Id Json) : p.field? ctx expand e d = p.field? ctx expand' e d := by
  unfold field?
  cases hr : Rendering.ofType? d.type with
  | none => rfl
  | some r =>
    rw [Rendering.targetKind?_of_ofType? hr] at h
    dsimp only
    rw [p.render_of_no_target ctx expand h e d expand']

theorem run_field?_of_target {d : FieldDefinition} {kind : EntityKind}
    (h : d.type.targetKind? = some kind) (e : Entity)
    (hs : ¬((e.kind == .node && !ctx.allows d.name) || Projection.isIgnored d.name) = true) :
    (p.field? ctx expand e d).run =
      if (e.field d.name).isEmpty then Projection.emptyValue? e.kind ctx.omitsEmpty
      else some (Projection.together d.multiple
        ((p.storage.targets kind d.multiple (e.field d.name)).map fun t => (expand t).run)) := by
  obtain ⟨target, htype, htarget⟩ := FieldType.eq_entityReference h
  rw [field?, if_neg hs, htype]
  cases hi : (e.field d.name).isEmpty with
  | true => simp [Rendering.ofType?, Rendering.lacksValue, Rendering.isComputed, hi]
  | false =>
    have hrun := p.run_referencesOf expand htarget d.multiple (e.field d.name)
    simp [Rendering.ofType?, Rendering.lacksValue, hi, render, ← hrun]

theorem run_field? (e : Entity) (d : FieldDefinition) :
    (p.field? ctx expand e d).run =
      (p.slot? ctx e d).map (Slot.fill fun target => (expand target).run) := by
  unfold slot?
  split
  · next hs => rw [field?, if_pos hs]; rfl
  · next hs =>
    cases hk : d.type.targetKind? with
    | none =>
      rw [p.field?_of_no_target ctx expand hk e fun _ => pure .null, Option.map_map]
      exact Option.map_id'.symm
    | some kind =>
      rw [p.run_field?_of_target ctx expand hk e hs]
      dsimp only
      split
      · rw [Option.map_map]
        exact Option.map_id'.symm
      · rfl

/-- An object is its outline, filled with the references it is given. -/
theorem run_object_eq_filled (e : Entity) :
    (p.object ctx expand e).run = p.filled ctx (fun target => (expand target).run) e := by
  rw [run_object, filled, outline, Members.mapValues_ofList]
  refine congrArg Members.ofList ?_
  rw [Members.mapValues, List.map_append, List.map_filterMap]
  refine congrArg₂ _ ?_ (List.filterMap_congr fun d _ => ?_)
  · rw [Members.mapValues, List.map_map]
    exact (List.map_id' _).symm
  · rw [run_field?, Option.map_map, Option.map_map]
    rfl

variable {p ctx}

variable (p ctx) in
/-- On a node, a name that is defined once stands for what its definition contributes. -/
theorem get?_outline_of_defined_once {e : Entity} (hk : e.kind = .node) {d : FieldDefinition}
    (h : (p.storage.fieldDefinitions e.kind e.bundle).run.filter (fun other => other.name == d.name)
      = [d]) :
    (p.outline ctx e).get? d.name = p.slot? ctx e d := by
  have hheader : (p.header e).run.mapValues Slot.value = [] := by rw [header, hk]; rfl
  rw [outline, Members.get?_ofList_header, h, hheader]
  simp

end Projector

/-- Behind a cache that is faithful to its schemas, the storage answers a projection with
this object and keeps the cache faithful. -/
def Storage.Projects (s : Storage Id) (offset : Calendar.Offset) (ctx : Context) (e : Entity)
    (object : Json.Object) : Prop :=
  ∀ cache : SchemaCache, cache.Faithful s.answering.fieldDefinitions → ∃ cache',
    (Projector.project ⟨s.answering.cached, offset⟩ ctx e).run cache = (.ok object, cache') ∧
      cache'.Faithful s.answering.fieldDefinitions

theorem Storage.projects_iff {s : Storage Id} {offset : Calendar.Offset} {ctx : Context}
    {e : Entity} {object : Json.Object} :
    s.Projects offset ctx e object ↔ object = (Projector.project ⟨s, offset⟩ ctx e).run := by
  have hrun := Simulation.project s.remembering_simulated offset ctx e
  constructor
  · intro h
    obtain ⟨cache, hcache, -⟩ := hrun .empty SchemaCache.faithful_empty
    obtain ⟨cache', hcache', -⟩ := h .empty SchemaCache.faithful_empty
    exact Except.ok.inj (congrArg Prod.fst (hcache'.symm.trans hcache))
  · rintro rfl
    exact hrun

end ContentProjection
