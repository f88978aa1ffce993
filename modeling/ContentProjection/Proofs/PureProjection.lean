import ContentProjection.Projection
import ContentProjection.Proofs.SetMembers

/-!
# Projection over storage that only answers

Over such storage a projection is a function: the members of an object are the
header and what each definition of the schema contributes, later contributions
under a name replacing earlier ones. The equations here open one part of the
projection each, so that nothing after them unfolds it.
-/
namespace ContentProjection

theorem run_filterMapM {α β : Type} (f : α → Id (Option β)) (as : List α) :
    (as.filterMapM f).run = as.filterMap fun a => (f a).run := by
  induction as with
  | nil => rfl
  | cons a as ih =>
    rw [List.filterMapM_cons, List.filterMap_cons, ← ih]
    cases h : (f a).run <;> simp [h]

/-- The kind of the entities that fields of a type refer to. -/
def FieldType.targetKind? : FieldType → Option EntityKind
  | entityReference target => target.entityKind?
  | _ => none

/-- Likewise for the rendering of a type. -/
def Rendering.targetKind? : Rendering → Option EntityKind
  | reference target => target.entityKind?
  | _ => none

theorem Rendering.targetKind?_of_ofType? {type : FieldType} {r : Rendering}
    (h : ofType? type = some r) : type.targetKind? = r.targetKind? := by
  cases type <;> cases h <;> rfl

/-- An array of all values, or the first alone. -/
def Projection.together (multiple : Bool) (values : List Json) : Json :=
  if multiple then .arr values else values.head?.getD .null

namespace Storage

variable (s : Storage Id)

/-- The entity that an item refers to. -/
def target? (kind : EntityKind) (item : Item) : Option Entity :=
  item.targetEntityId?.bind fun id => (s.load kind id).run

/-- The entities that are found behind the items of a field, or behind the first alone. -/
def targets (kind : EntityKind) (multiple : Bool) (items : List Item) : List Entity :=
  (if multiple then items else items.take 1).filterMap (s.target? kind)

theorem targets_nil (kind : EntityKind) (multiple : Bool) : s.targets kind multiple [] = [] := by
  cases multiple <;> rfl

end Storage

namespace Projector

variable (p : Projector Id) (ctx : Context) (expand : Entity → Id Json)

theorem run_perFoundItem (multiple : Bool) (items : List Item) (find : Item → Id (Option Json)) :
    (perFoundItem multiple items find).run =
      if multiple then .arr (items.filterMap fun item => (find item).run)
      else (items.head?.bind fun item => (find item).run).getD .null := by
  cases multiple with
  | true => simp [perFoundItem, ← run_filterMapM]
  | false => cases items <;> rfl

theorem run_entityOf (kind : EntityKind) (item : Item) :
    (p.entityOf expand kind item).run =
      (p.storage.target? kind item).map fun e => (expand e).run := by
  unfold entityOf Storage.target?
  cases item.targetEntityId? with
  | none => rfl
  | some id => cases h : (p.storage.load kind id).run <;> simp [h]

theorem run_perFoundItem_entityOf (kind : EntityKind) (multiple : Bool) (items : List Item) :
    (perFoundItem multiple items (p.entityOf expand kind)).run =
      Projection.together multiple
        ((p.storage.targets kind multiple items).map fun e => (expand e).run) := by
  simp only [run_perFoundItem, run_entityOf, Projection.together, Storage.targets]
  cases multiple with
  | true => simp only [if_true, List.map_filterMap]
  | false =>
    cases items with
    | nil => rfl
    | cons item items => cases h : p.storage.target? kind item <;> simp [h]

theorem run_referencesOf {target : ReferenceTarget} {kind : EntityKind}
    (h : target.entityKind? = some kind) (multiple : Bool) (items : List Item) :
    (p.referencesOf expand target multiple items).run =
      Projection.together multiple
        ((p.storage.targets kind multiple items).map fun e => (expand e).run) := by
  cases target with
  | node | taxonomyTerm =>
    cases h
    exact p.run_perFoundItem_entityOf expand _ multiple items
  | nodeType | other => cases h

theorem run_object (e : Entity) :
    (p.object ctx expand e).run =
      Members.ofList ((p.header e).run ++
        (p.storage.fieldDefinitions e.kind e.bundle).run.filterMap fun d =>
          (p.field? ctx expand e d).run.map fun value => (d.name, value)) := by
  simp [object, run_filterMapM]

/-- The last definition with a name that contributes anything decides what stands under it. -/
theorem get?_run_object_eq (e : Entity) (name : String) :
    (p.object ctx expand e).run.get? name =
      (((p.storage.fieldDefinitions e.kind e.bundle).run.filter
          fun d => d.name == name).reverse.findSome? fun d =>
            (p.field? ctx expand e d).run).or ((p.header e).run.reverse.lookup name) := by
  rw [run_object]
  exact Members.get?_ofList_header _ _ _ _ name

theorem get?_run_object_of_defined_once {e : Entity} {d : FieldDefinition}
    (h : (p.storage.fieldDefinitions e.kind e.bundle).run.filter
      (fun other => other.name == d.name) = [d]) :
    (p.object ctx expand e).run.get? d.name =
      ((p.field? ctx expand e d).run).or ((p.header e).run.reverse.lookup d.name) := by
  rw [get?_run_object_eq, h]
  simp

theorem get?_run_object {e : Entity} {d : FieldDefinition} {value : Json}
    (hn : ((p.storage.fieldDefinitions e.kind e.bundle).run.map FieldDefinition.name).Nodup)
    (hd : d ∈ (p.storage.fieldDefinitions e.kind e.bundle).run)
    (hv : (p.field? ctx expand e d).run = some value) :
    (p.object ctx expand e).run.get? d.name = some value := by
  have honce := filter_key_eq_singleton hn hd
  rw [p.get?_run_object_of_defined_once ctx expand honce, hv, Option.some_or]

end Projector

end ContentProjection
