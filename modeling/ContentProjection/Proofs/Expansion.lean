import ContentProjection.Proofs.Answers
import ContentProjection.Proofs.PureProjection
import Mathlib.Data.List.Forall2

/-!
# How deep a projection goes

References are followed without remembering where they lead, so only the number
of levels keeps a projection over cyclic content finite. `ShowsWhole n` says how
an object looks in which every chain of references crosses at most `n` entities
shown whole: what a reference field shows is shown with one level less, and with
no level left it is the stub of its target. The nesting of the text follows,
since each level puts at most an array and an object around the next.
-/
namespace ContentProjection

namespace Json

mutual

/-- How many arrays and objects stand around the innermost value. -/
def nesting : Json → Nat
  | null => 0
  | bool _ => 0
  | int _ => 0
  | float _ => 0
  | str _ => 0
  | arr items => nestingOfItems items + 1
  | obj members => nestingOfMembers members + 1

def nestingOfItems : List Json → Nat
  | [] => 0
  | item :: items => max item.nesting (nestingOfItems items)

def nestingOfMembers : List (String × Json) → Nat
  | [] => 0
  | (_, value) :: members => max value.nesting (nestingOfMembers members)

end

theorem nestingOfItems_le_iff {items : List Json} {n : Nat} :
    nestingOfItems items ≤ n ↔ ∀ item ∈ items, item.nesting ≤ n := by
  induction items with
  | nil => simp [nestingOfItems]
  | cons item items ih => simp only [nestingOfItems, Nat.max_le, List.forall_mem_cons, ih]

theorem nestingOfMembers_le_iff {members : Object} {n : Nat} :
    nestingOfMembers members ≤ n ↔ ∀ member ∈ members, member.2.nesting ≤ n := by
  induction members with
  | nil => simp [nestingOfMembers]
  | cons member members ih =>
    obtain ⟨name, value⟩ := member
    simp only [nestingOfMembers, Nat.max_le, List.forall_mem_cons, ih]

theorem nesting_arr_le {items : List Json} {n : Nat} (h : ∀ item ∈ items, item.nesting ≤ n) :
    (arr items).nesting ≤ n + 1 := by
  rw [nesting]
  exact Nat.succ_le_succ (nestingOfItems_le_iff.2 h)

theorem nesting_obj_le {members : Object} {n : Nat}
    (h : ∀ member ∈ members, member.2.nesting ≤ n) : (obj members).nesting ≤ n + 1 := by
  rw [nesting]
  exact Nat.succ_le_succ (nestingOfMembers_le_iff.2 h)

theorem nesting_stub_le (e : Entity) : (Projection.stub e).nesting ≤ 1 :=
  nesting_obj_le fun member h => by
    simp only [List.mem_cons, List.not_mem_nil, or_false] at h
    rcases h with rfl | rfl <;> simp [nesting]

end Json

/-- The entities behind the items of a reference field are shown in order, each as `R` says:
all in an array, or the one behind the first item alone. -/
def ShowsTargets (R : Entity → Json → Prop) (s : Storage Id) (kind : EntityKind)
    (multiple : Bool) (items : List Item) (value : Json) : Prop :=
  ∃ shown, value = Projection.together multiple shown ∧
    List.Forall₂ R (s.targets kind multiple items) shown

/-- What a definition contributes to an entity, references shown as `R` says. A field that
refers to no entity holds no more than an array of flat objects. -/
def ShowsField (R : Entity → Json → Prop) (s : Storage Id) (e : Entity) (d : FieldDefinition)
    (value : Json) : Prop :=
  match d.type.targetKind? with
  | some kind =>
    e.field d.name = [] ∧ value.nesting = 0 ∨
      ShowsTargets R s kind d.multiple (e.field d.name) value
  | none => value.nesting ≤ 2

/-- Every member of an object is a text of the header or the contribution of a definition. -/
def ShowsMembers (R : Entity → Json → Prop) (s : Storage Id) (e : Entity)
    (object : Json.Object) : Prop :=
  ∀ name value, (name, value) ∈ object → (∃ text, value = .str text) ∨
    ∃ d ∈ (s.fieldDefinitions e.kind e.bundle).run, d.name = name ∧ ShowsField R s e d value

/-- An entity shown whole, with at most `n` more entities shown whole on any chain of
references, each chain of `n` of them ending in a stub. -/
def ShowsWhole (s : Storage Id) : (n : Nat) → Entity → Json.Object → Prop
  | 0 => ShowsMembers (fun target value => value = Projection.stub target) s
  | n + 1 =>
    ShowsMembers
      (fun target value => ∃ object, value = .obj object ∧ ShowsWhole s n target object) s

namespace Projection

theorem nesting_perItem_le (multiple : Bool) (items : List Item) {render : Item → Json} {n : Nat}
    (h : ∀ item, (render item).nesting ≤ n) : (perItem multiple items render).nesting ≤ n + 1 := by
  unfold perItem
  split
  · refine Json.nesting_arr_le fun value hv => ?_
    obtain ⟨item, -, rfl⟩ := List.mem_map.1 hv
    exact h item
  · cases items with
    | nil => exact Nat.zero_le _
    | cons item items => exact Nat.le_succ_of_le (h item)

theorem nesting_emptyValue? {kind : EntityKind} {omitted : Bool} {value : Json}
    (h : emptyValue? kind omitted = some value) : value.nesting = 0 := by
  unfold emptyValue? at h
  split at h
  · cases h
    rfl
  · split at h <;> cases h
    rfl

end Projection

namespace Projector

variable (p : Projector Id) (ctx : Context) (expand : Entity → Id Json)

theorem nesting_perFoundItem_le (multiple : Bool) (items : List Item)
    {find : Item → Id (Option Json)} {n : Nat}
    (h : ∀ item value, (find item).run = some value → value.nesting ≤ n) :
    (perFoundItem multiple items find).run.nesting ≤ n + 1 := by
  rw [run_perFoundItem]
  split
  · refine Json.nesting_arr_le fun value hv => ?_
    obtain ⟨item, -, hf⟩ := List.mem_filterMap.1 hv
    exact h item value hf
  · cases hf : items.head?.bind fun item => (find item).run with
    | none => exact Nat.zero_le _
    | some value =>
      obtain ⟨item, -, hi⟩ := Option.bind_eq_some_iff.1 hf
      exact Nat.le_succ_of_le (h item value hi)

theorem nesting_imageOf_le (styles : List String) (item : Item) (value : Json)
    (h : (p.imageOf styles item).run = some value) : value.nesting ≤ 1 := by
  unfold imageOf at h
  cases hid : item.targetEntityId? with
  | none => simp [hid] at h
  | some id =>
    cases hf : (p.storage.fileUrl id).run with
    | none => simp [hid, hf] at h
    | some full =>
      simp only [hid, Id.run_bind, hf, Id.run_pure, Option.some.injEq] at h
      subst h
      refine Json.nesting_obj_le fun member hm => ?_
      rcases List.mem_cons.1 (Members.mem_of_mem_ofList hm) with rfl | hd
      · simp [Json.nesting]
      · rw [run_filterMapM] at hd
        obtain ⟨style, -, hs⟩ := List.mem_filterMap.1 hd
        simp only [Id.run_bind, Id.run_pure, Option.map_eq_some_iff] at hs
        obtain ⟨url, -, rfl⟩ := hs
        simp [Json.nesting]

theorem showsTargets_referencesOf {R : Entity → Json → Prop}
    (hR : ∀ target, R target (expand target).run) (target : ReferenceTarget) {kind : EntityKind}
    (h : target.entityKind? = some kind) (multiple : Bool) (items : List Item) :
    ShowsTargets R p.storage kind multiple items
      (p.referencesOf expand target multiple items).run := by
  rw [p.run_referencesOf expand h]
  refine ⟨_, rfl, ?_⟩
  exact List.forall₂_map_right_iff.2 (List.forall₂_same.2 fun target _ => hR target)

theorem showsField_render {R : Entity → Json → Prop}
    (hR : ∀ target, R target (expand target).run) (e : Entity) {d : FieldDefinition}
    {r : Rendering} (hr : Rendering.ofType? d.type = some r) :
    ShowsField R p.storage e d (p.render ctx expand e d r).run := by
  unfold ShowsField
  rw [Rendering.targetKind?_of_ofType? hr]
  cases r with
  | plain | integer =>
    exact Projection.nesting_perItem_le (n := 1) _ _ fun item => by simp [Json.nesting]
  | float =>
    refine Projection.nesting_perItem_le (n := 1) _ _ fun item => ?_
    rcases Json.ofReal_eq_or (Projection.realOf item.scalar) with h | h <;> simp [h, Json.nesting]
  | boolean => simp [Rendering.targetKind?, render, Projection.booleanOf, Json.nesting]
  | date =>
    refine Projection.nesting_perItem_le (n := 1) _ _ fun item => ?_
    unfold Projection.dateOf Json.optional
    cases Calendar.render? p.offset item.scalar <;> simp [Json.nesting]
  | pathAlias => simp [Rendering.targetKind?, render, Json.nesting]
  | link =>
    refine Projection.nesting_perItem_le (n := 1) _ _ fun item => ?_
    cases item <;> simp [Projection.linkOf, Json.nesting, Json.nestingOfMembers]
  | file =>
    refine nesting_perFoundItem_le (n := 1) _ _ fun item value hv => ?_
    simp only [Id.run_bind, Id.run_pure, Option.map_eq_some_iff] at hv
    obtain ⟨url, -, rfl⟩ := hv
    simp [Json.nesting]
  | image maxResolution => exact nesting_perFoundItem_le _ _ (p.nesting_imageOf_le _)
  | reference target =>
    cases target with
    | node =>
      exact Or.inr (p.showsTargets_referencesOf expand hR .node rfl d.multiple _)
    | taxonomyTerm =>
      exact Or.inr (p.showsTargets_referencesOf expand hR .taxonomyTerm rfl d.multiple _)
    | nodeType => simp [Rendering.targetKind?, ReferenceTarget.entityKind?, render, referencesOf,
        Projection.bundleOf, Json.nesting]
    | other name => simp [Rendering.targetKind?, ReferenceTarget.entityKind?, render, referencesOf,
        Json.nesting]

theorem showsField_field? {R : Entity → Json → Prop} (hR : ∀ target, R target (expand target).run)
    {e : Entity} {d : FieldDefinition} {value : Json}
    (h : (p.field? ctx expand e d).run = some value) : ShowsField R p.storage e d value := by
  unfold field? at h
  split at h
  · cases h
  · cases hr : Rendering.ofType? d.type with
    | none => simp [hr] at h
    | some r =>
      simp only [hr] at h
      split at h
      · next hempty =>
        have h0 := Projection.nesting_emptyValue? h
        unfold ShowsField
        rw [Rendering.targetKind?_of_ofType? hr]
        cases r with
        | reference target =>
          have hi : e.field d.name = [] := by
            simpa [Rendering.lacksValue, Rendering.isComputed] using hempty
          split
          · exact Or.inl ⟨hi, h0⟩
          · omega
        | _ =>
          show value.nesting ≤ 2
          omega
      · simp only [Id.run_bind, Id.run_pure, Option.some.injEq] at h
        subst h
        exact p.showsField_render ctx expand hR e hr

theorem showsMembers_object {R : Entity → Json → Prop} (hR : ∀ target, R target (expand target).run)
    (e : Entity) : ShowsMembers R p.storage e (p.object ctx expand e).run := by
  intro name value hm
  rw [run_object] at hm
  rcases List.mem_append.1 (Members.mem_of_mem_ofList hm) with hh | hf
  · left
    unfold header at hh
    split at hh
    · cases hh
    · simp only [Id.run_bind, Id.run_pure, List.mem_cons, Prod.mk.injEq, List.not_mem_nil,
        or_false] at hh
      rcases hh with ⟨-, rfl⟩ | ⟨-, rfl⟩ <;> exact ⟨_, rfl⟩
  · right
    obtain ⟨d, hd, hv⟩ := List.mem_filterMap.1 hf
    obtain ⟨shown, hs, hp⟩ := Option.map_eq_some_iff.1 hv
    cases hp
    exact ⟨d, hd, rfl, p.showsField_field? ctx expand hR hs⟩

end Projector

section Nesting

variable {R : Entity → Json → Prop} {s : Storage Id} {n : Nat}

theorem ShowsTargets.nesting_le {kind : EntityKind} {multiple : Bool} {items : List Item}
    {value : Json} (hR : ∀ target json, R target json → json.nesting ≤ n)
    (h : ShowsTargets R s kind multiple items value) : value.nesting ≤ n + 1 := by
  obtain ⟨shown, rfl, hs⟩ := h
  have hall : ∀ json ∈ shown, json.nesting ≤ n := by
    generalize s.targets kind multiple items = targets at hs
    induction hs with
    | nil => simp
    | cons ht _ ih => simpa using ⟨hR _ _ ht, ih⟩
  unfold Projection.together
  split
  · exact Json.nesting_arr_le hall
  · cases shown with
    | nil => exact Nat.zero_le _
    | cons json shown => exact Nat.le_succ_of_le (hall json List.mem_cons_self)

theorem ShowsMembers.nesting_le {e : Entity} {object : Json.Object}
    (hn : 1 ≤ n) (hR : ∀ target json, R target json → json.nesting ≤ n)
    (h : ShowsMembers R s e object) : (Json.obj object).nesting ≤ n + 2 := by
  refine Json.nesting_obj_le fun member hm => ?_
  rcases h member.1 member.2 hm with ⟨text, ht⟩ | ⟨d, -, -, hd⟩
  · rw [ht]
    exact Nat.zero_le _
  · unfold ShowsField at hd
    split at hd
    · rcases hd with ⟨-, h0⟩ | ht
      · omega
      · exact ht.nesting_le hR
    · omega

theorem ShowsWhole.nesting_le {e : Entity} {object : Json.Object} (h : ShowsWhole s n e object) :
    (Json.obj object).nesting ≤ 2 * n + 3 := by
  induction n generalizing e object with
  | zero =>
    refine ShowsMembers.nesting_le (n := 1) (Nat.le_refl 1) (fun target json hj => ?_) h
    subst hj
    exact Json.nesting_stub_le target
  | succ n ih =>
    refine ShowsMembers.nesting_le (n := 2 * n + 3) (by omega) (fun target json hj => ?_) h
    obtain ⟨inner, rfl, hi⟩ := hj
    exact ih hi

end Nesting

theorem toNat_min_levelLimit (depth : UInt32) :
    (min depth levelLimit).toNat = min depth.toNat 10 := by
  change (if depth ≤ levelLimit then depth else levelLimit).toNat = _
  have hle : depth ≤ levelLimit ↔ depth.toNat ≤ 10 := UInt32.le_iff_toNat_le
  split
  · next hc => exact (Nat.min_eq_left (hle.1 hc)).symm
  · next hc => exact (Nat.min_eq_right (Nat.le_of_not_le (mt hle.2 hc))).symm

/-- How many references in a row a projection follows from its root. -/
def Context.reach (ctx : Context) : Nat :=
  if ctx.recurse then min ctx.maxDepth.toNat 10 else 0

theorem Context.levels_root (ctx : Context) : ctx.levels Depth.root = ctx.reach := by
  unfold levels reach
  split
  · rw [toNat_min_levelLimit]
    rfl
  · rfl

namespace Projector

/-- A page that refers to itself. -/
def ownTarget : NodeRecord where
  id := 1
  uuid := Uuid.repeating 0
  bundle := "page"
  title := ""
  published := true
  created := 0
  changed := none
  fields := [("field_next", [.target "1"])]

def ownTargetStorage : Storage Id :=
  (Store.ofDump { Dump.empty with
    nodeBundles := [("page", [⟨"field_next", .entityReference .node, true⟩])]
    nodes := [ownTarget] } "").answers

end Projector

end ContentProjection
