import ContentProjection.Proofs.PublishedListing

/-!
# Drafts behind references

A projection follows references by the number of levels left and by nothing
else, so it shows a draft whole as readily as a published node. `discloses` says
whether it does within some number of levels. When it does not, alike stores
project an entity to the same object: a draft is then met as a stub at most, and
the stub is made of its identity.
-/
namespace ContentProjection

/-- A node that is not published. -/
def Entity.isDraft (e : Entity) : Bool := e.kind == .node && !e.published

namespace Entity

theorem Draft.isDraft {e : Entity} (h : e.Draft) : e.isDraft = true := by
  simp [Entity.isDraft, h.kind, h.unpublished]

theorem Alike.isDraft_eq {e e' : Entity} (h : e.Alike e') : e.isDraft = e'.isDraft := by
  rw [Entity.isDraft, Entity.isDraft, h.kind_eq, h.published_eq]

theorem Alike.eq_of_not_isDraft {e e' : Entity} (h : e.Alike e') (he : e.isDraft = false) :
    e = e' := by
  cases h with
  | same => rfl
  | drafts hd => exact absurd hd.isDraft (by simp [he])

theorem Alike.stub_eq {e e' : Entity} (h : e.Alike e') :
    Projection.stub e = Projection.stub e' := by
  rw [Projection.stub, Projection.stub, h.uuid_eq, h.bundle_eq]

end Entity

/-- The entities that an entity shows for a definition, none when the field is not shown. -/
def Storage.shownBy (s : Storage Id) (ctx : Context) (e : Entity) (d : FieldDefinition) :
    List Entity :=
  if (e.kind == .node && !ctx.allows d.name) || Projection.isIgnored d.name then []
  else
    match d.type.targetKind? with
    | some kind => s.targets kind d.multiple (e.field d.name)
    | none => []

namespace Store

/-- Some draft is shown whole, at most `n` references away. -/
def discloses (s : Store) (ctx : Context) : (n : Nat) → Entity → Bool
  | 0, _ => false
  | n + 1, e =>
    (s.schemaOf e.kind e.bundle).any fun d =>
      (s.answers.shownBy ctx e d).any fun target => target.isDraft || s.discloses ctx n target

section Alike

variable {s s' : Store} (h : s.Alike s')
include h

theorem Alike.schemaOf_eq (kind : EntityKind) (bundle : String) :
    s.schemaOf kind bundle = s'.schemaOf kind bundle := by
  rw [schemaOf, schemaOf, h.bundle?_eq]

theorem Alike.shownBy (ctx : Context) (e : Entity) (d : FieldDefinition) :
    List.Forall₂ Entity.Alike (s.answers.shownBy ctx e d) (s'.answers.shownBy ctx e d) := by
  unfold Storage.shownBy
  split
  · exact List.Forall₂.nil
  · cases d.type.targetKind? with
    | none => exact List.Forall₂.nil
    | some kind =>
      refine forall₂_filterMap (fun item => ?_) _
      unfold Storage.target?
      cases item.targetEntityId? with
      | none => exact Option.Rel.none
      | some id => exact h.get? kind id

theorem Alike.render_eq (offset : Calendar.Offset) (ctx : Context)
    {expand expand' : Entity → Id Json} (e : Entity) (d : FieldDefinition) (r : Rendering)
    (hd : ∀ kind, r.targetKind? = some kind →
      (s.answers.targets kind d.multiple (e.field d.name)).map (fun target => (expand target).run) =
        (s'.answers.targets kind d.multiple (e.field d.name)).map
          fun target => (expand' target).run) :
    (Projector.render ⟨s.answers, offset⟩ ctx expand e d r).run =
      (Projector.render ⟨s'.answers, offset⟩ ctx expand' e d r).run := by
  cases r with
  | reference target =>
    have hreferences : ∀ kind, target.entityKind? = some kind →
        (Projector.referencesOf ⟨s.answers, offset⟩ expand target d.multiple (e.field d.name)).run =
          (Projector.referencesOf ⟨s'.answers, offset⟩ expand' target d.multiple
            (e.field d.name)).run := by
      intro kind hk
      rw [Projector.run_referencesOf _ _ hk, Projector.run_referencesOf _ _ hk]
      exact congrArg _ (hd kind hk)
    cases target with
    | node => exact hreferences .node rfl
    | taxonomyTerm => exact hreferences .taxonomyTerm rfl
    | nodeType => rfl
    | other name => rfl
  | _ =>
    obtain ⟨nodes, rfl⟩ := h.exists_nodes
    rfl

/-- What a definition contributes depends on drafts through the entities it shows alone. -/
theorem Alike.field?_eq (offset : Calendar.Offset) (ctx : Context)
    {expand expand' : Entity → Id Json} (e : Entity) (d : FieldDefinition)
    (hd : (s.answers.shownBy ctx e d).map (fun target => (expand target).run) =
      (s'.answers.shownBy ctx e d).map fun target => (expand' target).run) :
    (Projector.field? ⟨s.answers, offset⟩ ctx expand e d).run =
      (Projector.field? ⟨s'.answers, offset⟩ ctx expand' e d).run := by
  unfold Storage.shownBy at hd
  unfold Projector.field?
  split
  · rfl
  · next hshown =>
    rw [if_neg hshown, if_neg hshown] at hd
    cases hr : Rendering.ofType? d.type with
    | none => rfl
    | some r =>
      rw [Rendering.targetKind?_of_ofType? hr] at hd
      dsimp only
      split
      · rfl
      · refine congrArg some (h.render_eq offset ctx e d r fun kind hk => ?_)
        rwa [hk] at hd

theorem Alike.object_eq (offset : Calendar.Offset) (ctx : Context)
    {expand expand' : Entity → Id Json} (e : Entity)
    (hd : ∀ d ∈ s.schemaOf e.kind e.bundle,
      (s.answers.shownBy ctx e d).map (fun target => (expand target).run) =
        (s'.answers.shownBy ctx e d).map fun target => (expand' target).run) :
    (Projector.object ⟨s.answers, offset⟩ ctx expand e).run =
      (Projector.object ⟨s'.answers, offset⟩ ctx expand' e).run := by
  have hheader : (Projector.header ⟨s.answers, offset⟩ e).run =
      (Projector.header ⟨s'.answers, offset⟩ e).run := by
    obtain ⟨nodes, rfl⟩ := h.exists_nodes
    rfl
  have hfields : (s.schemaOf e.kind e.bundle).filterMap (fun d =>
        (Projector.field? ⟨s.answers, offset⟩ ctx expand e d).run.map
          fun value => (d.name, value)) =
      (s'.schemaOf e.kind e.bundle).filterMap fun d =>
        (Projector.field? ⟨s'.answers, offset⟩ ctx expand' e d).run.map
          fun value => (d.name, value) := by
    rw [← h.schemaOf_eq]
    exact List.filterMap_congr fun d hm => by rw [h.field?_eq offset ctx e d (hd d hm)]
  rw [Projector.run_object, Projector.run_object, hheader]
  exact congrArg (fun fields => Members.ofList (_ ++ fields)) hfields

theorem Alike.within_eq (offset : Calendar.Offset) (ctx : Context) {n : Nat} {e : Entity}
    (hd : s.discloses ctx n e = false) :
    (Projector.within ⟨s.answers, offset⟩ ctx n e).run =
      (Projector.within ⟨s'.answers, offset⟩ ctx n e).run := by
  induction n generalizing e with
  | zero =>
    refine h.object_eq offset ctx e fun d _ => ?_
    exact map_eq_map_of_forall₂ (h.shownBy ctx e d) fun target _ target' ht => ht.stub_eq
  | succ n ih =>
    refine h.object_eq offset ctx e fun d hm => ?_
    refine map_eq_map_of_forall₂ (h.shownBy ctx e d) fun target htarget target' ht => ?_
    rw [discloses, List.any_eq_false] at hd
    have hnone := hd d hm
    rw [Bool.not_eq_true, List.any_eq_false] at hnone
    have hclosed := hnone target htarget
    rw [Bool.not_eq_true, Bool.or_eq_false_iff] at hclosed
    obtain rfl := ht.eq_of_not_isDraft hclosed.1
    exact congrArg Json.obj (ih hclosed.2)

theorem Alike.discloses_eq (ctx : Context) (n : Nat) (e : Entity) :
    s.discloses ctx n e = s'.discloses ctx n e := by
  induction n generalizing e with
  | zero => rfl
  | succ n ih =>
    rw [discloses, discloses, ← h.schemaOf_eq]
    refine congrArg (List.any _) (funext fun d => ?_)
    have hshown := h.shownBy ctx e d
    generalize s.answers.shownBy ctx e d = shown, s'.answers.shownBy ctx e d = shown' at hshown
    induction hshown with
    | nil => rfl
    | cons ht _ iht =>
      rw [List.any_cons, List.any_cons, iht, ← ht.isDraft_eq]
      cases hdraft : Entity.isDraft _ with
      | true => rfl
      | false => rw [← ht.eq_of_not_isDraft hdraft, ih]

end Alike

end Store

end ContentProjection
