import ContentProjection.Proofs.Expansion
import ContentProjection.Proofs.Outline

/-!
# One level more

A projection counts the references it has followed on a branch and compares the
count with the depth of its context. Starting one reference further in with a
depth one larger changes no comparison, so a projection with one level more
shows behind each reference what a projection with the smaller depth shows at
the top. Without a level left, and without following references at all, it shows
stubs there. Everything else is the outline, which no depth changes.
-/
namespace ContentProjection

theorem Depth.toNat_edges_deeper (depth : Depth) :
    depth.deeper.edges.toNat = min (depth.edges.toNat + 1) maxEdges.toNat := by
  have hmax : maxEdges.toNat = 4294967295 := rfl
  have hle : depth.edges.toNat ≤ maxEdges.toNat := Nat.le_of_lt_succ depth.edges.toNat_lt
  unfold deeper
  split
  · next h =>
    rw [h]
    exact (Nat.min_eq_right (Nat.le_succ _)).symm
  · next h =>
    have hne : depth.edges.toNat ≠ maxEdges.toNat := mt UInt32.toNat_inj.1 h
    rw [UInt32.toNat_add, UInt32.toNat_one]
    omega

theorem toNat_succ_of_lt_levelLimit {limit : UInt32} (h : limit < levelLimit) :
    (limit + 1).toNat = limit.toNat + 1 := by
  have hlimit : limit.toNat < 10 := UInt32.lt_iff_toNat_lt.1 h
  rw [UInt32.toNat_add, UInt32.toNat_one]
  omega

namespace Context

variable (ctx : Context) (depth : Depth)

/-- One reference further in, one level less is left. -/
theorem levels_deeper : ctx.levels depth.deeper = ctx.levels depth - 1 := by
  have hmax : Depth.maxEdges.toNat = 4294967295 := rfl
  unfold levels
  split
  · rw [toNat_min_levelLimit, Depth.toNat_edges_deeper]
    omega
  · rfl

/-- A depth one larger is used up by one reference. -/
theorem levels_deeper_succ {limit : UInt32} (h : limit < levelLimit) :
    { ctx with recurse := true, maxDepth := limit + 1 }.levels depth.deeper =
      { ctx with recurse := true, maxDepth := limit }.levels depth := by
  rw [levels_deeper]
  simp only [levels, toNat_min_levelLimit, toNat_succ_of_lt_levelLimit h, if_true]
  have hlimit : limit.toNat < 10 := UInt32.lt_iff_toNat_lt.1 h
  omega

theorem expands_root_succ {limit : UInt32} (h : limit < levelLimit) :
    { ctx with recurse := true, maxDepth := limit + 1 }.expands Depth.root = true := by
  refine expands_eq_true_iff.2 ⟨rfl, UInt32.lt_iff_toNat_lt.2 ?_⟩
  rw [toNat_min_levelLimit, toNat_succ_of_lt_levelLimit h]
  exact Nat.lt_min.2 ⟨Nat.succ_pos _, by decide⟩

end Context

namespace Projector

section
variable {m : Type → Type} [Monad m] (p : Projector m) (ctx : Context)

/-- An entity whose references are met at a depth. -/
def projectAt (depth : Depth) (e : Entity) : m Json.Object := p.within ctx (ctx.levels depth) e

/-- A reference is followed as long as the context expands at its depth. -/
theorem projectAt_eq (depth : Depth) (e : Entity) :
    p.projectAt ctx depth e = p.object ctx (fun target =>
      if ctx.expands depth then do return .obj (← p.projectAt ctx depth.deeper target)
      else pure (Projection.stub target)) e := by
  unfold projectAt Context.expands
  rw [ctx.levels_deeper]
  cases ctx.levels depth with
  | zero => rfl
  | succ levels => rfl

/-- Whether and how far references are followed is no part of showing one object. -/
theorem object_following (expand : Entity → m Json) (recurse : Bool) (maxDepth : UInt32)
    (e : Entity) :
    p.object { ctx with recurse, maxDepth } expand e = p.object ctx expand e :=
  rfl

theorem within_following (recurse : Bool) (maxDepth : UInt32) (levels : Nat) (e : Entity) :
    p.within { ctx with recurse, maxDepth } levels e = p.within ctx levels e := by
  induction levels generalizing e with
  | zero => rfl
  | succ levels ih => simp only [within, object_following, ih]

/-- Counting from one with a depth one larger is counting from zero: at every depth, the two
counters leave the same levels. -/
theorem projectAt_deeper {limit : UInt32} (h : limit < levelLimit) (depth : Depth) (e : Entity) :
    p.projectAt { ctx with recurse := true, maxDepth := limit + 1 } depth.deeper e =
      p.projectAt { ctx with recurse := true, maxDepth := limit } depth e := by
  unfold projectAt
  rw [ctx.levels_deeper_succ depth h, p.within_following ctx true (limit + 1),
    p.within_following ctx true limit]

/-- With one level more, an object shows behind its references what a projection with the
smaller depth shows at the top. -/
theorem project_succ {limit : UInt32} (h : limit < levelLimit) (e : Entity) :
    p.project { ctx with recurse := true, maxDepth := limit + 1 } e =
      p.object ctx (fun target => do
        return .obj (← p.project { ctx with recurse := true, maxDepth := limit } target)) e := by
  refine (p.projectAt_eq _ Depth.root e).trans ?_
  simp only [ctx.expands_root_succ h, if_true, p.projectAt_deeper ctx h]
  rfl

theorem project_of_no_level {ctx : Context} (h : ctx.levels Depth.root = 0) (e : Entity) :
    p.project ctx e = p.object ctx (fun target => pure (Projection.stub target)) e := by
  rw [project, h, within]

end

/-- A projection that follows no reference fills its outline with stubs. -/
theorem projects_of_no_level (s : Storage Id) (offset : Calendar.Offset) {ctx : Context}
    (h : ctx.levels Depth.root = 0) (e : Entity) :
    s.Projects offset ctx e (filled ⟨s, offset⟩ ctx Projection.stub e) := by
  rw [Storage.projects_iff, project_of_no_level _ h, run_object_eq_filled]
  rfl

/-- For each depth below the limit, one level more fills the outline with what the smaller
depth shows at the top. No depth at all, and not following references at any depth, fill it
with stubs. -/
theorem projects_one_level_more (s : Storage Id) (offset : Calendar.Offset) (ctx : Context)
    (e : Entity) :
    (∀ limit : UInt32, limit < levelLimit → ∃ whole : Entity → Json.Object,
      (∀ target,
        s.Projects offset { ctx with recurse := true, maxDepth := limit } target (whole target)) ∧
      s.Projects offset { ctx with recurse := true, maxDepth := limit + 1 } e
        (filled ⟨s, offset⟩ ctx (fun target => .obj (whole target)) e)) ∧
    (∀ maxDepth : UInt32, s.Projects offset { ctx with recurse := false, maxDepth } e
      (filled ⟨s, offset⟩ ctx Projection.stub e)) ∧
    s.Projects offset { ctx with recurse := true, maxDepth := 0 } e
      (filled ⟨s, offset⟩ ctx Projection.stub e) := by
  refine ⟨fun limit h => ?_, fun maxDepth => projects_of_no_level s offset rfl e,
    projects_of_no_level s offset rfl e⟩
  refine ⟨fun target =>
    (project ⟨s, offset⟩ { ctx with recurse := true, maxDepth := limit } target).run,
    fun target => Storage.projects_iff.2 rfl, ?_⟩
  rw [Storage.projects_iff, project_succ _ ctx h, run_object_eq_filled]
  rfl

theorem get?_outline_ownTarget :
    (outline ⟨ownTargetStorage, Calendar.Offset.utc⟩ Context.default ownTarget.entity).get?
      "field_next" = some (.targets true [ownTarget.entity]) := by
  have htargets : ownTargetStorage.targets .node true (ownTarget.entity.field "field_next") =
      [ownTarget.entity] := by decide +kernel
  have hslot := get?_outline_of_defined_once ⟨ownTargetStorage, Calendar.Offset.utc⟩
    Context.default (e := ownTarget.entity) (d := ⟨"field_next", .entityReference .node, true⟩) rfl
    (by decide +kernel)
  exact hslot.trans (congrArg (fun entities => some (Slot.targets true entities)) htargets)

/-- At depth 1 the page shows itself whole, and a stub of itself inside. -/
theorem ownTarget_projects_one_level_more :
    (0 : UInt32) < levelLimit ∧ ∃ object inner : Json.Object,
      ownTargetStorage.Projects Calendar.Offset.utc ⟨true, 1, true, false, none⟩ ownTarget.entity
        object ∧
      object.get? "field_next" = some (.arr [.obj inner]) ∧
      inner.get? "field_next" = some (.arr [Projection.stub ownTarget.entity]) := by
  obtain ⟨hmore, -, hzero⟩ :=
    projects_one_level_more ownTargetStorage Calendar.Offset.utc Context.default ownTarget.entity
  obtain ⟨whole, hwhole, hshown⟩ := hmore 0 (by decide)
  refine ⟨by decide, _, whole ownTarget.entity, hshown, ?_, ?_⟩
  · rw [filled, Members.get?_mapValues, get?_outline_ownTarget]
    rfl
  · rw [Storage.projects_iff.1 (hwhole ownTarget.entity), ← Storage.projects_iff.1 hzero, filled,
      Members.get?_mapValues, get?_outline_ownTarget]
    rfl

end Projector
end ContentProjection
