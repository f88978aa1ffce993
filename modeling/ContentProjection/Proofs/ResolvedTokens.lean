import ContentProjection.Proofs.Answers
import ContentProjection.Proofs.PureProjection
import ContentProjection.Proofs.WrittenUuids

/-!
# Lists of tokens resolved to UUIDs

Each token of a list is resolved alone: one in the written form of a UUID stands for
itself, any other for the UUID of the entity behind it, and one without an entity is left
out. The result is in the written form throughout and so is resolved to itself.
-/
namespace ContentProjection

namespace Storage

variable (s : Storage Id) (kind : EntityKind)

/-- The UUID text that a token stands for. -/
def uuidText? (token : String) : Option String :=
  if Uuid.isCanonical token then some token
  else (s.findEntity kind token).run.map fun e => e.uuid.text

theorem run_findUuids (tokens : List String) :
    (s.findUuids kind tokens).run = tokens.filterMap (s.uuidText? kind) := by
  rw [findUuids, run_filterMapM]
  refine List.filterMap_congr fun token _ => ?_
  unfold uuidText?
  split <;> rfl

variable {s kind} {token u : String}

theorem uuidText?_of_written (h : Uuid.IsWritten token) : s.uuidText? kind token = some token :=
  if_pos (Uuid.isWritten_iff.1 h)

theorem uuidText?_of_not_written (h : ¬ Uuid.IsWritten token) :
    s.uuidText? kind token = (s.findEntity kind token).run.map fun e => e.uuid.text :=
  if_neg (mt Uuid.isWritten_iff.2 h)

theorem isWritten_of_uuidText? (h : s.uuidText? kind token = some u) : Uuid.IsWritten u := by
  by_cases hwritten : Uuid.IsWritten token
  · rw [uuidText?_of_written hwritten] at h
    cases h
    exact hwritten
  · rw [uuidText?_of_not_written hwritten] at h
    obtain ⟨e, -, rfl⟩ := Option.map_eq_some_iff.1 h
    exact Uuid.isWritten_iff.2 e.uuid.isCanonical_text

theorem isWritten_of_mem_findUuids {tokens : List String}
    (h : u ∈ (s.findUuids kind tokens).run) : Uuid.IsWritten u := by
  rw [run_findUuids] at h
  obtain ⟨token, -, htoken⟩ := List.mem_filterMap.1 h
  exact isWritten_of_uuidText? htoken

theorem run_findUuids_of_written {tokens : List String}
    (h : ∀ token ∈ tokens, Uuid.IsWritten token) : (s.findUuids kind tokens).run = tokens := by
  rw [run_findUuids, List.filterMap_congr fun token ht => uuidText?_of_written (h token ht)]
  exact List.filterMap_some

end Storage

namespace Store

variable (s : Store) (kind : EntityKind)

/-- A token that is no UUID text is resolved to the UUID of the entity behind it, and to nothing
exactly when there is none. -/
structure ResolvesAlone (token : String) : Prop where
  found : ∀ e, s.storage.findEntity kind token = .ok (some e) →
    s.storage.findUuids kind [token] = .ok [e.uuid.text]
  nothing : s.storage.findUuids kind [token] = .ok [] ↔ s.storage.findId kind token = .ok none

theorem resolvesAlone {token : String} (h : ¬ Uuid.IsWritten token) :
    s.ResolvesAlone kind token := by
  have huuids : s.storage.findUuids kind [token] =
      .ok ((s.answers.findEntity kind token).run.map fun e => e.uuid.text).toList := by
    rw [s.storage_findUuids, Storage.run_findUuids, List.filterMap_cons,
      Storage.uuidText?_of_not_written h]
    cases (s.answers.findEntity kind token).run <;> rfl
  have hid : s.storage.findId kind token =
      .ok ((s.answers.findEntity kind token).run.map Entity.id) := by
    rw [Storage.findId, s.storage_findEntity]
    rfl
  constructor
  case found =>
    intro e hfound
    rw [s.storage_findEntity] at hfound
    rw [huuids, Except.ok.inj hfound]
    rfl
  case nothing =>
    rw [huuids, hid]
    cases (s.answers.findEntity kind token).run <;> simp

/-- Resolving a list of tokens succeeds with UUID texts, which a second run leaves as they are,
and a list in two parts is resolved part by part. -/
theorem tokens_resolve_to_uuids (dump : Dump) (baseUrl : String) (kind : EntityKind)
    (xs ys : List String) :
    (∃ us vs, (ofDump dump baseUrl).storage.findUuids kind xs = .ok us ∧
      (ofDump dump baseUrl).storage.findUuids kind ys = .ok vs ∧
      (∀ u ∈ us, Uuid.IsWritten u) ∧
      (ofDump dump baseUrl).storage.findUuids kind us = .ok us ∧
      (ofDump dump baseUrl).storage.findUuids kind (xs ++ ys) = .ok (us ++ vs)) ∧
    ∀ token, ¬ Uuid.IsWritten token → (ofDump dump baseUrl).ResolvesAlone kind token := by
  generalize ofDump dump baseUrl = s
  have hwritten : ∀ u ∈ (s.answers.findUuids kind xs).run, Uuid.IsWritten u := fun _ =>
    Storage.isWritten_of_mem_findUuids
  refine ⟨⟨_, _, s.storage_findUuids kind xs, s.storage_findUuids kind ys, hwritten, ?_, ?_⟩,
    fun token => s.resolvesAlone kind⟩
  · rw [s.storage_findUuids, Storage.run_findUuids_of_written hwritten]
  · rw [s.storage_findUuids]
    simp only [Storage.run_findUuids, List.filterMap_append]

end Store

end ContentProjection
