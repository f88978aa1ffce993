import ContentProjection.Proofs.Answers
import Mathlib.Data.Finset.Card
import Mathlib.Data.Finset.Insert
import Mathlib.Data.List.Basic

/-!
# How often schemas are asked for

Reads that come one after the other share a cache. Each is answered as the source
answers, though the source is asked for a schema only by the first read of its key: the
kind and the bundle together, so that a bundle name of two kinds is asked for twice. An
empty schema, as a bundle has that nobody knows, is a schema too. A failure is never
kept, and every read that fails has asked the source again.
-/
namespace ContentProjection.SchemaCache

variable (source : EntityKind → String → Except Fault Schema)

/-- The answers to reads in their order, and the cache that they leave. -/
def readAll : List (EntityKind × String) → SchemaCache → List (Except Fault Schema) × SchemaCache
  | [], cache => ([], cache)
  | (kind, bundle) :: keys, cache =>
    let (answer, cache') := (read source kind bundle).run cache
    let (answers, cache'') := readAll keys cache'
    (answer :: answers, cache'')

/-- The source has a schema for the key. -/
def succeeds (key : EntityKind × String) : Bool := (source key.1 key.2).isOk

/-- The keys that the source has a schema for, each of them once. -/
def answered (keys : List (EntityKind × String)) : Finset (EntityKind × String) :=
  (keys.filter (succeeds source)).toFinset

/-- The number of reads that the source fails. -/
def failures (keys : List (EntityKind × String)) : Nat :=
  keys.countP fun key => !succeeds source key

/-- A cache after some reads: it has their schemas and no others, and has asked the source once
for each schema and once for each failure. -/
structure Records (keys : List (EntityKind × String)) (cache : SchemaCache) : Prop where
  find?_eq_some_iff : ∀ kind bundle schema, cache.find? kind bundle = some schema ↔
    (kind, bundle) ∈ keys ∧ source kind bundle = .ok schema
  sourceCalls_eq : cache.sourceCalls = (answered source keys).card + failures source keys

variable {source} {keys : List (EntityKind × String)} {cache : SchemaCache} {kind : EntityKind}
  {bundle : String}

theorem mem_answered_iff {key : EntityKind × String} :
    key ∈ answered source keys ↔ key ∈ keys ∧ succeeds source key = true := by
  simp [answered]

theorem succeeds_of_ok {schema : Schema} (h : source kind bundle = .ok schema) :
    succeeds source (kind, bundle) = true := by
  simp [succeeds, h, Except.isOk, Except.toBool]

theorem succeeds_of_error {fault : Fault} (h : source kind bundle = .error fault) :
    succeeds source (kind, bundle) = false := by
  simp [succeeds, h, Except.isOk, Except.toBool]

theorem answered_append_of_succeeds {key : EntityKind × String} (h : succeeds source key = true) :
    answered source (keys ++ [key]) = insert key (answered source keys) := by
  ext other
  simp only [mem_answered_iff, Finset.mem_insert, List.mem_append, List.mem_singleton]
  constructor
  · rintro ⟨hmem | rfl, hs⟩
    · exact Or.inr ⟨hmem, hs⟩
    · exact Or.inl rfl
  · rintro (rfl | ⟨hmem, hs⟩)
    · exact ⟨Or.inr rfl, h⟩
    · exact ⟨Or.inl hmem, hs⟩

theorem answered_append_of_fails {key : EntityKind × String} (h : succeeds source key = false) :
    answered source (keys ++ [key]) = answered source keys := by
  simp [answered, List.filter_append, h]

theorem failures_append (key : EntityKind × String) :
    failures source (keys ++ [key]) =
      failures source keys + if succeeds source key = true then 0 else 1 := by
  cases h : succeeds source key <;> simp [failures, h]

/-- A read that is not new, or fails, adds no schema to those that were read. -/
theorem mem_append_and_ok_iff
    (h : ∀ schema, source kind bundle = .ok schema → (kind, bundle) ∈ keys)
    {kind' : EntityKind} {bundle' : String} {schema : Schema} :
    (kind', bundle') ∈ keys ++ [(kind, bundle)] ∧ source kind' bundle' = .ok schema ↔
      (kind', bundle') ∈ keys ∧ source kind' bundle' = .ok schema := by
  rw [List.mem_append, List.mem_singleton]
  constructor
  · intro ⟨hmem, hok⟩
    cases hmem with
    | inl hold => exact ⟨hold, hok⟩
    | inr heq =>
      cases heq
      exact ⟨h schema hok, hok⟩
  · exact fun ⟨hold, hok⟩ => ⟨Or.inl hold, hok⟩

theorem find?_remember (schema : Schema) (asked : List (EntityKind × String))
    (kind' : EntityKind) (bundle' : String) :
    find? ⟨((kind, bundle), schema) :: cache.entries, asked⟩ kind' bundle' =
      if (kind', bundle') = (kind, bundle) then some schema else cache.find? kind' bundle' := by
  unfold find?
  rw [List.lookup_cons]
  by_cases h : (kind', bundle') = (kind, bundle)
  · rw [if_pos h, beq_iff_eq.2 h]
  · rw [if_neg h, beq_eq_false_iff_ne.2 h]

theorem records_empty : Records source [] empty where
  find?_eq_some_iff := by simp [find?, empty]
  sourceCalls_eq := rfl

namespace Records

/-- What the cache has was answered already, so that reading it again asks for nothing. -/
theorem hit (h : Records source keys cache) {schema : Schema}
    (hfind : cache.find? kind bundle = some schema) :
    Records source (keys ++ [(kind, bundle)]) cache := by
  obtain ⟨hmem, hok⟩ := (h.find?_eq_some_iff kind bundle schema).1 hfind
  have hs := succeeds_of_ok hok
  have hanswered : (kind, bundle) ∈ answered source keys := mem_answered_iff.2 ⟨hmem, hs⟩
  constructor
  case find?_eq_some_iff =>
    intro kind' bundle' schema'
    rw [h.find?_eq_some_iff, mem_append_and_ok_iff fun _ _ => hmem]
  case sourceCalls_eq =>
    rw [h.sourceCalls_eq, answered_append_of_succeeds hs, Finset.insert_eq_self.2 hanswered,
      failures_append, if_pos hs, Nat.add_zero]

theorem remember (h : Records source keys cache) (hfind : cache.find? kind bundle = none)
    {schema : Schema} (hok : source kind bundle = .ok schema) :
    Records source (keys ++ [(kind, bundle)])
      ⟨((kind, bundle), schema) :: cache.entries, (kind, bundle) :: cache.asked⟩ := by
  have hs := succeeds_of_ok hok
  have hnew : (kind, bundle) ∉ answered source keys := by
    intro hmem
    have hcached := (h.find?_eq_some_iff kind bundle schema).2 ⟨(mem_answered_iff.1 hmem).1, hok⟩
    rw [hfind] at hcached
    cases hcached
  constructor
  case find?_eq_some_iff =>
    intro kind' bundle' schema'
    rw [find?_remember, List.mem_append, List.mem_singleton]
    split
    · next heq =>
      obtain ⟨rfl, rfl⟩ := Prod.mk.inj heq
      rw [hok]
      simp
    · next hne =>
      rw [h.find?_eq_some_iff, or_iff_left hne]
  case sourceCalls_eq =>
    have hcalls := h.sourceCalls_eq
    rw [answered_append_of_succeeds hs, Finset.card_insert_of_notMem hnew, failures_append,
      if_pos hs]
    rw [sourceCalls] at hcalls ⊢
    rw [List.length_cons]
    omega

/-- A failure is counted and leaves the entries as they are. -/
theorem fail (h : Records source keys cache) {fault : Fault}
    (herror : source kind bundle = .error fault) :
    Records source (keys ++ [(kind, bundle)])
      ⟨cache.entries, (kind, bundle) :: cache.asked⟩ := by
  have hs := succeeds_of_error herror
  constructor
  case find?_eq_some_iff =>
    intro kind' bundle' schema'
    have hsame : find? ⟨cache.entries, (kind, bundle) :: cache.asked⟩ kind' bundle' =
      cache.find? kind' bundle' := rfl
    have hnone : ∀ schema, source kind bundle = .ok schema → (kind, bundle) ∈ keys := by
      intro schema hok
      rw [herror] at hok
      cases hok
    rw [hsame, h.find?_eq_some_iff, mem_append_and_ok_iff hnone]
  case sourceCalls_eq =>
    have hcalls := h.sourceCalls_eq
    rw [answered_append_of_fails hs, failures_append, if_neg (by simp [hs])]
    rw [sourceCalls] at hcalls ⊢
    rw [List.length_cons]
    omega

/-- One read is answered by the source or as the source would, and is on record then. -/
theorem read (h : Records source keys cache) (kind : EntityKind) (bundle : String) :
    ∃ cache', (SchemaCache.read source kind bundle).run cache = (source kind bundle, cache') ∧
      Records source (keys ++ [(kind, bundle)]) cache' := by
  change ∃ cache', SchemaCache.read source kind bundle cache = _ ∧ _
  cases hfind : cache.find? kind bundle with
  | some schema =>
    have hok := ((h.find?_eq_some_iff kind bundle schema).1 hfind).2
    exact ⟨cache, by rw [read_of_find?_eq_some hfind, hok], h.hit hfind⟩
  | none =>
    rw [read_of_find?_eq_none hfind]
    cases hsource : source kind bundle with
    | ok schema => exact ⟨_, rfl, h.remember hfind hsource⟩
    | error fault => exact ⟨_, rfl, h.fail hsource⟩

theorem readAll (h : Records source keys cache) (later : List (EntityKind × String)) :
    ∃ cache', SchemaCache.readAll source later cache =
        (later.map fun key => source key.1 key.2, cache') ∧
      Records source (keys ++ later) cache' := by
  induction later generalizing keys cache with
  | nil => exact ⟨cache, rfl, by rwa [List.append_nil]⟩
  | cons key later ih =>
    obtain ⟨kind, bundle⟩ := key
    obtain ⟨next, hread, hnext⟩ := h.read kind bundle
    obtain ⟨last, hlast, hrecords⟩ := ih hnext
    rw [List.append_assoc] at hrecords
    exact ⟨last, by simp only [SchemaCache.readAll, hread, hlast, List.map_cons], hrecords⟩

end Records

variable (source) in
/-- Reads that start with an empty cache are answered one by one as the source answers them.
The source is asked once for each key that it has a schema for and once for each read that it
fails, and the cache has the schemas that were read and nothing of the failures. -/
theorem readAll_asks_once (keys : List (EntityKind × String)) :
    (readAll source keys empty).1 = keys.map (fun key => source key.1 key.2) ∧
    (readAll source keys empty).2.sourceCalls =
      (answered source keys).card + failures source keys ∧
    ∀ kind bundle schema, (readAll source keys empty).2.find? kind bundle = some schema ↔
      (kind, bundle) ∈ keys ∧ source kind bundle = .ok schema := by
  obtain ⟨cache, hrun, hrecords⟩ := (records_empty : Records source [] empty).readAll keys
  rw [hrun]
  exact ⟨rfl, hrecords.sourceCalls_eq, hrecords.find?_eq_some_iff⟩

/-- One bundle name of two kinds is asked for twice, and a failing bundle at each of its reads. -/
example :
    (readAll (fun _ bundle => if bundle = "lost" then .error (.storage "lost") else .ok [])
      [(.node, "page"), (.node, "lost"), (.taxonomyTerm, "page"), (.node, "page"),
        (.node, "lost")] empty).2.sourceCalls = 4 := by
  decide

end ContentProjection.SchemaCache
