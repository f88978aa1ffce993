import ContentProjection.Proofs.Plan
import ContentProjection.Proofs.SortPermutation
import ContentProjection.Store.Selection

/-!
# Storage that answers, and storage behind a cache

Storage whose lookups cannot fail is storage in the identity monad. Put among
storages that may fail, it makes every projection and every page succeed. A
cache is faithful to its source when all its entries are what the source
answers; behind a faithful cache every call answers as without one and leaves
the cache faithful.
-/
namespace ContentProjection

namespace Storage

/-- The same answers, none of them a failure. -/
def answering (s : Storage Id) : Storage (Except Fault) where
  load kind id := .ok (s.load kind id)
  loadByUuid kind uuid := .ok (s.loadByUuid kind uuid)
  loadByField kind field value := .ok (s.loadByField kind field value)
  findTermByName name := .ok (s.findTermByName name)
  parentsOf id := .ok (s.parentsOf id)
  bundleExists kind bundle := .ok (s.bundleExists kind bundle)
  count query := .ok (s.count query)
  fetchIds query := .ok (s.fetchIds query)
  fieldDefinitions kind bundle := .ok (s.fieldDefinitions kind bundle)
  sourceForAlias name := .ok (s.sourceForAlias name)
  aliasForSource source := .ok (s.aliasForSource source)
  fileUrl id := .ok (s.fileUrl id)
  styleUrl id style := .ok (s.styleUrl id style)

end Storage

/-- A computation that succeeds with what another one returns. -/
def Simulation.succeeding : Simulation Id (Except Fault) where
  Rel x y := y = .ok x
  pure _ := rfl
  bind hx hf := by rw [hx]; exact hf _

theorem Storage.answering_simulated (s : Storage Id) :
    Storage.Simulated Simulation.succeeding s s.answering := by
  constructor <;> intros <;> rfl

namespace SchemaCache

def Faithful (cache : SchemaCache) (source : EntityKind → String → Except Fault Schema) : Prop :=
  ∀ kind bundle schema, cache.find? kind bundle = some schema → source kind bundle = .ok schema

variable {source : EntityKind → String → Except Fault Schema}

theorem faithful_empty : empty.Faithful source := by
  intro kind bundle schema h
  simp [find?, empty] at h

/-- Remembering what the source answered keeps a cache faithful, whatever was logged. -/
theorem Faithful.remember {cache : SchemaCache} (h : cache.Faithful source) {kind : EntityKind}
    {bundle : String} {schema : Schema} (hs : source kind bundle = .ok schema)
    (asked : List (EntityKind × String)) :
    Faithful ⟨((kind, bundle), schema) :: cache.entries, asked⟩ source := by
  intro kind' bundle' schema' h'
  by_cases hk : (kind', bundle') = (kind, bundle)
  · simp_all [find?]
  · have hb : ((kind', bundle') == (kind, bundle)) = false := by simpa using hk
    rw [find?, List.lookup_cons, hb] at h'
    exact h kind' bundle' schema' h'

theorem read_eq {cache : SchemaCache} (h : cache.Faithful source) (kind : EntityKind)
    (bundle : String) :
    ∃ cache', read source kind bundle cache = (source kind bundle, cache') ∧
      cache'.Faithful source := by
  cases hf : cache.find? kind bundle with
  | some schema => exact ⟨cache, by rw [read_of_find?_eq_some hf, h kind bundle schema hf], h⟩
  | none =>
    rw [read_of_find?_eq_none hf]
    cases hs : source kind bundle with
    | error fault => exact ⟨_, rfl, h⟩
    | ok schema => exact ⟨_, rfl, h.remember hs _⟩

end SchemaCache

theorem Cached.run_bind {α β : Type} (x : Cached α) (f : α → Cached β) (cache : SchemaCache) :
    (x >>= f).run cache = match x.run cache with
      | (.ok a, cache') => (f a).run cache'
      | (.error fault, cache') => (.error fault, cache') := by
  change (match ExceptT.run x cache with
    | (r, cache') => ExceptT.bindCont (m := StateM SchemaCache) f r cache') = _
  rcases ExceptT.run x cache with ⟨_ | _, cache'⟩ <;> rfl

/-- A computation with the outcome of another one, which keeps a cache faithful. -/
def Simulation.caching (source : EntityKind → String → Except Fault Schema) :
    Simulation (Except Fault) Cached where
  Rel x y := ∀ cache : SchemaCache, cache.Faithful source →
    ∃ cache', y.run cache = (x, cache') ∧ cache'.Faithful source
  pure _ cache h := ⟨cache, rfl, h⟩
  bind {α β x y f g} hx hf cache h := by
    obtain ⟨cache', hy, h'⟩ := hx cache h
    rw [Cached.run_bind, hy]
    cases x with
    | error fault => exact ⟨cache', rfl, h'⟩
    | ok a => exact hf a cache' h'

namespace Storage

variable (storage : Storage (Except Fault))

theorem cached_simulated :
    Simulated (Simulation.caching storage.fieldDefinitions) storage storage.cached := by
  constructor
  case fieldDefinitions => exact fun kind bundle cache h => SchemaCache.read_eq h kind bundle
  all_goals intros; exact fun cache h => ⟨cache, rfl, h⟩

theorem cached_fetchIds (query : Query) :
    (Simulation.caching storage.fieldDefinitions).Rel (storage.fetchIds query)
      (storage.cached.fetchIds query) :=
  fun cache h => ⟨cache, rfl, h⟩

end Storage

/-- A computation behind a cache that succeeds with what another one returns. -/
def Simulation.remembering (source : EntityKind → String → Except Fault Schema) :
    Simulation Id Cached where
  Rel x y := ∀ cache : SchemaCache, cache.Faithful source →
    ∃ cache', y.run cache = (.ok x.run, cache') ∧ cache'.Faithful source
  pure _ cache h := ⟨cache, rfl, h⟩
  bind {α β x y f g} hx hf cache h := by
    obtain ⟨cache', hy, h'⟩ := hx cache h
    rw [Cached.run_bind, hy]
    exact hf x.run cache' h'

theorem Storage.remembering_simulated (s : Storage Id) :
    Simulated (Simulation.remembering s.answering.fieldDefinitions) s s.answering.cached := by
  constructor
  case fieldDefinitions => exact fun kind bundle cache h => SchemaCache.read_eq h kind bundle
  all_goals intros; exact fun cache h => ⟨cache, rfl, h⟩

namespace Service

theorem step_eq_answer (s : Service (Except Fault)) {cache : SchemaCache}
    (h : cache.Faithful s.storage.fieldDefinitions) (call : Call) :
    ∃ cache', s.step cache call = (s.answer call, cache') ∧
      cache'.Faithful s.storage.fieldDefinitions := by
  have hthrow : (Simulation.caching s.storage.fieldDefinitions).Throws := by
    intro α fault cache h
    exact ⟨cache, rfl, h⟩
  exact Simulation.answer hthrow s.storage.cached_simulated s.offset s.policy
    s.storage.cached_fetchIds call cache h

end Service

namespace Store

/-- The entities as sorting puts them, or as they were if sorting stops. -/
def arranged (keys : List SortKey) (entities : List Entity) : List Entity :=
  (sorted? keys entities).getD entities

theorem arranged_perm (keys : List SortKey) (entities : List Entity) :
    (arranged keys entities).Perm entities := by
  unfold arranged
  cases hsorted : sorted? keys entities with
  | none => exact List.Perm.refl _
  | some sorted => exact StableSort.sort?_perm hsorted

theorem arranged_of_sorted? {keys : List SortKey} {entities sorted : List Entity}
    (h : sorted? keys entities = some sorted) : arranged keys entities = sorted := by
  rw [arranged, h, Option.getD_some]

/-- Sorting the matches of a query does not stop. -/
def Sorts (s : Store) (q : Query) : Prop := (sorted? q.sorts (s.selected q)).isSome

instance (s : Store) (q : Query) : Decidable (s.Sorts q) := inferInstanceAs (Decidable (_ = true))

def fetchIds (s : Store) (q : Query) : List EntityId :=
  window q.range ((arranged q.sorts (s.selected q)).map Entity.id)

/-- The store as storage that only answers. -/
def answers (s : Store) : Storage Id where
  load kind id := s.get? kind id
  loadByUuid kind uuid := s.getByUuid? kind uuid
  loadByField kind field value := s.entitiesHolding kind field value
  findTermByName name := s.termNamed? name
  parentsOf id := s.parentsOf id
  bundleExists kind bundle := s.bundleExists kind bundle
  count query := s.count query
  fetchIds query := s.fetchIds query
  fieldDefinitions kind bundle := s.schemaOf kind bundle
  sourceForAlias name := s.sourceOf? name
  aliasForSource source := s.aliasOf? source
  fileUrl id := s.fileUrl? id
  styleUrl id style := s.styleUrl? id style

theorem fetchIds?_of_sorts {s : Store} {q : Query} (h : s.Sorts q) :
    s.fetchIds? q = some (s.fetchIds q) := by
  obtain ⟨sorted, hsorted⟩ := Option.isSome_iff_exists.1 h
  rw [fetchIds?, fetchIds, arranged_of_sorted? hsorted, hsorted, Option.map_some]

theorem storage_fetchIds (s : Store) (q : Query) :
    s.storage.fetchIds q = (s.fetchIds? q).elim (.error .unsortable) .ok :=
  rfl

theorem storage_fetchIds_of_sorts {s : Store} {q : Query} (h : s.Sorts q) :
    s.storage.fetchIds q = .ok (s.fetchIds q) := by
  rw [storage_fetchIds, fetchIds?_of_sorts h, Option.elim_some]

theorem storage_fetchIds_of_not_sorts {s : Store} {q : Query} (h : ¬ s.Sorts q) :
    s.storage.fetchIds q = .error .unsortable := by
  have hnone : sorted? q.sorts (s.selected q) = none := Option.not_isSome_iff_eq_none.1 h
  rw [storage_fetchIds, fetchIds?, hnone, Option.map_none, Option.elim_none]

theorem sorts_of_storage_fetchIds {s : Store} {q : Query} {ids : List EntityId}
    (h : s.storage.fetchIds q = .ok ids) : s.Sorts q := by
  by_contra hs
  rw [storage_fetchIds_of_not_sorts hs] at h
  cases h

theorem storage_simulated (s : Store) :
    Storage.Simulated Simulation.succeeding s.answers s.storage := by
  constructor <;> intros <;> rfl

/-- Looking up what is stored never fails. -/
theorem storage_findEntity (s : Store) (kind : EntityKind) (token : String) :
    s.storage.findEntity kind token = .ok (s.answers.findEntity kind token).run :=
  Simulation.findEntity s.storage_simulated kind token

theorem storage_findUuids (s : Store) (kind : EntityKind) (tokens : List String) :
    s.storage.findUuids kind tokens = .ok (s.answers.findUuids kind tokens).run :=
  Simulation.findUuids s.storage_simulated kind tokens

end Store

end ContentProjection
