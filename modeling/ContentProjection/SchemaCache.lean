import ContentProjection.Storage

/-!
# Schemas that are read once

Schemas do not change while the program runs, so each is asked for once. A
failed lookup is not remembered and will be tried again. What a computation
cached stays cached when the computation fails later on. A read may ask a source
in any monad; the source of a running service logs what it is asked for, and its
log is kept beside the entries.
-/
namespace ContentProjection

structure SchemaCache where
  entries : List ((EntityKind × String) × Schema)
  /-- The log of the source, the latest request first. -/
  asked : List (EntityKind × String)
  deriving DecidableEq, Repr

/-- A computation over the cache that may fail. -/
abbrev Cached := ExceptT Fault (StateM SchemaCache)

namespace SchemaCache

def empty : SchemaCache := ⟨[], []⟩

def sourceCalls (cache : SchemaCache) : Nat := cache.asked.length

def find? (cache : SchemaCache) (kind : EntityKind) (bundle : String) : Option Schema :=
  cache.entries.lookup (kind, bundle)

/-- The source with a log of what it is asked for. -/
def logged (source : EntityKind → String → Except Fault Schema) (kind : EntityKind)
    (bundle : String) : StateM (List (EntityKind × String)) (Except Fault Schema) := do
  modify ((kind, bundle) :: ·)
  return source kind bundle

/-- The schema of a bundle, from the entries or else from the source, and the entries then. -/
def readFrom {m : Type → Type} [Monad m] (source : EntityKind → String → m (Except Fault Schema))
    (kind : EntityKind) (bundle : String) (entries : List ((EntityKind × String) × Schema)) :
    m (Except Fault Schema × List ((EntityKind × String) × Schema)) :=
  match entries.lookup (kind, bundle) with
  | some schema => return (.ok schema, entries)
  | none => do
    match ← source kind bundle with
    | .ok schema => return (.ok schema, ((kind, bundle), schema) :: entries)
    | .error fault => return (.error fault, entries)

def read (source : EntityKind → String → Except Fault Schema) (kind : EntityKind)
    (bundle : String) : Cached Schema := fun cache =>
  let ((answer, entries), asked) :=
    (readFrom (logged source) kind bundle cache.entries).run cache.asked
  (answer, ⟨entries, asked⟩)

section Reads

variable {source : EntityKind → String → Except Fault Schema} {cache : SchemaCache}
  {kind : EntityKind} {bundle : String}

/-- What the cache has is not asked for. -/
theorem read_of_find?_eq_some {schema : Schema} (h : cache.find? kind bundle = some schema) :
    read source kind bundle cache = (.ok schema, cache) := by
  unfold find? at h
  simp only [read, readFrom, h]
  rfl

theorem read_of_find?_eq_none (h : cache.find? kind bundle = none) :
    read source kind bundle cache = match source kind bundle with
      | .ok schema => (.ok schema,
          ⟨((kind, bundle), schema) :: cache.entries, (kind, bundle) :: cache.asked⟩)
      | .error fault => (.error fault, ⟨cache.entries, (kind, bundle) :: cache.asked⟩) := by
  unfold find? at h
  simp only [read, readFrom, logged, h]
  cases source kind bundle <;> rfl

end Reads

/-- An answer that leaves the cache alone. -/
def lift {α : Type} (answer : Except Fault α) : Cached α := fun cache => (answer, cache)

end SchemaCache

/-- The storage with schemas read through the cache. -/
def Storage.cached (storage : Storage (Except Fault)) : Storage Cached where
  load kind id := SchemaCache.lift (storage.load kind id)
  loadByUuid kind uuid := SchemaCache.lift (storage.loadByUuid kind uuid)
  loadByField kind field value := SchemaCache.lift (storage.loadByField kind field value)
  findTermByName name := SchemaCache.lift (storage.findTermByName name)
  parentsOf id := SchemaCache.lift (storage.parentsOf id)
  bundleExists kind bundle := SchemaCache.lift (storage.bundleExists kind bundle)
  count query := SchemaCache.lift (storage.count query)
  fetchIds query := SchemaCache.lift (storage.fetchIds query)
  fieldDefinitions kind bundle := SchemaCache.read storage.fieldDefinitions kind bundle
  sourceForAlias name := SchemaCache.lift (storage.sourceForAlias name)
  aliasForSource source := SchemaCache.lift (storage.aliasForSource source)
  fileUrl id := SchemaCache.lift (storage.fileUrl id)
  styleUrl id style := SchemaCache.lift (storage.styleUrl id style)

end ContentProjection
