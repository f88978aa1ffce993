import ContentProjection.Service.Session

/-!
# Runs over related storages

The same service runs over storage that only answers, over storage that may
fail, and behind a cache of schemas. A simulation relates computations of two
monads and is kept by returning and by sequencing. Storages whose lookups are
related then make projections, pages and answers that are related, since the
code above storage only returns and sequences. Facts about one kind of run are
carried to another through it. Listing the ids of a query is kept apart from the
other lookups: it is the one that storage without failures can refuse.
-/
namespace ContentProjection

structure Simulation (m n : Type → Type) [Monad m] [Monad n] where
  Rel : {α : Type} → m α → n α → Prop
  pure : ∀ {α : Type} (a : α), Rel (Pure.pure a : m α) (Pure.pure a : n α)
  bind : ∀ {α β : Type} {x : m α} {y : n α} {f : α → m β} {g : α → n β},
    Rel x y → (∀ a, Rel (f a) (g a)) → Rel (x >>= f) (y >>= g)

/-- Each lookup of one storage, but for the ids of a query, is related to the same lookup of
the other. -/
structure Storage.Simulated {m n : Type → Type} [Monad m] [Monad n] (S : Simulation m n)
    (s : Storage m) (t : Storage n) : Prop where
  load : ∀ kind id, S.Rel (s.load kind id) (t.load kind id)
  loadByUuid : ∀ kind uuid, S.Rel (s.loadByUuid kind uuid) (t.loadByUuid kind uuid)
  loadByField : ∀ kind field value,
    S.Rel (s.loadByField kind field value) (t.loadByField kind field value)
  findTermByName : ∀ name, S.Rel (s.findTermByName name) (t.findTermByName name)
  parentsOf : ∀ id, S.Rel (s.parentsOf id) (t.parentsOf id)
  bundleExists : ∀ kind bundle, S.Rel (s.bundleExists kind bundle) (t.bundleExists kind bundle)
  count : ∀ query, S.Rel (s.count query) (t.count query)
  fieldDefinitions : ∀ kind bundle,
    S.Rel (s.fieldDefinitions kind bundle) (t.fieldDefinitions kind bundle)
  sourceForAlias : ∀ name, S.Rel (s.sourceForAlias name) (t.sourceForAlias name)
  aliasForSource : ∀ source, S.Rel (s.aliasForSource source) (t.aliasForSource source)
  fileUrl : ∀ id, S.Rel (s.fileUrl id) (t.fileUrl id)
  styleUrl : ∀ id style, S.Rel (s.styleUrl id style) (t.styleUrl id style)

namespace Simulation

variable {m n : Type → Type} [Monad m] [Monad n] (S : Simulation m n)

theorem bindPure {α β : Type} {x : m α} {y : n α} (h : S.Rel x y) (f : α → β) :
    S.Rel (x >>= fun a => Pure.pure (f a)) (y >>= fun a => Pure.pure (f a)) :=
  S.bind h fun a => S.pure (f a)

section Lists

variable [LawfulMonad m] [LawfulMonad n] {α β : Type}

theorem filterMapM {f : α → m (Option β)} {g : α → n (Option β)} (as : List α)
    (h : ∀ a, S.Rel (f a) (g a)) : S.Rel (as.filterMapM f) (as.filterMapM g) := by
  induction as with
  | nil => exact S.pure []
  | cons a as ih =>
    rw [List.filterMapM_cons, List.filterMapM_cons]
    refine S.bind (h a) fun b => ?_
    cases b with
    | none => exact ih
    | some b => exact S.bindPure ih fun bs => b :: bs

theorem mapM {f : α → m β} {g : α → n β} (as : List α) (h : ∀ a, S.Rel (f a) (g a)) :
    S.Rel (as.mapM f) (as.mapM g) := by
  induction as with
  | nil => exact S.pure []
  | cons a as ih =>
    rw [List.mapM_cons, List.mapM_cons]
    exact S.bind (h a) fun b => S.bindPure ih fun bs => b :: bs

theorem perFoundItem (multiple : Bool) (items : List Item) {f : Item → m (Option Json)}
    {g : Item → n (Option Json)} (h : ∀ item, S.Rel (f item) (g item)) :
    S.Rel (Projector.perFoundItem multiple items f) (Projector.perFoundItem multiple items g) := by
  unfold Projector.perFoundItem
  cases multiple with
  | true => exact S.bindPure (S.filterMapM items h) Json.arr
  | false =>
    cases items with
    | nil => exact S.pure Json.null
    | cons item items => exact S.bindPure (h item) fun found => found.getD Json.null

end Lists

section Projection

variable {S} {s : Storage m} {t : Storage n} (h : Storage.Simulated S s t)
  (offset : Calendar.Offset)
include h

theorem fileOf (item : Item) :
    S.Rel (Projector.fileOf ⟨s, offset⟩ item) (Projector.fileOf ⟨t, offset⟩ item) := by
  unfold Projector.fileOf
  cases item.targetEntityId? with
  | none => exact S.pure none
  | some id => exact h.fileUrl id

theorem entityOf {expand : Entity → m Json} {expand' : Entity → n Json}
    (he : ∀ e, S.Rel (expand e) (expand' e)) (kind : EntityKind) (item : Item) :
    S.Rel (Projector.entityOf ⟨s, offset⟩ expand kind item)
      (Projector.entityOf ⟨t, offset⟩ expand' kind item) := by
  unfold Projector.entityOf
  cases item.targetEntityId? with
  | none => exact S.pure none
  | some id =>
    refine S.bind (h.load kind id) fun found => ?_
    cases found with
    | none => exact S.pure none
    | some e => exact S.bindPure (he e) some

theorem header (e : Entity) :
    S.Rel (Projector.header ⟨s, offset⟩ e) (Projector.header ⟨t, offset⟩ e) := by
  unfold Projector.header
  cases e.kind with
  | node => exact S.pure []
  | taxonomyTerm =>
    refine S.bindPure (S.bind (h.parentsOf e.id) fun parents => ?_) _
    cases parents with
    | nil => exact S.pure ""
    | cons parent parents => exact S.bindPure (h.load .taxonomyTerm parent) _

theorem findEntity (kind : EntityKind) (token : String) :
    S.Rel (s.findEntity kind token) (t.findEntity kind token) := by
  unfold Storage.findEntity
  split
  · exact S.pure none
  · cases Token.ofString token with
    | uuid uuid => exact h.loadByUuid kind uuid
    | publicAlias name =>
      refine S.bind (h.sourceForAlias _) fun path => ?_
      cases path.bind (Token.idOfPath? kind) with
      | none => exact S.pure none
      | some id => exact h.load kind id

variable [LawfulMonad m] [LawfulMonad n]

theorem findUuids (kind : EntityKind) (tokens : List String) :
    S.Rel (s.findUuids kind tokens) (t.findUuids kind tokens) := by
  refine S.filterMapM tokens fun token => ?_
  split
  · exact S.pure _
  · exact S.bindPure (findEntity h kind token) _

theorem loadMany (kind : EntityKind) (ids : List EntityId) :
    S.Rel (s.loadMany kind ids) (t.loadMany kind ids) :=
  S.filterMapM ids fun id => h.load kind id

theorem imageOf (styles : List String) (item : Item) :
    S.Rel (Projector.imageOf ⟨s, offset⟩ styles item)
      (Projector.imageOf ⟨t, offset⟩ styles item) := by
  unfold Projector.imageOf
  cases item.targetEntityId? with
  | none => exact S.pure none
  | some id =>
    refine S.bind (h.fileUrl id) fun full => ?_
    cases full with
    | none => exact S.pure none
    | some full =>
      refine S.bindPure (S.filterMapM styles fun style => ?_) _
      exact S.bindPure (h.styleUrl id style) _

section Expansion

variable {expand : Entity → m Json} {expand' : Entity → n Json}
  (he : ∀ e, S.Rel (expand e) (expand' e))
include he

theorem referencesOf (target : ReferenceTarget) (multiple : Bool) (items : List Item) :
    S.Rel (Projector.referencesOf ⟨s, offset⟩ expand target multiple items)
      (Projector.referencesOf ⟨t, offset⟩ expand' target multiple items) := by
  cases target with
  | node => exact S.perFoundItem multiple items (entityOf h offset he .node)
  | taxonomyTerm => exact S.perFoundItem multiple items (entityOf h offset he .taxonomyTerm)
  | nodeType => exact S.pure _
  | other name => exact S.pure _

theorem render (ctx : Context) (e : Entity) (d : FieldDefinition) (r : Rendering) :
    S.Rel (Projector.render ⟨s, offset⟩ ctx expand e d r)
      (Projector.render ⟨t, offset⟩ ctx expand' e d r) := by
  cases r with
  | plain | integer | float | boolean | date | link => exact S.pure _
  | pathAlias => exact S.bindPure (h.aliasForSource _) _
  | file => exact S.perFoundItem _ _ fun item => S.bindPure (fileOf h offset item) _
  | image maxResolution => exact S.perFoundItem _ _ (imageOf h offset _)
  | reference target => exact referencesOf h offset he target _ _

theorem field? (ctx : Context) (e : Entity) (d : FieldDefinition) :
    S.Rel (Projector.field? ⟨s, offset⟩ ctx expand e d)
      (Projector.field? ⟨t, offset⟩ ctx expand' e d) := by
  unfold Projector.field?
  split
  · exact S.pure none
  · cases Rendering.ofType? d.type with
    | none => exact S.pure none
    | some r =>
      dsimp only
      split
      · exact S.pure _
      · exact S.bindPure (render h offset he ctx e d r) some

theorem object (ctx : Context) (e : Entity) :
    S.Rel (Projector.object ⟨s, offset⟩ ctx expand e)
      (Projector.object ⟨t, offset⟩ ctx expand' e) := by
  refine S.bind (header h offset e) fun _ => ?_
  refine S.bind (h.fieldDefinitions e.kind e.bundle) fun schema => ?_
  refine S.bindPure (S.filterMapM schema fun d => ?_) _
  exact S.bindPure (field? h offset he ctx e d) _

end Expansion

theorem within (ctx : Context) (levels : Nat) (e : Entity) :
    S.Rel (Projector.within ⟨s, offset⟩ ctx levels e)
      (Projector.within ⟨t, offset⟩ ctx levels e) := by
  induction levels generalizing e with
  | zero => exact object h offset (fun target => S.pure (Projection.stub target)) ctx e
  | succ levels ih => exact object h offset (fun target => S.bindPure (ih target) Json.obj) ctx e

theorem project (ctx : Context) (e : Entity) :
    S.Rel (Projector.project ⟨s, offset⟩ ctx e) (Projector.project ⟨t, offset⟩ ctx e) :=
  within h offset ctx _ e

theorem result (ctx : Context) (form : ResultForm) (e : Entity) :
    S.Rel (Projector.result ⟨s, offset⟩ ctx form e)
      (Projector.result ⟨t, offset⟩ ctx form e) := by
  unfold Projector.result
  split
  · exact S.bindPure (project h offset ctx e) Json.obj
  · exact S.pure _

theorem pageOf {listing : Listing} (hf : S.Rel (s.fetchIds (listing.query.withSlice listing.range))
    (t.fetchIds (listing.query.withSlice listing.range))) (ctx : Context) (form : ResultForm) :
    S.Rel (Projector.pageOf ⟨s, offset⟩ listing ctx form)
      (Projector.pageOf ⟨t, offset⟩ listing ctx form) := by
  refine S.bind (h.count _) fun _ => ?_
  refine S.bind hf fun ids => ?_
  refine S.bind (loadMany h listing.kind ids) fun entities => ?_
  exact S.bindPure (S.mapM entities (result h offset ctx form)) _

end Projection

end Simulation

end ContentProjection
