import ContentProjection.Proofs.DumpOrder
import ContentProjection.Proofs.IdeaGallery
import ContentProjection.Proofs.ListedLookups
import ContentProjection.Proofs.StorageFailures

/-!
# What is refused

A call is refused because a bundle does not exist, because it is not permitted, or because
nothing is where the call looks for it. These checks come first and in an order of their own:
a listing asks for existence before permission, a lookup asks for permission before anything
else, even before storage is asked at all. Whatever passes them is answered, since showing
what is there cannot fail.
-/
namespace ContentProjection

theorem error_eq_error_iff {ε α : Type} {e e' : ε} :
    (Except.error e : Except ε α) = .error e' ↔ e' = e := by
  rw [Except.error.injEq, eq_comm]

/-- What comes after something that succeeds may fail, and what comes before something that
succeeds. -/
theorem bind_eq_error_iff_right {ε α β : Type} {x : Except ε α} {f : α → Except ε β} {e : ε}
    {a : α} (hx : x = .ok a) : x >>= f = .error e ↔ f a = .error e := by
  rw [hx]
  rfl

theorem bind_eq_error_iff_left {ε α β : Type} {x : Except ε α} {f : α → Except ε β} {e : ε}
    (hf : ∀ a, ∃ b, f a = .ok b) : x >>= f = .error e ↔ x = .error e := by
  cases x with
  | error e' => rw [error_bind, error_eq_error_iff, error_eq_error_iff]
  | ok a =>
    obtain ⟨b, hb⟩ := hf a
    rw [bind_eq_error_iff_right rfl, hb]
    exact iff_of_false nofun nofun

namespace Service

variable {fault : Fault}

theorem found_eq_error_iff {α : Type} {a? : Option α} :
    found (m := Except Fault) a? = .error fault ↔ a? = none ∧ fault = .notFound := by
  cases a? with
  | none => exact error_eq_error_iff.trans (and_iff_right rfl).symm
  | some a => exact iff_of_false nofun fun h => nomatch h.1

theorem demand_bind_eq_error_iff {α : Type} {condition : Bool} {refusal : Fault}
    {next : Unit → Except Fault α} :
    demand condition refusal >>= next = .error fault ↔
      condition = false ∧ fault = refusal ∨ condition = true ∧ next () = .error fault := by
  cases condition with
  | false =>
    refine error_eq_error_iff.trans ⟨fun h => Or.inl ⟨rfl, h⟩, ?_⟩
    rintro (⟨-, h⟩ | ⟨h, -⟩)
    · exact h
    · cases h
  | true =>
    refine ⟨fun h => Or.inr ⟨rfl, h⟩, ?_⟩
    rintro (⟨h, -⟩ | ⟨-, h⟩)
    · cases h
    · exact h

end Service

namespace Store

/-- Why a listing of a bundle is refused. -/
inductive RefusesListing (s : Store) (policy : Policy) (kind : EntityKind) (bundle : String) :
    Fault → Prop
  | unknown (h : s.bundleExists kind bundle = false) : RefusesListing s policy kind bundle .notFound
  | forbidden (hexists : s.bundleExists kind bundle = true)
      (h : policy.permits kind bundle = false) : RefusesListing s policy kind bundle .forbidden

/-- Why a lookup in a bundle is refused. -/
inductive RefusesLookup (s : Store) (policy : Policy) (kind : EntityKind)
    (bundle token : String) : Fault → Prop
  | forbidden (h : policy.permits kind bundle = false) :
      RefusesLookup s policy kind bundle token .forbidden
  | missing (hpermits : policy.permits kind bundle = true)
      (h : ∀ e, s.Finds kind token e → e.bundle ≠ bundle) :
      RefusesLookup s policy kind bundle token .notFound

/-- Why a call is refused. -/
def Refuses (s : Store) (policy : Policy) : Call → Fault → Prop
  | .listContent _ contentType _, fault => s.RefusesListing policy .node contentType fault
  | .getContent contentType token _, fault => s.RefusesLookup policy .node contentType token fault
  | .listTerms vocabulary _, fault => s.RefusesListing policy .taxonomyTerm vocabulary fault
  | .getTerm vocabulary token _, fault =>
    s.RefusesLookup policy .taxonomyTerm vocabulary token fault
  | .termContent _ token _, fault => (∀ e, ¬ s.Finds .taxonomyTerm token e) ∧ fault = .notFound
  | .contributorContent token _, fault => (∀ e, ¬ s.Finds .node token e) ∧ fault = .notFound
  | .productContent sku _, fault | .productContentCount sku _, fault =>
    (∀ n ∈ s.nodes.entities, ¬ n.Stores "field_sku" sku) ∧ fault = .notFound
  | .ideas _ _, _ => False

section Plans

variable (s : Store) (offset : Calendar.Offset) (policy : Policy) {fault : Fault}

theorem holds_iff_stores {e : Entity} {field value : String} :
    holds e field value = true ↔ e.Stores field value := by
  simp [holds, Entity.Stores]

/-- A listing asks for existence, then for permission, and then does not fail. -/
theorem checks_eq_error_iff {kind : EntityKind} {bundle : String} {rest : Except Fault Plan}
    (hrest : ∃ p, rest = .ok p) :
    (do
      Service.demand (← s.storage.bundleExists kind bundle) .notFound
      Service.demand (policy.permits kind bundle) .forbidden
      rest) = .error fault ↔ s.RefusesListing policy kind bundle fault := by
  have hlooked : s.storage.bundleExists kind bundle = .ok (s.bundleExists kind bundle) := rfl
  obtain ⟨p, hp⟩ := hrest
  rw [bind_eq_error_iff_right hlooked, Service.demand_bind_eq_error_iff,
    Service.demand_bind_eq_error_iff, hp]
  constructor
  · rintro (⟨hunknown, rfl⟩ | ⟨hexists, ⟨hforbidden, rfl⟩ | ⟨-, hfails⟩⟩)
    · exact .unknown hunknown
    · exact .forbidden hexists hforbidden
    · cases hfails
  · rintro (hunknown | ⟨hexists, hforbidden⟩)
    · exact Or.inl ⟨hunknown, rfl⟩
    · exact Or.inr ⟨hexists, Or.inl ⟨hforbidden, rfl⟩⟩

/-- A call that begins with an entity fails where nothing is found, if the rest does not. -/
theorem findEntity_bind_eq_error_iff {kind : EntityKind} {token : String}
    {plan : Entity → Plan} :
    (do return plan (← Service.found (← s.storage.findEntity kind token))) = .error fault ↔
      (∀ e, ¬ s.Finds kind token e) ∧ fault = .notFound := by
  refine (bind_eq_error_iff_right (s.storage_findEntity kind token)).trans ?_
  refine (bind_eq_error_iff_left fun _ => ⟨_, rfl⟩).trans ?_
  rw [Service.found_eq_error_iff, Option.eq_none_iff_forall_ne_some]
  rfl

theorem lookup_eq_error_iff {kind : EntityKind} {bundle token : String} :
    (s.service offset policy).lookup kind bundle token = .error fault ↔
      (∀ e, s.Finds kind token e → e.bundle ≠ bundle) ∧ fault = .notFound := by
  refine (bind_eq_error_iff_right (s.storage_findEntity kind token)).trans ?_
  rw [Service.found_eq_error_iff, Option.filter_eq_none_iff]
  simp [Finds]

/-- A lookup asks for permission before it looks at all. -/
theorem plan_lookup_eq_error_iff (kind : EntityKind) (bundle token : String)
    (options : LookupOptions) :
    (s.service offset policy).plan (.lookup kind bundle token options) = .error fault ↔
      s.RefusesLookup policy kind bundle token fault := by
  have hrest : ((s.service offset policy).lookup kind bundle token >>= fun e =>
      pure (Plan.entity options e)) = .error fault ↔ _ :=
    (bind_eq_error_iff_left fun _ => ⟨_, rfl⟩).trans (s.lookup_eq_error_iff offset policy)
  rw [Service.plan_lookup, Service.demand_bind_eq_error_iff, hrest]
  constructor
  · rintro (⟨hforbidden, rfl⟩ | ⟨hpermits, hmissing, rfl⟩)
    · exact .forbidden hforbidden
    · exact .missing hpermits hmissing
  · rintro (hforbidden | ⟨hpermits, hmissing⟩)
    · exact Or.inl ⟨hforbidden, rfl⟩
    · exact Or.inr ⟨hpermits, hmissing, rfl⟩

theorem skuListing_eq_error_iff {sku : String} {options : ListOptions} :
    (s.service offset policy).skuListing sku options = .error fault ↔
      (∀ n ∈ s.nodes.entities, ¬ n.Stores "field_sku" sku) ∧ fault = .notFound := by
  have hload : s.storage.loadByField .node "field_sku" sku =
      .ok (s.entitiesHolding .node "field_sku" sku) := rfl
  refine (bind_eq_error_iff_right hload).trans ((bind_eq_error_iff_left fun _ => ⟨_, rfl⟩).trans ?_)
  rw [Service.found_eq_error_iff, List.head?_eq_none_iff, entitiesHolding, List.filter_eq_nil_iff]
  simp only [holds_iff_stores]
  rfl

/-- Where a call is refused, its plan is, before anything is shown. -/
theorem plan_eq_error_iff (call : Call) :
    (s.service offset policy).plan call = .error fault ↔ s.Refuses policy call fault := by
  cases call with
  | listContent brand contentType options =>
    obtain ⟨brandTerm, hbrand⟩ := s.brandTerm_succeeds offset policy brand
    exact s.checks_eq_error_iff policy ⟨_, by rw [hbrand]; rfl⟩
  | getContent contentType token options =>
    exact s.plan_lookup_eq_error_iff offset policy .node contentType token options
  | listTerms vocabulary options => exact s.checks_eq_error_iff policy ⟨_, rfl⟩
  | getTerm vocabulary token options =>
    exact s.plan_lookup_eq_error_iff offset policy .taxonomyTerm vocabulary token options
  | termContent vocabulary token options => exact s.findEntity_bind_eq_error_iff
  | contributorContent token options => exact s.findEntity_bind_eq_error_iff
  | productContent sku options =>
    exact (bind_eq_error_iff_left fun _ => ⟨_, rfl⟩).trans (s.skuListing_eq_error_iff offset policy)
  | productContentCount sku published =>
    exact (bind_eq_error_iff_left fun _ => ⟨_, rfl⟩).trans (s.skuListing_eq_error_iff offset policy)
  | ideas scope options =>
    rw [plan_ideas_eq_gallery]
    exact iff_of_false nofun id

end Plans

/-- A call fails where it is refused, and where it lists what cannot be sorted. -/
theorem answer_eq_error_iff (s : Store) (offset : Calendar.Offset) (policy : Policy) (call : Call)
    {fault : Fault} :
    (s.service offset policy).answer call = .error fault ↔
      s.Refuses policy call fault ∨ fault = .unsortable ∧ s.Unsortable offset policy call := by
  constructor
  · intro h
    by_cases hstops : s.Unsortable offset policy call
    · rw [s.answer_of_unsortable offset policy hstops, error_eq_error_iff] at h
      exact Or.inr ⟨h, hstops⟩
    cases hplan : (s.service offset policy).plan call with
    | error refusal =>
      rw [Service.answer_eq_plan_bind, hplan, error_bind, error_eq_error_iff] at h
      exact Or.inl ((s.plan_eq_error_iff offset policy call).1 (h ▸ hplan))
    | ok p =>
      obtain ⟨answer, hanswer⟩ := s.answered_of_not_unsortable offset policy hstops hplan
      rw [hanswer] at h
      cases h
  · rintro (hrefuses | ⟨rfl, hstops⟩)
    · rw [Service.answer_eq_plan_bind, (s.plan_eq_error_iff offset policy call).2 hrefuses,
        error_bind]
    · exact s.answer_of_unsortable offset policy hstops

end Store

/-- No storage is asked for what is forbidden, so none can fail. -/
theorem Service.step_lookup_of_forbidden (s : Service (Except Fault)) {kind : EntityKind}
    {bundle : String} (hp : s.policy.permits kind bundle = false) (token : String)
    (options : LookupOptions) (cache : SchemaCache) :
    s.step cache (.lookup kind bundle token options) = (.error .forbidden, cache) := by
  have hdemand : (demand (m := Cached) (s.cached.policy.permits kind bundle) .forbidden).run cache =
      (.error .forbidden, cache) := by
    change (demand (m := Cached) (s.policy.permits kind bundle) .forbidden).run cache = _
    rw [hp]
    rfl
  rw [step, answer_eq_plan_bind, plan_lookup, Cached.run_bind, Cached.run_bind, hdemand]

namespace Store

theorem bundleExists_ofDump_iff (dump : Dump) (baseUrl : String) (kind : EntityKind)
    (bundle : String) :
    (ofDump dump baseUrl).bundleExists kind bundle = true ↔
      bundle ∈ (dump.bundles kind).map Prod.fst ∨
        bundle ∈ (dump.entities kind).map Entity.bundle := by
  rw [bundleExists, bundle?_ofDump, Option.isSome_or, Bool.or_eq_true]
  refine or_congr ?_ ?_
  · rw [Shelf.bundle?, Shelf.ofBundles, List.lookup_isSome_iff]
    simp only [List.mem_reverse, List.mem_map, beq_iff_eq, @eq_comm _ bundle]
  · by_cases hnamed : bundle ∈ (dump.entities kind).map Entity.bundle
    · rw [if_pos hnamed]
      exact iff_of_true rfl hnamed
    · rw [if_neg hnamed]
      exact iff_of_false Bool.false_ne_true hnamed

/-- The calls of a service are refused for their own reasons alone, and before anything is
shown. All others are answered, lookups by the entity they find, except for listings that cannot
be sorted. -/
structure Classifies (s : Store) (offset : Calendar.Offset) (policy : Policy) : Prop where
  planned : ∀ call fault,
    (s.service offset policy).plan call = .error fault ↔ s.Refuses policy call fault
  refused : ∀ call fault,
    (s.service offset policy).Answers call (.error fault) ↔
      s.Refuses policy call fault ∨ fault = .unsortable ∧ s.Unsortable offset policy call
  answered : ∀ call, (∀ fault, ¬ s.Refuses policy call fault) →
    ¬ s.Unsortable offset policy call →
      ∃ answer, (s.service offset policy).Answers call (.ok answer)
  sorts : ∀ l : Listing, s.Orderly l.query → s.Sorts l.query
  found : ∀ kind bundle token options e, policy.permits kind bundle = true →
    s.Finds kind token e → e.bundle = bundle →
    ∃ body, s.answers.Projects offset ((s.service offset policy).itemContext options) e body ∧
      (s.service offset policy).Answers (.lookup kind bundle token options)
        (.ok (.entity ⟨kind, e.id, body⟩))
  forbidden_first : ∀ kind bundle token options, policy.permits kind bundle = false →
    ∀ failing cache, ((s.service offset policy).broken failing).step cache
      (.lookup kind bundle token options) = (.error .forbidden, cache)

/-- Over every dump, a bundle exists if a schema or a record names it, and every call is refused
for exactly the reasons that `Refuses` gives, or ends because its matches cannot be sorted. -/
theorem classifies_ofDump (dump : Dump) (baseUrl : String) (offset : Calendar.Offset)
    (policy : Policy) :
    (∀ kind bundle, (ofDump dump baseUrl).bundleExists kind bundle = true ↔
      bundle ∈ (dump.bundles kind).map Prod.fst ∨
        bundle ∈ (dump.entities kind).map Entity.bundle) ∧
    (ofDump dump baseUrl).Classifies offset policy := by
  refine ⟨bundleExists_ofDump_iff dump baseUrl, ?_⟩
  constructor
  case planned => exact fun call fault => plan_eq_error_iff _ offset policy call
  case refused =>
    intro call fault
    rw [Service.answers_iff, answer_eq_error_iff]
  case answered =>
    intro call hnone hsorts
    cases hanswer : ((ofDump dump baseUrl).service offset policy).answer call with
    | ok answer => exact ⟨answer, Service.answers_iff.2 hanswer⟩
    | error fault =>
      rcases (answer_eq_error_iff _ _ _ _).1 hanswer with hrefuses | ⟨-, hstops⟩
      · exact absurd hrefuses (hnone fault)
      · exact absurd hstops hsorts
  case sorts => exact fun l => Orderly.sorts (ordered_ofDump dump baseUrl l.kind)
  case found =>
    intro kind bundle token options e hpermits hfinds hbundle
    have hkind : e.kind = kind := kind_of_mem_shelf (mem_shelf_of_findEntity hfinds)
    have hfound := storage_findEntity_eq_some_iff.2 hfinds
    have hanswer := answer_lookup_of_found _ offset policy hpermits hfound hbundle options
    rw [hkind] at hanswer
    exact ⟨_, Storage.projects_iff.2 rfl, Service.answers_of_eq hanswer⟩
  case forbidden_first =>
    intro kind bundle token options hforbidden failing cache
    exact Service.step_lookup_of_forbidden _ hforbidden token options cache

/-- There is no reason to refuse the ideas of `mixedArticles`, and they are not answered. -/
theorem mixedArticles_ideas_not_answered :
    (∀ fault, ¬ (ofDump (mixedArticles "field_sort_by_date" []) "").Refuses Policy.default
      (.ideas ⟨[], [], []⟩ ListOptions.default) fault) ∧
    ((ofDump (mixedArticles "field_sort_by_date" []) "").service .utc Policy.default).Answers
      (.ideas ⟨[], [], []⟩ ListOptions.default) (.error .unsortable) := by
  refine ⟨fun fault => id, Service.answers_of_eq ?_⟩
  exact answer_of_unsortable _ .utc Policy.default ⟨_, _, _, rfl, by decide +kernel⟩

end Store

end ContentProjection
