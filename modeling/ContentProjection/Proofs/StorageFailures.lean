import ContentProjection.Proofs.Paging

/-!
# Answers while storage fails

Suppose that some kinds of lookups always fail. A lookup stands on many optional
paths, where a missing value shows as nothing at all, but a failure is never
taken for a missing value: it ends the call with the fault of the failing lookup.
Every answer is therefore the one that working storage gives, or such a fault.
Working storage gives no fault of its own, so without failures a call is
answered or refused.
-/
namespace ContentProjection

/-- The outcome with failures is the one without, or the fault of a failing lookup. -/
def SameOrFailed (failing : List Lookup) {α : Type} (whole part : Except Fault α) : Prop :=
  part = whole ∨ ∃ lookup ∈ failing, part = .error lookup.fault

theorem sameOrFailed_guarded (failing : List Lookup) (lookup : Lookup) {α : Type}
    (answer : Except Fault α) : SameOrFailed failing answer (lookup.guarded failing answer) := by
  unfold Lookup.guarded
  split
  · next h => exact Or.inr ⟨lookup, h, rfl⟩
  · exact Or.inl rfl

/-- A cache keeps what it read before its source failed, and remembers no failure. -/
theorem SchemaCache.read_sameOrFailed {source source' : EntityKind → String → Except Fault Schema}
    {failing : List Lookup} {cache : SchemaCache} (h : cache.Faithful source)
    (hs : ∀ kind bundle, SameOrFailed failing (source kind bundle) (source' kind bundle))
    (kind : EntityKind) (bundle : String) :
    ∃ part cache', read source' kind bundle cache = (part, cache') ∧
      SameOrFailed failing (source kind bundle) part ∧ cache'.Faithful source := by
  cases hf : cache.find? kind bundle with
  | some schema =>
    rw [read_of_find?_eq_some hf]
    exact ⟨_, cache, rfl, Or.inl (h kind bundle schema hf).symm, h⟩
  | none =>
    have hsame := hs kind bundle
    rw [read_of_find?_eq_none hf]
    cases hp : source' kind bundle with
    | error fault => exact ⟨_, _, rfl, hp ▸ hsame, h⟩
    | ok schema =>
      rw [hp] at hsame
      have hsource : source kind bundle = .ok schema := by
        rcases hsame with heq | ⟨lookup, -, hfault⟩
        · exact heq.symm
        · cases hfault
      exact ⟨_, _, rfl, hsame, h.remember hsource _⟩

/-- A computation behind a cache with the outcome of another one, unless a lookup failed. -/
def Simulation.unmasking (failing : List Lookup)
    (source : EntityKind → String → Except Fault Schema) : Simulation (Except Fault) Cached where
  Rel x y := ∀ cache : SchemaCache, cache.Faithful source →
    ∃ part cache', y.run cache = (part, cache') ∧ SameOrFailed failing x part ∧
      cache'.Faithful source
  pure a cache h := ⟨.ok a, cache, rfl, Or.inl rfl, h⟩
  bind {α β x y f g} hx hf cache h := by
    obtain ⟨part, cache', hy, hpart, h'⟩ := hx cache h
    rw [Cached.run_bind, hy]
    rcases hpart with rfl | ⟨lookup, hl, rfl⟩
    · cases part with
      | error fault => exact ⟨_, cache', rfl, Or.inl rfl, h'⟩
      | ok a => exact hf a cache' h'
    · exact ⟨_, cache', rfl, Or.inr ⟨lookup, hl, rfl⟩, h'⟩

theorem Storage.broken_simulated (storage : Storage (Except Fault)) (failing : List Lookup) :
    Simulated (Simulation.unmasking failing storage.fieldDefinitions) storage
      (storage.broken failing).cached := by
  constructor
  case fieldDefinitions =>
    intro kind bundle cache h
    refine SchemaCache.read_sameOrFailed h (fun kind bundle => ?_) kind bundle
    exact sameOrFailed_guarded failing .fieldDefinitions _
  all_goals
    intros
    exact fun cache h => ⟨_, cache, rfl, sameOrFailed_guarded failing _ _, h⟩

theorem Storage.broken_fetchIds (storage : Storage (Except Fault)) (failing : List Lookup)
    (query : Query) :
    (Simulation.unmasking failing storage.fieldDefinitions).Rel (storage.fetchIds query)
      ((storage.broken failing).cached.fetchIds query) :=
  fun cache h => ⟨_, cache, rfl, sameOrFailed_guarded failing .fetchIds _, h⟩

/-- A computation that succeeds, or finds that something is not there or not allowed. -/
def OnlyRefuses {α : Type} (x : Except Fault α) : Prop :=
  ∀ fault, x = .error fault → fault = .notFound ∨ fault = .forbidden

namespace OnlyRefuses

variable {α β : Type}

theorem ok (a : α) : OnlyRefuses (.ok a) := by
  intro fault h
  cases h

theorem bind {x : Except Fault α} {f : α → Except Fault β} (hx : OnlyRefuses x)
    (hf : ∀ a, OnlyRefuses (f a)) : OnlyRefuses (x >>= f) := by
  cases x with
  | error fault =>
    intro other h
    cases h
    exact hx fault rfl
  | ok a => exact hf a

theorem demand {condition : Bool} {fault : Fault} (h : fault = .notFound ∨ fault = .forbidden) :
    OnlyRefuses (Service.demand (m := Except Fault) condition fault) := by
  unfold Service.demand
  split
  · exact ok ()
  · intro other ho
    cases ho
    exact h

theorem found (a? : Option α) : OnlyRefuses (Service.found (m := Except Fault) a?) := by
  cases a? with
  | none =>
    intro other ho
    cases ho
    exact Or.inl rfl
  | some a => exact ok a

end OnlyRefuses

namespace Store

variable (s : Store) (offset : Calendar.Offset) (policy : Policy)

theorem onlyRefuses_plan (call : Call) : OnlyRefuses ((s.service offset policy).plan call) := by
  have hentity : ∀ kind token, OnlyRefuses (s.storage.findEntity kind token) := by
    intro kind token
    rw [s.storage_findEntity]
    exact OnlyRefuses.ok _
  have huuids : ∀ kind tokens, OnlyRefuses (s.storage.findUuids kind tokens) := by
    intro kind tokens
    rw [s.storage_findUuids]
    exact OnlyRefuses.ok _
  have hlookup : ∀ kind bundle token,
      OnlyRefuses ((s.service offset policy).lookup kind bundle token) := by
    intro kind bundle token
    exact (hentity kind token).bind fun _ => OnlyRefuses.found _
  have hsku : ∀ sku options, OnlyRefuses ((s.service offset policy).skuListing sku options) := by
    intro sku options
    exact (OnlyRefuses.ok _).bind fun _ => (OnlyRefuses.found _).bind fun _ => OnlyRefuses.ok _
  cases call with
  | listContent brand contentType options =>
    refine (OnlyRefuses.ok _).bind fun _ => (OnlyRefuses.demand (Or.inl rfl)).bind fun _ => ?_
    refine (OnlyRefuses.demand (Or.inr rfl)).bind fun _ => ?_
    have hbrand := Simulation.brandTerm s.storage_simulated offset policy brand
    exact OnlyRefuses.bind (hbrand ▸ OnlyRefuses.ok _) fun _ => OnlyRefuses.ok _
  | getContent contentType token options =>
    refine (OnlyRefuses.demand (Or.inr rfl)).bind fun _ => ?_
    exact (hlookup _ _ _).bind fun _ => OnlyRefuses.ok _
  | listTerms vocabulary options =>
    refine (OnlyRefuses.ok _).bind fun _ => (OnlyRefuses.demand (Or.inl rfl)).bind fun _ => ?_
    exact (OnlyRefuses.demand (Or.inr rfl)).bind fun _ => OnlyRefuses.ok _
  | getTerm vocabulary token options =>
    refine (OnlyRefuses.demand (Or.inr rfl)).bind fun _ => ?_
    exact (hlookup _ _ _).bind fun _ => OnlyRefuses.ok _
  | termContent vocabulary token options =>
    exact (hentity _ _).bind fun _ => (OnlyRefuses.found _).bind fun _ => OnlyRefuses.ok _
  | contributorContent token options =>
    exact (hentity _ _).bind fun _ => (OnlyRefuses.found _).bind fun _ => OnlyRefuses.ok _
  | productContent sku options => exact (hsku _ _).bind fun _ => OnlyRefuses.ok _
  | productContentCount sku published => exact (hsku _ _).bind fun _ => OnlyRefuses.ok _
  | ideas scope options =>
    exact (huuids _ _).bind fun _ => (huuids _ _).bind fun _ => OnlyRefuses.ok _

/-- Without failures, a call ends in a fault of its own only if it lists what cannot be sorted. -/
structure Settles (call : Call) (outcome : Except Fault Answer) : Prop where
  refusal : ∀ fault, outcome = .error fault →
    fault = .notFound ∨ fault = .forbidden ∨ fault = .unsortable
  unsortable : outcome = .error .unsortable ↔ s.Unsortable offset policy call

theorem settles_answer (call : Call) :
    s.Settles offset policy call ((s.service offset policy).answer call) := by
  by_cases hstops : s.Unsortable offset policy call
  · rw [s.answer_of_unsortable offset policy hstops]
    refine ⟨?_, iff_of_true rfl hstops⟩
    rintro fault ⟨⟩
    exact Or.inr (Or.inr rfl)
  cases hplan : (s.service offset policy).plan call with
  | error fault =>
    have hrefusal := s.onlyRefuses_plan offset policy call fault hplan
    rw [Service.answer_eq_plan_bind, hplan, error_bind]
    constructor
    case refusal =>
      rintro other ⟨⟩
      exact hrefusal.imp_right Or.inl
    case unsortable =>
      refine iff_of_false ?_ hstops
      rintro ⟨⟩
      exact absurd hrefusal (by decide)
  | ok p =>
    obtain ⟨answer, hanswer⟩ := s.answered_of_not_unsortable offset policy hstops hplan
    rw [hanswer]
    exact ⟨nofun, iff_of_false nofun hstops⟩

end Store

namespace Service

variable (s : Service (Except Fault)) {cache cache' : SchemaCache}

/-- The service with some kinds of lookups always failing. -/
def broken (failing : List Lookup) : Service (Except Fault) :=
  { s with storage := s.storage.broken failing }

theorem step_broken (failing : List Lookup) (h : cache.Faithful s.storage.fieldDefinitions)
    (call : Call) :
    ∃ part cache', (s.broken failing).step cache call = (part, cache') ∧
      SameOrFailed failing (s.answer call) part ∧
      cache'.Faithful s.storage.fieldDefinitions := by
  have hthrow : (Simulation.unmasking failing s.storage.fieldDefinitions).Throws := by
    intro α fault cache h
    exact ⟨_, cache, rfl, Or.inl rfl, h⟩
  exact Simulation.answer hthrow (s.storage.broken_simulated failing) s.offset s.policy
    (s.storage.broken_fetchIds failing) call cache h

/-- Calls made one after the other are answered as each one is alone. -/
theorem run_eq_map_answer (h : cache.Faithful s.storage.fieldDefinitions) (calls : List Call) :
    s.run cache calls = calls.map s.answer := by
  induction calls generalizing cache with
  | nil => rfl
  | cons call calls ih =>
    obtain ⟨next, hstep, hnext⟩ := s.step_eq_answer h call
    rw [run, hstep]
    exact congrArg (List.cons (s.answer call)) (ih hnext)

theorem run_broken (failing : List Lookup) (h : cache.Faithful s.storage.fieldDefinitions)
    (calls : List Call) :
    List.Forall₂ (SameOrFailed failing) (calls.map s.answer)
      ((s.broken failing).run cache calls) := by
  induction calls generalizing cache with
  | nil => exact List.Forall₂.nil
  | cons call calls ih =>
    obtain ⟨part, next, hstep, hpart, hnext⟩ := s.step_broken failing h call
    rw [run, hstep]
    exact List.Forall₂.cons hpart (ih hnext)

end Service

/-- Whatever lookups fail, no call in a run of calls is answered in part: it is answered as without
failures, or ends with the fault of one of them. Without failures every call is answered or refused
unless it lists what cannot be sorted. -/
theorem Store.run_broken_unmasked (dump : Dump) (baseUrl : String) (offset : Calendar.Offset)
    (policy : Policy) (failing : List Lookup) (calls : List Call) :
    List.Forall₂ (SameOrFailed failing)
      (((Store.ofDump dump baseUrl).service offset policy).run SchemaCache.empty calls)
      ((((Store.ofDump dump baseUrl).service offset policy).broken failing).run
        SchemaCache.empty calls) ∧
    List.Forall₂ ((Store.ofDump dump baseUrl).Settles offset policy) calls
      (((Store.ofDump dump baseUrl).service offset policy).run SchemaCache.empty calls) := by
  generalize Store.ofDump dump baseUrl = s
  rw [Service.run_eq_map_answer _ SchemaCache.faithful_empty]
  refine ⟨(s.service offset policy).run_broken failing SchemaCache.faithful_empty calls, ?_⟩
  exact List.forall₂_map_right_iff.2 (List.forall₂_same.2 fun call _ =>
    s.settles_answer offset policy call)

/-- No lookup fails, and yet the ideas of `mixedArticles` are neither shown nor refused. -/
theorem Store.mixedArticles_ideas_stop :
    ((ofDump (mixedArticles "field_sort_by_date" []) "").service .utc Policy.default).run
        SchemaCache.empty [.ideas ⟨[], [], []⟩ ListOptions.default] = [.error .unsortable] ∧
    Fault.unsortable ≠ .notFound ∧ Fault.unsortable ≠ .forbidden := by
  have hstops : (ofDump (mixedArticles "field_sort_by_date" []) "").Unsortable .utc Policy.default
      (.ideas ⟨[], [], []⟩ ListOptions.default) := ⟨_, _, _, rfl, by decide +kernel⟩
  refine ⟨?_, by decide, by decide⟩
  rw [Service.run_eq_map_answer _ SchemaCache.faithful_empty, List.map_singleton,
    answer_of_unsortable _ .utc Policy.default hstops]

end ContentProjection
