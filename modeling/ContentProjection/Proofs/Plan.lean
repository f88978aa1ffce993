import ContentProjection.Proofs.Simulation

/-!
# What a call shows

Every call first settles what to show, by its checks and by looking up the
tokens it names, and shows it afterwards. The plan of a call is the outcome of
the first half. An answer is the plan carried out, so facts about checks and
listings are facts about plans and facts about pages need no call at all.
-/
namespace ContentProjection

inductive Plan where
  | page (listing : Listing) (ctx : Context) (form : ResultForm)
  | entity (options : LookupOptions) (e : Entity)
  | count (listing : Listing)

def Plan.listing? : Plan → Option Listing
  | page listing _ _ => some listing
  | entity _ _ => none
  | count listing => some listing

namespace Service

section
variable {m : Type → Type} [Monad m] [MonadExcept Fault m]

def plan (s : Service m) : Call → m Plan
  | .listContent brand contentType options => do
    demand (← s.storage.bundleExists .node contentType) .notFound
    demand (s.policy.permitsType contentType) .forbidden
    let brandTerm ← s.brandTerm brand
    return .page (contentListing contentType brandTerm options) (s.listingContext options) .whole
  | .getContent contentType token options => do
    demand (s.policy.permitsType contentType) .forbidden
    return .entity options (← s.lookup .node contentType token)
  | .listTerms vocabulary options => do
    demand (← s.storage.bundleExists .taxonomyTerm vocabulary) .notFound
    demand (s.policy.permitsVocabulary vocabulary) .forbidden
    return .page (termListing vocabulary options) (s.listingContext options) .whole
  | .getTerm vocabulary token options => do
    demand (s.policy.permitsVocabulary vocabulary) .forbidden
    return .entity options (← s.lookup .taxonomyTerm vocabulary token)
  | .termContent vocabulary token options => do
    let term ← found (← s.storage.findEntity .taxonomyTerm token)
    return .page (termContentListing vocabulary term.uuid options) (s.listingContext options)
      .wholeWhenRecursing
  | .contributorContent token options => do
    let contributor ← found (← s.storage.findEntity .node token)
    return .page (contributorListing s.policy.contributorContentTypes contributor.uuid options)
      (s.listingContext options) .wholeWhenRecursing
  | .productContent sku options => do
    return .page (← s.skuListing sku options) (s.productContext options) .wholeWhenRecursing
  | .productContentCount sku published => do
    return .count (← s.skuListing sku { ListOptions.default with published })
  | .ideas scope options => do
    let categories ← s.storage.findUuids .taxonomyTerm scope.categories
    let tags ← s.storage.findUuids .taxonomyTerm scope.tags
    return .page (ideaListing categories tags (ideaTypes s.policy scope.types) options)
      (s.listingContext options) .whole

def carryOut (s : Service m) : Plan → m Answer
  | .page listing ctx form => do return .page (← s.projector.pageOf listing ctx form)
  | .entity options e => do return .entity (← s.present options e)
  | .count listing => do return .count (← s.projector.countOf listing)

theorem answer_eq_plan_bind [LawfulMonad m] (s : Service m) (call : Call) :
    s.answer call = s.plan call >>= s.carryOut := by
  cases call <;>
    simp [answer, plan, carryOut, listContent, getContent, listTerms, getTerm, termContent,
      contributorContent, productContent, productContentCount, ideas]

end

end Service

theorem ok_of_bind {ε α β : Type} {x : Except ε α} {f : α → Except ε β} {b : β}
    (h : x >>= f = .ok b) : ∃ a, x = .ok a ∧ f a = .ok b := by
  cases x with
  | error e => cases h
  | ok a => exact ⟨a, rfl, h⟩

theorem error_bind {ε α β : Type} (e : ε) (f : α → Except ε β) :
    (Except.error e >>= f) = .error e :=
  rfl

namespace Service

variable {s : Service (Except Fault)} {p : Plan}

theorem plan_listContent {brand : Option String} {contentType : String} {options : ListOptions}
    (h : s.plan (.listContent brand contentType options) = .ok p) :
    ∃ brandTerm, p = .page (contentListing contentType brandTerm options)
      (s.listingContext options) .whole := by
  obtain ⟨_, -, h⟩ := ok_of_bind h
  obtain ⟨_, -, h⟩ := ok_of_bind h
  obtain ⟨_, -, h⟩ := ok_of_bind h
  obtain ⟨brandTerm, -, h⟩ := ok_of_bind h
  cases h
  exact ⟨brandTerm, rfl⟩

theorem plan_termContent {vocabulary : ListedVocabulary} {token : String} {options : ListOptions}
    (h : s.plan (.termContent vocabulary token options) = .ok p) :
    ∃ term : Uuid, p = .page (termContentListing vocabulary term options)
      (s.listingContext options) .wholeWhenRecursing := by
  obtain ⟨_, -, h⟩ := ok_of_bind h
  obtain ⟨term, -, h⟩ := ok_of_bind h
  cases h
  exact ⟨term.uuid, rfl⟩

theorem plan_contributorContent {token : String} {options : ListOptions}
    (h : s.plan (.contributorContent token options) = .ok p) :
    ∃ contributor : Uuid, p = .page
      (contributorListing s.policy.contributorContentTypes contributor options)
      (s.listingContext options) .wholeWhenRecursing := by
  obtain ⟨_, -, h⟩ := ok_of_bind h
  obtain ⟨contributor, -, h⟩ := ok_of_bind h
  cases h
  exact ⟨contributor.uuid, rfl⟩

theorem skuListing_eq {sku : String} {options : ListOptions} {listing : Listing}
    (h : s.skuListing sku options = .ok listing) :
    ∃ product : Uuid, listing = productListing s.policy.productContentTypes product options := by
  obtain ⟨_, -, h⟩ := ok_of_bind h
  obtain ⟨product, -, h⟩ := ok_of_bind h
  cases h
  exact ⟨product.uuid, rfl⟩

theorem plan_productContent {sku : String} {options : ListOptions}
    (h : s.plan (.productContent sku options) = .ok p) :
    ∃ product : Uuid, p = .page (productListing s.policy.productContentTypes product options)
      (s.productContext options) .wholeWhenRecursing := by
  obtain ⟨listing, hl, h⟩ := ok_of_bind h
  obtain ⟨product, rfl⟩ := skuListing_eq hl
  cases h
  exact ⟨product, rfl⟩

theorem plan_productContentCount {sku : String} {published : Bool}
    (h : s.plan (.productContentCount sku published) = .ok p) :
    ∃ product : Uuid, p = .count (productListing s.policy.productContentTypes product
      { ListOptions.default with published }) := by
  obtain ⟨listing, hl, h⟩ := ok_of_bind h
  obtain ⟨product, rfl⟩ := skuListing_eq hl
  cases h
  exact ⟨product, rfl⟩

theorem plan_ideas {scope : IdeaScope} {options : ListOptions}
    (h : s.plan (.ideas scope options) = .ok p) :
    ∃ categories tags, p = .page
      (ideaListing categories tags (ideaTypes s.policy scope.types) options)
      (s.listingContext options) .whole := by
  obtain ⟨categories, -, h⟩ := ok_of_bind h
  obtain ⟨tags, -, h⟩ := ok_of_bind h
  cases h
  exact ⟨categories, tags, rfl⟩

end Service

namespace Simulation

variable {m n : Type → Type} [Monad m] [Monad n] {S : Simulation m n}

section

variable {s : Storage m} {t : Storage n} (h : Storage.Simulated S s t)
  (offset : Calendar.Offset) (policy : Policy)
include h

theorem brandTerm (brand : Option String) :
    S.Rel (Service.brandTerm ⟨s, offset, policy⟩ brand)
      (Service.brandTerm ⟨t, offset, policy⟩ brand) := by
  cases brand with
  | none => exact S.pure none
  | some name =>
    unfold Service.brandTerm
    dsimp only
    split
    · exact S.pure none
    · exact S.bindPure (h.findTermByName name) _

theorem carryOut_entity [LawfulMonad m] [LawfulMonad n] (options : LookupOptions)
    (e : Entity) :
    S.Rel (Service.carryOut ⟨s, offset, policy⟩ (.entity options e))
      (Service.carryOut ⟨t, offset, policy⟩ (.entity options e)) :=
  S.bindPure (S.bindPure (project h offset _ e) _) _

theorem carryOut [LawfulMonad m] [LawfulMonad n]
    (hf : ∀ query, S.Rel (s.fetchIds query) (t.fetchIds query)) (p : Plan) :
    S.Rel (Service.carryOut ⟨s, offset, policy⟩ p) (Service.carryOut ⟨t, offset, policy⟩ p) := by
  cases p with
  | page listing ctx form => exact S.bindPure (pageOf h offset (hf _) ctx form) _
  | entity options e => exact carryOut_entity h offset policy options e
  | count listing => exact S.bindPure (h.count _) _

end

variable [MonadExcept Fault m] [MonadExcept Fault n]

/-- Failures are related to the same failures. -/
def Throws (S : Simulation m n) : Prop :=
  ∀ {α : Type} (fault : Fault), S.Rel (throw fault : m α) (throw fault : n α)

variable (ht : S.Throws)
include ht

theorem demand (condition : Bool) (fault : Fault) :
    S.Rel (Service.demand (m := m) condition fault) (Service.demand condition fault) := by
  unfold Service.demand
  split
  · exact S.pure ()
  · exact ht fault

theorem found {α : Type} (a? : Option α) :
    S.Rel (Service.found (m := m) a?) (Service.found a?) := by
  cases a? with
  | none => exact ht .notFound
  | some a => exact S.pure a

variable {s : Storage m} {t : Storage n} (h : Storage.Simulated S s t)
  (offset : Calendar.Offset) (policy : Policy)
include h

theorem lookup (kind : EntityKind) (bundle token : String) :
    S.Rel (Service.lookup ⟨s, offset, policy⟩ kind bundle token)
      (Service.lookup ⟨t, offset, policy⟩ kind bundle token) :=
  S.bind (findEntity h kind token) fun _ => found ht _

theorem skuListing (sku : String) (options : ListOptions) :
    S.Rel (Service.skuListing ⟨s, offset, policy⟩ sku options)
      (Service.skuListing ⟨t, offset, policy⟩ sku options) :=
  S.bind (h.loadByField _ _ _) fun _ => S.bindPure (found ht _) _

variable [LawfulMonad m] [LawfulMonad n]

theorem plan (call : Call) :
    S.Rel (Service.plan ⟨s, offset, policy⟩ call) (Service.plan ⟨t, offset, policy⟩ call) := by
  cases call with
  | listContent brand contentType options =>
    refine S.bind (h.bundleExists _ _) fun _ => S.bind (demand ht _ _) fun _ => ?_
    exact S.bind (demand ht _ _) fun _ => S.bindPure (brandTerm h offset policy brand) _
  | getContent contentType token options =>
    exact S.bind (demand ht _ _) fun _ => S.bindPure (lookup ht h offset policy _ _ _) _
  | listTerms vocabulary options =>
    refine S.bind (h.bundleExists _ _) fun _ => S.bind (demand ht _ _) fun _ => ?_
    exact S.bindPure (demand ht _ _) _
  | getTerm vocabulary token options =>
    exact S.bind (demand ht _ _) fun _ => S.bindPure (lookup ht h offset policy _ _ _) _
  | termContent vocabulary token options =>
    exact S.bind (findEntity h _ _) fun _ => S.bindPure (found ht _) _
  | contributorContent token options =>
    exact S.bind (findEntity h _ _) fun _ => S.bindPure (found ht _) _
  | productContent sku options => exact S.bindPure (skuListing ht h offset policy sku options) _
  | productContentCount sku published => exact S.bindPure (skuListing ht h offset policy sku _) _
  | ideas scope options =>
    exact S.bind (findUuids h _ _) fun _ => S.bindPure (findUuids h _ _) _

theorem answer (hf : ∀ query, S.Rel (s.fetchIds query) (t.fetchIds query)) (call : Call) :
    S.Rel (Service.answer ⟨s, offset, policy⟩ call) (Service.answer ⟨t, offset, policy⟩ call) := by
  rw [Service.answer_eq_plan_bind, Service.answer_eq_plan_bind]
  exact S.bind (plan ht h offset policy call) (carryOut h offset policy hf)

end Simulation

end ContentProjection
