import ContentProjection.Proofs.Lookups
import ContentProjection.Proofs.ReferenceListings

/-!
# Listed entities looked up

A listing of one bundle selects by the stored bundle and projects with its own
publication flag; a lookup finds by UUID, compares the bundle itself and projects
with the flag set. Where records keep their base fields the stored bundle is the
bundle of the entity, different UUIDs find every entity, and no projection reads
the flag. Every result of a listing is then the answer of a lookup.
-/
namespace ContentProjection

namespace Projector

variable {m : Type → Type} [Monad m] (p : Projector m) (ctx : Context) (published : Bool)

theorem object_publication (expand : Entity → m Json) :
    p.object { ctx with publishedOnly := published } expand = p.object ctx expand :=
  rfl

theorem within_publication (levels : Nat) (e : Entity) :
    p.within { ctx with publishedOnly := published } levels e = p.within ctx levels e := by
  induction levels generalizing e with
  | zero => rw [within, within, object_publication]
  | succ levels ih => rw [within, within, object_publication, funext ih]

/-- The publication flag of a context is read by no projection. -/
theorem project_publication (e : Entity) :
    p.project { ctx with publishedOnly := published } e = p.project ctx e :=
  p.within_publication ctx published _ e

end Projector

/-- The field that stores the bundle of an entity. -/
def EntityKind.bundleField : EntityKind → String
  | .node => "type"
  | .taxonomyTerm => "vid"

namespace Store

section Bundles

variable {dump : Dump} {baseUrl : String}

theorem describes_of_mem_listed {l : Listing} {e : Entity}
    (he : e ∈ (ofDump dump baseUrl).listed l) :
    e ∈ ((ofDump dump baseUrl).shelf l.kind).entities ∧ l.Describes (ofDump dump baseUrl) e :=
  (mem_selected_iff _ l e).1 (mem_selected_of_mem_listed (ordered_ofDump dump baseUrl) he)

variable (hn : dump.KeepsBase) (ht : dump.TermsKeepBase)
include hn ht

theorem field_bundleField {kind : EntityKind} {e : Entity}
    (he : e ∈ ((ofDump dump baseUrl).shelf kind).entities) :
    e.field kind.bundleField = [.target e.bundle] := by
  cases kind with
  | node =>
    obtain ⟨r, hr, rfl⟩ := mem_nodes_ofDump he
    rw [EntityKind.bundleField, (hn r hr).field_type, r.entity_eq]
  | taxonomyTerm =>
    obtain ⟨r, hr, rfl⟩ := mem_terms_ofDump he
    rw [EntityKind.bundleField, (ht r hr).field_vid, r.entity_eq]

/-- A listing that requires a bundle lists entities of that bundle. -/
theorem bundle_of_mem_listed {l : Listing} {bundle : String}
    (hl : ⟨l.kind.bundleField, bundle⟩ ∈ l.conditions) {e : Entity}
    (he : e ∈ (ofDump dump baseUrl).listed l) : e.bundle = bundle := by
  obtain ⟨hmem, hdescribes⟩ := describes_of_mem_listed he
  have hreaches := hdescribes.conditions _ hl
  have huncut : ∀ field rest, l.kind.bundleField ≠ field ++ referenceMark ++ rest := by
    rw [uncut_iff]
    cases l.kind <;> decide
  obtain ⟨item, hitem, hscalar⟩ := ((ofDump dump baseUrl).reaches_iff_of_uncut huncut).1 hreaches
  rw [field_bundleField hn ht hmem, List.mem_singleton] at hitem
  subst hitem
  exact hscalar

end Bundles

section Plans

variable (s : Store) (offset : Calendar.Offset) (policy : Policy) {options : ListOptions}

theorem brandTerm_succeeds (brand : Option String) :
    ∃ brandTerm, (s.service offset policy).brandTerm brand = .ok brandTerm :=
  ⟨_, Simulation.brandTerm s.answers.answering_simulated offset policy brand⟩

theorem plan_listContent_of_permitted {contentType : String} {brand : Option String}
    {brandTerm : Option EntityId} (he : s.bundleExists .node contentType = true)
    (hp : policy.permitsType contentType = true)
    (hb : (s.service offset policy).brandTerm brand = .ok brandTerm) :
    (s.service offset policy).plan (.listContent brand contentType options) =
      .ok (.page (Service.contentListing contentType brandTerm options)
        ((s.service offset policy).listingContext options) .whole) := by
  have hexists : (s.service offset policy).storage.bundleExists .node contentType = pure true :=
    congrArg Except.ok he
  have hpermits : (s.service offset policy).policy.permitsType contentType = true := hp
  rw [Service.plan, hexists, pure_bind, Service.demand_of_eq_true rfl, pure_bind,
    Service.demand_of_eq_true hpermits, pure_bind, hb]
  rfl

theorem plan_listTerms_of_permitted {vocabulary : String}
    (he : s.bundleExists .taxonomyTerm vocabulary = true)
    (hp : policy.permitsVocabulary vocabulary = true) :
    (s.service offset policy).plan (.listTerms vocabulary options) =
      .ok (.page (Service.termListing vocabulary options)
        ((s.service offset policy).listingContext options) .whole) := by
  have hexists : (s.service offset policy).storage.bundleExists .taxonomyTerm vocabulary =
      pure true := congrArg Except.ok he
  have hpermits : (s.service offset policy).policy.permitsVocabulary vocabulary = true := hp
  rw [Service.plan, hexists, pure_bind, Service.demand_of_eq_true rfl, pure_bind,
    Service.demand_of_eq_true hpermits, pure_bind]
  rfl

end Plans

/-- A listing of content requires its type, branded or not. -/
theorem requires_contentListing (contentType : String) (brandTerm : Option EntityId)
    (options : ListOptions) :
    (Service.contentListing contentType brandTerm options).kind = .node ∧
    ⟨"type", contentType⟩ ∈ (Service.contentListing contentType brandTerm options).conditions := by
  unfold Service.contentListing
  cases brandTerm with
  | none =>
    dsimp only
    split <;> simp [Listing.nodes, Listing.requiring, Listing.onPage, Listing.orderedBy]
  | some id =>
    dsimp only
    split <;> simp [Listing.nodes, Listing.requiring, Listing.onPage, Listing.orderedBy]

/-- A listing that can be sorted is answered by a page, and each result on it is the body that a
lookup of the listed entity by its UUID is answered with. -/
structure ShowsLookups (s : Store) (offset : Calendar.Offset) (policy : Policy) (bundle : String)
    (options : ListOptions) (l : Listing) (call : Call) : Prop where
  answered : s.Sorts l.query → ∃ answer, (s.service offset policy).Answers call (.ok answer)
  shown : ∀ answer, (s.service offset policy).Answers call (.ok answer) →
    ∃ page, answer = .page page ∧
      List.Forall₂ (fun e result => ∃ body, result = .obj body ∧
        (s.service offset policy).Answers (.lookup l.kind bundle e.uuid.text options.lookup)
          (.ok (.entity ⟨l.kind, e.id, body⟩))) (s.listed l) page.results
  refused : ¬ s.Sorts l.query → (s.service offset policy).Answers call (.error .unsortable)

section Listed

variable {dump : Dump} (hn : dump.KeepsBase) (ht : dump.TermsKeepBase) (hu : dump.DistinctUuids)
  {baseUrl : String} (offset : Calendar.Offset) (policy : Policy)

include hn ht hu

/-- The lookup of a listed entity by its UUID shows it as the listing does. -/
theorem answer_lookup_of_mem_listed {bundle : String} {l : Listing}
    (hl : ⟨l.kind.bundleField, bundle⟩ ∈ l.conditions)
    (hp : policy.permits l.kind bundle = true) {e : Entity}
    (he : e ∈ (ofDump dump baseUrl).listed l) (options : ListOptions) :
    ((ofDump dump baseUrl).service offset policy).answer
        (.lookup l.kind bundle e.uuid.text options.lookup) =
      .ok (.entity ⟨l.kind, e.id, (Projector.project ⟨(ofDump dump baseUrl).answers, offset⟩
        (((ofDump dump baseUrl).service offset policy).listingContext options) e).run⟩) := by
  have hmem := (describes_of_mem_listed he).1
  have hctx : ((ofDump dump baseUrl).service offset policy).itemContext options.lookup =
      { ((ofDump dump baseUrl).service offset policy).listingContext options with
        publishedOnly := true } := rfl
  rw [answer_lookup_of_found _ offset policy hp (findEntity_uuid_ofDump hu hmem)
    (bundle_of_mem_listed hn ht hl he), kind_of_mem_shelf hmem, hctx,
    Projector.project_publication]

theorem showsLookups_of_plan {bundle : String} {options : ListOptions} {l : Listing} {call : Call}
    (hl : ⟨l.kind.bundleField, bundle⟩ ∈ l.conditions)
    (hp : policy.permits l.kind bundle = true)
    (hplan : ((ofDump dump baseUrl).service offset policy).plan call = .ok (.page l
      (((ofDump dump baseUrl).service offset policy).listingContext options) .whole)) :
    (ofDump dump baseUrl).ShowsLookups offset policy bundle options l call := by
  have hanswer := answer_of_plan_page (ofDump dump baseUrl) offset policy hplan
  constructor
  case answered => exact fun hs => ⟨_, Service.answers_of_eq (hanswer.trans (if_pos hs))⟩
  case shown =>
    intro answer hok
    obtain ⟨-, rfl⟩ := answered_of_plan_page _ offset policy hplan (Service.answers_iff.1 hok)
    refine ⟨_, rfl, List.forall₂_map_right_iff.2 (List.forall₂_same.2 fun e he => ⟨_, rfl, ?_⟩)⟩
    exact Service.answers_of_eq
      (answer_lookup_of_mem_listed hn ht hu offset policy hl hp he options)
  case refused => exact fun hs => Service.answers_of_eq (hanswer.trans (if_neg hs))

end Listed

/-- Over every dump whose records keep their base fields and have different UUIDs, the results
of an answered listing of content, and of one of terms, are the answers of lookups. -/
theorem listings_show_lookups (dump : Dump) (baseUrl : String) (offset : Calendar.Offset)
    (policy : Policy) (hn : dump.KeepsBase) (ht : dump.TermsKeepBase) (hu : dump.DistinctUuids) :
    (∀ contentType, policy.permitsType contentType = true →
      (ofDump dump baseUrl).bundleExists .node contentType = true → ∀ brand options,
        ∃ brandTerm,
          ((ofDump dump baseUrl).service offset policy).brandTerm brand = .ok brandTerm ∧
          (ofDump dump baseUrl).ShowsLookups offset policy contentType options
            (Service.contentListing contentType brandTerm options)
            (.listContent brand contentType options)) ∧
    ∀ vocabulary, policy.permitsVocabulary vocabulary = true →
      (ofDump dump baseUrl).bundleExists .taxonomyTerm vocabulary = true → ∀ options,
        (ofDump dump baseUrl).ShowsLookups offset policy vocabulary options
          (Service.termListing vocabulary options) (.listTerms vocabulary options) := by
  constructor
  · intro contentType hp he brand options
    obtain ⟨brandTerm, hb⟩ := (ofDump dump baseUrl).brandTerm_succeeds offset policy brand
    obtain ⟨hkind, hl⟩ := requires_contentListing contentType brandTerm options
    refine ⟨brandTerm, hb, showsLookups_of_plan hn ht hu offset policy ?_ ?_
      (plan_listContent_of_permitted _ offset policy he hp hb)⟩
    · rw [hkind]
      exact hl
    · rw [hkind]
      exact hp
  · intro vocabulary hp he options
    exact showsLookups_of_plan hn ht hu offset policy (List.mem_singleton.2 rfl) hp
      (plan_listTerms_of_permitted _ offset policy he hp)

/-- The article of `newsDump` and its term, listed and looked up. -/
theorem newsDump_listings_show_lookups :
    (newsDump.KeepsBase ∧ newsDump.TermsKeepBase ∧ newsDump.DistinctUuids) ∧
    ((ofDump newsDump "").listed
        (Service.contentListing "article" none ListOptions.default) = [newsNode.entity] ∧
      (ofDump newsDump "").Sorts
        (Service.contentListing "article" none ListOptions.default).query ∧
      (ofDump newsDump "").ShowsLookups .utc Policy.default "article" ListOptions.default
        (Service.contentListing "article" none ListOptions.default)
        (.listContent none "article" ListOptions.default)) ∧
    (ofDump newsDump "").listed (Service.termListing "category" ListOptions.default) =
      [newsTerm.entity] ∧
    (ofDump newsDump "").ShowsLookups .utc Policy.default "category" ListOptions.default
      (Service.termListing "category" ListOptions.default)
      (.listTerms "category" ListOptions.default) := by
  have hn : newsDump.KeepsBase := by decide
  have ht : newsDump.TermsKeepBase := by decide
  have hu : newsDump.DistinctUuids := by decide
  obtain ⟨hcontent, hterms⟩ := listings_show_lookups newsDump "" .utc Policy.default hn ht hu
  obtain ⟨brandTerm, hbrand, hshows⟩ :=
    hcontent "article" (by decide) (by decide) none ListOptions.default
  cases hbrand
  exact ⟨⟨hn, ht, hu⟩, ⟨by decide +kernel, by decide +kernel, hshows⟩, by decide +kernel,
    hterms "category" (by decide) (by decide) ListOptions.default⟩

end Store

end ContentProjection
