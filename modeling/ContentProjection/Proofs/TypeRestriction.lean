import ContentProjection.Proofs.QueryMeaning

/-!
# Listings restricted to configured types

Ideas and the content of contributors and products are restricted to the types
that the policy names for them, by a choice of values for the type field. A
choice without values is no condition at all, so a restriction holds exactly
when its list names some type.
-/
namespace ContentProjection

/-- Operations whose listings the policy restricts to types of its own. -/
inductive RestrictedOperation where
  | ideas | contributorContent | productContent | productContentCount
  deriving DecidableEq, Repr

def Call.restricted? : Call → Option RestrictedOperation
  | ideas _ _ => some .ideas
  | contributorContent _ _ => some .contributorContent
  | productContent _ _ => some .productContent
  | productContentCount _ _ => some .productContentCount
  | _ => none

def Policy.typesOf (policy : Policy) : RestrictedOperation → List String
  | .ideas => policy.ideaTypes
  | .contributorContent => policy.contributorContentTypes
  | .productContent | .productContentCount => policy.productContentTypes

/-- Some stored value of the type field is one of these. -/
def Entity.HasTypeAmong (e : Entity) (types : List String) : Prop :=
  ∃ item ∈ e.field "type", item.scalar ∈ types

namespace Answer

/-- The number of matches that an answer tells. -/
def count? : Answer → Option Nat
  | page p => some p.count
  | entity _ => none
  | count n => some n

def results : Answer → List Json
  | page p => p.results
  | _ => []

/-- An answer that counts the matches of a listing and shows some of them. -/
structure Counts (s : Store) (offset : Calendar.Offset) (l : Listing) (answer : Answer) : Prop where
  count : answer.count? = some (s.selected l.query).length
  results : ∃ ctx form, ∃ shown : List Entity, (∀ e ∈ shown, e ∈ s.selected l.query) ∧
    answer.results = shown.map fun e => (Projector.result ⟨s.answers, offset⟩ ctx form e).run

end Answer

/-- Whatever is asked of whatever content, an operation counts and shows nodes of its types. -/
def Policy.Restricts (policy : Policy) (operation : RestrictedOperation) : Prop :=
  ∀ (dump : Dump) (baseUrl : String) (offset : Calendar.Offset) (call : Call)
    (cache cache' : SchemaCache) (answer : Answer),
    call.restricted? = some operation →
    cache.Faithful (Store.ofDump dump baseUrl).storage.fieldDefinitions →
    ((Store.ofDump dump baseUrl).service offset policy).step cache call = (.ok answer, cache') →
    ∃ p l, ((Store.ofDump dump baseUrl).service offset policy).plan call = .ok p ∧
      p.listing? = some l ∧ answer.Counts (Store.ofDump dump baseUrl) offset l ∧
      ∀ e ∈ (Store.ofDump dump baseUrl).selected l.query, e.HasTypeAmong (policy.typesOf operation)

namespace Store

theorem hasTypeAmong_of_mem_selected {s : Store} {l : Listing} {types : List String}
    (hl : ("type", types) ∈ l.anyOfGroups) (hne : types ≠ []) {e : Entity}
    (he : e ∈ s.selected l.query) : e.HasTypeAmong types := by
  have hdescribes := ((s.mem_selected_iff l e).1 he).2
  obtain ⟨type, ht, hreaches⟩ := hdescribes.anyOfGroups _ hl hne
  have huncut : ∀ field rest, "type" ≠ field ++ referenceMark ++ rest := uncut_iff.2 (by decide)
  obtain ⟨item, hi, rfl⟩ := (s.reaches_iff_of_uncut huncut).1 hreaches
  exact ⟨item, hi, ht⟩

end Store

namespace Service

theorem ideaTypes_subset (policy : Policy) (requested : List String) :
    ∀ type ∈ ideaTypes policy requested, type ∈ policy.ideaTypes := by
  intro type ht
  unfold ideaTypes at ht
  dsimp only at ht
  split at ht
  · exact ht
  · exact List.contains_iff_mem.1 (List.mem_filter.1 ht).2

theorem ideaTypes_ne_nil {policy : Policy} (h : policy.ideaTypes ≠ []) (requested : List String) :
    ideaTypes policy requested ≠ [] := by
  unfold ideaTypes
  dsimp only
  split
  · exact h
  · next hkept => simpa using hkept

theorem anyOfGroups_ideaListing (categories tags types : List String) (options : ListOptions) :
    ("type", types) ∈ (ideaListing categories tags types options).anyOfGroups :=
  List.mem_append_right _ (List.mem_singleton.2 rfl)

end Service

/-- The listings that carry out an operation: by the types of the policy, and not by none. -/
theorem Policy.restricts_of_typesOf_ne_nil {policy : Policy} {operation : RestrictedOperation}
    (hne : policy.typesOf operation ≠ []) : policy.Restricts operation := by
  intro dump baseUrl offset call cache cache' answer hcall hcache hstep
  have ho := Store.ordered_ofDump dump baseUrl
  generalize Store.ofDump dump baseUrl = s at *
  obtain ⟨_, hanswer, -⟩ := (s.service offset policy).step_eq_answer hcache call
  have hok : (s.service offset policy).answer call = .ok answer :=
    (congrArg Prod.fst hanswer).symm.trans (congrArg Prod.fst hstep)
  have hplanned := hok
  rw [Service.answer_eq_plan_bind] at hplanned
  obtain ⟨p, hp, -⟩ := ok_of_bind hplanned
  have hpage : ∀ l ctx form, p = .page l ctx form → answer.Counts s offset l := by
    rintro l ctx form rfl
    obtain ⟨-, rfl⟩ := s.answered_of_plan_page offset policy hp hok
    exact ⟨rfl, ctx, form, s.listed l, fun e he => Store.mem_selected_of_mem_listed ho he, rfl⟩
  cases call with
  | ideas scope options =>
    cases hcall
    obtain ⟨categories, tags, rfl⟩ := Service.plan_ideas hp
    refine ⟨_, _, hp, rfl, hpage _ _ _ rfl, fun e he => ?_⟩
    obtain ⟨item, hi, ht⟩ := Store.hasTypeAmong_of_mem_selected
      (Service.anyOfGroups_ideaListing categories tags _ options)
      (Service.ideaTypes_ne_nil hne scope.types) he
    exact ⟨item, hi, Service.ideaTypes_subset policy scope.types _ ht⟩
  | contributorContent token options =>
    cases hcall
    obtain ⟨contributor, rfl⟩ := Service.plan_contributorContent hp
    refine ⟨_, _, hp, rfl, hpage _ _ _ rfl, fun e he => ?_⟩
    exact Store.hasTypeAmong_of_mem_selected (List.mem_singleton.2 rfl) hne he
  | productContent sku options =>
    cases hcall
    obtain ⟨product, rfl⟩ := Service.plan_productContent hp
    refine ⟨_, _, hp, rfl, hpage _ _ _ rfl, fun e he => ?_⟩
    exact Store.hasTypeAmong_of_mem_selected (List.mem_singleton.2 rfl) hne he
  | productContentCount sku published =>
    cases hcall
    obtain ⟨product, rfl⟩ := Service.plan_productContentCount hp
    rw [s.answer_of_plan_count offset policy hp] at hok
    cases hok
    refine ⟨_, _, hp, rfl,
      ⟨rfl, Context.default, .whole, [], fun e he => absurd he List.not_mem_nil, rfl⟩,
      fun e he => ?_⟩
    exact Store.hasTypeAmong_of_mem_selected (List.mem_singleton.2 rfl) hne he
  | _ => cases hcall

/-- A product that is a contributor too. -/
def referredNode : NodeRecord where
  id := 1
  uuid := Uuid.repeating 1
  bundle := "page"
  title := ""
  published := true
  created := 0
  changed := none
  fields := [("field_sku", [.value "1"])]

/-- A page that refers to it as both. -/
def referringNode : NodeRecord :=
  { referredNode with
    id := 2
    uuid := Uuid.repeating 2
    fields := [("field_contributor", [.target "1"]), ("field_products", [.target "1"])] }

def referringDump : Dump := { Dump.empty with nodes := [referredNode, referringNode] }

/-- A call of each operation that finds what it asks for there. -/
def RestrictedOperation.call : RestrictedOperation → Call
  | ideas => .ideas ⟨[], [], []⟩ ListOptions.default
  | contributorContent =>
    .contributorContent "11111111-1111-1111-1111-111111111111" ListOptions.default
  | productContent => .productContent "1" ListOptions.default
  | productContentCount => .productContentCount "1" true

namespace Store

def referring : Store := ofDump referringDump ""

variable {policy : Policy}

theorem skuListing_referring (options : ListOptions) :
    (referring.service .utc policy).skuListing "1" options =
      .ok (Service.productListing policy.productContentTypes referredNode.uuid options) := by
  have hload : referring.storage.loadByField .node "field_sku" "1" =
      .ok [referredNode.entity] := by decide +kernel
  change (referring.storage.loadByField .node "field_sku" "1" >>= _) = _
  rw [hload]
  rfl

theorem count_referring : referring.count
    (Service.productListing [] referredNode.uuid ListOptions.default).query = 1 := by
  decide +kernel

/-- A listing of few matches is answered and tells their number. -/
theorem counts_of_plan {call : Call} {l : Listing} {ctx : Context} {form : ResultForm} {n : Nat}
    (hplan : (referring.service .utc policy).plan call = .ok (.page l ctx form))
    (hcount : referring.count l.query = n + 1) (hfew : n + 1 ≤ 20) :
    ∃ answer n, (referring.service .utc policy).answer call = .ok answer ∧
      answer.count? = some (n + 1) := by
  have hs : referring.Sorts l.query :=
    Orderly.sorts (ordered_ofDump referringDump "" l.kind) (Or.inl (hcount ▸ hfew))
  have hanswer := referring.answer_of_plan_page .utc policy hplan
  rw [if_pos hs] at hanswer
  exact ⟨_, n, hanswer, congrArg some hcount⟩

/-- Without types to choose from, every operation counts a node that refers to what it names. -/
theorem counts_referring {operation : RestrictedOperation} (h : policy.typesOf operation = []) :
    ∃ answer n, (referring.service .utc policy).answer operation.call = .ok answer ∧
      answer.count? = some (n + 1) := by
  cases operation with
  | ideas =>
    have hplan : (referring.service .utc policy).plan RestrictedOperation.ideas.call =
        .ok (.page (Service.ideaListing [] [] (Service.ideaTypes policy []) ListOptions.default)
          ((referring.service .utc policy).listingContext ListOptions.default) .whole) := rfl
    have htypes : Service.ideaTypes policy [] = [] := h
    have hcount : referring.count (Service.ideaListing [] [] [] ListOptions.default).query = 2 := by
      decide +kernel
    rw [htypes] at hplan
    exact counts_of_plan hplan hcount (by decide)
  | contributorContent =>
    have hfind : referring.storage.findEntity .node "11111111-1111-1111-1111-111111111111" =
        .ok (some referredNode.entity) := by decide +kernel
    have hplan : (referring.service .utc policy).plan RestrictedOperation.contributorContent.call =
        .ok (.page (Service.contributorListing policy.contributorContentTypes referredNode.uuid
            ListOptions.default)
          ((referring.service .utc policy).listingContext ListOptions.default)
          .wholeWhenRecursing) := by
      change (referring.storage.findEntity .node _ >>= _) = _
      rw [hfind]
      rfl
    have hcount : referring.count
        (Service.contributorListing [] referredNode.uuid ListOptions.default).query = 1 := by
      decide +kernel
    have htypes : policy.contributorContentTypes = [] := h
    rw [htypes] at hplan
    exact counts_of_plan hplan hcount (by decide)
  | productContent =>
    have hplan : (referring.service .utc policy).plan RestrictedOperation.productContent.call =
        .ok (.page (Service.productListing policy.productContentTypes referredNode.uuid
            ListOptions.default)
          ((referring.service .utc policy).productContext ListOptions.default)
          .wholeWhenRecursing) := by
      change ((referring.service .utc policy).skuListing "1" _ >>= _) = _
      rw [skuListing_referring]
      rfl
    have htypes : policy.productContentTypes = [] := h
    rw [htypes] at hplan
    exact counts_of_plan hplan count_referring (by decide)
  | productContentCount =>
    have hplan : (referring.service .utc policy).plan
          RestrictedOperation.productContentCount.call =
        .ok (.count (Service.productListing policy.productContentTypes referredNode.uuid
          ListOptions.default)) := by
      change ((referring.service .utc policy).skuListing "1" _ >>= _) = _
      rw [skuListing_referring]
      rfl
    have htypes : policy.productContentTypes = [] := h
    rw [htypes] at hplan
    exact ⟨_, 0, referring.answer_of_plan_count .utc policy hplan, congrArg some count_referring⟩

end Store

theorem Policy.not_restricts_of_typesOf_eq_nil {policy : Policy} {operation : RestrictedOperation}
    (hempty : policy.typesOf operation = []) : ¬ policy.Restricts operation := by
  intro h
  obtain ⟨answer, n, hanswer, hn⟩ := Store.counts_referring hempty
  obtain ⟨cache', hstep, -⟩ := (Store.referring.service .utc policy).step_eq_answer
    SchemaCache.faithful_empty operation.call
  rw [hanswer] at hstep
  obtain ⟨_, l, -, -, hcounts, htypes⟩ := h referringDump "" .utc operation.call SchemaCache.empty
    cache' answer (by cases operation <;> rfl) SchemaCache.faithful_empty hstep
  have hlength : (Store.referring.selected l.query).length = n + 1 :=
    Option.some.inj (hcounts.count.symm.trans hn)
  obtain ⟨e, he⟩ := List.exists_mem_of_length_eq_add_one hlength
  obtain ⟨item, -, ht⟩ := htypes e he
  rw [hempty] at ht
  exact List.not_mem_nil ht

/-- An operation keeps to the types of its list if and only if the list names some type. -/
theorem Policy.restricts_iff_typesOf_ne_nil {policy : Policy} {operation : RestrictedOperation} :
    policy.Restricts operation ↔ policy.typesOf operation ≠ [] :=
  ⟨fun h hempty => not_restricts_of_typesOf_eq_nil hempty h, restricts_of_typesOf_ne_nil⟩

theorem Policy.not_restricts_ideas_of_no_types :
    ¬ ({ Policy.default with ideaTypes := [] } : Policy).Restricts .ideas :=
  not_restricts_of_typesOf_eq_nil rfl

end ContentProjection
