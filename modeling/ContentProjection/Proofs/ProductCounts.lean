import ContentProjection.Proofs.Refusals

/-!
# Counts of what product listings show

The content of a SKU is listed page by page, and its number can be asked for alone. Both
look for the same first node with the SKU and make the same query, whatever else the
listing is asked for, so they fail together or tell one number. The pages of the listing
hold that many results altogether.
-/
namespace ContentProjection

theorem pagesFilledBy_le {count size : Nat} (h : 1 ≤ size) : pagesFilledBy count size ≤ count := by
  refine Nat.le_of_not_lt fun hlt => ?_
  have hmul : count * size < count := (lt_pagesFilledBy_iff h).1 hlt
  exact absurd (Nat.le_mul_of_pos_right count h) (Nat.not_le.2 hmul)

/-- The number of results on so many pages, from the first one on. -/
def resultsOn (pages : UInt64 → Page) (count : Nat) : Nat :=
  ((List.range count).flatMap fun n => (pages (UInt64.ofNat n)).results).length

theorem resultsOn_add (pages : UInt64 → Page) (m n : Nat) :
    resultsOn pages (m + n) = resultsOn pages m +
      ((List.range n).flatMap fun k => (pages (UInt64.ofNat (m + k))).results).length := by
  rw [resultsOn, List.range_add, List.flatMap_append, List.length_append, List.flatMap_map]
  rfl

/-- Pages without results add nothing. -/
theorem resultsOn_eq_of_empty {pages : UInt64 → Page} {m n : Nat} (hmn : m ≤ n)
    (hn : n ≤ maxUInt64 + 1) (h : ∀ page : UInt64, m ≤ page.toNat → (pages page).results = []) :
    resultsOn pages n = resultsOn pages m := by
  obtain ⟨rest, rfl⟩ := Nat.exists_eq_add_of_le hmn
  have hempty : ∀ k ∈ List.range rest, (pages (UInt64.ofNat (m + k))).results = [] := by
    intro k hk
    have hword : (UInt64.ofNat (m + k)).toNat = m + k := by
      refine UInt64.toNat_ofNat_of_lt' (Nat.lt_of_lt_of_le ?_ hn)
      exact Nat.add_lt_add_left (List.mem_range.1 hk) m
    exact h _ (hword.symm ▸ Nat.le_add_right m k)
  rw [resultsOn_add, List.flatMap_eq_nil_iff.2 hempty, List.length_nil, Nat.add_zero]

namespace Service

/-- The content of a SKU is counted alone, and listed on these pages. -/
structure CountsContent (s : Service (Except Fault)) (sku : String) (options : ListOptions)
    (count : Nat) (pages : UInt64 → Page) : Prop where
  counted : s.Answers (.productContentCount sku options.published) (.ok (.count count))
  listed : ∀ page, s.Answers (.productContent sku { options with page }) (.ok (.page (pages page)))
  told : ∀ page, (pages page).count = count
  filled : resultsOn pages (pagesFilledBy count options.limit.toNat) = count
  /-- A count is a 64-bit word. Only as many matches as there are ids would pass it. -/
  total : count ≤ maxUInt64 → resultsOn pages (maxUInt64 + 1) = count

/-- A call that lists entities page by page shows as many results as it counts. -/
theorem Lists.countsContent {s : Service (Except Fault)} {sku : String} {options : ListOptions}
    {published : Option Bool} {shown : Entity → Json} {listed : List Entity}
    (h : s.Lists (.productContent sku) options published shown listed)
    (hl : 1 ≤ options.limit.toNat)
    (hcount : s.Answers (.productContentCount sku options.published) (.ok (.count listed.length))) :
    s.CountsContent sku options listed.length fun page =>
      { limit := options.limit, page, published, count := listed.length
        results := (pageWindow listed page options.limit).map shown } := by
  have hfilled : resultsOn (fun page =>
      { limit := options.limit, page, published, count := listed.length
        results := (pageWindow listed page options.limit).map shown })
      (pagesFilledBy listed.length options.limit.toNat) = listed.length := by
    simp only [resultsOn]
    rw [← List.map_flatMap, h.covered, List.length_map]
  refine ⟨hcount, h.answered, fun _ => rfl, hfilled, fun hwords => ?_⟩
  rw [← hfilled]
  refine resultsOn_eq_of_empty (Nat.le_succ_of_le (Nat.le_trans (pagesFilledBy_le hl) hwords))
    (Nat.le_refl _) fun page hp => ?_
  rw [h.exhausted hwords page hp, List.map_nil]

end Service

namespace Store

variable {s : Store} (offset : Calendar.Offset) (policy : Policy) {sku : String}

/-- Content is listed for a node that stores the SKU, whatever else is asked for. -/
theorem exists_skuListing (h : ∃ n ∈ s.nodes.entities, n.Stores "field_sku" sku) :
    ∃ product ∈ s.nodes.entities, product.Stores "field_sku" sku ∧
      ∀ options, (s.service offset policy).skuListing sku options =
        .ok (Service.productListing policy.productContentTypes product.uuid options) := by
  obtain ⟨n, hn, hsku⟩ := h
  have hmem : n ∈ s.entitiesHolding .node "field_sku" sku :=
    List.mem_filter.2 ⟨hn, holds_iff_stores.2 hsku⟩
  obtain ⟨product, rest, hfound⟩ := List.exists_cons_of_ne_nil (List.ne_nil_of_mem hmem)
  have hproduct : product ∈ s.entitiesHolding .node "field_sku" sku :=
    hfound ▸ List.mem_cons_self
  obtain ⟨hnode, hholds⟩ := List.mem_filter.1 hproduct
  refine ⟨product, hnode, holds_iff_stores.1 hholds, fun options => ?_⟩
  have hload : s.storage.loadByField .node "field_sku" sku = .ok (product :: rest) :=
    congrArg Except.ok hfound
  change (s.storage.loadByField .node "field_sku" sku >>= _) = _
  rw [hload]
  rfl

/-- The content of a product is counted alone. If it can be sorted, then its pages show as many
results. If not, no page is shown. -/
structure CountsProduct (s : Store) (offset : Calendar.Offset) (policy : Policy) (sku : String)
    (options : ListOptions) (product : Entity) : Prop where
  stores : product.Stores "field_sku" sku
  counted : (s.service offset policy).Answers (.productContentCount sku options.published)
    (.ok (.count (s.count
      (Service.productListing policy.productContentTypes product.uuid options).query)))
  listed : s.Sorts (Service.productListing policy.productContentTypes product.uuid options).query →
    ∃ pages, (s.service offset policy).CountsContent sku options (s.count
      (Service.productListing policy.productContentTypes product.uuid options).query) pages
  unlisted :
    ¬ s.Sorts (Service.productListing policy.productContentTypes product.uuid options).query →
      (s.service offset policy).Unlisted (.productContent sku) options
  sorts : s.Orderly (Service.productListing policy.productContentTypes product.uuid options).query →
    s.Sorts (Service.productListing policy.productContentTypes product.uuid options).query

theorem countsProduct_of_skuListing (ho : ∀ kind, (s.shelf kind).Ordered) {options : ListOptions}
    (hl : 1 ≤ options.limit.toNat) {product : Entity} (hstores : product.Stores "field_sku" sku)
    (hlisting : ∀ options, (s.service offset policy).skuListing sku options =
      .ok (Service.productListing policy.productContentTypes product.uuid options)) :
    s.CountsProduct offset policy sku options product := by
  have hpages (page : UInt64) :
      (s.service offset policy).plan (.productContent sku { options with page }) =
        .ok (.page ((Service.productListing policy.productContentTypes product.uuid options).onPage
          page options.limit) ((s.service offset policy).productContext options)
            .wholeWhenRecursing) := by
    change ((s.service offset policy).skuListing sku _ >>= _) = _
    rw [hlisting]
    rfl
  have hplan : (s.service offset policy).plan (.productContentCount sku options.published) =
      .ok (.count (Service.productListing policy.productContentTypes product.uuid
        { ListOptions.default with published := options.published })) := by
    change ((s.service offset policy).skuListing sku _ >>= _) = _
    rw [hlisting]
    rfl
  have hcounted := Service.answers_of_eq (s.answer_of_plan_count offset policy hplan)
  refine ⟨hstores, hcounted, fun hs => ?_, ?_, Orderly.sorts (ho .node)⟩
  · have hlists := lists_of_plan ho offset policy (.productContent sku) hpages hl hs
    rw [← length_matching]
    exact ⟨_, hlists.countsContent hl (length_matching s _ ▸ hcounted)⟩
  · exact unlisted_of_plan offset policy (.productContent sku) hpages

/-- The count of a SKU's content is what every page of its listing tells, and the number of
results on all pages, if the content can be sorted. Both fail, and in the same way, if no node
stores the SKU. -/
theorem count_agrees_with_listing (dump : Dump) (baseUrl : String) (offset : Calendar.Offset)
    (policy : Policy) (sku : String) {options : ListOptions} (hl : 1 ≤ options.limit.toNat) :
    (∃ product ∈ (ofDump dump baseUrl).nodes.entities,
      (ofDump dump baseUrl).CountsProduct offset policy sku options product) ∨
    (∀ n ∈ (ofDump dump baseUrl).nodes.entities, ¬ n.Stores "field_sku" sku) ∧
      ((ofDump dump baseUrl).service offset policy).Answers
        (.productContentCount sku options.published) (.error .notFound) ∧
      ∀ page, ((ofDump dump baseUrl).service offset policy).Answers
        (.productContent sku { options with page }) (.error .notFound) := by
  by_cases h : ∃ n ∈ (ofDump dump baseUrl).nodes.entities, n.Stores "field_sku" sku
  · obtain ⟨product, hmem, hstores, hlisting⟩ := exists_skuListing offset policy h
    exact Or.inl ⟨product, hmem,
      countsProduct_of_skuListing offset policy (ordered_ofDump dump baseUrl) hl hstores hlisting⟩
  · have hnone : ∀ n ∈ (ofDump dump baseUrl).nodes.entities, ¬ n.Stores "field_sku" sku :=
      fun n hn hsku => h ⟨n, hn, hsku⟩
    refine Or.inr ⟨hnone, ?_, fun page => ?_⟩
    · exact Service.answers_of_eq
        ((answer_eq_error_iff _ offset policy _).2 (Or.inl ⟨hnone, rfl⟩))
    · exact Service.answers_of_eq
        ((answer_eq_error_iff _ offset policy _).2 (Or.inl ⟨hnone, rfl⟩))

/-- A product and two articles about it. -/
def glueDump : Dump :=
  let node (id : EntityId) (digit : Nat) (bundle : String) (field : String × List Item) :
      NodeRecord := ⟨id, Uuid.repeating digit, bundle, "", true, 0, none, [field]⟩
  { Dump.empty with
    nodes := [node 3 3 "product" ("field_sku", [.value "70/237"]),
      node 1 1 "article" ("field_products", [.target "3"]),
      node 2 2 "article" ("field_products", [.target "3"])] }

/-- Shown one by one, with the articles that they refer to. -/
def oneByOne : ListOptions := ⟨0, 1, true, 1, true⟩

theorem glue_count_agrees_with_listing :
    1 ≤ oneByOne.limit.toNat ∧
    ∃ pages, ((ofDump glueDump "").service .utc Policy.default).CountsContent "70/237" oneByOne 2
      pages := by
  have hl : 1 ≤ oneByOne.limit.toNat := by decide
  have htwo : (((ofDump glueDump "").service .utc Policy.default).answer
      (.productContentCount "70/237" oneByOne.published)).toOption.bind Answer.count? = some 2 := by
    decide +kernel
  refine ⟨hl, ?_⟩
  rcases count_agrees_with_listing glueDump "" .utc Policy.default "70/237" hl with
    ⟨product, -, hproduct⟩ | ⟨-, hmissing, -⟩
  · rw [Service.answers_iff.1 hproduct.counted] at htwo
    have hcount := Option.some.inj htwo
    obtain ⟨pages, hcounts⟩ := hproduct.listed (hproduct.sorts (Or.inl (hcount ▸ by decide)))
    rw [hcount] at hcounts
    exact ⟨pages, hcounts⟩
  · rw [Service.answers_iff.1 hmissing] at htwo
    cases htwo

/-- A product that the articles of `mixedArticles` are about. -/
def mixedProduct : NodeRecord :=
  ⟨22, Uuid.ofNat 22, "product", "", true, 0, none, [("field_sku", [.value "S-1"])]⟩

/-- The product and its articles, which differ in when they were created. -/
def mixedGlue : Dump :=
  let articles := mixedArticles "created" [("field_products", [.target "22"])]
  { articles with nodes := articles.nodes ++ [mixedProduct] }

/-- Twenty-one articles are counted, and no page shows any of them. -/
theorem mixedGlue_counted_unlisted :
    1 ≤ ListOptions.default.limit.toNat ∧
    ((ofDump mixedGlue "").service .utc Policy.default).Answers
      (.productContentCount "S-1" ListOptions.default.published) (.ok (.count 21)) ∧
    ((ofDump mixedGlue "").service .utc Policy.default).Unlisted (.productContent "S-1")
      ListOptions.default := by
  have hl : 1 ≤ ListOptions.default.limit.toNat := by decide
  have hload : (ofDump mixedGlue "").storage.loadByField .node "field_sku" "S-1" =
      .ok [mixedProduct.entity] := by decide +kernel
  have hlisting (options : ListOptions) :
      ((ofDump mixedGlue "").service .utc Policy.default).skuListing "S-1" options =
        .ok (Service.productListing Policy.default.productContentTypes mixedProduct.entity.uuid
          options) := by
    change ((ofDump mixedGlue "").storage.loadByField .node "field_sku" "S-1" >>= _) = _
    rw [hload]
    rfl
  have hstores : mixedProduct.entity.Stores "field_sku" "S-1" :=
    ⟨.value "S-1", by decide +kernel, rfl⟩
  have hproduct := countsProduct_of_skuListing .utc Policy.default (ordered_ofDump mixedGlue "") hl
    hstores hlisting
  have hcount : (ofDump mixedGlue "").count (Service.productListing
      Policy.default.productContentTypes mixedProduct.entity.uuid ListOptions.default).query =
        21 := by decide +kernel
  exact ⟨hl, hcount ▸ hproduct.counted, hproduct.unlisted (by decide +kernel)⟩

end Store

end ContentProjection
