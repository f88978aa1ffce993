import ContentProjection.Proofs.DepthBudget
import ContentProjection.Proofs.Drafts
import ContentProjection.Proofs.QueryMeaning

/-!
# Content listed by what it refers to

Storage finds the content that refers to an entity by a path that ends at the
UUID of the entity, and a projection shows the same UUID in a stub. Both start
from the stored items of one field and pass over items that lead nowhere. They
meet the same entities when the bundle declares the field once, since then both
take its kind from the same definition, and when no record gives its entity
another UUID to be found by than the one that is shown.
-/
namespace ContentProjection

/-- No term hides a base field behind one of its own. -/
def Dump.TermsKeepBase (d : Dump) : Prop := ∀ r ∈ d.terms, r.KeepsBase

instance (d : Dump) : Decidable d.TermsKeepBase :=
  inferInstanceAs (Decidable (∀ r ∈ d.terms, r.KeepsBase))

/-- An array under a name has this element. -/
def Members.Shows (object : Members Json) (name : String) (element : Json) : Prop :=
  ∃ items, object.get? name = some (.arr items) ∧ element ∈ items

/-- An array under a name has the stub of an entity with this UUID. -/
def Members.ShowsStub (object : Members Json) (name uuid : String) : Prop :=
  ∃ type, object.Shows name (.obj [("uuid", .str uuid), ("type", type)])

/-- A field, not a path, that bundles declare themselves and that is not kept from view. -/
structure IsShownField (field : String) : Prop where
  dotless : '.' ∉ field.toList
  declared : field ∉ NodeRecord.baseNames
  shown : Projection.isIgnored field = false

theorem isShownField_termField (vocabulary : ListedVocabulary) :
    IsShownField vocabulary.termField := by
  cases vocabulary <;> exact ⟨by decide, by decide, by decide⟩

namespace Store

/-- The bundle of a node declares a field once, as any number of references to a kind. -/
def RefersBy (s : Store) (n : Entity) (field : String) (kind : EntityKind) : Prop :=
  ∃ schema target, s.nodes.bundle? n.bundle = some schema ∧
    schema.filter (fun d => d.name == field) = [⟨field, .entityReference target, true⟩] ∧
    target.entityKind? = some kind

/-- Every entity is found by the UUID that it shows. -/
def FindsShownUuids (s : Store) : Prop :=
  ∀ kind, ∀ e ∈ (s.shelf kind).entities, e.field "uuid" = [.value e.uuid.text]

theorem findsShownUuids_ofDump {dump : Dump} (hn : dump.KeepsBase) (ht : dump.TermsKeepBase)
    (baseUrl : String) : (ofDump dump baseUrl).FindsShownUuids := by
  intro kind e he
  cases kind with
  | node =>
    obtain ⟨r, hr, rfl⟩ := mem_nodes_ofDump he
    rw [(hn r hr).field_uuid, r.entity_eq]
  | taxonomyTerm =>
    obtain ⟨r, hr, rfl⟩ := mem_terms_ofDump he
    rw [(ht r hr).field_uuid, r.entity_eq]

/-- The path to the UUID of what a field refers to finds the UUIDs that its targets store. -/
theorem reaches_uuidPath_iff_stores (s : Store) {n : Entity} {field uuid : String}
    (h : '.' ∉ field.toList) :
    s.Reaches n (uuidPath field) uuid ↔
      ∃ target ∈ s.targetsOf n field, target.Stores "uuid" uuid := by
  have hpath : uuidPath field = field ++ referenceMark ++ "uuid" := by
    rw [String.append_assoc]
    rfl
  have huncut : ∀ field rest, "uuid" ≠ field ++ referenceMark ++ rest := uncut_iff.2 (by decide)
  rw [hpath, s.reaches_iff_of_cut (firstCut_of_dotless h "uuid")]
  simp only [s.reaches_iff_of_uncut huncut]

section Path

variable {s : Store} (hs : s.FindsShownUuids) {n : Entity} {field : String}
include hs

theorem stores_uuid_iff {kind : EntityKind} {id : EntityId} {e : Entity}
    (he : s.get? kind id = some e) {uuid : String} : e.Stores "uuid" uuid ↔ e.uuid.text = uuid := by
  rw [Entity.Stores, hs kind e (Shelf.mem_of_get? he)]
  simp [Item.scalar]

/-- Where every entity stores the UUID that it shows, the path finds the UUIDs of its targets. -/
theorem reaches_uuidPath_iff (h : '.' ∉ field.toList) {uuid : String} :
    s.Reaches n (uuidPath field) uuid ↔
      ∃ target ∈ s.targetsOf n field, target.uuid.text = uuid := by
  rw [s.reaches_uuidPath_iff_stores h]
  refine exists_congr fun target => and_congr_right fun ht => ?_
  obtain ⟨item, -, id, -, hget⟩ := s.mem_targetsOf_iff.1 ht
  exact stores_uuid_iff hs hget

theorem fulfils_uuidPath_iff (h : '.' ∉ field.toList) {uuid : String} :
    s.fulfils n (.equals ⟨uuidPath field, uuid⟩) = true ↔
      ∃ target ∈ s.targetsOf n field, target.uuid.text = uuid := by
  rw [fulfils, s.meets_iff_reaches, reaches_uuidPath_iff hs h]

end Path

section Projection

variable {s : Store} {n : Entity} {field : String} {kind : EntityKind}
  (h : s.RefersBy n field kind) (hk : n.kind = .node)
include h hk

theorem RefersBy.targetKindOf_eq : s.targetKindOf n field = kind := by
  obtain ⟨schema, target, hschema, honce, htarget⟩ := h
  have hfind : schema.find? (fun d => d.name == field) =
      some ⟨field, .entityReference target, true⟩ := by
    rw [← List.head?_filter, honce]
    rfl
  have hbundle : (s.shelf n.kind).bundle? n.bundle = some schema := by rw [hk]; exact hschema
  simp only [targetKindOf, hbundle, Option.getD_some, hfind, Option.map_some, htarget]

theorem RefersBy.targets_eq :
    s.answers.targets kind true (n.field field) = s.targetsOf n field := by
  rw [targetsOf, h.targetKindOf_eq hk, List.filterMap_filterMap]
  rfl

variable (hf : IsShownField field) {ctx : Context} (ha : ctx.allows field = true)
include hf ha

/-- The outline of a node has the targets of the field, unless nothing is stored in it. -/
theorem RefersBy.get?_outline (offset : Calendar.Offset) :
    (Projector.outline ⟨s.answers, offset⟩ ctx n).get? field =
      if (n.field field).isEmpty then (Projection.emptyValue? .node ctx.omitsEmpty).map .value
      else some (.targets true (s.targetsOf n field)) := by
  have htargets := h.targets_eq hk
  obtain ⟨schema, target, hschema, honce, htarget⟩ := h
  have hall : (s.schemaOf n.kind n.bundle).filter (fun d => d.name == field) =
      [⟨field, .entityReference target, true⟩] := by
    have hown : nodeOwnFields.filter (fun d => d.name == field) = [] := by
      refine List.filter_eq_nil_iff.2 fun d hd hname => hf.declared ?_
      exact beq_iff_eq.1 hname ▸ List.mem_map_of_mem hd
    rw [hk, schemaOf, shelf, hschema]
    change (nodeOwnFields ++ schema).filter _ = _
    rw [List.filter_append, hown, honce, List.nil_append]
  have hslot := Projector.get?_outline_of_defined_once ⟨s.answers, offset⟩ ctx hk
    (d := ⟨field, .entityReference target, true⟩) hall
  rw [hslot, Projector.slot?, hk, ha, hf.shown]
  simp only [FieldType.targetKind?, htarget, htargets]
  rfl

/-- Shown without following references, the field has the stubs of its targets. -/
theorem RefersBy.shows_filled_iff (offset : Calendar.Offset) {element : Json} :
    (Projector.filled ⟨s.answers, offset⟩ ctx Projection.stub n).Shows field element ↔
      ∃ target ∈ s.targetsOf n field, Projection.stub target = element := by
  rw [Members.Shows, Projector.filled, Members.get?_mapValues, h.get?_outline hk hf ha]
  cases hi : (n.field field).isEmpty with
  | true =>
    have hnone : s.targetsOf n field = [] := by
      rw [targetsOf, List.isEmpty_iff.1 hi]
      rfl
    rw [hnone]
    cases ctx.omitsEmpty <;> simp [Projection.emptyValue?, Slot.fill]
  | false => simp [Slot.fill, Projection.together]

/-- Among these stubs, a UUID is shown if some target has it. -/
theorem RefersBy.showsStub_filled_iff (offset : Calendar.Offset) {uuid : String} :
    (Projector.filled ⟨s.answers, offset⟩ ctx Projection.stub n).ShowsStub field uuid ↔
      ∃ target ∈ s.targetsOf n field, target.uuid.text = uuid := by
  simp only [Members.ShowsStub, h.shows_filled_iff hk hf ha]
  constructor
  · rintro ⟨type, target, ht, hstub⟩
    simp only [Projection.stub, Json.obj.injEq, List.cons.injEq, Prod.mk.injEq, Json.str.injEq,
      true_and] at hstub
    exact ⟨target, ht, hstub.1⟩
  · rintro ⟨target, ht, rfl⟩
    exact ⟨.str target.bundle, target, ht, rfl⟩

/-- A node fulfils the condition on a UUID if and only if it shows the UUID in a stub. -/
theorem RefersBy.fulfils_iff_showsStub (hs : s.FindsShownUuids) (offset : Calendar.Offset)
    {uuid : String} :
    s.fulfils n (.equals ⟨uuidPath field, uuid⟩) = true ↔
      (Projector.filled ⟨s.answers, offset⟩ ctx Projection.stub n).ShowsStub field uuid :=
  (fulfils_uuidPath_iff hs hf.dotless).trans (h.showsStub_filled_iff hk hf ha offset).symm

end Projection

theorem mem_matching_iff (s : Store) (l : Listing) (e : Entity) :
    e ∈ s.matching l ↔ e ∈ (s.shelf l.kind).entities ∧ l.Describes s e := by
  rw [matching, (arranged_perm _ _).mem_iff, s.mem_selected_iff]

end Store

theorem NodeRecord.KeepsBase.passes_iff {r : NodeRecord} (h : r.KeepsBase) (published : Bool) :
    r.entity.Passes (some published) ↔ (published = true → r.entity.published = true) := by
  have hflag : r.entity.published = r.published := by rw [r.entity_eq]
  rw [Entity.Passes, Entity.Stores, Entity.Stores, h.field_status, hflag]
  cases published <;> cases r.published <;> simp [flagItem, Item.scalar]

namespace Store

theorem describes_termContentListing_iff {s : Store} {e : Entity} (vocabulary : ListedVocabulary)
    (uuid : Uuid) (options : ListOptions) :
    (Service.termContentListing vocabulary uuid options).Describes s e ↔
      e.Passes (some options.published) ∧
        s.Reaches e (uuidPath vocabulary.termField) uuid.text := by
  simp [Service.termContentListing]

theorem plan_termContent_of_found {s : Store} (offset : Calendar.Offset) (policy : Policy)
    (vocabulary : ListedVocabulary) {token : String} {term : Entity}
    (h : (s.answers.findEntity .taxonomyTerm token).run = some term) (options : ListOptions) :
    (s.service offset policy).plan (.termContent vocabulary token options) =
      .ok (.page (Service.termContentListing vocabulary term.uuid options)
        ((s.service offset policy).listingContext options) .wholeWhenRecursing) := by
  change (s.storage.findEntity .taxonomyTerm token >>= _) = _
  rw [s.storage_findEntity, h]
  rfl

theorem mem_shelf_of_findEntity {s : Store} {kind : EntityKind} {token : String} {e : Entity}
    (h : (s.answers.findEntity kind token).run = some e) : e ∈ (s.shelf kind).entities := by
  unfold Storage.findEntity at h
  split at h
  · cases h
  · cases ht : Token.ofString token with
    | uuid uuid =>
      rw [ht] at h
      obtain ⟨id, -, hget⟩ := Option.bind_eq_some_iff.1 h
      exact Shelf.mem_of_get? hget
    | publicAlias name =>
      simp only [ht, Id.run_bind] at h
      split at h
      · exact Shelf.mem_of_get? h
      · cases h

/-- Terms of a dump are told apart by their UUIDs. -/
theorem term_eq_of_uuid_eq {dump : Dump} {baseUrl : String}
    (hu : (dump.terms.map TermRecord.uuid).Nodup) {e e' : Entity}
    (he : e ∈ (ofDump dump baseUrl).terms.entities)
    (he' : e' ∈ (ofDump dump baseUrl).terms.entities) (h : e.uuid = e'.uuid) : e = e' := by
  obtain ⟨r, hr, rfl⟩ := mem_terms_ofDump he
  obtain ⟨r', hr', rfl⟩ := mem_terms_ofDump he'
  rw [r.entity_eq, r'.entity_eq] at h
  rw [List.inj_on_of_nodup_map hu hr hr' h]

/-- The listing of the content of a term, for one publication filter: if it can be sorted, then
every page is a window of the same nodes, and they are those that pass the filter and show the stub
of the term. -/
structure ListsReferring (s : Store) (offset : Calendar.Offset) (policy : Policy) (ctx : Context)
    (vocabulary : ListedVocabulary) (token : String) (term : Entity) (published : Bool)
    (listed : List Entity) : Prop where
  distinct : listed.Nodup
  mem_iff : ∀ n, n ∈ listed ↔ n ∈ s.nodes.entities ∧ (published = true → n.published = true) ∧
    ∃ object, s.answers.Projects offset ctx n object ∧
      object.ShowsStub vocabulary.termField term.uuid.text
  /-- Where the field refers to terms, the shown stub is that of the term itself. -/
  own_stub : ∀ n ∈ s.nodes.entities, s.RefersBy n vocabulary.termField .taxonomyTerm →
    ∀ object, s.answers.Projects offset ctx n object →
      (object.ShowsStub vocabulary.termField term.uuid.text ↔
        object.Shows vocabulary.termField (Projection.stub term))
  answered : ∀ options : ListOptions, options.published = published →
    s.Sorts (Service.termContentListing vocabulary term.uuid options).query →
    ∀ cache : SchemaCache, cache.Faithful s.storage.fieldDefinitions →
      ((s.service offset policy).step cache (.termContent vocabulary token options)).1 =
        .ok (.page
          { limit := options.limit, page := options.page, published := some published
            count := listed.length
            results := ((listed.drop (Slice.ofPage options.page options.limit).offset.toNat).take
                options.limit.toNat).map fun n =>
              (Projector.result ⟨s.answers, offset⟩
                ((s.service offset policy).listingContext options) .wholeWhenRecursing n).run })
  refused : ∀ options : ListOptions, options.published = published →
    ¬ s.Sorts (Service.termContentListing vocabulary term.uuid options).query →
    ∀ cache : SchemaCache, cache.Faithful s.storage.fieldDefinitions →
      ((s.service offset policy).step cache (.termContent vocabulary token options)).1 =
        .error .unsortable
  sorts : ∀ options : ListOptions, options.published = published →
    s.Orderly (Service.termContentListing vocabulary term.uuid options).query →
      s.Sorts (Service.termContentListing vocabulary term.uuid options).query

section Referring

variable {dump : Dump} {baseUrl : String} (offset : Calendar.Offset) {ctx : Context}
  (hc : ctx.recurse = false)

include hc

theorem projects_flat_iff {s : Store} {n : Entity} {object : Json.Object} :
    s.answers.Projects offset ctx n object ↔
      object = Projector.filled ⟨s.answers, offset⟩ ctx Projection.stub n := by
  have hlevels : ctx.levels Depth.root = 0 := by rw [Context.levels, hc]; rfl
  have hflat := Projector.projects_of_no_level s.answers offset hlevels n
  rw [Storage.projects_iff] at hflat ⊢
  rw [hflat]

/-- Where the field refers to terms, the UUID of a term is shown in the stub of that term. -/
theorem showsStub_iff_shows_stub (hu : (dump.terms.map TermRecord.uuid).Nodup) {n term : Entity}
    {field : String} (hmem : n ∈ (ofDump dump baseUrl).nodes.entities)
    (hterm : term ∈ (ofDump dump baseUrl).terms.entities)
    (h : (ofDump dump baseUrl).RefersBy n field .taxonomyTerm) (hf : IsShownField field)
    (ha : ctx.allows field = true) {object : Json.Object}
    (hp : (ofDump dump baseUrl).answers.Projects offset ctx n object) :
    object.ShowsStub field term.uuid.text ↔ object.Shows field (Projection.stub term) := by
  have hk := kind_of_mem_nodes hmem
  rw [(projects_flat_iff offset hc).1 hp]
  constructor
  · intro hstub
    obtain ⟨target, htarget, htext⟩ := (h.showsStub_filled_iff hk hf ha offset).1 hstub
    obtain ⟨item, -, id, -, hget⟩ := (mem_targetsOf_iff _).1 htarget
    rw [h.targetKindOf_eq hk] at hget
    have heq : target = term :=
      term_eq_of_uuid_eq hu (Shelf.mem_of_get? hget) hterm (Uuid.text_inj.1 htext)
    exact (h.shows_filled_iff hk hf ha offset).2 ⟨target, htarget, heq ▸ rfl⟩
  · exact fun hshown => ⟨_, hshown⟩

/-- The nodes that the listing of a term matches are those that pass its filter and show the
UUID of the term in a stub. -/
theorem mem_matching_termContent_iff (hn : dump.KeepsBase) (ht : dump.TermsKeepBase)
    {vocabulary : ListedVocabulary} (ha : ctx.allows vocabulary.termField = true)
    (hr : ∀ n ∈ (ofDump dump baseUrl).nodes.entities,
      ∃ kind, (ofDump dump baseUrl).RefersBy n vocabulary.termField kind)
    (uuid : Uuid) (options : ListOptions) (n : Entity) :
    n ∈ (ofDump dump baseUrl).matching (Service.termContentListing vocabulary uuid options) ↔
      n ∈ (ofDump dump baseUrl).nodes.entities ∧
      (options.published = true → n.published = true) ∧
      ∃ object, (ofDump dump baseUrl).answers.Projects offset ctx n object ∧
        object.ShowsStub vocabulary.termField uuid.text := by
  rw [mem_matching_iff]
  refine and_congr_right fun hmem => ?_
  rw [describes_termContentListing_iff]
  have hk := kind_of_mem_nodes hmem
  have hf := isShownField_termField vocabulary
  obtain ⟨kind, href⟩ := hr n hmem
  refine and_congr ?_ ?_
  · obtain ⟨r, hrecord, rfl⟩ := mem_nodes_ofDump hmem
    exact (hn r hrecord).passes_iff options.published
  · rw [reaches_uuidPath_iff (findsShownUuids_ofDump hn ht baseUrl) hf.dotless,
      ← href.showsStub_filled_iff hk hf ha offset]
    simp only [projects_flat_iff offset hc, exists_eq_left]

end Referring

/-- Over every dump whose records keep their base fields and whose terms have different UUIDs:
a node meets the condition on what a field refers to if and only if its projection shows the
UUID in a stub under that field, and the content of a term is the nodes that show its stub, if they
can be sorted. -/
theorem referring_nodes_show_stubs (dump : Dump) (baseUrl : String) (offset : Calendar.Offset)
    (hn : dump.KeepsBase) (ht : dump.TermsKeepBase)
    (hu : (dump.terms.map TermRecord.uuid).Nodup) {ctx : Context} (hc : ctx.recurse = false) :
    (∀ n ∈ (ofDump dump baseUrl).nodes.entities, ∀ field kind, IsShownField field →
      (ofDump dump baseUrl).RefersBy n field kind → ctx.allows field = true → ∀ uuid : String,
        ∃ object, (ofDump dump baseUrl).answers.Projects offset ctx n object ∧
          ((ofDump dump baseUrl).fulfils n (.equals ⟨uuidPath field, uuid⟩) = true ↔
            object.ShowsStub field uuid)) ∧
    ∀ (policy : Policy) (vocabulary : ListedVocabulary) (token : String) (term : Entity),
      ((ofDump dump baseUrl).answers.findEntity .taxonomyTerm token).run = some term →
      (∀ n ∈ (ofDump dump baseUrl).nodes.entities,
        ∃ kind, (ofDump dump baseUrl).RefersBy n vocabulary.termField kind) →
      ctx.allows vocabulary.termField = true → ∀ published, ∃ listed,
        (ofDump dump baseUrl).ListsReferring offset policy ctx vocabulary token term published
          listed := by
  constructor
  · intro n hmem field kind hf href ha uuid
    refine ⟨_, (projects_flat_iff offset hc).2 rfl, ?_⟩
    exact href.fulfils_iff_showsStub (kind_of_mem_nodes hmem) hf ha
      (findsShownUuids_ofDump hn ht baseUrl) offset
  · intro policy vocabulary token term hfound hr ha published
    have hordered := ordered_ofDump dump baseUrl
    refine ⟨(ofDump dump baseUrl).matching
      (Service.termContentListing vocabulary term.uuid { ListOptions.default with published }), ?_⟩
    constructor
    case distinct => exact nodup_matching hordered _
    case mem_iff => exact mem_matching_termContent_iff offset hc hn ht ha hr term.uuid _
    case own_stub =>
      intro n hmem href object hp
      exact showsStub_iff_shows_stub offset hc hu hmem (mem_shelf_of_findEntity hfound) href
        (isShownField_termField vocabulary) ha hp
    case answered =>
      rintro options rfl hsorts cache hcache
      obtain ⟨cache', hstep, -⟩ := ((ofDump dump baseUrl).service offset policy).step_eq_answer
        hcache (.termContent vocabulary token options)
      rw [hstep, answer_of_plan_page _ _ _
        (plan_termContent_of_found offset policy vocabulary hfound options), if_pos hsorts,
        shownPage, listed_eq hordered, ← length_matching]
      rfl
    case refused =>
      rintro options rfl hsorts cache hcache
      obtain ⟨cache', hstep, -⟩ := ((ofDump dump baseUrl).service offset policy).step_eq_answer
        hcache (.termContent vocabulary token options)
      rw [hstep, answer_of_plan_page _ _ _
        (plan_termContent_of_found offset policy vocabulary hfound options), if_neg hsorts]
    case sorts => exact fun options _ => Orderly.sorts (hordered .node)

end Store

def newsTerm : TermRecord where
  id := 1
  uuid := Uuid.repeating 1
  vocabulary := "category"
  name := "News"
  description := ""
  weight := 0
  parent := none
  changed := 0
  fields := []

/-- An article that refers to a term that does not exist, and then to the term. -/
def newsNode : NodeRecord where
  id := 1
  uuid := Uuid.repeating 0
  bundle := "article"
  title := ""
  published := true
  created := 0
  changed := none
  fields := [("field_category", [.target "9", .target "1"])]

def newsDump : Dump :=
  { Dump.empty with
    nodeBundles := [("article", [⟨"field_category", .entityReference .taxonomyTerm, true⟩])]
    nodes := [newsNode]
    terms := [newsTerm] }

theorem Store.newsNode_shows_stub :
    (newsDump.KeepsBase ∧ newsDump.TermsKeepBase ∧
      (newsDump.terms.map TermRecord.uuid).Nodup ∧ Context.default.recurse = false) ∧
    ∃ listed, newsNode.entity ∈ listed ∧
      (ofDump newsDump "").ListsReferring .utc Policy.default Context.default .category
        newsTerm.uuid.text newsTerm.entity true listed := by
  have hn : newsDump.KeepsBase := by decide
  have ht : newsDump.TermsKeepBase := by decide
  have hu : (newsDump.terms.map TermRecord.uuid).Nodup := by decide
  have hc : Context.default.recurse = false := rfl
  have hnodes : (ofDump newsDump "").nodes.entities = [newsNode.entity] := by decide +kernel
  have hrefers : ∀ n ∈ (ofDump newsDump "").nodes.entities,
      (ofDump newsDump "").RefersBy n "field_category" .taxonomyTerm := by
    intro n hmem
    rw [hnodes, List.mem_singleton] at hmem
    subst hmem
    exact ⟨[⟨"field_category", .entityReference .taxonomyTerm, true⟩], .taxonomyTerm,
      by decide +kernel, by decide, rfl⟩
  have hmem : newsNode.entity ∈ (ofDump newsDump "").nodes.entities := by
    rw [hnodes]
    exact List.mem_singleton.2 rfl
  obtain ⟨hshows, hlists⟩ := referring_nodes_show_stubs newsDump "" .utc hn ht hu hc
  obtain ⟨object, hp, hiff⟩ := hshows _ hmem "field_category" .taxonomyTerm
    (isShownField_termField .category) (hrefers _ hmem) rfl newsTerm.uuid.text
  obtain ⟨listed, hlisted⟩ := hlists Policy.default .category newsTerm.uuid.text newsTerm.entity
    (by decide +kernel) (fun n hn' => ⟨.taxonomyTerm, hrefers n hn'⟩) rfl true
  have hshown : object.ShowsStub "field_category" newsTerm.uuid.text :=
    hiff.1 (by decide +kernel)
  exact ⟨⟨hn, ht, hu, hc⟩, listed, (hlisted.mem_iff _).2 ⟨hmem, fun _ => rfl, object, hp, hshown⟩,
    hlisted⟩

/-- The articles of `mixedArticles`, all about one term. -/
def mixedNews : Dump :=
  { Store.mixedArticles "field_sort_by_date" [("field_category", [.target "1"])] with
    nodeBundles := [("article", [⟨"field_category", .entityReference .taxonomyTerm, true⟩])]
    terms := [newsTerm] }

/-- All articles are published and show the stub of the term, but its content is not listed. -/
theorem Store.mixedNews_not_listed :
    (mixedNews.KeepsBase ∧ mixedNews.TermsKeepBase ∧
      (mixedNews.nodes.map NodeRecord.uuid).Nodup ∧ (mixedNews.terms.map TermRecord.uuid).Nodup) ∧
    (∀ n ∈ (ofDump mixedNews "").nodes.entities,
      (ofDump mixedNews "").RefersBy n "field_category" .taxonomyTerm ∧ n.published = true ∧
      ∃ object, (ofDump mixedNews "").answers.Projects .utc Context.default n object ∧
        object.ShowsStub "field_category" newsTerm.uuid.text) ∧
    ∀ options : ListOptions, options.published = true →
      ((ofDump mixedNews "").service .utc Policy.default).answer
        (.termContent .category newsTerm.uuid.text options) = .error .unsortable := by
  have hbundles : ∀ n ∈ (ofDump mixedNews "").nodes.entities,
      (ofDump mixedNews "").nodes.bundle? n.bundle =
        some [⟨"field_category", .entityReference .taxonomyTerm, true⟩] := by decide +kernel
  have htargets : ∀ n ∈ (ofDump mixedNews "").nodes.entities,
      ∃ target ∈ (ofDump mixedNews "").targetsOf n "field_category",
        target.uuid.text = newsTerm.uuid.text := by decide +kernel
  have hfound : ((ofDump mixedNews "").answers.findEntity .taxonomyTerm newsTerm.uuid.text).run =
      some newsTerm.entity := by decide +kernel
  have hsorts : ¬ (ofDump mixedNews "").Sorts (Service.termContentListing .category newsTerm.uuid
      { ListOptions.default with published := true }).query := by decide +kernel
  refine ⟨by decide +kernel, fun n hn => ?_, fun options hpublished => ?_⟩
  · have hrefers : (ofDump mixedNews "").RefersBy n "field_category" .taxonomyTerm :=
      ⟨_, .taxonomyTerm, hbundles n hn, by decide, rfl⟩
    have hpublished : ∀ n ∈ (ofDump mixedNews "").nodes.entities, n.published = true := by
      decide +kernel
    refine ⟨hrefers, hpublished n hn, _, (projects_flat_iff .utc rfl).2 rfl, ?_⟩
    exact (hrefers.showsStub_filled_iff (kind_of_mem_nodes hn) (isShownField_termField .category)
      rfl .utc).2 (htargets n hn)
  · obtain ⟨page, limit, recurse, depth, published⟩ := options
    subst hpublished
    rw [answer_of_plan_page _ _ _ (plan_termContent_of_found .utc _ .category hfound _)]
    exact if_neg hsorts

end ContentProjection
