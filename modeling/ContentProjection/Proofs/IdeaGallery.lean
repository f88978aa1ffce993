import ContentProjection.Proofs.ListedPages
import ContentProjection.Proofs.ReferenceListings
import ContentProjection.Proofs.ResolvedTokens
import ContentProjection.Proofs.TypeRestriction
import Mathlib.Data.Set.Basic

/-!
# The gallery of ideas

A client narrows the gallery by tokens of categories and tags, and by types. A token in
the written form of a UUID asks for that UUID, any other one for the UUID of the term it
leads to, if it leads to one. Categories or tags that ask for nothing do not narrow the
gallery, types among which no idea type is do not either. What is left of a request are
three sets, and the gallery shows the nodes that meet each of them.
-/
namespace ContentProjection

/-- The UUID that a token asks for. -/
inductive Store.AsksFor (s : Store) : String → String → Prop
  | written {token : String} (h : Uuid.isCanonical token = true) : AsksFor s token token
  | found {token : String} {term : Entity} (h : Uuid.isCanonical token = false)
      (finds : s.Finds .taxonomyTerm token term) : AsksFor s token term.uuid.text

/-- The UUIDs that tokens ask for. -/
def Store.asked (s : Store) (tokens : List String) : Set String :=
  {uuid | ∃ token ∈ tokens, s.AsksFor token uuid}

/-- The requested types that are idea types, or all idea types if none of them is. -/
def Policy.galleryTypes (policy : Policy) (requested : List String) : Set String :=
  {type | type ∈ policy.ideaTypes ∧
    (type ∈ requested ∨ ∀ other ∈ requested, other ∉ policy.ideaTypes)}

/-- A field of an entity refers to some entity that stores one of these UUIDs. -/
def Store.LeadsTo (s : Store) (e : Entity) (field : String) (uuids : Set String) : Prop :=
  ∃ target ∈ s.targetsOf e field, ∃ uuid ∈ uuids, target.Stores "uuid" uuid

/-- What the gallery asks of a node that it shows: to be of one of some types, and to refer to
categories and tags among those that are asked for. -/
structure Store.InGallery (s : Store) (categories tags types : Set String) (published : Bool)
    (n : Entity) : Prop where
  publication : n.Passes (some published)
  type : ∃ type ∈ types, n.Stores "type" type
  categories : categories.Nonempty → s.LeadsTo n "field_category" categories
  tags : tags.Nonempty → s.LeadsTo n "field_tag" tags

namespace Service

theorem mem_ideaTypes_iff {policy : Policy} {requested : List String} {type : String} :
    type ∈ ideaTypes policy requested ↔ type ∈ policy.galleryTypes requested := by
  have hkept : (requested.filter fun type => policy.ideaTypes.contains type).isEmpty ↔
      ∀ other ∈ requested, other ∉ policy.ideaTypes := by
    rw [List.isEmpty_iff, List.filter_eq_nil_iff]
    simp
  rw [Policy.galleryTypes, Set.mem_ofPred_eq]
  unfold ideaTypes
  dsimp only
  split
  case isTrue hnone => exact (and_iff_left (Or.inr (hkept.1 hnone))).symm
  case isFalse hsome =>
    rw [hkept] at hsome
    simp [hsome, and_comm]

/-- A narrowed listing asks for one of the values, if there are any. -/
theorem describes_narrowed_iff {l : Listing} {s : Store} {e : Entity} {field : String}
    {values : List String} :
    (narrowed l field values).Describes s e ↔
      l.Describes s e ∧ (values ≠ [] → ∃ v ∈ values, s.Reaches e field v) := by
  unfold narrowed
  split
  case isTrue hempty => simp [List.isEmpty_iff.1 hempty]
  case isFalse => exact Listing.describes_requiringAnyOf_iff

/-- All of the listing but its choices stands in the options. -/
theorem ideaListing_eq (categories tags types : List String) (options : ListOptions) :
    ideaListing categories tags types options =
      { kind := .node, published := some options.published, orGroups := []
        anyOfGroups := (ideaListing categories tags types options).anyOfGroups, conditions := []
        sorts := [.desc "field_sort_by_date", .desc "changed"]
        page := options.page, limit := options.limit } := by
  cases categories <;> cases tags <;> rfl

theorem ideaListing_onPage (categories tags types : List String) (options : ListOptions)
    (page : UInt64) :
    ideaListing categories tags types { options with page } =
      (ideaListing categories tags types options).onPage page options.limit := by
  cases categories <;> cases tags <;> rfl

end Service

namespace Store

variable (s : Store) (offset : Calendar.Offset) (policy : Policy) (scope : IdeaScope)
  (options : ListOptions)

theorem mem_run_findUuids_iff (tokens : List String) (uuid : String) :
    uuid ∈ (s.answers.findUuids .taxonomyTerm tokens).run ↔ uuid ∈ s.asked tokens := by
  rw [Storage.run_findUuids, List.mem_filterMap]
  refine exists_congr fun token => and_congr_right fun _ => ?_
  rw [Storage.uuidText?]
  constructor
  · intro h
    split at h
    case isTrue hwritten =>
      cases h
      exact AsksFor.written hwritten
    case isFalse halias =>
      obtain ⟨term, hfinds, rfl⟩ := Option.map_eq_some_iff.1 h
      exact AsksFor.found (Bool.eq_false_iff.2 halias) hfinds
  · rintro (hwritten | ⟨halias, hfinds⟩)
    · rw [if_pos hwritten]
    · rw [if_neg (Bool.eq_false_iff.1 halias), Option.map_eq_some_iff]
      exact ⟨_, hfinds, rfl⟩

/-- The listing behind the gallery. -/
def gallery : Listing :=
  Service.ideaListing (s.answers.findUuids .taxonomyTerm scope.categories).run
    (s.answers.findUuids .taxonomyTerm scope.tags).run
    (Service.ideaTypes policy scope.types) options

theorem plan_ideas_eq_gallery :
    (s.service offset policy).plan (.ideas scope options) =
      .ok (.page (s.gallery policy scope options)
        ((s.service offset policy).listingContext options) .whole) := by
  change (s.storage.findUuids .taxonomyTerm scope.categories >>= _) = _
  rw [s.storage_findUuids]
  change (s.storage.findUuids .taxonomyTerm scope.tags >>= _) = _
  rw [s.storage_findUuids]
  rfl

/-- A choice among UUIDs, void if there are none. -/
theorem choice_iff_leadsTo {n : Entity} {field : String} (hf : '.' ∉ field.toList)
    {values : List String} {uuids : Set String} (h : ∀ uuid, uuid ∈ values ↔ uuid ∈ uuids) :
    (values ≠ [] → ∃ v ∈ values, s.Reaches n (uuidPath field) v) ↔
      (uuids.Nonempty → s.LeadsTo n field uuids) := by
  have hne : values ≠ [] ↔ uuids.Nonempty := by
    constructor
    · intro hvalues
      obtain ⟨uuid, hu⟩ := List.exists_mem_of_ne_nil values hvalues
      exact ⟨uuid, (h uuid).1 hu⟩
    · rintro ⟨uuid, hu⟩
      exact List.ne_nil_of_mem ((h uuid).2 hu)
  refine imp_congr hne ?_
  simp only [s.reaches_uuidPath_iff_stores hf, h, LeadsTo]
  constructor
  · rintro ⟨uuid, hu, target, ht, hstores⟩
    exact ⟨target, ht, uuid, hu, hstores⟩
  · rintro ⟨target, ht, uuid, hu, hstores⟩
    exact ⟨uuid, hu, target, ht, hstores⟩

theorem describes_gallery_iff (hp : policy.ideaTypes ≠ []) {n : Entity} :
    (s.gallery policy scope options).Describes s n ↔
      s.InGallery (s.asked scope.categories) (s.asked scope.tags)
        (policy.galleryTypes scope.types) options.published n := by
  have hcategories := s.choice_iff_leadsTo (n := n) (by decide : '.' ∉ "field_category".toList)
    fun uuid => s.mem_run_findUuids_iff scope.categories uuid
  have htags := s.choice_iff_leadsTo (n := n) (by decide : '.' ∉ "field_tag".toList)
    fun uuid => s.mem_run_findUuids_iff scope.tags uuid
  have htypes : (∃ v ∈ Service.ideaTypes policy scope.types, s.Reaches n "type" v) ↔
      ∃ type ∈ policy.galleryTypes scope.types, n.Stores "type" type := by
    have huncut : ∀ field rest, "type" ≠ field ++ referenceMark ++ rest := uncut_iff.2 (by decide)
    simp only [s.reaches_iff_of_uncut huncut, Service.mem_ideaTypes_iff]
  rw [gallery, Service.ideaListing, Listing.describes_requiringAnyOf_iff,
    Service.describes_narrowed_iff, Service.describes_narrowed_iff, Listing.describes_onPage_iff,
    Listing.describes_orderedBy_iff, Listing.describes_nodes_iff, hcategories, htags,
    forall_prop_of_true (Service.ideaTypes_ne_nil hp scope.types), htypes]
  constructor
  · rintro ⟨⟨⟨hpublication, hcategory⟩, htag⟩, htype⟩
    exact ⟨hpublication, htype, hcategory, htag⟩
  · rintro ⟨hpublication, htype, hcategory, htag⟩
    exact ⟨⟨⟨hpublication, hcategory⟩, htag⟩, htype⟩

theorem kind_gallery : (s.gallery policy scope options).kind = .node := by
  rw [gallery, Service.ideaListing_eq]

theorem sorts_gallery : (s.gallery policy scope options).query.sorts =
    [.desc "field_sort_by_date", .desc "changed"] := by
  rw [gallery, Service.ideaListing_eq]
  rfl

theorem mem_matching_gallery_iff (hp : policy.ideaTypes ≠ []) {n : Entity} :
    n ∈ s.matching (s.gallery policy scope options) ↔
      n ∈ s.nodes.entities ∧ s.InGallery (s.asked scope.categories) (s.asked scope.tags)
        (policy.galleryTypes scope.types) options.published n := by
  rw [mem_matching_iff, kind_gallery, s.describes_gallery_iff policy scope options hp]
  rfl

theorem plan_ideas_onPage (page : UInt64) :
    (s.service offset policy).plan (.ideas scope { options with page }) =
      .ok (.page ((s.gallery policy scope options).onPage page options.limit)
        ((s.service offset policy).listingContext options) .whole) := by
  rw [plan_ideas_eq_gallery, gallery, Service.ideaListing_onPage]
  rfl

theorem lists_gallery {s : Store} (ho : ∀ kind, (s.shelf kind).Ordered)
    (hl : 1 ≤ options.limit.toNat) (hs : s.Sorts (s.gallery policy scope options).query) :
    (s.service offset policy).Lists (.ideas scope) options (some options.published)
      (s.shown offset ((s.service offset policy).listingContext options) .whole)
      (s.matching (s.gallery policy scope options)) := by
  have hpublished : (s.gallery policy scope options).published = some options.published := by
    rw [gallery, Service.ideaListing_eq]
  rw [← hpublished]
  exact lists_of_plan ho offset policy (.ideas scope)
    (s.plan_ideas_onPage offset policy scope options) hl hs

theorem unlisted_gallery (hs : ¬ s.Sorts (s.gallery policy scope options).query) :
    (s.service offset policy).Unlisted (.ideas scope) options :=
  unlisted_of_plan offset policy (.ideas scope) (s.plan_ideas_onPage offset policy scope options) hs

/-- The gallery reads the tokens and types of a request through their sets. -/
theorem answers_ideas_congr {s : Store} (ho : ∀ kind, (s.shelf kind).Ordered)
    (hl : 1 ≤ options.limit.toNat) {scope scope' : IdeaScope} (hp : policy.ideaTypes ≠ [])
    (hcategories : s.asked scope'.categories = s.asked scope.categories)
    (htags : s.asked scope'.tags = s.asked scope.tags)
    (htypes : policy.galleryTypes scope'.types = policy.galleryTypes scope.types) :
    ∃ answer, (s.service offset policy).Answers (.ideas scope options) answer ∧
      (s.service offset policy).Answers (.ideas scope' options) answer := by
  have hkind : (s.gallery policy scope' options).kind = (s.gallery policy scope options).kind := by
    rw [kind_gallery, kind_gallery]
  have hdescribes (n : Entity) : (s.gallery policy scope' options).Describes s n ↔
      (s.gallery policy scope options).Describes s n := by
    rw [s.describes_gallery_iff policy scope' options hp, hcategories, htags, htypes,
      s.describes_gallery_iff policy scope options hp]
  have hkeys : (s.gallery policy scope' options).query.sorts =
      (s.gallery policy scope options).query.sorts := by rw [sorts_gallery, sorts_gallery]
  have hsorts := s.sorts_congr hkind hdescribes hkeys
  by_cases hs : s.Sorts (s.gallery policy scope options).query
  · have hanswered := (lists_gallery offset policy scope' options ho hl (hsorts.2 hs)).answered
      options.page
    rw [s.matching_congr hkind hdescribes hkeys] at hanswered
    exact ⟨_, (lists_gallery offset policy scope options ho hl hs).answered options.page, hanswered⟩
  · exact ⟨_, s.unlisted_gallery offset policy scope options hs options.page,
      s.unlisted_gallery offset policy scope' options (mt hsorts.1 hs) options.page⟩

/-- The pages of the gallery show the nodes that pass the publication filter, have a type that the
gallery shows and lead to the categories and tags that are asked for, if these nodes can be sorted,
and none otherwise. Requests that ask for the same categories, tags and types are answered alike. -/
theorem ideas_list_gallery (dump : Dump) (baseUrl : String) (offset : Calendar.Offset)
    {policy : Policy} (hp : policy.ideaTypes ≠ []) (scope : IdeaScope) {options : ListOptions}
    (hl : 1 ≤ options.limit.toNat) :
    ((ofDump dump baseUrl).Sorts ((ofDump dump baseUrl).gallery policy scope options).query →
      ∃ listed,
        ((ofDump dump baseUrl).service offset policy).Lists (.ideas scope) options
          (some options.published) ((ofDump dump baseUrl).shown offset
            (((ofDump dump baseUrl).service offset policy).listingContext options) .whole) listed ∧
        listed.Nodup ∧
        ∀ n, n ∈ listed ↔ n ∈ (ofDump dump baseUrl).nodes.entities ∧
          (ofDump dump baseUrl).InGallery ((ofDump dump baseUrl).asked scope.categories)
            ((ofDump dump baseUrl).asked scope.tags) (policy.galleryTypes scope.types)
            options.published n) ∧
    (¬ (ofDump dump baseUrl).Sorts ((ofDump dump baseUrl).gallery policy scope options).query →
      ((ofDump dump baseUrl).service offset policy).Unlisted (.ideas scope) options) ∧
    ((ofDump dump baseUrl).Orderly ((ofDump dump baseUrl).gallery policy scope options).query →
      (ofDump dump baseUrl).Sorts ((ofDump dump baseUrl).gallery policy scope options).query) ∧
    ∀ scope' : IdeaScope,
      (ofDump dump baseUrl).asked scope'.categories = (ofDump dump baseUrl).asked scope.categories →
      (ofDump dump baseUrl).asked scope'.tags = (ofDump dump baseUrl).asked scope.tags →
      policy.galleryTypes scope'.types = policy.galleryTypes scope.types →
      ∃ answer,
        ((ofDump dump baseUrl).service offset policy).Answers (.ideas scope options) answer ∧
        ((ofDump dump baseUrl).service offset policy).Answers (.ideas scope' options) answer := by
  have ho := ordered_ofDump dump baseUrl
  generalize ofDump dump baseUrl = s at ho ⊢
  refine ⟨fun hs => ?_, ?_, Orderly.sorts (ho _), fun scope' hcategories htags htypes => ?_⟩
  · exact ⟨_, lists_gallery offset policy scope options ho hl hs, nodup_matching ho _,
      fun n => s.mem_matching_gallery_iff policy scope options hp⟩
  · exact s.unlisted_gallery offset policy scope options
  · exact answers_ideas_congr offset policy options ho hl hp hcategories htags htypes

/-- Ideas about the term of `newsDump`, of a type that is no idea type. -/
def newsScope : IdeaScope := ⟨[newsTerm.uuid.text], [], ["page"]⟩

/-- The same, beside a category that does not exist, and of no type at all. -/
def newsScope' : IdeaScope := ⟨[newsTerm.uuid.text, "nowhere"], [], []⟩

theorem not_asksFor_nowhere (uuid : String) : ¬ (ofDump newsDump "").AsksFor "nowhere" uuid := by
  rintro (hwritten | ⟨-, hfinds⟩)
  · exact absurd hwritten (by decide)
  · have hnone : ((ofDump newsDump "").answers.findEntity .taxonomyTerm "nowhere").run = none := by
      decide +kernel
    rw [Finds, hnone] at hfinds
    cases hfinds

theorem newsNode_in_gallery :
    (Policy.default.ideaTypes ≠ [] ∧ 1 ≤ ListOptions.default.limit.toNat) ∧
    (∃ listed, newsNode.entity ∈ listed ∧
      ((ofDump newsDump "").service .utc Policy.default).Lists (.ideas newsScope)
        ListOptions.default (some true) ((ofDump newsDump "").shown .utc
          (((ofDump newsDump "").service .utc Policy.default).listingContext
            ListOptions.default) .whole) listed) ∧
    ∃ answer,
      ((ofDump newsDump "").service .utc Policy.default).Answers
        (.ideas newsScope ListOptions.default) answer ∧
      ((ofDump newsDump "").service .utc Policy.default).Answers
        (.ideas newsScope' ListOptions.default) answer := by
  have hp : Policy.default.ideaTypes ≠ [] := by decide
  have hl : 1 ≤ ListOptions.default.limit.toNat := by decide
  obtain ⟨hlisted, -, -, hsame⟩ := ideas_list_gallery newsDump "" .utc hp newsScope hl
  obtain ⟨listed, hlists, -, hmem⟩ := hlisted (by decide +kernel)
  have hcategories : (ofDump newsDump "").asked newsScope'.categories =
      (ofDump newsDump "").asked newsScope.categories := by
    ext uuid
    have hnone := not_asksFor_nowhere uuid
    simp [asked, newsScope, newsScope', hnone]
  have htypes : Policy.default.galleryTypes newsScope'.types =
      Policy.default.galleryTypes newsScope.types := by
    ext type
    simp [Policy.galleryTypes, newsScope, newsScope', Policy.default]
  refine ⟨⟨hp, hl⟩, ⟨listed, (hmem _).2 ⟨by decide +kernel, ?_⟩, hlists⟩,
    hsame newsScope' hcategories rfl htypes⟩
  have huuid : newsTerm.uuid.text ∈ (ofDump newsDump "").asked newsScope.categories :=
    ⟨newsTerm.uuid.text, List.mem_singleton.2 rfl, AsksFor.written (Uuid.isCanonical_text _)⟩
  constructor
  case publication => exact Or.inr (Or.inl ⟨.value "1", by decide +kernel, rfl⟩)
  case type =>
    refine ⟨"article", ⟨by decide, Or.inr (by decide)⟩, .target "article", by decide +kernel, rfl⟩
  case categories =>
    intro _
    refine ⟨newsTerm.entity, by decide +kernel, _, huuid, .value newsTerm.uuid.text, ?_, rfl⟩
    decide +kernel
  case tags =>
    rintro ⟨uuid, token, htoken, -⟩
    cases htoken

/-- All articles of `mixedArticles` belong to the gallery, but no page of it is shown. -/
theorem mixedArticles_gallery_unlisted :
    (Policy.default.ideaTypes ≠ [] ∧ 1 ≤ ListOptions.default.limit.toNat) ∧
    (∀ n ∈ (ofDump (mixedArticles "field_sort_by_date" []) "").nodes.entities,
      (ofDump (mixedArticles "field_sort_by_date" []) "").InGallery
        ((ofDump (mixedArticles "field_sort_by_date" []) "").asked [])
        ((ofDump (mixedArticles "field_sort_by_date" []) "").asked [])
        (Policy.default.galleryTypes []) true n) ∧
    ((ofDump (mixedArticles "field_sort_by_date" []) "").service .utc Policy.default).Unlisted
      (.ideas ⟨[], [], []⟩) ListOptions.default := by
  have hnone : ¬ ((ofDump (mixedArticles "field_sort_by_date" []) "").asked []).Nonempty := by
    rintro ⟨uuid, token, htoken, -⟩
    cases htoken
  have hstatus : ∀ n ∈ (ofDump (mixedArticles "field_sort_by_date" []) "").nodes.entities,
      ∃ item ∈ n.field "status", item.scalar = "1" := by decide +kernel
  have htype : ∀ n ∈ (ofDump (mixedArticles "field_sort_by_date" []) "").nodes.entities,
      ∃ item ∈ n.field "type", item.scalar = "article" := by decide +kernel
  refine ⟨⟨by decide, by decide⟩, fun n hn => ?_, ?_⟩
  · exact ⟨Or.inr (Or.inl (hstatus n hn)), ⟨"article", ⟨by decide, Or.inr (by simp)⟩, htype n hn⟩,
      fun h => absurd h hnone, fun h => absurd h hnone⟩
  · exact unlisted_gallery _ .utc Policy.default _ _ (by decide +kernel)

end Store

end ContentProjection
