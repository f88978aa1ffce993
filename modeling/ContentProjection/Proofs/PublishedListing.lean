import ContentProjection.Proofs.Drafts
import ContentProjection.Proofs.Paging

/-!
# Listings of published nodes

The condition on the publication status is met by no draft, whatever else the
draft holds. The other conditions of a listing compare fields of the node itself
or UUIDs of what the node refers to. Such a listing selects the same nodes from
alike stores, all of them published.
-/
namespace ContentProjection

/-- A path that ends at the entity itself, or at the UUIDs of what a field refers to. -/
def AsksIdentity (path : String) : Prop :=
  ∃ field, fieldsOfPath path = [field] ∨ fieldsOfPath path = [field, "uuid"]

namespace Listing

/-- The paths that the conditions of a listing compare, apart from the publication status. -/
def paths (l : Listing) : List String :=
  l.orGroups.flatten.map Equality.field ++ l.anyOfGroups.map Prod.fst
    ++ l.conditions.map Equality.field

/-- A listing of published nodes by their own fields and the identities they refer to. -/
structure OfPublished (l : Listing) : Prop where
  kind : l.kind = .node
  published : l.published = some true
  identity : ∀ path ∈ l.paths, AsksIdentity path

end Listing

/-- All equalities of a condition, each of which may fulfil it. -/
def Condition.equalities : Condition → List Equality
  | equals equality => [equality]
  | anyOf equalities => equalities

namespace Listing

theorem asksIdentity_status : AsksIdentity publicationField :=
  ⟨"status", Or.inl (by decide)⟩

theorem OfPublished.asksIdentity {l : Listing} (h : l.OfPublished) {c : Condition}
    (hc : c ∈ l.query.conditions) {q : Equality} (hq : q ∈ c.equalities) :
    AsksIdentity q.field := by
  simp only [query, List.mem_append] at hc
  rcases hc with ((hc | hc) | hc) | hc
  · rw [h.published, publicationConditions, List.mem_singleton] at hc
    subst hc
    rw [Condition.equalities, List.mem_singleton] at hq
    subst hq
    exact asksIdentity_status
  · obtain ⟨group, hg, rfl⟩ := List.mem_map.1 hc
    have hgroup : group ∈ l.orGroups := (List.mem_filter.1 hg).1
    apply h.identity
    rw [paths, List.mem_append, List.mem_append]
    exact Or.inl (Or.inl (List.mem_map_of_mem (List.mem_flatten_of_mem hgroup hq)))
  · obtain ⟨group, hg, rfl⟩ := List.mem_map.1 hc
    obtain ⟨value, -, rfl⟩ := List.mem_map.1 hq
    apply h.identity
    rw [paths, List.mem_append, List.mem_append]
    exact Or.inl (Or.inr (List.mem_map_of_mem (List.mem_filter.1 hg).1))
  · obtain ⟨equality, he, rfl⟩ := List.mem_map.1 hc
    rw [Condition.equalities, List.mem_singleton] at hq
    subst hq
    apply h.identity
    rw [paths, List.mem_append]
    exact Or.inr (List.mem_map_of_mem he)

end Listing

namespace Store

variable {s s' : Store}

section Alike

variable (h : s.Alike s')
include h

theorem Alike.get? (kind : EntityKind) (id : EntityId) :
    Option.Rel Entity.Alike (s.get? kind id) (s'.get? kind id) := by
  cases kind with
  | node => exact h.nodes.get? id
  | taxonomyTerm =>
    change Option.Rel _ (s.terms.get? id) (s'.terms.get? id)
    rw [h.terms]
    cases s'.terms.get? id with
    | none => exact Option.Rel.none
    | some e => exact Option.Rel.some (Entity.Alike.same e)

theorem Alike.bundle?_eq (kind : EntityKind) (name : String) :
    (s.shelf kind).bundle? name = (s'.shelf kind).bundle? name := by
  cases kind with
  | node => rw [shelf, shelf, Shelf.bundle?, Shelf.bundle?, h.nodes.bundles]
  | taxonomyTerm => rw [shelf, shelf, h.terms]

theorem Alike.targetsOf (e : Entity) (field : String) :
    List.Forall₂ Entity.Alike (s.targetsOf e field) (s'.targetsOf e field) := by
  unfold Store.targetsOf targetKindOf
  rw [h.bundle?_eq]
  exact forall₂_filterMap (h.get? _) _

theorem Alike.meets_eq (e : Entity) {q : Equality} (hq : AsksIdentity q.field) :
    s.meets e q = s'.meets e q := by
  obtain ⟨field, hf | hf⟩ := hq
  · rw [meets, meets, hf]
    rfl
  · have hvalues : (s.targetsOf e field).flatMap (fun t => (t.field "uuid").map Item.scalar) =
        (s'.targetsOf e field).flatMap (fun t => (t.field "uuid").map Item.scalar) := by
      have ht := h.targetsOf e field
      generalize s.targetsOf e field = targets, s'.targetsOf e field = targets' at ht
      induction ht with
      | nil => rfl
      | cons hfirst hrest ih => rw [List.flatMap_cons, List.flatMap_cons, ih, hfirst.field_uuid_eq]
    rw [meets, meets, hf]
    exact congrArg (fun values : List String => values.contains q.value) hvalues

theorem Alike.fulfils_eq (e : Entity) {c : Condition}
    (hc : ∀ q ∈ c.equalities, AsksIdentity q.field) : s.fulfils e c = s'.fulfils e c := by
  cases c with
  | equals q => exact h.meets_eq e (hc q (List.mem_singleton.2 rfl))
  | anyOf qs =>
    change qs.any (s.meets e) = qs.any (s'.meets e)
    exact any_eq_any fun q hq => h.meets_eq e (hc q hq)

end Alike

/-- A draft does not have the status that a listing of published nodes asks for. -/
theorem not_all_fulfils_of_draft {l : Listing} (hl : l.OfPublished) {e : Entity} (he : e.Draft) :
    l.query.conditions.all (s.fulfils e) = false := by
  have hmem : Condition.equals ⟨Listing.publicationField, "1"⟩ ∈ l.query.conditions := by
    simp [Listing.query, hl.published, Listing.publicationConditions]
  refine List.all_eq_false.2 ⟨_, hmem, ?_⟩
  have hvalues : s.valuesAlong e ["status"] = ["0"] := by
    rw [valuesAlong, he.status]
    rfl
  have hpath : fieldsOfPath Listing.publicationField = ["status"] := by decide
  rw [fulfils, meets, hpath, hvalues]
  decide

theorem Alike.selected_eq (h : s.Alike s') {l : Listing} (hl : l.OfPublished) :
    s.selected l.query = s'.selected l.query := by
  have hnodes := h.nodes.entities
  have hquery : l.query.kind = .node := hl.kind
  rw [selected, selected, hquery]
  change s.nodes.entities.filter _ = s'.nodes.entities.filter _
  generalize s.nodes.entities = entities, s'.nodes.entities = entities' at hnodes
  induction hnodes with
  | nil => rfl
  | @cons e e' _ _ hfirst hrest ih =>
    rw [List.filter_cons, List.filter_cons, ih]
    cases hfirst with
    | same =>
      have hall : l.query.conditions.all (s.fulfils e) = l.query.conditions.all (s'.fulfils e) :=
        all_eq_all fun c hc => h.fulfils_eq e fun q hq => hl.asksIdentity hc hq
      rw [hall]
    | drafts he he' =>
      rw [not_all_fulfils_of_draft hl he, not_all_fulfils_of_draft hl he']
      rfl

end Store

namespace Listing

section

variable {l : Listing} (h : l.OfPublished)
include h

theorem OfPublished.requiring {field : String} (hf : AsksIdentity field) (value : String) :
    (l.requiring field value).OfPublished := by
  refine ⟨h.kind, h.published, fun path hp => ?_⟩
  simp only [paths, Listing.requiring, List.map_append, List.map_cons, List.map_nil] at hp
  rw [← List.append_assoc, List.mem_append, List.mem_singleton] at hp
  rcases hp with hp | rfl
  · exact h.identity path hp
  · exact hf

theorem OfPublished.requiringAnyOf {field : String} (hf : AsksIdentity field)
    (values : List String) : (l.requiringAnyOf field values).OfPublished := by
  refine ⟨h.kind, h.published, fun path hp => ?_⟩
  simp only [paths, Listing.requiringAnyOf, List.map_append, List.map_cons, List.map_nil,
    List.mem_append, List.mem_singleton] at hp
  rcases hp with (hp | hp | rfl) | hp
  · exact h.identity path (List.mem_append_left _ (List.mem_append_left _ hp))
  · exact h.identity path (List.mem_append_left _ (List.mem_append_right _ hp))
  · exact hf
  · exact h.identity path (List.mem_append_right _ hp)

theorem OfPublished.orderedBy (keys : List SortKey) : (l.orderedBy keys).OfPublished :=
  ⟨h.kind, h.published, h.identity⟩

theorem OfPublished.onPage (page limit : UInt64) : (l.onPage page limit).OfPublished :=
  ⟨h.kind, h.published, h.identity⟩

end

theorem ofPublished_nodes : (Listing.nodes true).OfPublished :=
  ⟨rfl, rfl, fun _ h => absurd h List.not_mem_nil⟩

end Listing

namespace Service

theorem ofPublished_narrowed {l : Listing} (hl : l.OfPublished) {field : String}
    (hf : AsksIdentity field) (values : List String) : (narrowed l field values).OfPublished := by
  unfold narrowed
  split
  · exact hl
  · exact hl.requiringAnyOf hf values

section

variable {options : ListOptions} (h : options.published = true)
include h

theorem ofPublished_contentListing (contentType : String) (brandTerm : Option EntityId) :
    (contentListing contentType brandTerm options).OfPublished := by
  have htype : AsksIdentity "type" := ⟨"type", Or.inl (by decide)⟩
  have hbrand : AsksIdentity "field_brand" := ⟨"field_brand", Or.inl (by decide)⟩
  have hplain := (Listing.ofPublished_nodes.requiring htype contentType).onPage options.page
    options.limit
  unfold contentListing
  rw [h]
  cases brandTerm with
  | none =>
    dsimp only
    split
    · exact hplain.orderedBy _
    · exact hplain
  | some id =>
    dsimp only
    split
    · exact (hplain.requiring hbrand _).orderedBy _
    · exact hplain.requiring hbrand _

theorem ofPublished_termContentListing (vocabulary : ListedVocabulary) (term : Uuid) :
    (termContentListing vocabulary term options).OfPublished := by
  have hpath : AsksIdentity (uuidPath vocabulary.termField) :=
    ⟨vocabulary.termField, Or.inr (by cases vocabulary <;> decide)⟩
  unfold termContentListing
  rw [h]
  exact ((Listing.ofPublished_nodes.requiring hpath _).onPage _ _).orderedBy _

theorem ofPublished_ideaListing (categories tags types : List String) :
    (ideaListing categories tags types options).OfPublished := by
  have htype : AsksIdentity "type" := ⟨"type", Or.inl (by decide)⟩
  have hcategory : AsksIdentity (uuidPath "field_category") :=
    ⟨"field_category", Or.inr (by decide)⟩
  have htag : AsksIdentity (uuidPath "field_tag") := ⟨"field_tag", Or.inr (by decide)⟩
  unfold ideaListing
  rw [h]
  have hbase := (Listing.ofPublished_nodes.orderedBy
    [.desc "field_sort_by_date", .desc "changed"]).onPage options.page options.limit
  have hnarrowed := ofPublished_narrowed (ofPublished_narrowed hbase hcategory categories) htag tags
  exact hnarrowed.requiringAnyOf htype types

end

end Service

/-- A listing of published nodes by type, by term or by topic. -/
def Call.listsPublished : Call → Bool
  | .listContent _ _ options | .termContent _ _ options | .ideas _ options => options.published
  | _ => false

theorem Service.plan_of_listsPublished {s : Service (Except Fault)} {call : Call}
    (hc : call.listsPublished = true) {p : Plan} (h : s.plan call = .ok p) :
    ∃ listing ctx form, p = .page listing ctx form ∧ listing.OfPublished ∧
      ctx.allowList = none := by
  cases call with
  | listContent brand contentType options =>
    obtain ⟨brandTerm, rfl⟩ := plan_listContent h
    exact ⟨_, _, _, rfl, ofPublished_contentListing hc contentType brandTerm, rfl⟩
  | termContent vocabulary token options =>
    obtain ⟨term, rfl⟩ := plan_termContent h
    exact ⟨_, _, _, rfl, ofPublished_termContentListing hc vocabulary term, rfl⟩
  | ideas scope options =>
    obtain ⟨categories, tags, rfl⟩ := plan_ideas h
    exact ⟨_, _, _, rfl, ofPublished_ideaListing hc categories tags _, rfl⟩
  | _ => cases hc

namespace Store

variable {s s' : Store}

/-- What such a call lists is settled by terms, aliases and bundles. -/
theorem Alike.plan_eq (h : s.Alike s') (offset : Calendar.Offset) (policy : Policy) {call : Call}
    (hc : call.listsPublished = true) :
    (⟨s.storage, offset, policy⟩ : Service (Except Fault)).plan call =
      (⟨s'.storage, offset, policy⟩ : Service (Except Fault)).plan call := by
  have hbundle : s.storage.bundleExists .node = s'.storage.bundleExists .node := by
    funext bundle
    simp only [storage, bundleExists, h.bundle?_eq]
  obtain ⟨nodes, rfl⟩ := h.exists_nodes
  cases call with
  | listContent brand contentType options =>
    unfold Service.plan
    rw [hbundle]
    rfl
  | termContent vocabulary token options => rfl
  | ideas scope options => rfl
  | _ => cases hc

/-- Alike stores have the same matches to sort. -/
theorem Alike.sorts_iff (h : s.Alike s') {l : Listing} (hl : l.OfPublished) :
    s.Sorts l.query ↔ s'.Sorts l.query := by
  rw [Sorts, Sorts, h.selected_eq hl]

/-- Alike stores show the same nodes on each page. -/
theorem Alike.listed_eq (h : s.Alike s') (ho : ∀ kind, (s.shelf kind).Ordered)
    (ho' : ∀ kind, (s'.shelf kind).Ordered) {l : Listing} (hl : l.OfPublished) :
    s.listed l = s'.listed l := by
  have hids : s.fetchIds (l.query.withSlice l.range) = s'.fetchIds (l.query.withSlice l.range) := by
    rw [fetchIds_withSlice, fetchIds_withSlice, matchingIds, matchingIds, h.selected_eq hl]
  unfold listed
  rw [← hids]
  refine List.filterMap_congr fun id hid => ?_
  obtain ⟨e, he, hget⟩ := get?_of_mem_fetchIds ho hid
  rw [h.selected_eq hl] at he
  have hid' : e.id = id := by simpa using List.find?_some hget
  rw [hget, ← hid']
  exact (get?_of_mem_selected (q := l.query) (ho' l.kind) he).symm

end Store

end ContentProjection
