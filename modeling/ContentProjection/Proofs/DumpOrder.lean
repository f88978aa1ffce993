import ContentProjection.Proofs.UuidIndex
import ContentProjection.Store.Selection

/-!
# Dumps in another order

A store looks everything up by a key: entities by id or UUID, schemas by name,
files by id. As long as no two records share a key, none replaces another, and
what a key finds depends on the records alone. A query reads a store through the
same lookups and takes the entities in id order. So dumps that have the same
records in different orders fill stores which answer every lookup alike, even
where a query sorts by a comparison that is no order.
-/
namespace ContentProjection

namespace Shelf

/-- Shelves that differ at most in how their UUIDs and bundles are arranged. -/
structure Agrees (s t : Shelf) : Prop where
  entities : s.entities = t.entities
  getByUuid? : ∀ uuid, s.getByUuid? uuid = t.getByUuid? uuid
  bundle? : ∀ name, s.bundle? name = t.bundle? name

/-- Ids in order leave one way to arrange the entities that they find. -/
theorem Ordered.entities_eq {s t : Shelf} (hs : s.Ordered) (ht : t.Ordered)
    (h : ∀ id, s.get? id = t.get? id) : s.entities = t.entities := by
  have hmem : ∀ e, e ∈ s.entities ↔ e ∈ t.entities := by
    intro e
    rw [hs.mem_iff, ht.mem_iff, h]
  have hperm : s.entities.Perm t.entities :=
    (List.perm_ext_iff_of_nodup (hs.nodup_ids.of_map Entity.id)
      (ht.nodup_ids.of_map Entity.id)).2 hmem
  exact hperm.eq_of_pairwise (fun _ _ _ _ hab hba => absurd hba (UInt64.lt_asymm hab)) hs ht

end Shelf

namespace Store

/-- Stores that differ at most in how their indexes are arranged. -/
structure Agrees (s t : Store) : Prop where
  shelf : ∀ kind, (s.shelf kind).Agrees (t.shelf kind)
  uriOf? : ∀ id, s.uriOf? id = t.uriOf? id
  aliases : s.aliases = t.aliases
  imageStyles : s.imageStyles = t.imageStyles
  baseUrl : s.baseUrl = t.baseUrl

namespace Agrees

variable {s t : Store} (h : s.Agrees t)
include h

theorem get?_eq : s.get? = t.get? := by
  funext kind id
  rw [Store.get?, Store.get?, Shelf.get?, Shelf.get?, (h.shelf kind).entities]

theorem targetsOf_eq : s.targetsOf = t.targetsOf := by
  funext e field
  have hkind : s.targetKindOf e field = t.targetKindOf e field := by
    unfold targetKindOf
    rw [(h.shelf e.kind).bundle?]
  rw [targetsOf, targetsOf, h.get?_eq, hkind]

theorem valuesAlong_eq (e : Entity) (path : List String) :
    s.valuesAlong e path = t.valuesAlong e path := by
  induction path generalizing e with
  | nil => rfl
  | cons field rest ih =>
    cases rest with
    | nil => rfl
    | cons next rest =>
      change (s.targetsOf e field).flatMap (fun target => s.valuesAlong target (next :: rest)) =
        (t.targetsOf e field).flatMap (fun target => t.valuesAlong target (next :: rest))
      rw [h.targetsOf_eq, funext ih]

theorem fulfils_eq : s.fulfils = t.fulfils := by
  have hmeets : s.meets = t.meets := by
    funext e equality
    rw [meets, meets, h.valuesAlong_eq]
  funext e condition
  cases condition with
  | equals equality => rw [fulfils, fulfils, hmeets]
  | anyOf equalities => rw [fulfils, fulfils, hmeets]

theorem selected_eq : s.selected = t.selected := by
  funext q
  rw [selected, selected, (h.shelf q.kind).entities, h.fulfils_eq]

/-- No lookup tells such stores apart. -/
theorem storage_eq : s.storage = t.storage := by
  have hterms : s.terms.Agrees t.terms := h.shelf .taxonomyTerm
  have huuid : s.getByUuid? = t.getByUuid? :=
    funext fun kind => funext (h.shelf kind).getByUuid?
  have hholding : s.entitiesHolding = t.entitiesHolding := by
    funext kind field value
    rw [entitiesHolding, entitiesHolding, (h.shelf kind).entities]
  have hnamed : s.termNamed? = t.termNamed? := by
    funext name
    rw [termNamed?, termNamed?, hterms.entities]
  have hparents : s.parentsOf = t.parentsOf := by
    funext id
    rw [parentsOf, parentsOf, Shelf.get?, Shelf.get?, hterms.entities]
  have hbundles : s.bundleExists = t.bundleExists := by
    funext kind bundle
    rw [bundleExists, bundleExists, (h.shelf kind).bundle?]
  have hcount : s.count = t.count := by
    funext q
    rw [count, count, h.selected_eq]
  have hfetch : s.fetchIds? = t.fetchIds? := by
    funext q
    rw [fetchIds?, fetchIds?, h.selected_eq]
  have hschema : s.schemaOf = t.schemaOf := by
    funext kind bundle
    rw [schemaOf, schemaOf, (h.shelf kind).bundle?]
  have hsource : s.sourceOf? = t.sourceOf? := by
    funext name
    rw [sourceOf?, sourceOf?, h.aliases]
  have halias : s.aliasOf? = t.aliasOf? := by
    funext source
    rw [aliasOf?, aliasOf?, h.aliases]
  have hfile : s.fileUrl? = t.fileUrl? := by
    funext id
    have hurl : s.urlOf = t.urlOf := by
      funext uri
      rw [urlOf, urlOf, h.baseUrl]
    rw [fileUrl?, fileUrl?, h.uriOf?, hurl]
  have hstyle : s.styleUrl? = t.styleUrl? := by
    funext id style
    rw [styleUrl?, styleUrl?, h.uriOf?, h.imageStyles, h.baseUrl]
  simp only [storage, h.get?_eq, huuid, hholding, hnamed, hparents, hbundles, hcount, hfetch,
    hschema, hsource, halias, hfile, hstyle]

end Agrees

end Store

namespace Dump

def bundles (d : Dump) : EntityKind → List (String × Schema)
  | .node => d.nodeBundles
  | .taxonomyTerm => d.termBundles

/-- Dumps with the same nodes, terms and files in any order, and otherwise the same. -/
structure Reordered (d d' : Dump) : Prop where
  nodes : d.nodes.Perm d'.nodes
  terms : d.terms.Perm d'.terms
  files : d.files.Perm d'.files
  schemas : ∀ kind name,
    (Shelf.ofBundles (d.bundles kind)).bundle? name =
      (Shelf.ofBundles (d'.bundles kind)).bundle? name
  aliases : d.aliases = d'.aliases
  imageStyles : d.imageStyles = d'.imageStyles

/-- No two records of a kind share an id or a UUID, and no two files an id. -/
structure DistinctKeys (d : Dump) : Prop where
  ids : ∀ kind, ((d.entities kind).map Entity.id).Nodup
  uuids : d.DistinctUuids
  files : (d.files.map FileRecord.id).Nodup

theorem Reordered.entities_perm {d d' : Dump} (h : d.Reordered d') (kind : EntityKind) :
    (d.entities kind).Perm (d'.entities kind) := by
  cases kind with
  | node => exact h.nodes.map NodeRecord.entity
  | taxonomyTerm => exact h.terms.map TermRecord.entity

end Dump

namespace Store

theorem bundle?_ofDump (dump : Dump) (baseUrl : String) (kind : EntityKind) (name : String) :
    ((ofDump dump baseUrl).shelf kind).bundle? name =
      ((Shelf.ofBundles (dump.bundles kind)).bundle? name).or
        (if name ∈ (dump.entities kind).map Entity.bundle then some [] else none) := by
  cases kind with
  | node => exact Shelf.bundle?_insertAll _ _ name
  | taxonomyTerm => exact Shelf.bundle?_insertAll _ _ name

section Reordered

variable {d d' : Dump} (h : d.Reordered d') (hd : d.DistinctKeys) (baseUrl : String)
  (kind : EntityKind)
include h hd

theorem get?_ofDump_eq_of_reordered (id : EntityId) :
    (ofDump d baseUrl).get? kind id = (ofDump d' baseUrl).get? kind id := by
  rw [get?_ofDump, get?_ofDump, findRev?_key_eq_of_perm (hd.ids kind) (h.entities_perm kind)]

theorem getByUuid?_ofDump_eq_of_reordered (uuid : Uuid) :
    (ofDump d baseUrl).getByUuid? kind uuid = (ofDump d' baseUrl).getByUuid? kind uuid := by
  have hfound := findRev?_key_eq_of_perm (hd.uuids kind) (h.entities_perm kind) uuid
  have hget := funext (get?_ofDump_eq_of_reordered h hd baseUrl kind)
  rw [getByUuid?_ofDump, getByUuid?_ofDump, hfound, hget]

theorem shelf_agrees_of_reordered :
    ((ofDump d baseUrl).shelf kind).Agrees ((ofDump d' baseUrl).shelf kind) where
  entities :=
    (ordered_ofDump d baseUrl kind).entities_eq (ordered_ofDump d' baseUrl kind)
      (get?_ofDump_eq_of_reordered h hd baseUrl kind)
  getByUuid? := getByUuid?_ofDump_eq_of_reordered h hd baseUrl kind
  bundle? name := by
    have hnamed : name ∈ (d.entities kind).map Entity.bundle ↔
        name ∈ (d'.entities kind).map Entity.bundle :=
      ((h.entities_perm kind).map Entity.bundle).mem_iff
    simp only [bundle?_ofDump, h.schemas, hnamed]

end Reordered

/-- Storage filled from a dump without repeated keys does not depend on the order of its
records. -/
theorem storage_eq_of_reordered {d d' : Dump} (h : d.Reordered d') (hd : d.DistinctKeys)
    (baseUrl : String) : (ofDump d baseUrl).storage = (ofDump d' baseUrl).storage := by
  apply Agrees.storage_eq
  constructor
  case shelf => exact shelf_agrees_of_reordered h hd baseUrl
  case uriOf? =>
    intro id
    exact congrArg (Option.map FileRecord.uri) (findRev?_key_eq_of_perm hd.files h.files id)
  case aliases => exact h.aliases
  case imageStyles => exact congrArg (fun styles => styles.getD Image.knownStyles) h.imageStyles
  case baseUrl => rfl

/-- Pages on a topic with an image each, the newest first. -/
def pagesDump : Dump :=
  { Dump.empty with
    nodes := [2, 1].map fun id =>
      ⟨id, Uuid.repeating id.toNat, "page", "", true, 0, none,
        [("field_topic", [.target "7"]), ("field_image", [.target (toString id.toNat)])]⟩
    terms := [8, 7].map fun id =>
      ⟨id, Uuid.repeating id.toNat, "topic", "Topic", "", 0, none, 0, []⟩
    files := [⟨2, "public://second.png"⟩, ⟨1, "public://first.png"⟩] }

/-- The same records, each list from its other end. -/
def pagesDumpReversed : Dump :=
  { pagesDump with
    nodes := pagesDump.nodes.reverse
    terms := pagesDump.terms.reverse
    files := pagesDump.files.reverse }

theorem pagesDump_storage_eq_reversed :
    (pagesDump.Reordered pagesDumpReversed ∧ pagesDump.DistinctKeys) ∧
    pagesDump.nodes ≠ pagesDumpReversed.nodes ∧
    (ofDump pagesDump "").fetchIds? (Listing.nodes true).query = some [1, 2] ∧
    (ofDump pagesDump "").storage = (ofDump pagesDumpReversed "").storage := by
  have h : pagesDump.Reordered pagesDumpReversed :=
    ⟨(List.reverse_perm _).symm, (List.reverse_perm _).symm, (List.reverse_perm _).symm,
      fun _ _ => rfl, rfl, rfl⟩
  have hd : pagesDump.DistinctKeys :=
    ⟨fun kind => by cases kind <;> decide, by decide, by decide⟩
  exact ⟨⟨h, hd⟩, by decide, by decide +kernel, storage_eq_of_reordered h hd ""⟩

end Store

end ContentProjection
