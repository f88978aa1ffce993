import ContentProjection.Proofs.HeaderFields
import ContentProjection.Proofs.ListedLookups
import ContentProjection.Proofs.UuidIndex

/-!
# Header and stored fields

Identity, bundle and publication of an entity stand in its header, and once more
in base fields. Queries read the fields; stubs, lookups and bundle checks read the
header. A record sets its own fields after the base fields, so the two agree on
everything that is loaded as long as no record that stays in the store gives one
of these fields other values than its header does.
-/
namespace ContentProjection

/-- The field that stores the id of an entity. -/
def EntityKind.idField : EntityKind → String
  | .node => "nid"
  | .taxonomyTerm => "tid"

namespace Entity

/-- What the header says of an entity, under the names of the fields that store it. -/
def identity (e : Entity) : List (String × String) :=
  [("uuid", e.uuid.text), (e.kind.idField, toString e.id.toNat), (e.kind.bundleField, e.bundle)] ++
    if e.kind = .node then [("status", if e.published then "1" else "0")] else []

/-- The fields of identity store what the header says, and nothing else. -/
def RestatesHeader (e : Entity) : Prop :=
  ∀ name value, (name, value) ∈ e.identity → (e.field name).map Item.scalar = [value]

/-- Own fields of a record that set a field of identity set it to what the header says. -/
def ConfirmedBy (e : Entity) (own : List (String × List Item)) : Prop :=
  ∀ name value, (name, value) ∈ e.identity → ∀ items, own.reverse.lookup name = some items →
    items.map Item.scalar = [value]

/-- Over base fields that store the header, only own fields can say anything else. -/
theorem restatesHeader_iff {e : Entity} {base own : List (String × List Item)}
    (hfields : e.fields = (base ++ own).reverse) (hn : (base.map Prod.fst).Nodup)
    (hbase : ∀ name value, (name, value) ∈ e.identity →
      ∃ item, (name, [item]) ∈ base ∧ item.scalar = value) :
    e.RestatesHeader ↔ e.ConfirmedBy own := by
  have hfield : ∀ name value, (name, value) ∈ e.identity →
      ∃ item, e.field name = (own.reverse.lookup name).getD [item] ∧ item.scalar = value := by
    intro name value hm
    obtain ⟨item, hitem, hvalue⟩ := hbase name value hm
    refine ⟨item, ?_, hvalue⟩
    rw [field, hfields, List.reverse_append, List.lookup_append, lookup_reverse_of_mem hn hitem]
    cases own.reverse.lookup name <;> rfl
  constructor
  · intro h name value hm items hown
    obtain ⟨item, hset, -⟩ := hfield name value hm
    have hrestates := h name value hm
    rwa [hset, hown, Option.getD_some] at hrestates
  · intro h name value hm
    obtain ⟨item, hset, hvalue⟩ := hfield name value hm
    rw [hset]
    cases hown : own.reverse.lookup name with
    | none => rw [Option.getD_none, List.map_singleton, hvalue]
    | some items => exact h name value hm items hown

end Entity

theorem NodeRecord.restatesHeader_iff_confirmedBy (r : NodeRecord) :
    r.entity.RestatesHeader ↔ r.entity.ConfirmedBy r.fields := by
  refine Entity.restatesHeader_iff (by rw [entity_eq]) r.nodup_names_headerFields
    fun name value hm => ?_
  rw [entity_eq] at hm
  simp only [Entity.identity, EntityKind.idField, EntityKind.bundleField, if_true,
    List.cons_append, List.nil_append, List.mem_cons, Prod.mk.injEq, List.not_mem_nil,
    or_false] at hm
  rcases hm with ⟨rfl, rfl⟩ | ⟨rfl, rfl⟩ | ⟨rfl, rfl⟩ | ⟨rfl, rfl⟩
  · exact ⟨.value r.uuid.text, by simp [headerFields], rfl⟩
  · exact ⟨idItem r.id, by simp [headerFields], rfl⟩
  · exact ⟨.target r.bundle, by simp [headerFields], rfl⟩
  · exact ⟨flagItem r.published, by simp [headerFields], rfl⟩

theorem TermRecord.restatesHeader_iff_confirmedBy (r : TermRecord) :
    r.entity.RestatesHeader ↔ r.entity.ConfirmedBy r.fields := by
  refine Entity.restatesHeader_iff (by rw [entity_eq]) r.nodup_names_headerFields
    fun name value hm => ?_
  rw [entity_eq] at hm
  simp only [Entity.identity, EntityKind.idField, EntityKind.bundleField, reduceCtorEq, if_false,
    List.append_nil, List.mem_cons, Prod.mk.injEq, List.not_mem_nil, or_false] at hm
  rcases hm with ⟨rfl, rfl⟩ | ⟨rfl, rfl⟩ | ⟨rfl, rfl⟩
  · exact ⟨.value r.uuid.text, by simp [headerFields], rfl⟩
  · exact ⟨idItem r.id, by simp [headerFields], rfl⟩
  · exact ⟨.target r.vocabulary, by simp [headerFields], rfl⟩

namespace Dump

/-- The entities of a kind, each with the fields that its record sets itself. -/
def written (d : Dump) : EntityKind → List (Entity × List (String × List Item))
  | .node => d.nodes.map fun r => (r.entity, r.fields)
  | .taxonomyTerm => d.terms.map fun r => (r.entity, r.fields)

theorem map_fst_written (d : Dump) (kind : EntityKind) :
    (d.written kind).map Prod.fst = d.entities kind := by
  cases kind <;> simp [written, entities]

theorem restatesHeader_iff_of_mem_written {d : Dump} {kind : EntityKind} {e : Entity}
    {own : List (String × List Item)} (h : (e, own) ∈ d.written kind) :
    e.RestatesHeader ↔ e.ConfirmedBy own := by
  cases kind with
  | node =>
    obtain ⟨r, -, heq⟩ := List.mem_map.1 h
    cases heq
    exact r.restatesHeader_iff_confirmedBy
  | taxonomyTerm =>
    obtain ⟨r, -, heq⟩ := List.mem_map.1 h
    cases heq
    exact r.restatesHeader_iff_confirmedBy

/-- A record that no later one of its kind replaces sets the fields of identity to nothing but
what its header says. -/
def ConfirmsHeaders (d : Dump) (kind : EntityKind) : Prop :=
  ∀ before e own after, d.written kind = before ++ (e, own) :: after →
    (∀ later ∈ after, later.1.id ≠ e.id) → e.ConfirmedBy own

end Dump

namespace Store

variable {dump : Dump} {baseUrl : String} {kind : EntityKind}

/-- What a store holds are the records that no later one replaces. -/
theorem mem_shelf_ofDump_iff {e : Entity} :
    e ∈ ((ofDump dump baseUrl).shelf kind).entities ↔
      ∃ before own after, dump.written kind = before ++ (e, own) :: after ∧
        ∀ later ∈ after, later.1.id ≠ e.id := by
  have hget : (ofDump dump baseUrl).get? kind e.id =
      ((dump.written kind).findRev? fun w => w.1.id == e.id).map Prod.fst := by
    rw [get?_ofDump, ← dump.map_fst_written, List.findRev?_eq_find?_reverse,
      List.findRev?_eq_find?_reverse, ← List.map_reverse, List.find?_map]
    rfl
  refine (ordered_ofDump dump baseUrl kind).mem_iff.trans ?_
  constructor
  · intro h
    obtain ⟨⟨last, own⟩, hlast, rfl⟩ := Option.map_eq_some_iff.1 (hget.symm.trans h)
    obtain ⟨-, before, after, hsplit, hafter⟩ := findRev?_eq_some_iff.1 hlast
    exact ⟨before, own, after, hsplit, fun later hl => by simpa using hafter later hl⟩
  · rintro ⟨before, own, after, hsplit, hafter⟩
    refine hget.trans (Option.map_eq_some_iff.2 ⟨(e, own), findRev?_eq_some_iff.2 ?_, rfl⟩)
    refine ⟨beq_self_eq_true _, before, after, hsplit, fun later hl => ?_⟩
    simpa using hafter later hl

/-- No field of identity has a path through other entities. -/
theorem fieldsOfPath_identity {e : Entity} {name value : String} (h : (name, value) ∈ e.identity) :
    fieldsOfPath name = [name] := by
  have hcut : ∀ name ∈ ["uuid", "nid", "type", "status", "tid", "vid"],
      fieldsOfPath name = [name] := by decide
  have hnames : e.identity.map Prod.fst ⊆ ["uuid", "nid", "type", "status", "tid", "vid"] := by
    unfold Entity.identity
    cases e.kind <;> simp [EntityKind.idField, EntityKind.bundleField]
  exact hcut name (hnames (List.mem_map.2 ⟨(name, value), h, rfl⟩))

/-- Queries on a field of identity read the header of an entity that restates it. -/
theorem meets_identity {s : Store} {e : Entity} (h : e.RestatesHeader) {name value : String}
    (hm : (name, value) ∈ e.identity) (wanted : String) :
    s.meets e ⟨name, wanted⟩ = (wanted == value) := by
  rw [meets, fieldsOfPath_identity hm, valuesAlong, h name value hm, List.contains_cons,
    List.contains_nil, Bool.or_false]

/-- All that is loaded restates its header if and only if the records that stay confirm theirs,
and queries on the fields of identity then speak about the header. -/
theorem restatesHeader_iff_confirmsHeaders (dump : Dump) (baseUrl : String) (kind : EntityKind) :
    ((∀ e ∈ ((ofDump dump baseUrl).shelf kind).entities, e.RestatesHeader) ↔
      dump.ConfirmsHeaders kind) ∧
    ∀ e ∈ ((ofDump dump baseUrl).shelf kind).entities, e.RestatesHeader →
      ∀ name value, (name, value) ∈ e.identity → ∀ wanted,
        (ofDump dump baseUrl).meets e ⟨name, wanted⟩ = (wanted == value) := by
  refine ⟨⟨?_, ?_⟩, fun e _ hrestates name value hm wanted => meets_identity hrestates hm wanted⟩
  · intro h before e own after hsplit hlast
    have hmem : (e, own) ∈ dump.written kind := by simp [hsplit]
    have hrestates := h e (mem_shelf_ofDump_iff.2 ⟨before, own, after, hsplit, hlast⟩)
    exact (Dump.restatesHeader_iff_of_mem_written hmem).1 hrestates
  · intro h e he
    obtain ⟨before, own, after, hsplit, hlast⟩ := mem_shelf_ofDump_iff.1 he
    have hmem : (e, own) ∈ dump.written kind := by simp [hsplit]
    exact (Dump.restatesHeader_iff_of_mem_written hmem).2 (h before e own after hsplit hlast)

/-- An unpublished node with a published status among its own fields. -/
def contradictoryNode : NodeRecord where
  id := 1
  uuid := Uuid.repeating 0
  bundle := "page"
  title := ""
  published := false
  created := 0
  changed := none
  fields := [("status", [.value "1"])]

/-- The node is a draft by its header, and a listing of what is published finds it. -/
theorem contradictoryNode_not_restatesHeader :
    contradictoryNode.entity ∈
      (ofDump { Dump.empty with nodes := [contradictoryNode] } "").nodes.entities ∧
    contradictoryNode.entity.published = false ∧
    contradictoryNode.entity.field "status" = [.value "1"] ∧
    ¬ contradictoryNode.entity.RestatesHeader ∧
    (ofDump { Dump.empty with nodes := [contradictoryNode] } "").fetchIds
      (Listing.nodes true).query = [1] := by
  refine ⟨by decide +kernel, by decide, by decide, fun h => ?_, by decide +kernel⟩
  have hstatus := h "status" "0" (by decide)
  exact absurd hstatus (by decide)

end Store

end ContentProjection
