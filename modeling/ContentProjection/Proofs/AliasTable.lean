import ContentProjection.Proofs.Lists
import ContentProjection.Store
import Mathlib.Data.List.Nodup

/-!
# Aliases there and back

A path is published under the alias of its first record, an alias leads to the
path of its last record. Both read one list of records, from its two ends, so a
published alias leads back to its path unless a later record gives the alias to
another path and nothing after that takes it back. No record can do so when all
aliases of a dump are different.
-/
namespace ContentProjection

/-- A record that publishes its alias, being the first of its path, is repeated after each
record that gives the alias to another path. -/
def Dump.RestatesPublished (d : Dump) : Prop :=
  ∀ before published between taking after,
    d.aliases = before ++ published :: between ++ taking :: after →
    (∀ earlier ∈ before, earlier.source ≠ published.source) →
    taking.name = published.name → taking.source ≠ published.source → published ∈ after

theorem Dump.restatesPublished_of_nodup {d : Dump} (h : (d.aliases.map AliasRecord.name).Nodup) :
    d.RestatesPublished := by
  intro before published between taking after hsplit _ hname _
  rw [hsplit, List.map_append, List.map_append, List.map_cons, List.map_cons, hname] at h
  have htwice := List.disjoint_of_nodup_append h
  exact absurd List.mem_cons_self (htwice (List.mem_append_right _ List.mem_cons_self))

namespace Store

/-- The alias that a path is published under leads back to the path. -/
def AliasesLeadBack (s : Store) : Prop :=
  ∀ source name, s.aliasOf? source = some name → s.sourceOf? name = some source

/-- A path is published under the alias of its first record. -/
theorem aliasOf?_eq_some_iff {s : Store} {source name : String} :
    s.aliasOf? source = some name ↔ ∃ before after,
      s.aliases = before ++ ⟨source, name⟩ :: after ∧
        ∀ earlier ∈ before, earlier.source ≠ source := by
  rw [aliasOf?, Option.map_eq_some_iff]
  constructor
  · rintro ⟨r, hfirst, rfl⟩
    obtain ⟨hsource, before, after, hsplit, hnone⟩ := List.find?_eq_some_iff_append.1 hfirst
    have heq : r.source = source := beq_iff_eq.1 hsource
    exact ⟨before, after, heq ▸ hsplit, fun earlier he => by simpa using hnone earlier he⟩
  · rintro ⟨before, after, hsplit, hnone⟩
    refine ⟨⟨source, name⟩, List.find?_eq_some_iff_append.2 ⟨beq_self_eq_true _, before, after,
      hsplit, fun earlier he => ?_⟩, rfl⟩
    simpa using hnone earlier he

/-- Records after others decide where an alias leads, if they give it to any path. -/
theorem sourceOf?_of_append {s : Store} {before : List AliasRecord} {r : AliasRecord}
    {after : List AliasRecord} (h : s.aliases = before ++ r :: after) :
    s.sourceOf? r.name =
      some (((after.findRev? fun record => record.name == r.name).getD r).source) := by
  rw [sourceOf?, h, findRev?_append, findRev?_cons, beq_self_eq_true, if_pos rfl]
  cases after.findRev? fun record => record.name == r.name <;> rfl

variable {dump : Dump} {baseUrl : String}

theorem restatesPublished_of_aliasesLeadBack (h : (ofDump dump baseUrl).AliasesLeadBack) :
    dump.RestatesPublished := by
  intro before published between taking after hsplit hfirst hname hsource
  have hpublished : (ofDump dump baseUrl).aliasOf? published.source = some published.name := by
    refine aliasOf?_eq_some_iff.2 ⟨before, between ++ taking :: after, ?_, hfirst⟩
    exact hsplit.trans (List.append_assoc _ _ _)
  have hback := h _ _ hpublished
  rw [← hname, sourceOf?_of_append hsplit, hname] at hback
  cases hlast : after.findRev? fun record => record.name == published.name with
  | none =>
    rw [hlast] at hback
    exact absurd (Option.some.inj hback) hsource
  | some back =>
    rw [hlast] at hback
    have heq : back = published := by
      have hn : back.name = published.name := beq_iff_eq.1 (findRev?_eq_some_iff.1 hlast).1
      have hs : back.source = published.source := Option.some.inj hback
      cases back
      cases published
      exact congr (congrArg AliasRecord.mk hs) hn
    exact heq ▸ mem_of_findRev?_eq_some hlast

theorem aliasesLeadBack_of_restatesPublished (h : dump.RestatesPublished) :
    (ofDump dump baseUrl).AliasesLeadBack := by
  intro source name hpublished
  obtain ⟨before, rest, hsplit, hfirst⟩ := aliasOf?_eq_some_iff.1 hpublished
  have hback := sourceOf?_of_append hsplit
  cases hlast : rest.findRev? fun record => record.name == name with
  | none =>
    rw [hlast] at hback
    exact hback
  | some last =>
    rw [hlast] at hback
    by_cases hsource : last.source = source
    · exact hback.trans (congrArg some hsource)
    · obtain ⟨hname, between, after, hrest, hnone⟩ := findRev?_eq_some_iff.1 hlast
      have hall : dump.aliases = before ++ ⟨source, name⟩ :: between ++ last :: after := by
        rw [List.append_assoc, List.cons_append, ← hrest]
        exact hsplit
      have hmem := h before ⟨source, name⟩ between last after hall hfirst (beq_iff_eq.1 hname)
        hsource
      exact absurd (beq_self_eq_true name) (by simpa using hnone _ hmem)

/-- Published aliases lead back to their paths if and only if the record of a published alias
is repeated after each record that gives the alias to another path. -/
theorem aliasesLeadBack_iff_restatesPublished (dump : Dump) (baseUrl : String) :
    (ofDump dump baseUrl).AliasesLeadBack ↔ dump.RestatesPublished :=
  ⟨restatesPublished_of_aliasesLeadBack, aliasesLeadBack_of_restatesPublished⟩

/-- Two nodes with one alias, under which the first is published and the second found. -/
def sharedAlias : Dump :=
  { Dump.empty with aliases := [⟨"/node/1", "/shared"⟩, ⟨"/node/2", "/shared"⟩] }

theorem sharedAlias_not_aliasesLeadBack : ¬ (ofDump sharedAlias "").AliasesLeadBack := by
  intro h
  have hback := h "/node/1" "/shared" (by decide)
  exact absurd hback (by decide)

end Store
end ContentProjection
