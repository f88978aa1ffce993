import ContentProjection.Proofs.Disclosure

/-!
# Answers to requests for published content

The publication flag of a request filters what is listed and nothing below it.
Two dumps that differ in their drafts answer alike as long as no listed node
discloses a draft through its references; as soon as one does, some change to
the drafts shows in the answer.
-/
namespace ContentProjection

namespace Service

/-- The services answer a call alike, whatever schemas each has read before. -/
def SameAnswer (s s' : Service (Except Fault)) (call : Call) : Prop :=
  ∀ cache cache' : SchemaCache, cache.Faithful s.storage.fieldDefinitions →
    cache'.Faithful s'.storage.fieldDefinitions → (s.step cache call).1 = (s'.step cache' call).1

theorem sameAnswer_iff {s s' : Service (Except Fault)} {call : Call} :
    s.SameAnswer s' call ↔ s.answer call = s'.answer call := by
  constructor
  · intro h
    obtain ⟨_, hstep, -⟩ := s.step_eq_answer SchemaCache.faithful_empty call
    obtain ⟨_, hstep', -⟩ := s'.step_eq_answer SchemaCache.faithful_empty call
    have hsame := h _ _ SchemaCache.faithful_empty SchemaCache.faithful_empty
    rwa [hstep, hstep'] at hsame
  · intro h cache cache' hcache hcache'
    obtain ⟨_, hstep, -⟩ := s.step_eq_answer hcache call
    obtain ⟨_, hstep', -⟩ := s'.step_eq_answer hcache' call
    rw [hstep, hstep']
    exact h

end Service

namespace Store

variable (s : Store) (offset : Calendar.Offset) (policy : Policy)

/-- A call that lists nodes, one of which discloses a draft on the page it answers with. -/
def reveals (call : Call) : Bool :=
  match (s.service offset policy).plan call with
  | .ok (.page l ctx form) =>
    decide (s.Sorts l.query) &&
      (form.expands ctx && (s.listed l).any (s.discloses ctx (ctx.levels Depth.root)))
  | _ => false

variable {s} {s' : Store} (h : s.Alike s')
include h

theorem Alike.result_eq (ctx : Context) (form : ResultForm) {e : Entity}
    (hd : (form.expands ctx && s.discloses ctx (ctx.levels Depth.root) e) = false) :
    (Projector.result ⟨s.answers, offset⟩ ctx form e).run =
      (Projector.result ⟨s'.answers, offset⟩ ctx form e).run := by
  unfold Projector.result
  split
  · next hexpands =>
    rw [hexpands, Bool.true_and] at hd
    exact congrArg Json.obj (h.within_eq offset ctx hd)
  · rfl

variable (ho : ∀ kind, (s.shelf kind).Ordered) (ho' : ∀ kind, (s'.shelf kind).Ordered)
  {call : Call} (hcall : call.listsPublished = true)
include ho ho' hcall

theorem Alike.answer_eq (hr : s.reveals offset policy call = false) :
    (s.service offset policy).answer call = (s'.service offset policy).answer call := by
  have hplan := h.plan_eq offset policy hcall
  cases hp : (s.service offset policy).plan call with
  | error fault =>
    have hp' : (s'.service offset policy).plan call = .error fault := hplan.symm.trans hp
    rw [Service.answer_eq_plan_bind, Service.answer_eq_plan_bind, hp, hp', error_bind, error_bind]
  | ok p =>
    obtain ⟨l, ctx, form, rfl, hl, -⟩ := Service.plan_of_listsPublished hcall hp
    have hp' := hplan.symm.trans hp
    rw [s.answer_of_plan_page offset policy hp, s'.answer_of_plan_page offset policy hp']
    by_cases hs : s.Sorts l.query
    case neg => rw [if_neg hs, if_neg (mt (h.sorts_iff hl).2 hs)]
    have hshown : (form.expands ctx &&
        (s.listed l).any (s.discloses ctx (ctx.levels Depth.root))) = false := by
      simpa only [reveals, hp, hs, decide_true, Bool.true_and] using hr
    have hresults : (s.listed l).map (fun e =>
          (Projector.result ⟨s.answers, offset⟩ ctx form e).run) =
        (s.listed l).map fun e => (Projector.result ⟨s'.answers, offset⟩ ctx form e).run := by
      refine List.map_congr_left fun e he => h.result_eq offset ctx form ?_
      rcases Bool.and_eq_false_iff.1 hshown with hexpands | hany
      · rw [hexpands, Bool.false_and]
      · have hclosed : s.discloses ctx (ctx.levels Depth.root) e = false := by
          simpa using List.any_eq_false.1 hany e he
        rw [hclosed, Bool.and_false]
    rw [if_pos hs, if_pos ((h.sorts_iff hl).1 hs), shownPage, shownPage, count, count,
      h.selected_eq hl, ← h.listed_eq ho ho' hl, hresults]

theorem Alike.reveals_eq : s.reveals offset policy call = s'.reveals offset policy call := by
  have hplan := h.plan_eq offset policy hcall
  unfold reveals
  cases hp : (s.service offset policy).plan call with
  | error fault =>
    have hp' : (s'.service offset policy).plan call = .error fault := hplan.symm.trans hp
    rw [hp']
  | ok p =>
    obtain ⟨l, ctx, form, rfl, hl, -⟩ := Service.plan_of_listsPublished hcall hp
    have hp' : (s'.service offset policy).plan call = .ok (.page l ctx form) := hplan.symm.trans hp
    have hdiscloses : s.discloses ctx (ctx.levels Depth.root) =
        s'.discloses ctx (ctx.levels Depth.root) := funext (h.discloses_eq ctx _)
    rw [hp']
    dsimp only
    rw [decide_eq_decide.2 (h.sorts_iff hl), h.listed_eq ho ho' hl, hdiscloses]

/-- A revealed draft shows in the answer when it was changed. -/
theorem Alike.answer_ne {b c : Int} (hs : s.DraftsDated b) (hs' : s'.DraftsDated c)
    (hbc : Projection.TellApart offset b c) (hr : s.reveals offset policy call = true) :
    (s.service offset policy).answer call ≠ (s'.service offset policy).answer call := by
  intro heq
  have hplan := h.plan_eq offset policy hcall
  cases hp : (s.service offset policy).plan call with
  | error fault =>
    rw [reveals, hp] at hr
    cases hr
  | ok p =>
    obtain ⟨l, ctx, form, rfl, hl, hctx⟩ := Service.plan_of_listsPublished hcall hp
    have hp' := hplan.symm.trans hp
    rw [reveals, hp, Bool.and_eq_true, Bool.and_eq_true, decide_eq_true_iff] at hr
    obtain ⟨hsorts, hexpands, hany⟩ := hr
    obtain ⟨e, he, hd⟩ := List.any_eq_true.1 hany
    rw [s.answer_of_plan_page offset policy hp, s'.answer_of_plan_page offset policy hp',
      if_pos hsorts, if_pos ((h.sorts_iff hl).1 hsorts), shownPage, shownPage,
      ← h.listed_eq ho ho' hl] at heq
    have hpages := Answer.page.inj (Except.ok.inj heq)
    have hresult := List.map_inj_left.1 (congrArg Page.results hpages) e he
    simp only [Projector.result, hexpands, if_true] at hresult
    exact DraftsDated.within_ne hctx offset h hs hs' hbc hd (Json.obj.inj hresult)

end Store

namespace Dump

/-- However the drafts of the dump are changed, the call is answered as before. -/
def IgnoresDrafts (d : Dump) (baseUrl : String) (offset : Calendar.Offset) (policy : Policy)
    (call : Call) : Prop :=
  ∀ d' : Dump, d.DraftVariant d' → d'.KeepsBase →
    ((Store.ofDump d baseUrl).service offset policy).SameAnswer
      ((Store.ofDump d' baseUrl).service offset policy) call

theorem alike_redated {d : Dump} (hk : d.KeepsBase) (baseUrl : String) (b c : Int) :
    (Store.ofDump (d.redated b) baseUrl).Alike (Store.ofDump (d.redated c) baseUrl) :=
  Store.alike_ofDump (d.redated_draftVariant b c) (hk.redated b) (hk.redated c) baseUrl

/-- A listing of published content is independent of drafts when no listed node discloses one
through its references, and only then if no schema defines a field twice. -/
theorem ignoresDrafts_iff_not_reveals {d : Dump} (hk : d.KeepsBase) (baseUrl : String)
    (offset : Calendar.Offset) (policy : Policy) {call : Call}
    (hcall : call.listsPublished = true) :
    ((Store.ofDump d baseUrl).reveals offset policy call = false →
      d.IgnoresDrafts baseUrl offset policy call) ∧
    (d.DistinctFields → d.IgnoresDrafts baseUrl offset policy call →
      (Store.ofDump d baseUrl).reveals offset policy call = false) := by
  constructor
  · intro hr d' hd hk'
    have halike := Store.alike_ofDump hd hk hk' baseUrl
    apply Service.sameAnswer_iff.2
    exact halike.answer_eq offset policy (Store.ordered_ofDump d baseUrl)
      (Store.ordered_ofDump d' baseUrl) hcall hr
  · intro hn hignores
    cases hr : (Store.ofDump d baseUrl).reveals offset policy call with
    | false => rfl
    | true =>
      have hdated := Store.draftsDated_redated hk hn baseUrl
      have hstart := Service.sameAnswer_iff.1
        (hignores _ (d.draftVariant_redated 0) (hk.redated 0))
      have hpast := Service.sameAnswer_iff.1
        (hignores _ (d.draftVariant_redated Text.Numeral.maxInt64) (hk.redated _))
      have hrevealed : (Store.ofDump (d.redated 0) baseUrl).reveals offset policy call = true := by
        have halike := Store.alike_ofDump (d.draftVariant_redated 0) hk (hk.redated 0) baseUrl
        rw [← hr]
        exact (halike.reveals_eq offset policy (Store.ordered_ofDump _ _)
          (Store.ordered_ofDump _ _) hcall).symm
      have halike := alike_redated hk baseUrl 0 Text.Numeral.maxInt64
      have hne := halike.answer_ne offset policy (Store.ordered_ofDump _ _)
        (Store.ordered_ofDump _ _) hcall (hdated 0) (hdated _)
        (Projection.tellApart_start_past offset) hrevealed
      exact absurd (hstart.symm.trans hpast) hne

end Dump

/-- An article that refers to a draft. -/
def draftBehindReference : Dump :=
  let node (id : EntityId) (digit : Nat) (published : Bool) (next : List Item) : NodeRecord :=
    ⟨id, Uuid.repeating digit, "article", "", published, 0, none,
      [("field_next", next)]⟩
  { Dump.empty with
    nodeBundles := [("article", [⟨"field_next", .entityReference .node, false⟩])]
    nodes := [node 1 1 true [.target "2"], node 2 2 false []] }

/-- The first page of articles, with the entities that they refer to. -/
def articlesWithReferences : Call := .listContent none "article" ⟨0, 10, true, 1, true⟩

theorem draftBehindReference_ignoresDrafts_iff :
    draftBehindReference.KeepsBase ∧ articlesWithReferences.listsPublished = true ∧
    draftBehindReference.DistinctFields ∧
    (Store.ofDump draftBehindReference "").reveals .utc Policy.default articlesWithReferences
      = true ∧
    ((Store.ofDump draftBehindReference "").reveals .utc Policy.default articlesWithReferences
        = false →
      draftBehindReference.IgnoresDrafts "" .utc Policy.default articlesWithReferences) ∧
    (draftBehindReference.DistinctFields →
      draftBehindReference.IgnoresDrafts "" .utc Policy.default articlesWithReferences →
      (Store.ofDump draftBehindReference "").reveals .utc Policy.default articlesWithReferences
        = false) :=
  ⟨by decide, rfl, by decide, by decide +kernel,
    Dump.ignoresDrafts_iff_not_reveals (by decide) "" .utc Policy.default rfl⟩

/-- Two dumps that differ in the date of a draft, which shows behind a reference. -/
theorem draftBehindReference_shows :
    (draftBehindReference.redated 0).DraftVariant
      (draftBehindReference.redated Text.Numeral.maxInt64) ∧
    (draftBehindReference.redated 0).KeepsBase ∧
    (draftBehindReference.redated Text.Numeral.maxInt64).KeepsBase ∧
    (draftBehindReference.nodes.map NodeRecord.id).Nodup ∧
    (draftBehindReference.nodes.map NodeRecord.uuid).Nodup ∧
    articlesWithReferences.listsPublished = true ∧
    ¬ ((Store.ofDump (draftBehindReference.redated 0) "").service .utc Policy.default).SameAnswer
      ((Store.ofDump (draftBehindReference.redated Text.Numeral.maxInt64) "").service .utc
        Policy.default) articlesWithReferences := by
  have hk : draftBehindReference.KeepsBase := by decide
  have hn : draftBehindReference.DistinctFields := by decide
  refine ⟨Dump.redated_draftVariant _ _ _, hk.redated _, hk.redated _, by decide, by decide, rfl,
    ?_⟩
  intro hsame
  have hdated := Store.draftsDated_redated hk hn ""
  have hrevealed : (Store.ofDump (draftBehindReference.redated 0) "").reveals .utc Policy.default
      articlesWithReferences = true := by decide +kernel
  have hne := (Dump.alike_redated hk "" 0 Text.Numeral.maxInt64).answer_ne .utc Policy.default
    (Store.ordered_ofDump _ _) (Store.ordered_ofDump _ _) rfl (hdated 0) (hdated _)
    (Projection.tellApart_start_past .utc) hrevealed
  exact hne (Service.sameAnswer_iff.1 hsame)

end ContentProjection
