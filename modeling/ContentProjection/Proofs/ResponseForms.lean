import ContentProjection.Proofs.CallHistory
import ContentProjection.Proofs.Lookups
import ContentProjection.Proofs.ReferenceListings
import ContentProjection.Proofs.Routing

/-!
# The forms of a response

A get request that makes a call is answered with JSON and one tag, or with one of three
fixed bodies: what a failing lookup says stays inside. A path that leads nowhere has the
body of a missing entity. Only a captured segment that is not UTF-8 is answered before
any call, in plain text that names the capture.
-/
namespace ContentProjection

/-- The tag of an answer: the entity that is looked up, or the kind of what is listed or
counted. -/
def Call.HasTag (s : Store) : Call → String → Prop
  | .getContent contentType token _, tag =>
    ∃ e : Entity, (s.answers.findEntity .node token).run = some e ∧ e.bundle = contentType ∧
      tag = "node:" ++ toString e.id.toNat
  | .getTerm vocabulary token _, tag =>
    ∃ e : Entity, (s.answers.findEntity .taxonomyTerm token).run = some e ∧
      e.bundle = vocabulary ∧ tag = "taxonomy_term:" ++ toString e.id.toNat
  | .listTerms _ _, tag => tag = "taxonomy_term"
  | _, tag => tag = "node_list"

/-- The four forms of a response. Without a call nothing is found. -/
inductive Documented (s : Store) : Option Call → Response → Prop
  | answered {call : Call} {tag : String} (body : Json) (h : call.HasTag s tag) :
    Documented s (some call) ⟨200, some "application/json", some tag, none, body.compact⟩
  | forbidden {call : Call} : Documented s (some call) (.failed 403 "Forbidden.")
  | notFound {call? : Option Call} : Documented s call? (.failed 404 "Not found.")
  | internal {call : Call} : Documented s (some call) (.failed 500 "Internal server error.")

theorem Documented.status_ne {s : Store} {call? : Option Call} {response : Response}
    (h : Documented s call? response) : response.status ≠ 400 := by
  cases h with
  | answered body h => exact (by decide : (200 : Nat) ≠ 400)
  | forbidden => decide
  | notFound => decide
  | internal => decide

namespace Router

/-- The call that a get request makes, none if its path leads nowhere or cannot be read. -/
def asked? (r : Router) (target : Target) : Option Call :=
  (Route.lead r.routes (Route.segmentsOf target.path)).bind fun d =>
    (decodeCaptures d.captured).toOption.map fun decoded => r.callAt d.endpoint decoded target.query

/-- The first capture that is not UTF-8. -/
def firstUnreadable? (captured : List (String × String)) : Option String :=
  (captured.find? fun capture => (Text.Percent.segment? capture.2.toList).isNone).map Prod.fst

/-- The first segment that is captured from a path and is not UTF-8. -/
def unreadable? (r : Router) (target : Target) : Option String :=
  (Route.lead r.routes (Route.segmentsOf target.path)).bind fun d => firstUnreadable? d.captured

theorem decodeCaptures_eq_error_iff {captured : List (String × String)} {name : String} :
    decodeCaptures captured = .error name ↔ firstUnreadable? captured = some name := by
  induction captured with
  | nil => exact ⟨by rintro ⟨⟩, by rintro ⟨⟩⟩
  | cons capture captured ih =>
    obtain ⟨first, raw⟩ := capture
    rw [decodeCaptures]
    cases hraw : Text.Percent.segment? raw.toList with
    | none => simp [firstUnreadable?, hraw]
    | some text =>
      have hskip : firstUnreadable? ((first, raw) :: captured) = firstUnreadable? captured := by
        simp [firstUnreadable?, hraw]
      rw [hskip, ← ih]
      cases decodeCaptures captured with
      | error other => rfl
      | ok decoded => exact ⟨by rintro ⟨⟩, by rintro ⟨⟩⟩

end Router

namespace Store

variable (dump : Dump) (baseUrl : String) (offset : Calendar.Offset) (policy : Policy)

/-- The entity that a lookup answers with is the one behind its token. -/
theorem answer_lookup_of_ok (kind : EntityKind) {bundle token : String}
    {options : LookupOptions} {answer : Answer}
    (h : ((ofDump dump baseUrl).service offset policy).answer
      (.lookup kind bundle token options) = .ok answer) :
    ∃ e body, ((ofDump dump baseUrl).answers.findEntity kind token).run = some e ∧
      e.bundle = bundle ∧ answer = .entity ⟨kind, e.id, body⟩ := by
  rw [Service.answer_eq_plan_bind, Service.plan_lookup] at h
  obtain ⟨p, hp, hanswer⟩ := ok_of_bind h
  obtain ⟨_, -, hp⟩ := ok_of_bind hp
  obtain ⟨e, he, hp⟩ := ok_of_bind hp
  cases hp
  obtain ⟨e?, hfind, hfound⟩ := ok_of_bind he
  have he? : ((ofDump dump baseUrl).answers.findEntity kind token).run = e? :=
    Except.ok.inj ((storage_findEntity _ kind token).symm.trans hfind)
  cases hfilter : e?.filter fun e => e.bundle == bundle with
  | none =>
    rw [hfilter] at hfound
    cases hfound
  | some e' =>
    rw [hfilter] at hfound
    cases hfound
    obtain ⟨hsome, hbundle⟩ := Option.filter_eq_some_iff.1 hfilter
    rw [hsome] at he?
    have hkind : e.kind = kind := kind_of_mem_shelf (mem_shelf_of_findEntity he?)
    obtain ⟨view, hview, hentity⟩ := ok_of_bind hanswer
    obtain ⟨body, -, hbody⟩ := ok_of_bind hview
    cases hbody
    cases hentity
    exact ⟨e, body, he?, eq_of_beq hbundle, by rw [← hkind]⟩

theorem documented_of_answer {call : Call} {answer : Answer}
    (h : ((ofDump dump baseUrl).service offset policy).answer call = .ok answer) :
    Documented (ofDump dump baseUrl) (some call) (answer.response call) := by
  cases call
  case getContent contentType token options =>
    obtain ⟨e, body, he, hb, rfl⟩ := answer_lookup_of_ok dump baseUrl offset policy .node h
    exact .answered (.obj body) ⟨e, he, hb, rfl⟩
  case getTerm vocabulary token options =>
    obtain ⟨e, body, he, hb, rfl⟩ :=
      answer_lookup_of_ok dump baseUrl offset policy .taxonomyTerm h
    exact .answered (.obj body) ⟨e, he, hb, rfl⟩
  case productContentCount sku published =>
    obtain ⟨total, -, htotal⟩ := ok_of_bind h
    cases htotal
    exact .answered (.obj [("count", .int total)]) rfl
  all_goals
    obtain ⟨page, -, hpage⟩ := ok_of_bind h
    cases hpage
    exact .answered page.toJson rfl

/-- Whatever lookups fail, the answer to a call is documented. -/
theorem documented_of_step (failing : List Lookup) (call : Call) {part : Except Fault Answer}
    {cache : SchemaCache}
    (h : (((ofDump dump baseUrl).service offset policy).broken failing).step SchemaCache.empty
      call = (part, cache)) :
    Documented (ofDump dump baseUrl) (some call)
      (match part with
        | .ok answer => answer.response call
        | .error fault => .ofFault fault) := by
  obtain ⟨part', cache', hstep, hpart, -⟩ := Service.step_broken
    ((ofDump dump baseUrl).service offset policy) failing SchemaCache.faithful_empty call
  cases hstep.symm.trans h
  have hwhole := (settles_answer (ofDump dump baseUrl) offset policy call).refusal
  cases part with
  | ok answer =>
    rcases hpart with hsame | ⟨lookup, -, hfault⟩
    · exact documented_of_answer dump baseUrl offset policy hsame.symm
    · cases hfault
  | error fault =>
    dsimp only
    rw [Response.ofFault_eq_failed]
    rcases hpart with hsame | ⟨lookup, -, hfault⟩
    · rcases hwhole fault hsame.symm with rfl | rfl | rfl
      · exact .notFound
      · exact .forbidden
      · exact .internal
    · cases hfault
      exact .internal

end Store

namespace Router

/-- A get request is answered in a documented form if and only if each segment that its path
captures is UTF-8; the first that is not is named in plain text. -/
structure Conforms (s : Store) (r : Router) (target : Target) (response : Response) : Prop where
  documented_iff : Documented s (r.asked? target) response ↔ r.unreadable? target = none
  unreadable : ∀ name ∈ r.unreadable? target, response = .invalidCapture name

section Conforming

variable {dump : Dump} {failing : List Lookup} {c : ContentSettings} {a : Application} {r : Router}

theorem Conforms.of_readable {s : Store} {target : Target} {response : Response}
    (hu : r.unreadable? target = none) (hd : Documented s (r.asked? target) response) :
    Conforms s r target response where
  documented_iff := iff_of_true hd hu
  unreadable name hname := by
    rw [hu] at hname
    cases hname

theorem Conforms.of_unreadable {s : Store} {target : Target} {name : String}
    (hu : r.unreadable? target = some name) :
    Conforms s r target (.invalidCapture name) where
  documented_iff := by
    rw [hu]
    exact iff_of_false (fun h => h.status_ne rfl) (Option.some_ne_none name)
  unreadable other hother := by
    rw [hu] at hother
    cases hother
    rfl

theorem conforms_alone
    (ha : Application.ofStorage c
      ((Store.ofDump dump c.publicBaseUrl).storage.broken failing) = .ok a)
    (hr : a.router? = some r) (target : Target) :
    Conforms (Store.ofDump dump c.publicBaseUrl) r target (r.alone ⟨"GET", target⟩) := by
  obtain ⟨offset, rfl⟩ := eq_of_ofStorage ha
  have hservice : r.application.service =
      ((Store.ofDump dump c.publicBaseUrl).service offset c.policy).broken failing := by
    rw [eq_of_router? hr]
    rfl
  have hrespond := r.respond_get SchemaCache.empty target
  cases hlead : Route.lead r.routes (Route.segmentsOf target.path) with
  | none =>
    have hunreadable : r.unreadable? target = none := by
      rw [unreadable?, hlead, Option.bind_none]
    have halone : r.alone ⟨"GET", target⟩ = .failed 404 "Not found." := by
      rw [alone, hrespond, hlead]
      exact Response.ofFault_eq_failed .notFound
    rw [halone]
    exact .of_readable hunreadable .notFound
  | some d =>
    have hunreadable : r.unreadable? target = firstUnreadable? d.captured := by
      rw [unreadable?, hlead, Option.bind_some]
    have halone : r.alone ⟨"GET", target⟩ =
        (r.answerAt SchemaCache.empty d target.query).1 := by rw [alone, hrespond, hlead]
    rw [halone, answerAt]
    cases hdecode : decodeCaptures d.captured with
    | error name =>
      rw [decodeCaptures_eq_error_iff.1 hdecode] at hunreadable
      exact .of_unreadable hunreadable
    | ok decoded =>
      have hreadable : r.unreadable? target = none := by
        refine hunreadable.trans (Option.eq_none_iff_forall_ne_some.2 fun name hname => ?_)
        rw [decodeCaptures_eq_error_iff.2 hname] at hdecode
        cases hdecode
      have hasked : r.asked? target = some (r.callAt d.endpoint decoded target.query) := by
        rw [asked?, hlead, Option.bind_some, hdecode]
        rfl
      refine .of_readable hreadable ?_
      rw [hasked]
      dsimp only
      rw [hservice]
      cases hstep : (((Store.ofDump dump c.publicBaseUrl).service offset c.policy).broken
          failing).step SchemaCache.empty (r.callAt d.endpoint decoded target.query) with
      | mk part cache' =>
        have hdocumented := Store.documented_of_step _ _ _ _ failing _ hstep
        cases part <;> exact hdocumented

/-- Whatever lookups fail, every get request among other requests is answered in a documented
form, unless a segment that its path captures is not UTF-8. -/
theorem get_documented_iff_readable
    (ha : Application.ofStorage c
      ((Store.ofDump dump c.publicBaseUrl).storage.broken failing) = .ok a)
    (hr : a.router? = some r) (requests : List Request) :
    List.Forall₂ (fun request response => request.method = "GET" →
        Conforms (Store.ofDump dump c.publicBaseUrl) r request.target response)
      requests (r.run SchemaCache.empty requests) := by
  rw [r.run_eq_map_alone SchemaCache.faithful_empty, List.forall₂_map_right_iff, List.forall₂_same]
  rintro ⟨method, target⟩ - rfl
  exact conforms_alone ha hr target

theorem failingBundles_documented :
    ∃ a r, Application.ofStorage .default
        ((Store.ofDump Dump.empty ContentSettings.default.publicBaseUrl).storage.broken
          [.bundleExists]) = .ok a ∧
      a.router? = some r ∧
      Documented (Store.ofDump Dump.empty ContentSettings.default.publicBaseUrl)
        (r.asked? ⟨"/api/fun365/article".toList, none⟩)
        (r.alone ⟨"GET", ⟨"/api/fun365/article".toList, none⟩⟩) := by
  obtain ⟨a, r, ha, hr⟩ := exists_default_router
    ((Store.ofDump Dump.empty ContentSettings.default.publicBaseUrl).storage.broken
      [.bundleExists])
  have hrun := get_documented_iff_readable ha hr
    [⟨"GET", ⟨"/api/fun365/article".toList, none⟩⟩]
  rw [r.run_eq_map_alone SchemaCache.faithful_empty] at hrun
  refine ⟨a, r, ha, hr, ((List.forall₂_cons.1 hrun).1 rfl).documented_iff.2 ?_⟩
  cases ha
  cases hr
  decide +kernel

/-- An id with an escape that is no UTF-8 is answered without a JSON body. -/
theorem strayByte_not_documented :
    ∃ a r, Application.ofStorage .default
        (Store.ofDump Dump.empty ContentSettings.default.publicBaseUrl).storage = .ok a ∧
      a.router? = some r ∧
      Request.ofText? "GET" "/api/fun365/article/%FF" =
        some ⟨"GET", ⟨"/api/fun365/article/%FF".toList, none⟩⟩ ∧
      ∀ s call?, ¬ Documented s call?
        (r.alone ⟨"GET", ⟨"/api/fun365/article/%FF".toList, none⟩⟩) := by
  obtain ⟨a, r, ha, hr⟩ := exists_default_router
    (Store.ofDump Dump.empty ContentSettings.default.publicBaseUrl).storage
  refine ⟨a, r, ha, hr, by decide +kernel, fun s call? h => h.status_ne ?_⟩
  cases ha
  cases hr
  decide +kernel

end Conforming

end Router
end ContentProjection
