import ContentProjection.Proofs.AliasTable
import ContentProjection.Proofs.Paging
import ContentProjection.Proofs.Tokens
import ContentProjection.Proofs.UuidIndex

/-!
# Lookups of one entity

A lookup checks permission, finds the entity behind a token and shows it if it
has the wanted bundle. The token is read by the finding alone, so two tokens
that find the same entity are answered alike, failures included. The UUID of an
entity is such a token, and so is the path it is published under when aliases
lead back: its leading slash is taken off when it is shown and put back when it
is looked up.
-/
namespace ContentProjection

/-- The call that looks up one entity of a kind. -/
def Call.lookup (kind : EntityKind) (bundle token : String) (options : LookupOptions) : Call :=
  match kind with
  | .node => .getContent bundle token options
  | .taxonomyTerm => .getTerm bundle token options

/-- What a client may ask for among the bundles of a kind. -/
def Policy.permits (policy : Policy) : EntityKind → String → Bool
  | .node => policy.permitsType
  | .taxonomyTerm => policy.permitsVocabulary

namespace Service

section

variable {m : Type → Type} [Monad m] [MonadExcept Fault m] (s : Service m) {kind : EntityKind}
  {token token' : String}

theorem demand_of_eq_true {condition : Bool} (h : condition = true) (fault : Fault) :
    demand condition fault = (pure () : m Unit) :=
  if_pos h

theorem plan_lookup (kind : EntityKind) (bundle token : String) (options : LookupOptions) :
    s.plan (.lookup kind bundle token options) = do
      demand (s.policy.permits kind bundle) .forbidden
      return .entity options (← s.lookup kind bundle token) := by
  cases kind <;> rfl

theorem answer_lookup_congr [LawfulMonad m]
    (h : s.storage.findEntity kind token = s.storage.findEntity kind token') (bundle : String)
    (options : LookupOptions) :
    s.answer (.lookup kind bundle token options) =
      s.answer (.lookup kind bundle token' options) := by
  rw [answer_eq_plan_bind, answer_eq_plan_bind, plan_lookup, plan_lookup, lookup, lookup, h]

end

/-- A call is answered like this, whatever was cached before it. -/
def Answers (s : Service (Except Fault)) (call : Call) (answer : Except Fault Answer) : Prop :=
  ∀ cache : SchemaCache, cache.Faithful s.storage.fieldDefinitions → (s.step cache call).1 = answer

theorem answers_of_eq {s : Service (Except Fault)} {call : Call} {answer : Except Fault Answer}
    (h : s.answer call = answer) : s.Answers call answer := by
  intro cache hcache
  obtain ⟨cache', hstep, -⟩ := s.step_eq_answer hcache call
  rw [hstep, h]

theorem answers_iff {s : Service (Except Fault)} {call : Call} {answer : Except Fault Answer} :
    s.Answers call answer ↔ s.answer call = answer := by
  refine ⟨fun h => ?_, answers_of_eq⟩
  obtain ⟨_, hstep, -⟩ := s.step_eq_answer SchemaCache.faithful_empty call
  rw [← h _ SchemaCache.faithful_empty, hstep]

end Service

namespace Store

/-- A token leads to an entity of a kind. -/
def Finds (s : Store) (kind : EntityKind) (token : String) (e : Entity) : Prop :=
  (s.answers.findEntity kind token).run = some e

section Finds

variable {s : Store} {kind : EntityKind} {token : String} {e : Entity}

theorem storage_findEntity_eq_some_iff :
    s.storage.findEntity kind token = .ok (some e) ↔ s.Finds kind token e := by
  rw [s.storage_findEntity, Except.ok.injEq]
  rfl

theorem not_finds_empty : ¬ s.Finds kind "" e := nofun

/-- The written form of a UUID finds what the UUID does in the index. -/
theorem finds_text_iff {uuid : Uuid} :
    s.Finds kind uuid.text e ↔ s.getByUuid? kind uuid = some e := by
  rw [Finds, Storage.findEntity_text]
  rfl

section Alias

variable (hne : token ≠ "") (hc : Uuid.isCanonical token = false)
include hne hc

/-- Any other token is an alias and finds the entity that the path of the alias carries. -/
theorem finds_alias_iff : s.Finds kind token e ↔ ∃ path id,
    s.sourceOf? ("/" ++ token) = some path ∧ Token.idOfPath? kind path = some id ∧
      s.get? kind id = some e := by
  have hlookup : s.answers.sourceForAlias ("/" ++ token) = pure (s.sourceOf? ("/" ++ token)) := rfl
  rw [Finds, Storage.findEntity_of_alias _ _ hne hc, hlookup, pure_bind]
  cases s.sourceOf? ("/" ++ token) with
  | none => simp
  | some path =>
    rw [Option.bind_some]
    cases hid : Token.idOfPath? kind path with
    | none => simp [hid]
    | some id =>
      have hload : (s.answers.load kind id).run = s.get? kind id := rfl
      simp [hid, hload]

/-- Of the records of an alias the last one leads on. -/
theorem finds_alias_iff_of_last {before after : List AliasRecord} {r : AliasRecord}
    (hsplit : s.aliases = before ++ r :: after) (hname : r.name = "/" ++ token)
    (hlast : ∀ later ∈ after, later.name ≠ r.name) :
    s.Finds kind token e ↔
      ∃ id, Token.idOfPath? kind r.source = some id ∧ s.get? kind id = some e := by
  have hnone : after.findRev? (fun record => record.name == r.name) = none := by
    rw [List.findRev?_eq_find?_reverse, List.find?_eq_none]
    exact fun later hl => by simpa using hlast later (List.mem_reverse.1 hl)
  have hsource := sourceOf?_of_append hsplit
  rw [hnone, Option.getD_none, hname] at hsource
  rw [finds_alias_iff hne hc, hsource]
  simp

end Alias

end Finds

section Found

variable (s : Store) (offset : Calendar.Offset) (policy : Policy) {kind : EntityKind}
  {bundle token : String} {e : Entity}

theorem answer_lookup_of_found (hp : policy.permits kind bundle = true)
    (hf : s.storage.findEntity kind token = .ok (some e)) (hb : e.bundle = bundle)
    (options : LookupOptions) :
    (s.service offset policy).answer (.lookup kind bundle token options) = .ok (.entity
      ⟨e.kind, e.id, (Projector.project ⟨s.answers, offset⟩
        ((s.service offset policy).itemContext options) e).run⟩) := by
  have hlookup : (s.service offset policy).lookup kind bundle token = .ok e := by
    have hfilter : (some e).filter (fun e => e.bundle == bundle) = some e := by simp [hb]
    change (s.storage.findEntity kind token >>= _) = _
    rw [hf]
    exact congrArg Service.found hfilter
  have hpermits : (s.service offset policy).policy.permits kind bundle = true := hp
  have hplan : (s.service offset policy).plan (.lookup kind bundle token options) =
      .ok (.entity options e) := by
    rw [Service.plan_lookup, Service.demand_of_eq_true hpermits, pure_bind, hlookup]
    rfl
  rw [Service.answer_eq_plan_bind, hplan]
  exact Simulation.carryOut_entity s.storage_simulated offset policy options e

end Found

variable {dump : Dump} {baseUrl : String} {kind : EntityKind} {e : Entity}

theorem findEntity_uuid_ofDump (hu : dump.DistinctUuids)
    (he : e ∈ ((ofDump dump baseUrl).shelf kind).entities) :
    (ofDump dump baseUrl).storage.findEntity kind e.uuid.text = .ok (some e) :=
  storage_findEntity_eq_some_iff.2 (finds_text_iff.2 (getByUuid?_of_mem hu he))

/-- Where all ids and UUIDs of a kind are different, a UUID finds the entity of its record. -/
theorem finds_text_ofDump_iff (hids : ((dump.entities kind).map Entity.id).Nodup)
    (hu : dump.DistinctUuids) {uuid : Uuid} :
    (ofDump dump baseUrl).Finds kind uuid.text e ↔ e ∈ dump.entities kind ∧ e.uuid = uuid := by
  rw [finds_text_iff]
  constructor
  · intro hfound
    obtain ⟨huuid, hget⟩ := findsOwners_of_nodup_ids hids uuid e hfound
    exact ⟨mem_entities_ofDump (Shelf.mem_of_get? hget), huuid⟩
  · rintro ⟨hmem, rfl⟩
    exact getByUuid?_of_mem hu ((mem_entities_ofDump_iff hids).2 hmem)

end Store

/-- The first alias of an entity is a slash and then the token, which is neither empty nor in
the written form of a UUID and has no slash in front itself. -/
structure Dump.PublishedAs (d : Dump) (e : Entity) (token : String) : Prop where
  first : d.aliases.find? (fun record => record.source == e.internalPath) =
    some ⟨e.internalPath, "/" ++ token⟩
  nonempty : token ≠ ""
  unrooted : token.toList.head? ≠ some '/'
  isAlias : Uuid.isCanonical token = false

theorem Projection.pathText_of_unrooted {token : String} (h : token.toList.head? ≠ some '/') :
    pathText (some ("/" ++ token)) = token := by
  have hslash : ("/" ++ token).toList = '/' :: token.toList := by
    rw [String.toList_append]
    rfl
  rw [pathText, Option.getD_some, hslash, List.dropWhile_cons_of_pos (by decide)]
  cases hcs : token.toList with
  | nil => rw [List.dropWhile_nil, ← hcs, String.ofList_toList]
  | cons c cs =>
    have hc : c ≠ '/' := by simpa [hcs] using h
    rw [List.dropWhile_cons_of_neg (by simpa using hc), ← hcs, String.ofList_toList]

namespace Store

variable {dump : Dump} {baseUrl : String} {e : Entity} {token : String}

theorem aliasOf?_of_publishedAs (h : dump.PublishedAs e token) :
    (ofDump dump baseUrl).aliasOf? e.internalPath = some ("/" ++ token) := by
  change (dump.aliases.find? _).map _ = _
  rw [h.first]
  rfl

/-- A published path finds its entity when aliases lead back. -/
theorem findEntity_of_publishedAs (hback : (ofDump dump baseUrl).AliasesLeadBack)
    (he : e ∈ ((ofDump dump baseUrl).shelf e.kind).entities) (h : dump.PublishedAs e token) :
    (ofDump dump baseUrl).storage.findEntity e.kind token = .ok (some e) := by
  have hsource : (ofDump dump baseUrl).sourceOf? ("/" ++ token) = some e.internalPath :=
    hback _ _ (aliasOf?_of_publishedAs h)
  have hid : Token.idOfPath? e.kind e.internalPath = some e.id :=
    Token.idOfPath?_internalPath e.kind e.id
  have hget : (ofDump dump baseUrl).get? e.kind e.id = some e :=
    (ordered_ofDump dump baseUrl e.kind).get?_of_mem he
  exact storage_findEntity_eq_some_iff.2
    ((finds_alias_iff h.nonempty h.isAlias).2 ⟨_, _, hsource, hid, hget⟩)

/-- The path that an entity shows is a token that finds the entity, and looking it up is
answered as looking up the UUID is, when all UUIDs of a kind and all aliases are different. -/
theorem published_path_answers_as_uuid (dump : Dump) (baseUrl : String) (offset : Calendar.Offset)
    (policy : Policy) (hu : dump.DistinctUuids) (ha : (dump.aliases.map AliasRecord.name).Nodup)
    {e : Entity} (he : e ∈ ((ofDump dump baseUrl).shelf e.kind).entities) {token : String}
    (h : dump.PublishedAs e token) :
    (∀ ctx expand d, Projector.render ⟨(ofDump dump baseUrl).storage, offset⟩ ctx expand e d
      .pathAlias = .ok (.str token)) ∧
    (ofDump dump baseUrl).storage.findEntity e.kind token = .ok (some e) ∧
    ∀ bundle options, ∃ answer,
      ((ofDump dump baseUrl).service offset policy).Answers
        (.lookup e.kind bundle token options) answer ∧
      ((ofDump dump baseUrl).service offset policy).Answers
        (.lookup e.kind bundle e.uuid.text options) answer := by
  have hback : (ofDump dump baseUrl).AliasesLeadBack :=
    aliasesLeadBack_of_restatesPublished (Dump.restatesPublished_of_nodup ha)
  have hfind := findEntity_of_publishedAs hback he h
  refine ⟨fun ctx expand d => ?_, hfind, fun bundle options => ?_⟩
  · change Except.ok (Json.str (Projection.pathText
      ((ofDump dump baseUrl).aliasOf? e.internalPath))) = _
    rw [aliasOf?_of_publishedAs h, Projection.pathText_of_unrooted h.unrooted]
  · have hsame : (ofDump dump baseUrl).storage.findEntity e.kind token =
        (ofDump dump baseUrl).storage.findEntity e.kind e.uuid.text :=
      hfind.trans (findEntity_uuid_ofDump hu he).symm
    have hanswer := Service.answer_lookup_congr ((ofDump dump baseUrl).service offset policy)
      hsame bundle options
    exact ⟨_, Service.answers_of_eq hanswer, Service.answers_of_eq rfl⟩

/-- A node that is published under a path with a slash inside. -/
def publishedNode : NodeRecord where
  id := 70
  uuid := Uuid.repeating 7
  bundle := "article"
  title := ""
  published := true
  created := 0
  changed := none
  fields := []

def publishedDump : Dump :=
  { Dump.empty with nodes := [publishedNode], aliases := [⟨"/node/70", "/about/us"⟩] }

theorem publishedNode_path_answers_as_uuid :
    (publishedDump.DistinctUuids ∧ (publishedDump.aliases.map AliasRecord.name).Nodup ∧
      publishedNode.entity ∈ ((ofDump publishedDump "").shelf .node).entities ∧
      publishedDump.PublishedAs publishedNode.entity "about/us") ∧
    (ofDump publishedDump "").storage.findEntity .node "about/us" =
      .ok (some publishedNode.entity) ∧
    ∃ answer,
      ((ofDump publishedDump "").service .utc Policy.default).Answers
        (.getContent "article" "about/us" ⟨true, 1⟩) answer ∧
      ((ofDump publishedDump "").service .utc Policy.default).Answers
        (.getContent "article" (Uuid.repeating 7).text ⟨true, 1⟩) answer := by
  have hu : publishedDump.DistinctUuids := by decide
  have ha : (publishedDump.aliases.map AliasRecord.name).Nodup := by decide
  have he : publishedNode.entity ∈ ((ofDump publishedDump "").shelf .node).entities := by
    decide +kernel
  have h : publishedDump.PublishedAs publishedNode.entity "about/us" :=
    ⟨by decide +kernel, by decide, by decide, by decide⟩
  obtain ⟨-, hfind, hanswers⟩ := published_path_answers_as_uuid publishedDump "" .utc
    Policy.default hu ha (e := publishedNode.entity) he h
  exact ⟨⟨hu, ha, he, h⟩, hfind, hanswers "article" ⟨true, 1⟩⟩

end Store

end ContentProjection
