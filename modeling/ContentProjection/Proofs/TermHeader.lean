import ContentProjection.Proofs.ShownHeader
import ContentProjection.Proofs.UuidIndex

/-!
# What stands before the fields of a term

A term shows its parent and its vocabulary first. The parent is the first one that
the term stores, and nothing replaces it, because the name is never shown for a
field. It is of the same vocabulary only if the records say so. The name of the
vocabulary is not kept from fields in this way: a field that the vocabulary defines
under it takes its place.
-/
namespace ContentProjection

namespace Projector

variable (p : Projector Id) (ctx : Context) {e : Entity} (h : e.kind = .taxonomyTerm)
include h

theorem names_project_of_term : ["parent", "type"] <+: (p.project ctx e).run.names := by
  have hprefix := p.names_header_isPrefix ctx (fun t => pure (.obj (p.shownBehind ctx t))) e
  rwa [p.run_header_of_term h, ← run_project] at hprefix

/-- The name of the parent is ignored, so that no field takes its place. -/
theorem get?_parent_project_of_term :
    (p.project ctx e).run.get? "parent" = some (.str (p.parentText e).run) := by
  rw [run_project, get?_run_object_of_no_field, p.run_header_of_term h]
  · rfl
  · intro d _ hname
    exact p.run_field?_of_isIgnored ctx _ e (by rw [hname]; decide)

theorem get?_type_project_of_term
    (hd : ∀ d ∈ (p.storage.fieldDefinitions e.kind e.bundle).run, d.name = "type" →
      Rendering.ofType? d.type = none) :
    (p.project ctx e).run.get? "type" = some (.str e.bundle) := by
  rw [run_project, get?_run_object_of_no_field, p.run_header_of_term h]
  · rfl
  · intro d hmem hname
    exact p.run_field?_of_unsupported ctx _ e (hd d hmem hname)

end Projector

/-- The parents that a term stores, parent 0 left out. -/
def Entity.parents (e : Entity) : List EntityId :=
  ((e.field "parent").filterMap Item.targetEntityId?).filter (· != 0)

namespace Store

/-- The entity that a term shows as its parent: the first one stored, if it is there. -/
def parent? (s : Store) (e : Entity) : Option Entity :=
  e.parents.head?.bind (s.get? .taxonomyTerm)

/-- A term of the vocabulary of `e` with this UUID is among the stored parents. -/
def HasOwnParent (s : Store) (e : Entity) (uuid : Uuid) : Prop :=
  ∃ t ∈ s.terms.entities, t.id ∈ e.parents ∧ t.bundle = e.bundle ∧ t.uuid = uuid

instance (s : Store) (e : Entity) (uuid : Uuid) : Decidable (s.HasOwnParent e uuid) :=
  inferInstanceAs (Decidable (∃ t ∈ s.terms.entities, t.id ∈ e.parents ∧ t.bundle = e.bundle ∧
    t.uuid = uuid))

/-- An object starts with the parent of a term and its type, and the parent is the first one that
the term stores. -/
structure ShowsTermHeader (s : Store) (e : Entity) (object : Json.Object) : Prop where
  names : ["parent", "type"] <+: object.names
  parent : object.get? "parent" =
    some (.str (((s.parent? e).map fun parent => parent.uuid.text).getD ""))
  /-- What is shown is no parent, or one of the same vocabulary, if that is the first one. -/
  ownParent : (object.get? "parent" = some (.str "") ∨
      ∃ uuid, s.HasOwnParent e uuid ∧ object.get? "parent" = some (.str uuid.text)) ↔
    ∀ parent, s.parent? e = some parent → s.HasOwnParent e parent.uuid

variable {dump : Dump} {baseUrl : String} (offset : Calendar.Offset) {e : Entity}

theorem parentsOf_of_mem (he : e ∈ (ofDump dump baseUrl).terms.entities) :
    (ofDump dump baseUrl).parentsOf e.id = e.parents := by
  have hget : (ofDump dump baseUrl).terms.get? e.id = some e :=
    (ordered_ofDump dump baseUrl .taxonomyTerm).get?_of_mem he
  rw [parentsOf, hget]
  rfl

theorem run_parentText_of_mem (he : e ∈ (ofDump dump baseUrl).terms.entities) :
    (Projector.parentText ⟨(ofDump dump baseUrl).answers, offset⟩ e).run =
      (((ofDump dump baseUrl).parent? e).map fun parent => parent.uuid.text).getD "" := by
  have hparents : (Projector.storage ⟨(ofDump dump baseUrl).answers, offset⟩).parentsOf e.id =
      pure e.parents := parentsOf_of_mem he
  rw [Projector.parentText, hparents, parent?]
  cases e.parents <;> rfl

/-- Every term shows its header, whatever its vocabulary defines. -/
theorem showsTermHeader_project (he : e ∈ (ofDump dump baseUrl).terms.entities) (ctx : Context) :
    (ofDump dump baseUrl).ShowsTermHeader e
      (Projector.project ⟨(ofDump dump baseUrl).answers, offset⟩ ctx e).run := by
  have hkind := kind_of_mem_terms he
  have hparent := Projector.get?_parent_project_of_term
    ⟨(ofDump dump baseUrl).answers, offset⟩ ctx hkind
  rw [run_parentText_of_mem offset he] at hparent
  refine ⟨Projector.names_project_of_term _ ctx hkind, hparent, ?_⟩
  rw [hparent]
  cases hfirst : (ofDump dump baseUrl).parent? e with
  | none => simp
  | some first =>
    have hne := first.uuid.text_ne_empty
    simp [Uuid.text_inj, hne]

end Store

/-- A word that is not the given one. -/
def otherWord (word : String) : String := if word = "x" then "y" else "x"

theorem otherWord_eq (word : String) : otherWord word = "x" ∨ otherWord word = "y" := by
  unfold otherWord
  split
  · exact Or.inr rfl
  · exact Or.inl rfl

theorem otherWord_ne (word : String) : otherWord word ≠ word := by
  unfold otherWord
  split
  · next h => rw [h]; decide
  · next h => exact Ne.symm h

/-- A term that stores a word other than its vocabulary as its type. -/
def retypedTerm (vocabulary : String) : TermRecord where
  id := 1
  uuid := Uuid.repeating 0
  vocabulary
  name := ""
  description := ""
  weight := 0
  parent := none
  changed := 0
  fields := [("type", [.value (otherWord vocabulary)])]

/-- The term in a vocabulary with some fields of its own, under an alias of that word. -/
def retypedDump (vocabulary : String) (own : Schema) : Dump :=
  { Dump.empty with
    termBundles := [(vocabulary, own)]
    terms := [retypedTerm vocabulary]
    aliases := [⟨"/taxonomy/term/1", otherWord vocabulary⟩] }

section Retyped

variable (vocabulary : String) (own : Schema)

theorem field_type_retypedTerm :
    (retypedTerm vocabulary).entity.field "type" = [.value (otherWord vocabulary)] := by
  rw [TermRecord.entity_eq, Entity.field, List.reverse_append]
  rfl

theorem retypedTerm_mem :
    (retypedTerm vocabulary).entity ∈
      (Store.ofDump (retypedDump vocabulary own) "").terms.entities :=
  List.mem_singleton.2 rfl

theorem bundle?_retypedDump :
    (Store.ofDump (retypedDump vocabulary own) "").terms.bundle? vocabulary = some own := by
  refine (Shelf.bundle?_insertAll _ _ vocabulary).trans ?_
  simp [Shelf.ofBundles, Shelf.bundle?, retypedDump]

theorem aliasOf?_retypedTerm :
    (Store.ofDump (retypedDump vocabulary own) "").aliasOf?
      (retypedTerm vocabulary).entity.internalPath = some (otherWord vocabulary) := by
  have hpath : EntityKind.internalPath .taxonomyTerm 1 = "/taxonomy/term/1" := by decide
  rw [TermRecord.entity_eq]
  exact congrArg (Store.ofDump (retypedDump vocabulary own) "").aliasOf? hpath

variable (offset : Calendar.Offset) (ctx : Context) (shown : Entity → Json.Object)

/-- The word is no number, no date and no reference. -/
theorem element?_otherWord_ne (p : Projector Id) (r : Rendering) :
    p.element? ctx shown r (.value (otherWord vocabulary)) ≠ some (.str vocabulary) := by
  cases r with
  | plain => simp [Projector.element?, Item.scalar, otherWord_ne]
  | integer | link | boolean | pathAlias => simp [Projector.element?, Projection.linkOf]
  | float =>
    rcases Json.ofReal_eq_or (Projection.realOf (Item.value (otherWord vocabulary)).scalar) with
      h | h <;> simp [Projector.element?, h]
  | date =>
    have hdate : Calendar.render? p.offset (otherWord vocabulary) = none := by
      rcases otherWord_eq vocabulary with h | h
      all_goals rw [h]; rfl
    simp [Projector.element?, Projection.dateOf, Item.scalar, hdate, Json.optional]
  | file => simp [Projector.element?, p.run_fileOf, Item.targetEntityId?, Item.targetId?]
  | image maxResolution =>
    obtain ⟨derived, hrun⟩ := p.run_imageOf (Projector.imageStyles ctx maxResolution)
      (.value (otherWord vocabulary))
    simp [Projector.element?, hrun, Item.targetEntityId?, Item.targetId?]
  | reference target =>
    intro h
    obtain ⟨kind, -, htarget⟩ := Option.bind_eq_some_iff.1 h
    obtain ⟨e, -, hobject⟩ := Option.map_eq_some_iff.1 htarget
    cases hobject

/-- No type of field shows the vocabulary for the word that is stored. -/
theorem render_retypedTerm_ne {d : FieldDefinition} (hd : d.name = "type") (r : Rendering) :
    (Projector.render ⟨(Store.ofDump (retypedDump vocabulary own) "").answers, offset⟩ ctx
      (fun target => pure (.obj (shown target))) (retypedTerm vocabulary).entity d r).run ≠
        .str vocabulary := by
  have hitems : (retypedTerm vocabulary).entity.field d.name = [.value (otherWord vocabulary)] :=
    hd ▸ field_type_retypedTerm vocabulary
  by_cases hw : r.manner = .whole
  · cases r with
    | boolean => simp [Projector.render, Projection.booleanOf]
    | pathAlias =>
      have hpath : Projection.pathText (some (otherWord vocabulary)) = otherWord vocabulary := by
        rcases otherWord_eq vocabulary with h | h
        all_goals rw [h]; decide
      have halias : ((Store.ofDump (retypedDump vocabulary own) "").answers.aliasForSource
          (retypedTerm vocabulary).entity.internalPath).run = some (otherWord vocabulary) :=
        aliasOf?_retypedTerm vocabulary own
      simp [Projector.render, halias, hpath, otherWord_ne]
    | reference target =>
      cases target with
      | nodeType =>
        simp [Projector.render, Projector.referencesOf, Projection.bundleOf, hitems, Item.scalar,
          otherWord_ne]
      | other => simp [Projector.render, Projector.referencesOf]
      | node | taxonomyTerm => cases hw
    | _ => cases hw
  · rw [Projector.run_render_of_items _ ctx shown hw, hitems]
    cases d.multiple with
    | true => simp
    | false =>
      have hne := element?_otherWord_ne vocabulary ctx shown
        ⟨(Store.ofDump (retypedDump vocabulary own) "").answers, offset⟩ r
      rw [if_neg Bool.false_ne_true, List.head?_cons, Option.bind_some]
      intro h
      rcases Option.getD_eq_iff.1 h with hvalue | ⟨-, hnull⟩
      · exact hne hvalue
      · cases hnull

theorem admits_type (kind : EntityKind) : Context.default.Admits kind "type" :=
  Context.admits_of_no_allowList rfl kind (by decide)

/-- Whatever such a field contributes, it is not the vocabulary. -/
theorem run_field?_retypedTerm_ne {d : FieldDefinition} (hd : d.name = "type") :
    (Projector.field? ⟨(Store.ofDump (retypedDump vocabulary own) "").answers, offset⟩
      Context.default (fun target => pure (.obj (shown target))) (retypedTerm vocabulary).entity
        d).run ≠ some (.str vocabulary) := by
  cases hr : Rendering.ofType? d.type with
  | none => simp [Projector.run_field?_of_unsupported _ _ _ _ hr]
  | some r =>
    have hvalue : r.lacksValue ((retypedTerm vocabulary).entity.field d.name) = false := by
      rw [hd, field_type_retypedTerm]
      apply Rendering.lacksValue_of_scalar_ne
      rcases otherWord_eq vocabulary with h | h
      all_goals simp [Item.scalar, h]
    rw [Projector.run_field?_of_admitted _ _ _ _ (hd ▸ admits_type _) hr, hvalue, Bool.and_false,
      if_neg Bool.false_ne_true]
    exact fun h => render_retypedTerm_ne vocabulary own offset _ shown hd r (Option.some.inj h)

end Retyped

namespace Store

/-- The fields of a term of a known vocabulary. -/
theorem run_fieldDefinitions_of_term {s : Store} {e : Entity} (hk : e.kind = .taxonomyTerm)
    {own : Schema} (h : s.terms.bundle? e.bundle = some own) :
    (s.answers.fieldDefinitions e.kind e.bundle).run = termOwnFields ++ own := by
  have hown : (s.shelf .taxonomyTerm).bundle? e.bundle = some own := h
  have hschema : s.schemaOf .taxonomyTerm e.bundle = termOwnFields ++ own := by
    rw [schemaOf, hown]
    rfl
  rw [hk]
  exact hschema

/-- A vocabulary stands second in the objects of its terms, whatever is stored in them, if and only
if it defines no supported field under that name. -/
theorem showsVocabulary_iff (vocabulary : String) (own : Schema) :
    (∀ dump baseUrl offset ctx e object, e ∈ (ofDump dump baseUrl).terms.entities →
      e.bundle = vocabulary → (ofDump dump baseUrl).terms.bundle? vocabulary = some own →
      (ofDump dump baseUrl).answers.Projects offset ctx e object →
        object.get? "type" = some (.str vocabulary)) ↔
    ∀ d ∈ own, d.name = "type" → Rendering.ofType? d.type = none := by
  constructor
  · intro h d hd hname
    by_contra hsupported
    obtain ⟨r, hr⟩ := Option.ne_none_iff_exists'.1 hsupported
    have hbundle : (retypedTerm vocabulary).entity.bundle = vocabulary := by
      rw [TermRecord.entity_eq]
      rfl
    have hdefs := run_fieldDefinitions_of_term (retypedTerm vocabulary).kind_entity
      (hbundle ▸ bundle?_retypedDump vocabulary own)
    have hshown := h (retypedDump vocabulary own) "" .utc Context.default
      (retypedTerm vocabulary).entity _ (retypedTerm_mem vocabulary own) hbundle
      (bundle?_retypedDump vocabulary own) (Storage.projects_iff.2 rfl)
    rw [Projector.run_project] at hshown
    have hcontributes : (Projector.field? ⟨(ofDump (retypedDump vocabulary own) "").answers, .utc⟩
        Context.default (fun target => pure (.obj (Projector.shownBehind
          ⟨(ofDump (retypedDump vocabulary own) "").answers, .utc⟩ Context.default target)))
        (retypedTerm vocabulary).entity d).run.isSome := by
      rw [Projector.run_field?_of_admitted _ _ _ _ (hname ▸ admits_type _) hr,
        (retypedTerm vocabulary).kind_entity]
      split <;> rfl
    have hmem : d ∈ termOwnFields ++ own := List.mem_append_right termOwnFields hd
    obtain ⟨other, -, hother, hget⟩ := Projector.exists_field_of_get?_run_object _ _ _ _
      (hdefs ▸ hmem) hcontributes
    rw [hname] at hother hget
    exact run_field?_retypedTerm_ne vocabulary own .utc _ hother (hget.symm.trans hshown)
  · rintro hnone dump baseUrl offset ctx e object he rfl hown hprojects
    have hk := kind_of_mem_terms he
    rw [Storage.projects_iff.1 hprojects]
    apply Projector.get?_type_project_of_term _ ctx hk
    intro d hd hname
    have hmem : d ∈ termOwnFields ++ own := run_fieldDefinitions_of_term hk hown ▸ hd
    rcases List.mem_append.1 hmem with hbase | hd
    · exact absurd (hname ▸ List.mem_map_of_mem hbase) (by decide : "type" ∉ TermRecord.baseNames)
    · exact hnone d hd hname

/-- Every term shows its parent and then its type first, the parent being of the same vocabulary if
the first one it stores is. The type is the vocabulary, in all stores and for all its terms, if and
only if the fields that the vocabulary defines have no supported one under that name. -/
theorem terms_show_header (vocabulary : String) (own : Schema) :
    (∀ dump baseUrl offset ctx e, e ∈ (ofDump dump baseUrl).terms.entities →
      ∃ object, (ofDump dump baseUrl).answers.Projects offset ctx e object ∧
        (ofDump dump baseUrl).ShowsTermHeader e object) ∧
    ((∀ dump baseUrl offset ctx e object, e ∈ (ofDump dump baseUrl).terms.entities →
      e.bundle = vocabulary → (ofDump dump baseUrl).terms.bundle? vocabulary = some own →
      (ofDump dump baseUrl).answers.Projects offset ctx e object →
        object.get? "type" = some (.str vocabulary)) ↔
    ∀ d ∈ own, d.name = "type" → Rendering.ofType? d.type = none) :=
  ⟨fun _ _ offset ctx _ he =>
    ⟨_, Storage.projects_iff.2 rfl, showsTermHeader_project offset he ctx⟩,
    showsVocabulary_iff vocabulary own⟩

end Store

/-- A term below a term of another vocabulary, with a type of its own. -/
def foreignChild : TermRecord where
  id := 1
  uuid := Uuid.repeating 1
  vocabulary := "tags"
  name := "Summer"
  description := ""
  weight := 0
  parent := some 2
  changed := 0
  fields := [("type", [.value "season"])]

def foreignParent : TermRecord where
  id := 2
  uuid := Uuid.repeating 2
  vocabulary := "brand"
  name := "Acme"
  description := ""
  weight := 0
  parent := none
  changed := 0
  fields := []

def foreignDump : Dump :=
  { Dump.empty with
    termBundles := [("tags", [⟨"type", .text, false⟩])]
    terms := [foreignChild, foreignParent] }

namespace Store

/-- The parent of a term without a parent is the empty text. -/
theorem foreignParent_shows_header :
    foreignParent.entity ∈ (ofDump foreignDump "").terms.entities ∧
    ∃ object, (ofDump foreignDump "").answers.Projects .utc Context.default foreignParent.entity
        object ∧
      object.get? "parent" = some (.str "") ∧ object.get? "type" = some (.str "brand") := by
  have hmem : foreignParent.entity ∈ (ofDump foreignDump "").terms.entities := by decide +kernel
  obtain ⟨hheader, htype⟩ := terms_show_header "brand" []
  obtain ⟨object, hprojects, hshown⟩ :=
    hheader foreignDump "" .utc Context.default foreignParent.entity hmem
  have hnone : (ofDump foreignDump "").parent? foreignParent.entity = none := by decide +kernel
  refine ⟨hmem, object, hprojects, ?_, ?_⟩
  · rw [hshown.parent, hnone]
    rfl
  · exact htype.2 (fun d hd => absurd hd List.not_mem_nil) foreignDump "" .utc Context.default _
      object hmem (by decide) (by decide +kernel) hprojects

/-- The term shows neither its vocabulary nor a parent of it. -/
theorem foreignChild_shows_foreign_header :
    foreignChild.entity ∈ (ofDump foreignDump "").terms.entities ∧
    ∀ object, (ofDump foreignDump "").answers.Projects .utc Context.default foreignChild.entity
      object →
        (object.get? "type" = some (.str "season") ∧
          object.get? "type" ≠ some (.str foreignChild.entity.bundle)) ∧
        ¬ (object.get? "parent" = some (.str "") ∨
          ∃ uuid, (ofDump foreignDump "").HasOwnParent foreignChild.entity uuid ∧
            object.get? "parent" = some (.str uuid.text)) := by
  have hmem : foreignChild.entity ∈ (ofDump foreignDump "").terms.entities := by decide +kernel
  refine ⟨hmem, fun object hprojects => ?_⟩
  have hshown := showsTermHeader_project .utc hmem Context.default
  rw [← Storage.projects_iff.1 hprojects] at hshown
  constructor
  · have honce : ((ofDump foreignDump "").answers.fieldDefinitions foreignChild.entity.kind
        foreignChild.entity.bundle).run.filter (fun other => other.name == "type") =
          [⟨"type", .text, false⟩] := by decide +kernel
    have hr : Rendering.ofType? .text = some .plain := rfl
    have htype := (Projector.followsCardinality_project ⟨(ofDump foreignDump "").answers, .utc⟩
      Context.default (d := ⟨"type", .text, false⟩) honce (admits_type _) hr).first_item
      (by decide) rfl (.value "season") [] (by decide)
    rw [← Storage.projects_iff.1 hprojects, Projector.alone_eq _ _ _ (by decide)] at htype
    exact ⟨htype, fun h => absurd (Json.str.inj (Option.some.inj (htype.symm.trans h))) (by decide)⟩
  · rw [hshown.ownParent]
    intro h
    have hforeign := h foreignParent.entity (by decide +kernel)
    exact absurd hforeign (by decide +kernel)

end Store

end ContentProjection
