import ContentProjection.Proofs.Disclosure
import ContentProjection.Proofs.Expansion
import ContentProjection.Proofs.KeyOrder
import ContentProjection.Proofs.ListedLookups

/-!
# Nodes that show certain fields only

A context may name the fields that nodes show. It holds for every node that a
projection shows whole, however many references lead there and whatever terms they
lead through: such a node shows no other field, none without a value, and images
in full only. Terms show all of their fields. Listings of a product's content are
made this way, and the path of a node is among what they show.
-/
namespace ContentProjection

theorem Members.mem_names_iff {α : Type} {members : Members α} {name : String} :
    name ∈ members.names ↔ ∃ value, (name, value) ∈ members := by
  simp [names]

/-- The context in which nodes show these fields only, and images in full. -/
def Context.keeping (ctx : Context) (allowed : List String) : Context :=
  { ctx with fullImageOnly := true, allowList := some allowed }

/-- An image that is shown in full only. -/
def Json.IsFullImage (value : Json) : Prop := ∃ url, value = .obj [("full", .str url)]

/-- A node shows only fields that are allowed, and only those with a value; images in full. -/
structure Storage.KeepsAllowed (s : Storage Id) (allowed : List String) (e : Entity)
    (object : Json.Object) : Prop where
  allowed : ∀ name ∈ object.names, name ∈ allowed
  has_value : ∀ d ∈ (s.fieldDefinitions e.kind e.bundle).run, d.name ∈ object.names →
    ∃ r, Rendering.ofType? d.type = some r ∧ r.HasValue (e.field d.name)
  one_image : ∀ d ∈ (s.fieldDefinitions e.kind e.bundle).run, ∀ maxResolution,
    d.type = .image maxResolution → d.multiple = false →
      ∀ value, (d.name, value) ∈ object → value = .null ∨ value.IsFullImage
  many_images : ∀ d ∈ (s.fieldDefinitions e.kind e.bundle).run, ∀ maxResolution,
    d.type = .image maxResolution → d.multiple = true →
      ∀ value, (d.name, value) ∈ object →
        ∃ images, value = .arr images ∧ ∀ image ∈ images, image.IsFullImage

/-- What is shown of an entity has a property, and so has what is shown of every entity that
is shown whole behind at most `n` references from it. -/
def ShowsThroughout (Q : Entity → Json.Object → Prop) (s : Storage Id) :
    (n : Nat) → Entity → Json.Object → Prop
  | 0, e, object =>
    Q e object ∧ ShowsMembers (fun target value => value = Projection.stub target) s e object
  | n + 1, e, object =>
    Q e object ∧ ShowsMembers
      (fun target value => ∃ inner, value = .obj inner ∧ ShowsThroughout Q s n target inner)
      s e object

/-- Every node that is shown whole keeps to the allowed fields. -/
def Storage.KeepsAllowedThroughout (s : Storage Id) (allowed : List String) :
    (n : Nat) → Entity → Json.Object → Prop :=
  ShowsThroughout (fun e object => e.kind = .node → s.KeepsAllowed allowed e object) s

/-- A result that is a stored node with its path, shown by the fields of product listings like
every node behind it. -/
def Store.ShowsProductContent (s : Store) (n : Nat) (result : Json) : Prop :=
  ∃ e ∈ s.nodes.entities, ∃ object : Json.Object, result = .obj object ∧ e.kind = .node ∧
    "path" ∈ object.names ∧ s.answers.KeepsAllowedThroughout productFields n e object

namespace Projector

variable (p : Projector Id) (ctx : Context)

/-- A property that objects have however references are shown holds throughout. -/
theorem showsThroughout_within {Q : Entity → Json.Object → Prop}
    (hQ : ∀ expand e, Q e (p.object ctx expand e).run) (levels : Nat) (e : Entity) :
    ShowsThroughout Q p.storage levels e (p.within ctx levels e).run := by
  induction levels generalizing e with
  | zero => exact ⟨hQ _ e, p.showsMembers_object ctx _
      (R := fun target value => value = Projection.stub target) (fun _ => rfl) e⟩
  | succ levels ih =>
    exact ⟨hQ _ e, p.showsMembers_object ctx _ (fun target => ⟨_, rfl, ih target⟩) e⟩

theorem run_imageOf_full (item : Item) :
    (p.imageOf [] item).run =
      (item.targetEntityId?.bind fun id => (p.storage.fileUrl id).run).map fun url =>
        .obj [("full", .str url)] := by
  unfold imageOf
  cases item.targetEntityId? with
  | none => rfl
  | some id => cases h : (p.storage.fileUrl id).run <;> simp [h, Members.ofList, Members.insert]

theorem isFullImage_of_imageOf {item : Item} {value : Json}
    (h : (p.imageOf [] item).run = some value) : value.IsFullImage := by
  rw [run_imageOf_full] at h
  obtain ⟨url, -, rfl⟩ := Option.map_eq_some_iff.1 h
  exact ⟨url, rfl⟩

variable (allowed : List String) (expand : Entity → Id Json) {e : Entity} {d : FieldDefinition}

theorem mem_allowed_of_shows (hk : e.kind = .node) (h : (ctx.keeping allowed).shows e d = true) :
    d.name ∈ allowed ∧
      ∃ r, Rendering.ofType? d.type = some r ∧ r.HasValue (e.field d.name) := by
  rw [Context.shows, hk] at h
  cases hr : Rendering.ofType? d.type with
  | none => simp [hr] at h
  | some r =>
    simp only [hr, Context.keeping, Bool.and_eq_true, List.contains_iff_mem, decide_eq_true_eq] at h
    exact ⟨h.2.1, r, rfl, h.2.2⟩

/-- A member of a node is what a shown definition puts there. -/
theorem exists_shown_of_mem_object (hk : e.kind = .node) {name : String} {value : Json}
    (h : (name, value) ∈ (p.object ctx expand e).run) :
    ∃ d ∈ (p.storage.fieldDefinitions e.kind e.bundle).run,
      ctx.shows e d = true ∧ d.name = name ∧ p.contribution ctx expand e d = value := by
  rw [run_object_eq_shown, run_header_of_node p hk, List.nil_append] at h
  obtain ⟨d, hd, hvalue⟩ := List.mem_map.1 (Members.mem_of_mem_ofList h)
  obtain ⟨hmem, hshows⟩ := List.mem_filter.1 hd
  cases hvalue
  exact ⟨d, hmem, hshows, rfl, rfl⟩

section Node

variable (hn : ((p.storage.fieldDefinitions e.kind e.bundle).run.map FieldDefinition.name).Nodup)
  (hk : e.kind = .node)
include hn hk

/-- Where names are distinct, the definition of a member's name is the one that put it there. -/
theorem shows_of_mem_object (hd : d ∈ (p.storage.fieldDefinitions e.kind e.bundle).run)
    {value : Json} (h : (d.name, value) ∈ (p.object ctx expand e).run) :
    ctx.shows e d = true ∧ p.contribution ctx expand e d = value := by
  obtain ⟨other, hother, hshows, hname, hvalue⟩ := p.exists_shown_of_mem_object ctx expand hk h
  obtain rfl : other = d := List.inj_on_of_nodup_map hn hother hd hname
  exact ⟨hshows, hvalue⟩

/-- An image field of a node shows what stands for its images in full. -/
theorem image_of_mem_object (hd : d ∈ (p.storage.fieldDefinitions e.kind e.bundle).run)
    {maxResolution : Option String} (ht : d.type = .image maxResolution) {value : Json}
    (h : (d.name, value) ∈ (p.object (ctx.keeping allowed) expand e).run) :
    value = (perFoundItem d.multiple (e.field d.name) (p.imageOf [])).run := by
  obtain ⟨hshows, rfl⟩ := p.shows_of_mem_object (ctx.keeping allowed) expand hn hk hd h
  obtain ⟨-, r, hr, hvalue⟩ := mem_allowed_of_shows ctx allowed hk hshows
  rw [ht] at hr
  cases hr
  simp only [contribution, ht, Rendering.ofType?, if_pos hvalue]
  rfl

theorem keepsAllowed_object :
    p.storage.KeepsAllowed allowed e (p.object (ctx.keeping allowed) expand e).run := by
  constructor
  case allowed =>
    intro name hname
    obtain ⟨value, hmem⟩ := Members.mem_names_iff.1 hname
    obtain ⟨d, -, hshows, rfl, -⟩ :=
      p.exists_shown_of_mem_object (ctx.keeping allowed) expand hk hmem
    exact (mem_allowed_of_shows ctx allowed hk hshows).1
  case has_value =>
    intro d hd hname
    obtain ⟨value, hmem⟩ := Members.mem_names_iff.1 hname
    obtain ⟨hshows, -⟩ := p.shows_of_mem_object (ctx.keeping allowed) expand hn hk hd hmem
    exact (mem_allowed_of_shows ctx allowed hk hshows).2
  case one_image =>
    intro d hd maxResolution ht hm value hmem
    rw [p.image_of_mem_object ctx allowed expand hn hk hd ht hmem, run_perFoundItem, hm]
    cases himage : (e.field d.name).head?.bind fun item => (p.imageOf [] item).run with
    | none => exact Or.inl rfl
    | some image =>
      obtain ⟨item, -, hitem⟩ := Option.bind_eq_some_iff.1 himage
      exact Or.inr (p.isFullImage_of_imageOf hitem)
  case many_images =>
    intro d hd maxResolution ht hm value hmem
    rw [p.image_of_mem_object ctx allowed expand hn hk hd ht hmem, run_perFoundItem, hm]
    refine ⟨_, rfl, fun image himage => ?_⟩
    obtain ⟨item, -, hitem⟩ := List.mem_filterMap.1 himage
    exact p.isFullImage_of_imageOf hitem

end Node

theorem keepsAllowedThroughout_project
    (hn : ∀ kind bundle,
      ((p.storage.fieldDefinitions kind bundle).run.map FieldDefinition.name).Nodup) (e : Entity) :
    p.storage.KeepsAllowedThroughout allowed ctx.reach e
      (p.project (ctx.keeping allowed) e).run := by
  have hreach : ctx.reach = (ctx.keeping allowed).levels Depth.root :=
    (ctx.keeping allowed).levels_root.symm
  rw [hreach]
  exact p.showsThroughout_within _
    (fun expand e hk => p.keepsAllowed_object ctx allowed expand (hn _ _) hk) _ e

end Projector

namespace Store

variable {dump : Dump} {baseUrl : String}

/-- A node shows its path wherever the path is allowed. -/
theorem path_mem_names_project {e : Entity} (he : e ∈ (ofDump dump baseUrl).nodes.entities)
    (offset : Calendar.Offset) (ctx : Context) (allowed : List String) (ha : "path" ∈ allowed) :
    "path" ∈ (Projector.project ⟨(ofDump dump baseUrl).answers, offset⟩
      (ctx.keeping allowed) e).run.names := by
  have hk : e.kind = .node := kind_of_mem_nodes he
  have horder := Projector.inSchemaOrder_project
    ⟨(ofDump dump baseUrl).answers, offset⟩ (ctx.keeping allowed) e
  rw [horder.names_of_node hk, List.mem_eraseDups, List.mem_map]
  refine ⟨.single "path" .pathAlias, List.mem_filter.2 ⟨?_, ?_⟩, rfl⟩
  · change _ ∈ (ofDump dump baseUrl).schemaOf e.kind e.bundle
    rw [hk, schemaOf_ofDump .node he]
    exact List.mem_append_left _ (by decide)
  · have hpath : Projection.isIgnored "path" = false := by decide
    simp [Context.shows, Context.keeping, FieldDefinition.single, Rendering.ofType?, hk, hpath, ha,
      Rendering.HasValue, Rendering.isComputed]

theorem showsProductContent_of_mem (hd : dump.DistinctFields) {offset : Calendar.Offset}
    {policy : Policy} {sku : String} {options : ListOptions} {page : Page}
    (h : ((ofDump dump baseUrl).service offset policy).answer (.productContent sku options) =
      .ok (.page page)) {result : Json} (hr : result ∈ page.results) :
    (ofDump dump baseUrl).ShowsProductContent
      (((ofDump dump baseUrl).service offset policy).productContext options).reach result := by
  obtain ⟨plan, hplan⟩ : ∃ plan, ((ofDump dump baseUrl).service offset policy).plan
      (.productContent sku options) = .ok plan := by
    rw [Service.answer_eq_plan_bind] at h
    obtain ⟨plan, hplan, -⟩ := ok_of_bind h
    exact ⟨plan, hplan⟩
  obtain ⟨product, rfl⟩ := Service.plan_productContent hplan
  obtain ⟨-, heq⟩ := answered_of_plan_page _ offset policy hplan h
  cases heq
  obtain ⟨e, he, rfl⟩ := List.mem_map.1 hr
  have hnode : e ∈ (ofDump dump baseUrl).nodes.entities := (describes_of_mem_listed he).1
  let ctx := ((ofDump dump baseUrl).service offset policy).productContext options
  exact ⟨e, hnode, _, rfl, kind_of_mem_nodes hnode,
    path_mem_names_project hnode offset ctx productFields (by decide),
    Projector.keepsAllowedThroughout_project ⟨(ofDump dump baseUrl).answers, offset⟩ ctx
      productFields (nodup_schemaOf_ofDump hd baseUrl) e⟩

end Store

/-- With an allow-list, every node that is shown whole, at whatever depth, keeps to it, and so
does all content of a product, which always shows its path. -/
theorem Storage.keeps_allowed_at_every_depth :
    (∀ s : Storage Id,
      (∀ kind bundle,
        ((s.fieldDefinitions kind bundle).run.map FieldDefinition.name).Nodup) →
      ∀ (offset : Calendar.Offset) (ctx : Context) (allowed : List String) (e : Entity),
        ∃ object, s.Projects offset (ctx.keeping allowed) e object ∧
          s.KeepsAllowedThroughout allowed ctx.reach e object) ∧
    ∀ dump : Dump, dump.DistinctFields →
      ∀ baseUrl offset policy sku options page,
        ((Store.ofDump dump baseUrl).service offset policy).Answers (.productContent sku options)
          (.ok (.page page)) →
        ∀ result ∈ page.results,
          (Store.ofDump dump baseUrl).ShowsProductContent
            (((Store.ofDump dump baseUrl).service offset policy).productContext options).reach
            result := by
  constructor
  · intro s hn offset ctx allowed e
    exact ⟨_, projects_iff.2 rfl,
      Projector.keepsAllowedThroughout_project ⟨s, offset⟩ ctx allowed hn e⟩
  · intro dump hd baseUrl offset policy sku options page hanswers result hr
    exact Store.showsProductContent_of_mem hd (Service.answers_iff.1 hanswers) hr

/-- An article about a product, with one of its two images found. Its title is a topic, and the
topic is about another article. -/
def topicalDump : Dump :=
  let node (id : EntityId) (digit : Nat) (bundle : String)
      (fields : List (String × List Item)) : NodeRecord :=
    ⟨id, Uuid.repeating digit, bundle, "", true, 0, none, fields⟩
  { Dump.empty with
    nodeBundles := [("article", [⟨"field_896x896_img", .image none, true⟩,
      .single "field_display_title" (.entityReference .taxonomyTerm)])]
    termBundles := [("topic", [.single "field_about" (.entityReference .node)])]
    nodes := [node 1 1 "product" [("field_sku", [.value "70237"])],
      node 2 2 "article" [("field_products", [.target "1"]),
        ("field_896x896_img", [.target "1", .target "9"]), ("field_display_title", [.target "5"])],
      node 3 3 "article" []]
    terms := [⟨5, Uuid.repeating 5, "topic", "Topic", "", 0, none, 0,
      [("field_about", [.target "3"])]⟩]
    files := [⟨1, "public://first.png"⟩] }

def topicalStore : Store := Store.ofDump topicalDump ""

/-- Through topics to what they are about. -/
def throughTopics : ListOptions := ⟨0, 10, true, 2, true⟩

theorem topical_keeps_allowed_at_every_depth :
    topicalDump.DistinctFields ∧
    (∃ page, (topicalStore.service .utc Policy.default).Answers
        (.productContent "70237" throughTopics) (.ok (.page page)) ∧ page.results.length = 1 ∧
      ∀ result ∈ page.results, topicalStore.ShowsProductContent 2 result) ∧
    (∀ kind bundle, ((topicalStore.answers.fieldDefinitions kind bundle).run.map
      FieldDefinition.name).Nodup) ∧
    ∀ e ∈ topicalStore.nodes.entities, ∃ object,
      topicalStore.answers.Projects .utc (Context.default.keeping ["path"]) e object ∧
        topicalStore.answers.KeepsAllowedThroughout ["path"] 0 e object := by
  have hd : topicalDump.DistinctFields := by decide
  have hn := Store.nodup_schemaOf_ofDump hd ""
  have hone : ((topicalStore.service .utc Policy.default).answer
      (.productContent "70237" throughTopics)).toOption.map (fun answer =>
        match answer with
        | .page page => page.results.length
        | _ => 0) = some 1 := by decide +kernel
  refine ⟨hd, ?_, hn, fun e _ => ?_⟩
  · cases hanswer : (topicalStore.service .utc Policy.default).answer
      (.productContent "70237" throughTopics) with
    | error fault =>
      rw [hanswer] at hone
      cases hone
    | ok answer =>
      rw [hanswer] at hone
      cases answer with
      | page page =>
        have hanswers := Service.answers_of_eq hanswer
        exact ⟨page, hanswers, Option.some.inj hone,
          Storage.keeps_allowed_at_every_depth.2 topicalDump hd "" .utc Policy.default "70237"
            throughTopics page hanswers⟩
      | entity view => cases hone
      | count n => cases hone
  · exact Storage.keeps_allowed_at_every_depth.1 topicalStore.answers hn .utc Context.default
      ["path"] e

end ContentProjection
