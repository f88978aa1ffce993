import ContentProjection.Application
import ContentProjection.Proofs.Lists
import Mathlib.Data.List.DropRight

/-!
# Registering routes

A router reads the text of a route: parts between slashes, each of them without
braces or a name in braces. It refuses a text that does not start with a slash, one
with other braces, one with a part that starts like a capture of an older form, and
one that differs from an earlier route at most in the names of its captures. The
check of the settings keeps braces and stray slashes out of every route, and no two
routes meet. It lets older captures pass, so that a router refuses some settings
that the check accepts.
-/
namespace ContentProjection

namespace Segment

/-- The segment as a part of a route's text. -/
def chars : Segment → List Char
  | word text => text.toList
  | capture name => '\x7b' :: (name.toList ++ ['\x7d'])

/-- The segment that a part of a route's text stands for, none when its braces hold no name.
Escaped braces and captures of a whole rest are not read; no part of a route here is one. -/
def ofChars? (part : List Char) : Option Segment :=
  let name := part.tail.dropLast
  if !part.any ContentSettings.isBrace then some (word (String.ofList part))
  else if part = '\x7b' :: (name ++ ['\x7d']) ∧ name ≠ [] ∧
      !name.any (fun c => c = '*' || ContentSettings.isBrace c) then
    some (capture (String.ofList name))
  else none

/-- A segment that is read back from its text. -/
def IsPlain : Segment → Prop
  | word text => ∀ c ∈ text.toList, c ≠ '/' ∧ ContentSettings.isBrace c = false
  | capture name => name.toList ≠ [] ∧
      ∀ c ∈ name.toList, c ≠ '/' ∧ c ≠ '*' ∧ ContentSettings.isBrace c = false

instance : (s : Segment) → Decidable s.IsPlain
  | word _ => inferInstanceAs (Decidable (∀ c ∈ _, _))
  | capture _ => inferInstanceAs (Decidable (_ ∧ ∀ c ∈ _, _))

/-- What a router compares: words, and that there is a capture. -/
def shape : Segment → Option String
  | word text => some text
  | capture _ => none

variable {s : Segment} (h : s.IsPlain)
include h

theorem IsPlain.slash_not_mem : '/' ∉ s.chars := by
  intro hmem
  cases s with
  | word text => exact (h '/' hmem).1 rfl
  | capture name =>
    rcases List.mem_cons.1 hmem with heq | hmem
    · exact absurd heq (by decide)
    rcases List.mem_append.1 hmem with hmem | hmem
    · exact (h.2 '/' hmem).1 rfl
    · exact absurd hmem (by decide)

theorem IsPlain.ofChars?_chars : ofChars? s.chars = some s := by
  cases s with
  | word text =>
    have hbraces : (!text.toList.any ContentSettings.isBrace) = true := by
      simpa using fun c hc => (h c hc).2
    rw [chars, ofChars?]
    exact (if_pos hbraces).trans (by rw [String.ofList_toList])
  | capture name =>
    have hname : ((name.toList ++ ['\x7d']).dropLast) = name.toList := List.dropLast_concat
    have hclean : (!name.toList.any fun c => c = '*' || ContentSettings.isBrace c) = true := by
      simpa using fun c hc => (h.2 c hc).2
    have hbrace : ¬ (!(capture name).chars.any ContentSettings.isBrace) = true := by
      simp [chars, ContentSettings.isBrace]
    unfold ofChars?
    rw [if_neg hbrace, chars, List.tail_cons, hname, if_pos ⟨rfl, h.1, hclean⟩,
      String.ofList_toList]

end Segment

namespace Route

/-- The text of a route that a router is given. -/
def textOf (template : List Segment) : List Char :=
  ['/'].intercalate (template.map Segment.chars)

/-- The template that a router reads from the text of a route, none for a text that is refused
for its form. -/
def templateOf? (text : List Char) : Option (List Segment) :=
  if text.head? = some '/' then (Text.splitOn '/' text).mapM Segment.ofChars? else none

/-- The routes of a router with one more, the newest first, none when it refuses the text. -/
def register? (registered : List (List Segment)) (text : List Char) :
    Option (List (List Segment)) :=
  (templateOf? text).bind fun template =>
    if template.any isReserved || (registered.map (List.map Segment.shape)).contains
        (template.map Segment.shape) then none
    else some (template :: registered)

/-- A router with all routes, registered in order. -/
def registerAll? (texts : List (List Char)) : Option (List (List Segment)) :=
  texts.foldlM register? []

theorem textOf_append {front back : List Segment} (hf : front ≠ []) (hb : back ≠ []) :
    textOf (front ++ back) = textOf front ++ '/' :: textOf back := by
  have hf' : front.map Segment.chars ≠ [] := by simpa using hf
  have hb' : back.map Segment.chars ≠ [] := by simpa using hb
  rw [textOf, List.map_append, intercalate_append hf' hb', List.append_assoc]
  rfl

theorem templateOf?_textOf {template : List Segment} (hplain : ∀ s ∈ template, s.IsPlain)
    (hrooted : (textOf template).head? = some '/') :
    templateOf? (textOf template) = some template := by
  have hne : template.map Segment.chars ≠ [] := by
    rintro hnil
    rw [textOf, hnil] at hrooted
    cases hrooted
  have hsplit : Text.splitOn '/' (textOf template) = template.map Segment.chars := by
    refine Text.splitOn_intercalate hne fun part hp => ?_
    obtain ⟨s, hs, rfl⟩ := List.mem_map.1 hp
    exact (hplain s hs).slash_not_mem
  rw [templateOf?, if_pos hrooted, hsplit]
  exact mapM_map_eq_some fun s hs => (hplain s hs).ofChars?_chars

/-- Routes that do not meet still do not behind the same segments. -/
theorem nodup_shapes_under (front : List Segment) {tails : List (List Segment)}
    (h : (tails.map (List.map Segment.shape)).Nodup) :
    ((tails.map (front ++ ·)).map (List.map Segment.shape)).Nodup := by
  have happend : (tails.map (front ++ ·)).map (List.map Segment.shape) =
      (tails.map (List.map Segment.shape)).map (front.map Segment.shape ++ ·) := by
    rw [List.map_map, List.map_map]
    exact List.map_congr_left fun tail _ => List.map_append
  rw [happend]
  exact h.map fun _ _ heq => List.append_cancel_left heq

section Registering

variable {template : List Segment} {templates registered : List (List Segment)}

/-- A readable route without a twin is refused only for a reserved word. -/
theorem register?_textOf (hread : templateOf? (textOf template) = some template)
    (hnew : template.map Segment.shape ∉ registered.map (List.map Segment.shape)) :
    register? registered (textOf template) =
      if template.any isReserved then none else some (template :: registered) := by
  have hcontains : (registered.map (List.map Segment.shape)).contains
      (template.map Segment.shape) = false := by simpa using hnew
  rw [register?, hread, Option.bind_some, hcontains, Bool.or_false]

theorem isSome_foldlM_register?
    (hread : ∀ template ∈ templates, templateOf? (textOf template) = some template)
    (hnodup : ((templates ++ registered).map (List.map Segment.shape)).Nodup) :
    ((templates.map textOf).foldlM register? registered).isSome ↔
      ∀ template ∈ templates, template.any isReserved = false := by
  induction templates generalizing registered with
  | nil => simp
  | cons template rest ih =>
    obtain ⟨hfirst, hrest⟩ := List.forall_mem_cons.1 hread
    have hperm : ((rest ++ template :: registered).map (List.map Segment.shape)).Nodup :=
      (List.perm_middle.map _).nodup_iff.2 hnodup
    have hnew : template.map Segment.shape ∉ registered.map (List.map Segment.shape) := by
      rw [List.cons_append, List.map_cons, List.nodup_cons, List.map_append] at hnodup
      exact fun hmem => hnodup.1 (List.mem_append_right _ hmem)
    rw [List.map_cons, List.foldlM_cons, register?_textOf hfirst hnew, List.forall_mem_cons]
    cases hreserved : template.any isReserved with
    | true => simp
    | false => simpa using ih hrest hperm

end Registering

end Route

namespace ContentSettings

/-- The texts of the routes, in the order in which they are registered. -/
def routeTexts (c : ContentSettings) : List (List Char) :=
  c.routes.map fun route => Route.textOf route.template

/-- What the listing, the items and the content of a type add to a path. -/
def tailsOf (word : String) : List (List Segment) :=
  [[.word word], [.word word, .capture "id"], [.word word, .capture "id", .word "content"]]

/-- What the routes of the site have behind its segments. -/
def siteTails : List (List Segment) :=
  [.word "idea"] ::
    ["contributor", "contributor_group", "category", "tag", "product"].flatMap tailsOf ++
    [[.word "product", .capture "id", .word "contentcount"],
      [.word "product", .capture "id", .capture "sku2", .word "content"],
      [.word "product", .capture "id", .capture "sku2", .word "contentcount"],
      [.capture "content_type"], [.capture "content_type", .capture "id"]]

/-- What the routes for any brand have behind the base path. -/
def brandTails : List (List Segment) :=
  [[.capture "brand", .capture "content_type"],
    [.capture "brand", .capture "content_type", .capture "id"]]

theorem tails_plain : ∀ tail ∈ siteTails ++ brandTails,
    (∀ s ∈ tail, s.IsPlain) ∧ tail.any Route.isReserved = false ∧ tail ≠ [] := by
  simp only [siteTails, brandTails, tailsOf, List.flatMap_cons, List.flatMap_nil,
    List.cons_append, List.nil_append, List.append_nil, List.forall_mem_cons]
  simp [Segment.IsPlain, isBrace, Route.isReserved]

theorem nodup_shapes_tails :
    (siteTails.map (List.map Segment.shape)).Nodup ∧
      (brandTails.map (List.map Segment.shape)).Nodup := by
  decide +kernel

/-- What the check of the settings makes sure of. -/
theorem routeFault?_eq_none_iff {c : ContentSettings} : c.routeFault? = none ↔
    (c.basePath.toList = [] ∨ c.basePath.toList.head? = some '/') ∧
    (∀ ch ∈ c.basePath.toList, isBrace ch = false) ∧
    c.site.toList ≠ [] ∧ ∀ ch ∈ c.site.toList, ch ≠ '/' ∧ isBrace ch = false := by
  simp only [routeFault?, ite_eq_iff, reduceCtorEq, and_false, false_or, and_true, Bool.not_eq_true]
  simp [or_iff_not_imp_left]

section Routes

variable {c : ContentSettings}

theorem templates_routes (c : ContentSettings) : c.routes.map Route.template =
    siteTails.map (c.siteSegments ++ ·) ++ brandTails.map (c.baseSegments ++ ·) := rfl

theorem mem_templates_iff {template : List Segment} :
    (∃ route ∈ c.routes, route.template = template) ↔
      (∃ tail ∈ siteTails, template = c.siteSegments ++ tail) ∨
        ∃ tail ∈ brandTails, template = c.baseSegments ++ tail := by
  rw [← List.mem_map, templates_routes, List.mem_append, List.mem_map, List.mem_map]
  simp only [eq_comm]

/-- Two routes of one site meet only in their tails, and none of them meets one for any brand,
which has a capture where they have the site. -/
theorem nodup_shapes_routes (c : ContentSettings) :
    ((c.routes.map Route.template).map (List.map Segment.shape)).Nodup := by
  rw [templates_routes, List.map_append]
  refine List.Nodup.append (Route.nodup_shapes_under _ nodup_shapes_tails.1)
    (Route.nodup_shapes_under _ nodup_shapes_tails.2) ?_
  intro shape hsite hbrand
  obtain ⟨_, hs, rfl⟩ := List.mem_map.1 hsite
  obtain ⟨tail, -, rfl⟩ := List.mem_map.1 hs
  obtain ⟨_, hb, heq⟩ := List.mem_map.1 hbrand
  obtain ⟨tail', ht', rfl⟩ := List.mem_map.1 hb
  have hcapture : ∀ tail ∈ brandTails, (tail.map Segment.shape).head? = some none := by decide
  rw [siteSegments, List.append_assoc, List.map_append, List.map_append] at heq
  have hhead := congrArg List.head? (List.append_cancel_left heq)
  rw [hcapture tail' ht'] at hhead
  cases hhead

theorem textOf_baseSegments (c : ContentSettings) :
    Route.textOf c.baseSegments = c.basePath.toList.rdropWhile (· = '/') := by
  have hparts : c.baseSegments.map Segment.chars =
      Text.splitOn '/' (c.basePath.toList.rdropWhile (· = '/')) := by
    rw [baseSegments, Route.segmentsOf, List.map_map, List.map_map]
    exact (List.map_congr_left fun part _ => String.toList_ofList).trans (List.map_id _)
  rw [Route.textOf, hparts, Text.splitOn_eq, List.intercalate_splitOn]

theorem baseSegments_ne_nil (c : ContentSettings) : c.baseSegments ≠ [] := by
  simp [baseSegments, Route.segmentsOf, Text.splitOn_eq]

/-- A route for any brand: the base path without its slashes at the end, a slash and the rest. -/
theorem textOf_base_append {tail : List Segment} (h : tail ≠ []) :
    Route.textOf (c.baseSegments ++ tail) =
      c.basePath.toList.rdropWhile (· = '/') ++ '/' :: Route.textOf tail := by
  rw [Route.textOf_append c.baseSegments_ne_nil h, textOf_baseSegments]

/-- A route of the site: the base path without its slashes at the end, the site and the rest. -/
theorem textOf_site_append {tail : List Segment} (h : tail ≠ []) :
    Route.textOf (c.siteSegments ++ tail) = c.basePath.toList.rdropWhile (· = '/') ++
      '/' :: (c.site.toList ++ '/' :: Route.textOf tail) := by
  have hsite : Route.textOf [.word c.site] = c.site.toList := List.intercalate_singleton
  rw [siteSegments, List.append_assoc, textOf_base_append (by simp),
    Route.textOf_append (by simp) h, hsite]

section Accepted

variable (h : c.routeFault? = none)
include h

theorem head?_rooted (rest : List Char) :
    (c.basePath.toList.rdropWhile (· = '/') ++ '/' :: rest).head? = some '/' := by
  obtain ⟨hrooted, -⟩ := routeFault?_eq_none_iff.1 h
  obtain ⟨after, hbase⟩ := List.rdropWhile_prefix (· = '/') c.basePath.toList
  cases htrimmed : c.basePath.toList.rdropWhile (· = '/') with
  | nil => rfl
  | cons ch chs =>
    rw [htrimmed] at hbase
    rw [← hbase] at hrooted
    simpa using hrooted

theorem plain_baseSegments : ∀ s ∈ c.baseSegments, s.IsPlain := by
  obtain ⟨-, hbraces, -⟩ := routeFault?_eq_none_iff.1 h
  intro s hs
  obtain ⟨_, hword, rfl⟩ := List.mem_map.1 hs
  obtain ⟨part, hpart, rfl⟩ := List.mem_map.1 hword
  intro ch hch
  rw [String.toList_ofList] at hch
  obtain ⟨hmem, hslash⟩ := Text.mem_of_mem_splitOn hpart hch
  exact ⟨hslash, hbraces ch ((List.rdropWhile_prefix _ c.basePath.toList).subset hmem)⟩

theorem plain_siteSegments : ∀ s ∈ c.siteSegments, s.IsPlain := by
  obtain ⟨-, -, -, hsite⟩ := routeFault?_eq_none_iff.1 h
  intro s hs
  rcases List.mem_append.1 hs with hs | hs
  · exact plain_baseSegments h s hs
  · rw [List.mem_singleton.1 hs]
    exact hsite

/-- Routes of settings that pass the check are read as they are meant. -/
theorem templateOf?_textOf_route {route : Route} (hr : route ∈ c.routes) :
    Route.templateOf? (Route.textOf route.template) = some route.template := by
  have hread {front tail : List Segment} (ht : tail ∈ siteTails ++ brandTails)
      (hfront : ∀ s ∈ front, s.IsPlain)
      (hrooted : (Route.textOf (front ++ tail)).head? = some '/') :
      Route.templateOf? (Route.textOf (front ++ tail)) = some (front ++ tail) :=
    Route.templateOf?_textOf (List.forall_mem_append.2 ⟨hfront, (tails_plain tail ht).1⟩) hrooted
  rcases mem_templates_iff.1 ⟨route, hr, rfl⟩ with ⟨tail, ht, heq⟩ | ⟨tail, ht, heq⟩
  · have ht' := List.mem_append_left brandTails ht
    rw [heq]
    refine hread ht' (plain_siteSegments h) ?_
    rw [textOf_site_append (tails_plain tail ht').2.2]
    exact head?_rooted h _
  · have ht' := List.mem_append_right siteTails ht
    rw [heq]
    refine hread ht' (plain_baseSegments h) ?_
    rw [textOf_base_append (tails_plain tail ht').2.2]
    exact head?_rooted h _

end Accepted

/-- Only what the settings add to the routes can be reserved, and the site has all of it. -/
theorem all_routes_unreserved_iff :
    (∀ route ∈ c.routes, route.template.any Route.isReserved = false) ↔
      c.siteSegments.any Route.isReserved = false := by
  constructor
  · intro h
    obtain ⟨route, hr, heq⟩ := (mem_templates_iff (c := c)).2
      (Or.inl ⟨[.word "idea"], by decide, rfl⟩)
    have hroute := h route hr
    rw [heq, List.any_append, Bool.or_eq_false_iff] at hroute
    exact hroute.1
  · intro h route hr
    rcases mem_templates_iff.1 ⟨route, hr, rfl⟩ with ⟨tail, ht, heq⟩ | ⟨tail, ht, heq⟩
    · obtain ⟨-, hfree, -⟩ := tails_plain tail (List.mem_append_left _ ht)
      rw [heq, List.any_append, h, hfree]
      rfl
    · obtain ⟨-, hfree, -⟩ := tails_plain tail (List.mem_append_right _ ht)
      rw [siteSegments, List.any_append, Bool.or_eq_false_iff] at h
      rw [heq, List.any_append, h.1, hfree]
      rfl

theorem isSome_registerAll?_iff (h : c.routeFault? = none) :
    (Route.registerAll? c.routeTexts).isSome ↔
      c.siteSegments.any Route.isReserved = false := by
  have hread : ∀ template ∈ c.routes.map Route.template,
      Route.templateOf? (Route.textOf template) = some template := by
    intro template ht
    obtain ⟨route, hr, rfl⟩ := List.mem_map.1 ht
    exact templateOf?_textOf_route h hr
  have hnodup : ((c.routes.map Route.template ++ []).map (List.map Segment.shape)).Nodup := by
    rw [List.append_nil]
    exact nodup_shapes_routes c
  have hrun := Route.isSome_foldlM_register? hread hnodup
  rw [List.map_map, List.forall_mem_map] at hrun
  exact hrun.trans all_routes_unreserved_iff

end Routes

end ContentSettings

namespace Application

theorem isSome_router?_iff (a : Application) :
    a.router?.isSome ↔ a.settings.siteSegments.any Route.isReserved = false := by
  rw [← ContentSettings.all_routes_unreserved_iff, router?]
  split
  · next h => simpa using h
  · next h => simpa using h

end Application

namespace ContentSettings

/-- A router reads the routes of settings that pass the check as they are meant, and no two of
them meet. It takes all of them if and only if neither the site nor a segment of the base path
starts like a capture of an older form. -/
theorem registered_iff_not_reserved {c : ContentSettings} (h : c.routeFault? = none) :
    (∀ route ∈ c.routes,
      Route.templateOf? (Route.textOf route.template) = some route.template) ∧
    ((c.routes.map Route.template).map (List.map Segment.shape)).Nodup ∧
    ((Route.registerAll? c.routeTexts).isSome ↔
      c.siteSegments.any Route.isReserved = false) ∧
    ∀ (storage : Storage (Except Fault)) (offset : Calendar.Offset),
      Calendar.Offset.ofMinutes? c.utcOffsetMinutes = some offset →
      ∃ a, Application.ofStorage c storage = .ok a ∧
        (a.router?.isSome ↔ c.siteSegments.any Route.isReserved = false) := by
  refine ⟨fun route hr => templateOf?_textOf_route h hr, nodup_shapes_routes c,
    isSome_registerAll?_iff h, fun storage offset hoffset => ?_⟩
  refine ⟨⟨c, ⟨storage, offset, c.policy⟩⟩, ?_, Application.isSome_router?_iff _⟩
  rw [Application.ofStorage, h, hoffset]

theorem default_registered :
    default.routeFault? = none ∧
    (Route.registerAll? default.routeTexts).isSome := by
  have h : default.routeFault? = none := by decide
  exact ⟨h, (registered_iff_not_reserved h).2.2.1.2 (by decide)⟩

/-- Settings with a site that starts with a colon. -/
def colonSite : ContentSettings := { default with site := ":x" }

/-- The check accepts a site that no router takes. -/
theorem colonSite_not_registered :
    colonSite.routeFault? = none ∧
    Route.registerAll? colonSite.routeTexts = none ∧
    ∃ a, Application.ofStorage colonSite (Store.ofDump Dump.empty "").storage = .ok a ∧
      a.router?.isNone :=
  ⟨by decide, by decide +kernel, _, rfl, by decide +kernel⟩

end ContentSettings
end ContentProjection
