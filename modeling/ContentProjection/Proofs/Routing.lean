import ContentProjection.Proofs.RouteRegistration

/-!
# Where a path leads

The routes part at their next segment: behind words, or behind a capture. A search goes
down the word that the path has there, and takes the capture only if that word leads
nowhere. A captured segment may be empty, except the last one of a path. So a path leads
through the words of the base path, and then into the routes of the site or, for every
other segment, into those for any brand.
-/
namespace ContentProjection

/-- An endpoint and the raw segments that its route captures, by name. -/
structure Destination where
  endpoint : Endpoint
  captured : List (String × String)
  deriving DecidableEq, Repr

/-- The destination with one more segment captured, in front of the others. -/
def Destination.behind (name segment : String) (d : Destination) : Destination :=
  ⟨d.endpoint, (name, segment) :: d.captured⟩

namespace Route

/-- The route with more segments in front of its own. -/
def under (front : List Segment) (route : Route) : Route :=
  ⟨front ++ route.template, route.endpoint⟩

/-- Routes that end here, part at some words, or go on behind a capture. -/
def fork (here : Option Endpoint) (words : List String) (behind : String → List Route)
    (name : String) (captured : List Route) : List Route :=
  (here.map fun endpoint => ⟨[], endpoint⟩).toList ++
    (words.flatMap fun word => (behind word).map (under [.word word])) ++
    captured.map (under [.capture name])

/-- Routes that end here. -/
def leaf (here : Option Endpoint) : List Route := fork here [] (fun _ => []) "" []

/-- The candidates of a search that starts: no segment of a route is fitted yet. -/
def unfitted (routes : List Route) : List (List Segment × Route) :=
  routes.map fun route => (route.template, route)

/-- Where routes lead on the segments of a path. -/
def lead (routes : List Route) (segments : List String) : Option Destination :=
  (search (unfitted routes) segments).map fun route =>
    ⟨route.endpoint, captures route.template segments⟩

section Search

variable {segment : String} {segments : List String}

theorem afterWord_map (candidates : List (List Segment × Route)) (g : Route → Route) :
    afterWord segment (candidates.map (Prod.map id g)) =
      (afterWord segment candidates).map (Prod.map id g) := by
  rw [afterWord, afterWord, List.filterMap_map, List.map_filterMap]
  refine List.filterMap_congr fun candidate _ => ?_
  obtain ⟨_ | ⟨_ | _, _⟩, route⟩ := candidate
  · rfl
  · simp only [Function.comp_apply, Prod.map, id]
    split <;> rfl
  · rfl

theorem afterCapture_map (candidates : List (List Segment × Route)) (g : Route → Route) :
    afterCapture (candidates.map (Prod.map id g)) =
      (afterCapture candidates).map (Prod.map id g) := by
  rw [afterCapture, afterCapture, List.filterMap_map, List.map_filterMap]
  refine List.filterMap_congr fun candidate _ => ?_
  obtain ⟨_ | ⟨_ | _, _⟩, route⟩ := candidate <;> rfl

theorem search_nil : search [] segments = none := by
  induction segments with
  | nil => rfl
  | cons segment segments ih => simpa [search, afterWord, afterCapture] using ih

theorem lead_nil : lead [] segments = none := by
  rw [lead, unfitted, List.map_nil, search_nil, Option.map_none]

/-- A search looks only at what is left to fit. -/
theorem search_map (candidates : List (List Segment × Route)) (g : Route → Route) :
    search (candidates.map (Prod.map id g)) segments = (search candidates segments).map g := by
  induction segments generalizing candidates with
  | nil => simp [search, List.find?_map, Function.comp_def]
  | cons segment segments ih =>
    simp only [search, afterWord_map, afterCapture_map, ih]
    split
    · simp [search_nil]
    · rw [ih, Option.map_or]

end Search

section Fork

variable {here : Option Endpoint} {words : List String} {behind : String → List Route}
  {name : String} {captured : List Route} {segment : String} {segments : List String}

theorem unfitted_append (routes others : List Route) :
    unfitted (routes ++ others) = unfitted routes ++ unfitted others := List.map_append

theorem afterWord_append (candidates others : List (List Segment × Route)) :
    afterWord segment (candidates ++ others) =
      afterWord segment candidates ++ afterWord segment others := List.filterMap_append

theorem afterCapture_append (candidates others : List (List Segment × Route)) :
    afterCapture (candidates ++ others) = afterCapture candidates ++ afterCapture others :=
  List.filterMap_append

theorem afterWord_under_word (routes : List Route) (word : String) :
    afterWord segment (unfitted (routes.map (under [.word word]))) =
      if word = segment then (unfitted routes).map (Prod.map id (under [.word word])) else [] := by
  rw [afterWord, unfitted, List.map_map, List.filterMap_map]
  split
  · next h =>
    subst h
    simp [unfitted, under, Function.comp_def]
  · next h => simp [under, h]

theorem afterWord_under_capture (routes : List Route) :
    afterWord segment (unfitted (routes.map (under [.capture name]))) = [] := by
  simp [afterWord, unfitted, under]

theorem afterCapture_under_word (routes : List Route) (word : String) :
    afterCapture (unfitted (routes.map (under [.word word]))) = [] := by
  simp [afterCapture, unfitted, under]

theorem afterCapture_under_capture (routes : List Route) :
    afterCapture (unfitted (routes.map (under [.capture name]))) =
      (unfitted routes).map (Prod.map id (under [.capture name])) := by
  simp [afterCapture, unfitted, under, Function.comp_def]

theorem afterWord_words (hn : words.Nodup) :
    afterWord segment
        (unfitted (words.flatMap fun word => (behind word).map (under [.word word]))) =
      if segment ∈ words then
        (unfitted (behind segment)).map (Prod.map id (under [.word segment]))
      else [] := by
  induction words with
  | nil => rfl
  | cons word words ih =>
    obtain ⟨hword, hn⟩ := List.nodup_cons.1 hn
    rw [List.flatMap_cons, unfitted_append, afterWord_append, afterWord_under_word, ih hn]
    by_cases h : word = segment
    · subst h
      simp [hword]
    · simp [h, Ne.symm h]

theorem afterCapture_words :
    afterCapture (unfitted (words.flatMap fun word => (behind word).map (under [.word word]))) =
      [] := by
  induction words with
  | nil => rfl
  | cons word words ih =>
    rw [List.flatMap_cons, unfitted_append, afterCapture_append, afterCapture_under_word, ih,
      List.append_nil]

theorem afterWord_fork (hn : words.Nodup) (hall : ∀ word ∉ words, behind word = []) :
    afterWord segment (unfitted (fork here words behind name captured)) =
      (unfitted (behind segment)).map (Prod.map id (under [.word segment])) := by
  have hhere : afterWord segment
      (unfitted (here.map fun endpoint => (⟨[], endpoint⟩ : Route)).toList) = [] := by
    cases here <;> rfl
  rw [fork, unfitted_append, unfitted_append, afterWord_append, afterWord_append,
    afterWord_words hn, afterWord_under_capture, hhere, List.append_nil, List.nil_append]
  split
  · rfl
  · next h =>
    rw [hall segment h]
    rfl

theorem afterCapture_fork :
    afterCapture (unfitted (fork here words behind name captured)) =
      (unfitted captured).map (Prod.map id (under [.capture name])) := by
  have hhere : afterCapture
      (unfitted (here.map fun endpoint => (⟨[], endpoint⟩ : Route)).toList) = [] := by
    cases here <;> rfl
  rw [fork, unfitted_append, unfitted_append, afterCapture_append, afterCapture_append,
    afterCapture_words, afterCapture_under_capture, hhere, List.append_nil, List.nil_append]

theorem lead_fork_nil : lead (fork here words behind name captured) [] =
    here.map fun endpoint => ⟨endpoint, []⟩ := by
  cases here <;> simp [lead, search, unfitted, fork, under, captures]

/-- The word of a path's next segment is followed first, and the capture only when the routes
behind that word lead nowhere. -/
theorem lead_fork_cons (hn : words.Nodup) (hall : ∀ word ∉ words, behind word = []) :
    lead (fork here words behind name captured) (segment :: segments) =
      (lead (behind segment) segments).or
        (if segment = "" ∧ segments = [] then none
          else (lead captured segments).map (Destination.behind name segment)) := by
  rw [lead, search, afterWord_fork hn hall, afterCapture_fork, Option.map_or, search_map,
    Option.map_map]
  congr 1
  by_cases h : segment = "" ∧ segments = []
  · rw [if_pos h, h.1, h.2]
    rfl
  · rw [if_neg h, if_neg (by simpa using h), search_map, lead, Option.map_map, Option.map_map]
    rfl

/-- Behind routes that part at no word, the next segment is captured. -/
theorem lead_fork_capture : lead (fork here [] (fun _ => []) name captured) (segment :: segments) =
    if segment = "" ∧ segments = [] then none
    else (lead captured segments).map (Destination.behind name segment) := by
  rw [lead_fork_cons List.nodup_nil fun _ _ => rfl, lead_nil, Option.none_or]

theorem lead_leaf (here : Option Endpoint) (segments : List String) :
    lead (leaf here) segments = if segments = [] then here.map (⟨·, []⟩) else none := by
  cases segments with
  | nil => exact lead_fork_nil
  | cons segment segments =>
    rw [leaf, lead_fork_capture, lead_nil, Option.map_none, ite_self,
      if_neg (List.cons_ne_nil _ _)]

end Fork

/-- Routes behind words lead where they lead without these words. -/
theorem lead_under_words (front : List String) (routes : List Route) (segments : List String) :
    lead (routes.map (under (front.map .word))) segments =
      (segments.dropPrefix? front).bind (lead routes) := by
  induction front generalizing segments with
  | nil =>
    have hmap : routes.map (under (([] : List String).map .word)) = routes :=
      List.map_id' routes
    rw [hmap, List.dropPrefix?_nil, Option.bind_some]
  | cons word front ih =>
    have hfork : routes.map (under ((word :: front).map .word)) = fork none [word]
        (fun first => if first = word then routes.map (under (front.map .word)) else []) "" [] := by
      simp [fork, under, Function.comp_def]
    rw [hfork]
    cases segments with
    | nil =>
      rw [lead_fork_nil]
      rfl
    | cons segment segments =>
      have hall : ∀ other ∉ [word],
          (if other = word then routes.map (under (front.map .word)) else []) = [] :=
        fun other hother => if_neg fun h => hother (List.mem_singleton.2 h)
      rw [lead_fork_cons (List.nodup_singleton word) hall, lead_nil]
      by_cases h : segment = word
      · subst h
        simp [ih, List.dropPrefix?]
      · simp [lead_nil, List.dropPrefix?, h]

end Route

section Site

/-- The listing of a word that the site has routes of its own for. -/
def listingOf? : String → Option Endpoint
  | "idea" => some .ideas
  | "contributor" => some (.typeListing "contributor")
  | "contributor_group" => some (.vocabularyListing "contributor_group")
  | "category" => some (.vocabularyListing "category")
  | "tag" => some (.vocabularyListing "tag")
  | "product" => some (.typeListing "product")
  | _ => none

/-- The item behind such a word and an id. Ideas have none of their own. -/
def itemOf? : String → Option Endpoint
  | "contributor" => some (.typeItem "contributor")
  | "contributor_group" => some (.vocabularyItem "contributor_group")
  | "category" => some (.vocabularyItem "category")
  | "tag" => some (.vocabularyItem "tag")
  | "product" => some (.typeItem "product")
  | _ => none

/-- What else is behind such a word and an id. -/
def contentOf? : String → String → Option Endpoint
  | "contributor", "content" => some .contributorContent
  | "contributor_group", "content" => some (.vocabularyContent .contributorGroup)
  | "category", "content" => some (.vocabularyContent .category)
  | "tag", "content" => some (.vocabularyContent .tag)
  | "product", "content" => some (.productContent false)
  | "product", "contentcount" => some (.productCount false)
  | _, _ => none

/-- What is behind such a word and two segments that make one id. -/
def joinedContentOf? : String → String → Option Endpoint
  | "product", "content" => some (.productContent true)
  | "product", "contentcount" => some (.productCount true)
  | _, _ => none

/-- Where such a word and what is behind it lead. -/
def wordDestination? : List String → Option Destination
  | [word] => (listingOf? word).map (⟨·, []⟩)
  | [word, id] => if id = "" then none else (itemOf? word).map (⟨·, [("id", id)]⟩)
  | [word, id, last] => (contentOf? word last).map (⟨·, [("id", id)]⟩)
  | [word, id, sku2, last] =>
    (joinedContentOf? word last).map (⟨·, [("id", id), ("sku2", sku2)]⟩)
  | _ => none

/-- Where the name of a type, and an id behind it, lead. -/
def typeDestination? (listing item : Endpoint) : List String → Option Destination
  | [type] => if type = "" then none else some ⟨listing, [("content_type", type)]⟩
  | [type, id] => if id = "" then none else some ⟨item, [("content_type", type), ("id", id)]⟩
  | _ => none

/-- Where the segments behind the base path lead. Under the site its own words come first. -/
def destination? (site : String) : List String → Option Destination
  | [] => none
  | brand :: segments =>
    if brand = site then
      (wordDestination? segments).or (typeDestination? .siteListing .siteItem segments)
    else (typeDestination? .brandListing .brandItem segments).map (.behind "brand" brand)

open Route (under fork leaf lead lead_nil lead_fork_nil lead_fork_cons lead_fork_capture lead_leaf)

/-- The words that the site has routes of its own for. -/
def siteWords : List String :=
  ["idea", "contributor", "contributor_group", "category", "tag", "product"]

/-- The words that such routes end with behind an id. -/
def contentWords : List String := ["content", "contentcount"]

/-- The routes behind a word and two captured segments. -/
def joinedRoutes (word : String) : List Route :=
  fork none contentWords (fun last => leaf (joinedContentOf? word last)) "" []

/-- The routes behind a word and one captured segment. -/
def idRoutes (word : String) : List Route :=
  fork (itemOf? word) contentWords (fun last => leaf (contentOf? word last)) "sku2"
    (joinedRoutes word)

/-- The routes behind a word. -/
def wordRoutes (word : String) : List Route :=
  fork (listingOf? word) [] (fun _ => []) "id" (idRoutes word)

/-- The routes behind the name of a type. -/
def typeRoutes (listing item : Endpoint) : List Route :=
  fork (some listing) [] (fun _ => []) "id" (leaf (some item))

/-- The routes behind the site. -/
def siteRoutes : List Route :=
  fork none siteWords wordRoutes "content_type" (typeRoutes .siteListing .siteItem)

/-- The routes behind a segment that is not the site. -/
def brandRoutes : List Route :=
  fork none [] (fun _ => []) "content_type" (typeRoutes .brandListing .brandItem)

/-- The routes behind the base path. -/
def baseRoutes (site : String) : List Route :=
  fork none [site] (fun word => if word = site then siteRoutes else []) "brand" brandRoutes

/-- The routes of the settings are this tree behind the words of the base path. -/
theorem routes_eq_under (c : ContentSettings) :
    c.routes = (baseRoutes c.site).map (under c.baseSegments) := by
  simp [ContentSettings.routes, ContentSettings.siteSegments, baseRoutes, siteRoutes, siteWords,
    contentWords, brandRoutes, typeRoutes, wordRoutes, idRoutes, joinedRoutes, leaf, fork, under,
    listingOf?, itemOf?, contentOf?, joinedContentOf?]

theorem lead_typeRoutes (listing item : Endpoint) (type : String) (segments : List String) :
    (if type = "" ∧ segments = [] then none
      else (lead (typeRoutes listing item) segments).map (Destination.behind "content_type" type)) =
      typeDestination? listing item (type :: segments) := by
  match segments with
  | [] => simp [typeRoutes, lead_fork_nil, typeDestination?, Destination.behind]
  | [id] =>
    by_cases h : id = "" <;>
      simp [typeRoutes, lead_fork_capture, lead_leaf, typeDestination?, Destination.behind, h]
  | _ :: _ :: _ => simp [typeRoutes, lead_fork_capture, lead_leaf, typeDestination?]

theorem leaf_content_eq_nil {word last : String} (h : last ∉ contentWords) :
    leaf (contentOf? word last) = [] ∧ leaf (joinedContentOf? word last) = [] := by
  simp only [contentWords, List.mem_cons, List.not_mem_nil, or_false, not_or] at h
  have hcontent : contentOf? word last = none := by simp [contentOf?, h]
  have hjoined : joinedContentOf? word last = none := by simp [joinedContentOf?, h]
  rw [hcontent, hjoined]
  exact ⟨rfl, rfl⟩

theorem lead_joinedRoutes (word last : String) (segments : List String) :
    lead (joinedRoutes word) (last :: segments) =
      if segments = [] then (joinedContentOf? word last).map (⟨·, []⟩) else none := by
  rw [joinedRoutes, lead_fork_cons (by decide) fun _ h => (leaf_content_eq_nil h).2, lead_leaf,
    lead_nil, Option.map_none, ite_self, Option.or_none]

theorem lead_idRoutes (word last : String) (segments : List String) :
    lead (idRoutes word) (last :: segments) =
      (if segments = [] then (contentOf? word last).map (⟨·, []⟩) else none).or
        (if last = "" ∧ segments = [] then none
          else (lead (joinedRoutes word) segments).map (Destination.behind "sku2" last)) := by
  rw [idRoutes, lead_fork_cons (by decide) fun _ h => (leaf_content_eq_nil h).1, lead_leaf]

theorem lead_wordRoutes (word : String) (segments : List String) :
    lead (wordRoutes word) segments = wordDestination? (word :: segments) := by
  cases segments with
  | nil => exact lead_fork_nil
  | cons id segments =>
    rw [wordRoutes, lead_fork_capture]
    match segments with
    | [] =>
      by_cases h : id = "" <;>
        simp [idRoutes, lead_fork_nil, wordDestination?, Destination.behind, Function.comp_def, h]
    | [last] =>
      simp [lead_idRoutes, joinedRoutes, lead_fork_nil, wordDestination?, Destination.behind,
        Function.comp_def]
    | [sku2, last] =>
      simp [lead_idRoutes, lead_joinedRoutes, wordDestination?, Destination.behind,
        Function.comp_def]
    | _ :: _ :: _ :: _ => simp [lead_idRoutes, lead_joinedRoutes, wordDestination?]

theorem wordRoutes_eq_nil {word : String} (h : word ∉ siteWords) : wordRoutes word = [] := by
  simp only [siteWords, List.mem_cons, List.not_mem_nil, or_false, not_or] at h
  have hlisting : listingOf? word = none := by simp [listingOf?, h]
  have hitem : itemOf? word = none := by simp [itemOf?, h]
  have hcontent (last : String) : contentOf? word last = none := by simp [contentOf?, h]
  have hjoined (last : String) : joinedContentOf? word last = none := by simp [joinedContentOf?, h]
  simp [wordRoutes, idRoutes, joinedRoutes, fork, leaf, hlisting, hitem, hcontent, hjoined]

theorem lead_siteRoutes (segments : List String) : lead siteRoutes segments =
    (wordDestination? segments).or (typeDestination? .siteListing .siteItem segments) := by
  cases segments with
  | nil => exact lead_fork_nil
  | cons word segments =>
    rw [siteRoutes, lead_fork_cons (by decide) fun _ h => wordRoutes_eq_nil h, lead_wordRoutes,
      lead_typeRoutes]

theorem lead_brandRoutes (segments : List String) :
    lead brandRoutes segments = typeDestination? .brandListing .brandItem segments := by
  cases segments with
  | nil => exact lead_fork_nil
  | cons type segments => rw [brandRoutes, lead_fork_capture, lead_typeRoutes]

/-- A path that leads nowhere as a type of the site leads nowhere as a type of a brand, so that
going back from the site to the brands finds nothing. -/
theorem typeDestination?_eq_none {listing item listing' item' : Endpoint} {segments : List String}
    (h : typeDestination? listing item segments = none) :
    typeDestination? listing' item' segments = none := by
  match segments, h with
  | [], _ => rfl
  | [type], h => simpa [typeDestination?] using h
  | [type, id], h => simpa [typeDestination?] using h
  | _ :: _ :: _ :: _, _ => rfl

theorem lead_baseRoutes (site : String) (segments : List String) :
    lead (baseRoutes site) segments = destination? site segments := by
  cases segments with
  | nil => exact lead_fork_nil
  | cons brand segments =>
    have hall : ∀ word ∉ [site], (if word = site then siteRoutes else []) = [] :=
      fun word h => if_neg fun heq => h (List.mem_singleton.2 heq)
    have hbrand : (if brand = "" ∧ segments = [] then none
        else (lead brandRoutes segments).map (Destination.behind "brand" brand)) =
        (lead brandRoutes segments).map (Destination.behind "brand" brand) := by
      refine ite_eq_right_iff.2 fun h => ?_
      rw [h.2]
      rfl
    rw [baseRoutes, lead_fork_cons (List.nodup_singleton site) hall, hbrand, lead_brandRoutes,
      destination?]
    by_cases h : brand = site
    · rw [if_pos h, if_pos h, lead_siteRoutes, Option.or_assoc]
      congr 1
      cases hsite : typeDestination? .siteListing .siteItem segments with
      | some d => rfl
      | none =>
        rw [typeDestination?_eq_none hsite]
        rfl
    · rw [if_neg h, if_neg h, lead_nil, Option.none_or]

end Site

namespace ContentSettings

variable {c : ContentSettings} {path : List Char} {segments : List String}

/-- The base path without its slashes at the end. -/
def trimmedBase (c : ContentSettings) : List Char := c.basePath.toList.rdropWhile (· = '/')

/-- The path of segments behind the base path. -/
def pathOf (c : ContentSettings) (segments : List String) : List Char :=
  c.trimmedBase ++ segments.flatMap fun segment => '/' :: segment.toList

theorem map_toList_segmentsOf (path : List Char) :
    (Route.segmentsOf path).map String.toList = Text.splitOn '/' path := by
  rw [Route.segmentsOf, List.map_map]
  exact (List.map_congr_left fun part _ => String.toList_ofList).trans (List.map_id _)

theorem pathOf_eq_intercalate (c : ContentSettings) (segments : List String) :
    c.pathOf segments =
      ['/'].intercalate (Text.splitOn '/' c.trimmedBase ++ segments.map String.toList) := by
  have hne : Text.splitOn '/' c.trimmedBase ≠ [] := by
    rw [Text.splitOn_eq]
    exact List.splitOn_ne_nil _ _
  rw [intercalate_append_eq_flatMap hne, Text.splitOn_eq, List.intercalate_splitOn,
    List.flatMap_map]
  rfl

/-- The segments of a path go on behind the base path if and only if the path does. -/
theorem segmentsOf_eq_append_iff :
    Route.segmentsOf path = Route.segmentsOf c.trimmedBase ++ segments ↔
      (∀ segment ∈ segments, '/' ∉ segment.toList) ∧ path = c.pathOf segments := by
  constructor
  · intro h
    have hparts := congrArg (List.map String.toList) h
    rw [List.map_append, map_toList_segmentsOf, map_toList_segmentsOf] at hparts
    refine ⟨fun segment hs hslash => ?_, ?_⟩
    · have hmem : segment.toList ∈ Text.splitOn '/' path := by
        rw [hparts]
        exact List.mem_append_right _ (List.mem_map_of_mem hs)
      exact (Text.mem_of_mem_splitOn hmem hslash).2 rfl
    · rw [pathOf_eq_intercalate, ← hparts, Text.splitOn_eq, List.intercalate_splitOn]
  · rintro ⟨hslash, rfl⟩
    have hparts : Text.splitOn '/' (c.pathOf segments) =
        Text.splitOn '/' c.trimmedBase ++ segments.map String.toList := by
      rw [pathOf_eq_intercalate]
      refine Text.splitOn_intercalate (by simp [Text.splitOn_eq]) fun part hp => ?_
      rcases List.mem_append.1 hp with hp | hp
      · exact fun h => (Text.mem_of_mem_splitOn hp h).2 rfl
      · obtain ⟨segment, hs, rfl⟩ := List.mem_map.1 hp
        exact hslash segment hs
    rw [Route.segmentsOf, hparts, List.map_append, List.map_map]
    have hid : segments.map (String.ofList ∘ String.toList) = segments :=
      (List.map_congr_left fun s _ => String.ofList_toList).trans (List.map_id _)
    rw [hid]
    rfl

theorem lead_routes (c : ContentSettings) (path : List Char) :
    Route.lead c.routes (Route.segmentsOf path) =
      ((Route.segmentsOf path).dropPrefix? (Route.segmentsOf c.trimmedBase)).bind
        (destination? c.site) := by
  have hbase : c.baseSegments = (Route.segmentsOf c.trimmedBase).map .word := rfl
  rw [routes_eq_under, hbase, Route.lead_under_words]
  exact congrArg _ (funext (lead_baseRoutes c.site))

theorem lead_routes_pathOf (hslash : ∀ segment ∈ segments, '/' ∉ segment.toList) :
    Route.lead c.routes (Route.segmentsOf (c.pathOf segments)) = destination? c.site segments := by
  rw [lead_routes, segmentsOf_eq_append_iff.2 ⟨hslash, rfl⟩,
    List.dropPrefix?_append_of_beq segments (beq_self_eq_true _), Option.bind_some]

theorem lead_routes_eq_none (h : ∀ segments : List String,
    (∀ segment ∈ segments, '/' ∉ segment.toList) → path ≠ c.pathOf segments) :
    Route.lead c.routes (Route.segmentsOf path) = none := by
  rw [lead_routes]
  cases hd : (Route.segmentsOf path).dropPrefix? (Route.segmentsOf c.trimmedBase) with
  | none => rfl
  | some segments =>
    obtain ⟨front, happend, hfront⟩ := List.dropPrefix?_eq_some_iff.1 hd
    rw [eq_of_beq hfront] at happend
    obtain ⟨hslash, hpath⟩ := segmentsOf_eq_append_iff.1 happend
    exact absurd hpath (h segments hslash)

end ContentSettings

namespace Response

/-- A failure that says nothing but its message. -/
def failed (status : Nat) (message : String) : Response :=
  ⟨status, some "application/json", none, none, "\x7b\"error\":\"" ++ message ++ "\"\x7d"⟩

theorem ofFault_eq_failed (fault : Fault) :
    ofFault fault = failed fault.status fault.publicMessage := by
  have hinternal : ofFault (.internal "") = failed 500 "Internal server error." := by
    decide +kernel
  cases fault with
  | notFound => decide +kernel
  | forbidden => decide +kernel
  | internal detail => exact hinternal
  | storage detail => exact hinternal

end Response

namespace Router

/-- The call of an endpoint on decoded segments and a query. -/
def callAt (r : Router) (endpoint : Endpoint) (decoded : List (String × String))
    (query : Option String) : Call :=
  endpoint.call r.application.settings.site r.application.settings.paramBounds
    (fun name => (decoded.lookup name).getD "") (QueryPairs.ofQuery query)

/-- The answer at a destination: that of the endpoint's call, unless a captured segment is not
UTF-8. -/
def answerAt (r : Router) (cache : SchemaCache) (d : Destination) (query : Option String) :
    Response × SchemaCache :=
  match decodeCaptures d.captured with
  | .error name => (.invalidCapture name, cache)
  | .ok decoded =>
    let call := r.callAt d.endpoint decoded query
    match r.application.service.step cache call with
    | (.ok answer, cache') => (answer.response call, cache')
    | (.error fault, cache') => (.ofFault fault, cache')

theorem respond_get (r : Router) (cache : SchemaCache) (target : Target) :
    r.respond cache ⟨"GET", target⟩ =
      match Route.lead r.routes (Route.segmentsOf target.path) with
      | some d => r.answerAt cache d target.query
      | none => (.ofFault .notFound, cache) := by
  have hget : (("GET" : String) == "HEAD") = false := by decide
  cases hf : Route.find? r.routes target.path with
  | none =>
    have hlead : Route.lead r.routes (Route.segmentsOf target.path) = none := by
      rw [Route.lead, Option.map_eq_none_iff]
      exact hf
    simp [respond, hf, hlead]
  | some route =>
    have hlead : Route.lead r.routes (Route.segmentsOf target.path) =
        some ⟨route.endpoint, Route.captures route.template (Route.segmentsOf target.path)⟩ := by
      rw [Route.lead, Option.map_eq_some_iff]
      exact ⟨route, hf, rfl⟩
    rw [hlead]
    simp only [respond, hf, hget, serve, answerAt, callOf]
    cases decodeCaptures (Route.captures route.template (Route.segmentsOf target.path)) <;> rfl

section Application

variable {c : ContentSettings} {storage : Storage (Except Fault)} {a : Application} {r : Router}

theorem eq_of_ofStorage (ha : Application.ofStorage c storage = .ok a) :
    ∃ offset, a = ⟨c, ⟨storage, offset, c.policy⟩⟩ := by
  unfold Application.ofStorage at ha
  split at ha
  · cases ha
  · split at ha
    · cases ha
    · next offset _ =>
      cases ha
      exact ⟨offset, rfl⟩

theorem eq_of_router? (hr : a.router? = some r) : r = ⟨a, a.settings.routes⟩ := by
  dsimp only [Application.router?] at hr
  split at hr
  · cases hr
  · cases hr
    rfl

theorem exists_default_router (storage : Storage (Except Fault)) :
    ∃ a r, Application.ofStorage .default storage = .ok a ∧ a.router? = some r := by
  obtain ⟨a, ha⟩ : ∃ a, Application.ofStorage .default storage = .ok a := ⟨_, rfl⟩
  have hfree : a.settings.siteSegments.any Route.isReserved = false := by
    obtain ⟨offset, rfl⟩ := eq_of_ofStorage ha
    exact (by decide : ContentSettings.default.siteSegments.any Route.isReserved = false)
  obtain ⟨r, hr⟩ := Option.isSome_iff_exists.1 ((Application.isSome_router?_iff a).2 hfree)
  exact ⟨a, r, ha, hr⟩

/-- Behind the base path, a get request is answered at the destination of its segments; every
other path, and one without a destination, is not found. -/
theorem get_answered_at_destination (ha : Application.ofStorage c storage = .ok a)
    (hr : a.router? = some r) (cache : SchemaCache) (query : Option String) :
    (∀ segments : List String, (∀ segment ∈ segments, '/' ∉ segment.toList) →
      Route.lead r.routes (Route.segmentsOf (c.pathOf segments)) = destination? c.site segments ∧
      r.respond cache ⟨"GET", ⟨c.pathOf segments, query⟩⟩ =
        match destination? c.site segments with
        | some d => r.answerAt cache d query
        | none => (.failed 404 "Not found.", cache)) ∧
    ∀ path : List Char,
      (∀ segments : List String, (∀ segment ∈ segments, '/' ∉ segment.toList) →
        path ≠ c.pathOf segments) →
      r.respond cache ⟨"GET", ⟨path, query⟩⟩ = (.failed 404 "Not found.", cache) := by
  have hroutes : r.routes = c.routes := by
    obtain ⟨offset, rfl⟩ := eq_of_ofStorage ha
    rw [eq_of_router? hr]
  have hbody : Response.ofFault .notFound = .failed 404 "Not found." := Response.ofFault_eq_failed _
  refine ⟨fun segments hslash => ?_, fun path hpath => ?_⟩
  · rw [respond_get, hroutes, ContentSettings.lead_routes_pathOf hslash, hbody]
    exact ⟨rfl, rfl⟩
  · rw [respond_get, hroutes, ContentSettings.lead_routes_eq_none hpath, hbody]

theorem default_contributor_answered :
    ∃ a r, Application.ofStorage .default (Store.ofDump Dump.empty "").storage = .ok a ∧
      a.router? = some r ∧
      r.respond SchemaCache.empty ⟨"GET", ⟨"/api/fun365/contributor/a%2Fb".toList, none⟩⟩ =
        r.answerAt SchemaCache.empty ⟨.typeItem "contributor", [("id", "a%2Fb")]⟩ none ∧
      r.respond SchemaCache.empty ⟨"GET", ⟨"/".toList, none⟩⟩ =
        (.failed 404 "Not found.", SchemaCache.empty) := by
  obtain ⟨a, r, ha, hr⟩ := exists_default_router (Store.ofDump Dump.empty "").storage
  obtain ⟨hanswer, hmissing⟩ := get_answered_at_destination ha hr SchemaCache.empty none
  refine ⟨a, r, ha, hr, ?_, hmissing _ fun segments _ hpath => ?_⟩
  · exact (hanswer ["fun365", "contributor", "a%2Fb"] (by decide)).2
  · have hlength := congrArg List.length hpath
    have hbase : ContentSettings.default.trimmedBase = "/api".toList := by decide
    rw [ContentSettings.pathOf, List.length_append, hbase] at hlength
    have hone : "/".toList.length = 1 := rfl
    have hfour : "/api".toList.length = 4 := rfl
    omega

/-- A dump with a type and no content. -/
def articleType : Dump := { Dump.empty with nodeBundles := [("article", [])] }

/-- An empty segment is a brand, so that a path with one is answered too. -/
theorem emptyBrand_answered :
    ∃ a r, Application.ofStorage .default (Store.ofDump articleType "").storage = .ok a ∧
      a.router? = some r ∧
      Request.ofText? "GET" "/api//article" = some ⟨"GET", ⟨"/api//article".toList, none⟩⟩ ∧
      (∀ segments : List String, (∀ segment ∈ segments, segment ≠ "" ∧ '/' ∉ segment.toList) →
        "/api//article".toList ≠ ContentSettings.default.pathOf segments) ∧
      (r.respond SchemaCache.empty ⟨"GET", ⟨"/api//article".toList, none⟩⟩).1.status = 200 := by
  obtain ⟨a, r, ha, hr⟩ := exists_default_router (Store.ofDump articleType "").storage
  refine ⟨a, r, ha, hr, by decide +kernel, fun segments hs hpath => ?_, ?_⟩
  · have happend := ContentSettings.segmentsOf_eq_append_iff.2 ⟨fun s h => (hs s h).2, hpath⟩
    have hsegments : Route.segmentsOf "/api//article".toList =
        Route.segmentsOf ContentSettings.default.trimmedBase ++ ["", "article"] := by decide +kernel
    rw [hsegments] at happend
    have heq := List.append_cancel_left happend
    exact (hs "" (by simp [← heq])).1 rfl
  · cases ha
    cases hr
    decide +kernel

end Application

end Router
end ContentProjection
