import ContentProjection.Proofs.ListBounds
import ContentProjection.Proofs.PercentEscapes
import ContentProjection.Proofs.Routing

/-!
# SKUs with a slash

A SKU that holds a slash stands in a path as one segment with the slash escaped, or as
the two segments around it. The routes for one segment and for two end in the same
words and make the same call of what they capture, since the raw segments are compared
with the words of the routes before they are decoded: an escaped text is never taken
for such a word, whatever it says.
-/
namespace ContentProjection

/-- A text as one segment of a path, each byte of it in a percent escape. -/
def Text.Percent.segmentOf (text : String) : String := String.ofList (encode text)

/-- The path that asks something of a SKU, given whole or in the parts around its slash. -/
def ContentSettings.skuPath (c : ContentSettings) (parts : List String) (last : String) :
    List Char :=
  c.pathOf (c.site :: "product" :: (parts.map Text.Percent.segmentOf ++ [last]))

theorem Application.routeFault?_of_ofStorage {c : ContentSettings}
    {storage : Storage (Except Fault)} {a : Application} (h : ofStorage c storage = .ok a) :
    c.routeFault? = none := by
  unfold ofStorage at h
  split at h
  · cases h
  · assumption

namespace Router

/-- The answer to a call, and the schema cache after it. -/
def answerTo (r : Router) (cache : SchemaCache) (call : Call) : Response × SchemaCache :=
  match r.application.service.step cache call with
  | (.ok answer, cache') => (answer.response call, cache')
  | (.error fault, cache') => (.ofFault fault, cache')

theorem answerAt_of_decoded (r : Router) (cache : SchemaCache) {d : Destination}
    {decoded : List (String × String)} (h : decodeCaptures d.captured = .ok decoded)
    (query : Option String) :
    r.answerAt cache d query = r.answerTo cache (r.callAt d.endpoint decoded query) := by
  rw [answerAt, h]
  rfl

/-- What a path captures of escaped texts are the texts. -/
theorem decodeCaptures_segmentOf (captured : List (String × String)) :
    decodeCaptures (captured.map fun capture =>
      (capture.1, Text.Percent.segmentOf capture.2)) = .ok captured := by
  induction captured with
  | nil => rfl
  | cons capture captured ih =>
    rw [List.map_cons, decodeCaptures, Text.Percent.segmentOf, String.toList_ofList,
      Text.Percent.segment?_encode, ih]
    rfl

section Sku

variable {c : ContentSettings} {storage : Storage (Except Fault)} {a : Application} {r : Router}
  (ha : Application.ofStorage c storage = .ok a) (hr : a.router? = some r)
include ha hr

theorem settings_eq_and_routes_eq : r.application.settings = c ∧ r.routes = c.routes := by
  obtain ⟨offset, rfl⟩ := eq_of_ofStorage ha
  rw [eq_of_router? hr]
  exact ⟨rfl, rfl⟩

/-- Escaped texts under a word of the site are answered as the texts that they stand for. -/
theorem respond_get_escaped {parts : List String} {last : String} (hlast : '/' ∉ last.toList)
    {endpoint : Endpoint} {captured : List (String × String)}
    (hd : wordDestination? ("product" :: (parts.map Text.Percent.segmentOf ++ [last])) =
      some ⟨endpoint, captured.map fun capture => (capture.1, Text.Percent.segmentOf capture.2)⟩)
    (cache : SchemaCache) (query : Option String) :
    r.respond cache ⟨"GET", ⟨c.skuPath parts last, query⟩⟩ =
      r.answerTo cache (r.callAt endpoint captured query) := by
  have hsite : '/' ∉ c.site.toList := by
    obtain ⟨-, -, -, hplain⟩ :=
      ContentSettings.routeFault?_eq_none_iff.1 (Application.routeFault?_of_ofStorage ha)
    exact fun hslash => (hplain '/' hslash).1 rfl
  have hslash : ∀ segment ∈ c.site :: "product" :: (parts.map Text.Percent.segmentOf ++ [last]),
      '/' ∉ segment.toList := by
    intro segment hs
    simp only [List.mem_cons, List.mem_append, List.mem_map, List.not_mem_nil, or_false] at hs
    rcases hs with rfl | rfl | ⟨text, -, rfl⟩ | rfl
    · exact hsite
    · decide
    · rw [Text.Percent.segmentOf, String.toList_ofList]
      exact Text.Percent.slash_not_mem_encode text
    · exact hlast
  obtain ⟨-, hroutes⟩ := settings_eq_and_routes_eq ha hr
  rw [respond_get, hroutes, ContentSettings.skuPath, ContentSettings.lead_routes_pathOf hslash,
    destination?, if_pos rfl, hd, Option.some_or]
  exact r.answerAt_of_decoded cache (decodeCaptures_segmentOf captured) query

/-- A SKU in one segment and the same SKU in two are answered alike, by the call for the SKU, and
so is the count of its content. -/
theorem split_sku_answered_as_whole (x y : String) (cache : SchemaCache) (query : Option String) :
    (r.respond cache ⟨"GET", ⟨c.skuPath [x, y] "content", query⟩⟩ =
        r.respond cache ⟨"GET", ⟨c.skuPath [x ++ "/" ++ y] "content", query⟩⟩ ∧
      r.respond cache ⟨"GET", ⟨c.skuPath [x ++ "/" ++ y] "content", query⟩⟩ =
        r.answerTo cache (.productContent (x ++ "/" ++ y) (c.listOptionsOf query))) ∧
    r.respond cache ⟨"GET", ⟨c.skuPath [x, y] "contentcount", query⟩⟩ =
        r.respond cache ⟨"GET", ⟨c.skuPath [x ++ "/" ++ y] "contentcount", query⟩⟩ ∧
      r.respond cache ⟨"GET", ⟨c.skuPath [x ++ "/" ++ y] "contentcount", query⟩⟩ =
        r.answerTo cache
          (.productContentCount (x ++ "/" ++ y) (c.listOptionsOf query).published) := by
  have hwhole {last : String} {endpoint : Endpoint} (hlast : '/' ∉ last.toList)
      (hd : contentOf? "product" last = some endpoint) :
      r.respond cache ⟨"GET", ⟨c.skuPath [x ++ "/" ++ y] last, query⟩⟩ =
        r.answerTo cache (r.callAt endpoint [("id", x ++ "/" ++ y)] query) :=
    respond_get_escaped ha hr hlast (by simp [wordDestination?, hd]) cache query
  have hsplit {last : String} {endpoint : Endpoint} (hlast : '/' ∉ last.toList)
      (hd : joinedContentOf? "product" last = some endpoint) :
      r.respond cache ⟨"GET", ⟨c.skuPath [x, y] last, query⟩⟩ =
        r.answerTo cache (r.callAt endpoint [("id", x), ("sku2", y)] query) :=
    respond_get_escaped ha hr hlast (by simp [wordDestination?, hd]) cache query
  obtain ⟨rfl, -⟩ := settings_eq_and_routes_eq ha hr
  rw [hwhole (by decide) rfl, hwhole (by decide) rfl, hsplit (by decide) rfl,
    hsplit (by decide) rfl]
  exact ⟨⟨rfl, rfl⟩, rfl, rfl⟩

end Sku

/-- A product with a SKU whose second part is a word of the routes, and an article about it. -/
def wordSkuDump : Dump :=
  let node (id : EntityId) (digit : Nat) (bundle : String) (field : String × List Item) :
      NodeRecord := ⟨id, Uuid.repeating digit, bundle, "", true, 0, none, [field]⟩
  { Dump.empty with
    nodes := [node 1 1 "product" ("field_sku", [.value "70/content"]),
      node 2 2 "article" ("field_products", [.target "1"])] }

theorem wordSku_answered_as_whole :
    ∃ a r, Application.ofStorage .default (Store.ofDump wordSkuDump "").storage = .ok a ∧
      a.router? = some r ∧
      ContentSettings.default.skuPath ["70", "content"] "contentcount" =
        "/api/fun365/product/%37%30/%63%6F%6E%74%65%6E%74/contentcount".toList ∧
      r.respond SchemaCache.empty
          ⟨"GET", ⟨ContentSettings.default.skuPath ["70", "content"] "contentcount", none⟩⟩ =
        r.respond SchemaCache.empty
          ⟨"GET", ⟨ContentSettings.default.skuPath ["70/content"] "contentcount", none⟩⟩ ∧
      (r.respond SchemaCache.empty
        ⟨"GET", ⟨ContentSettings.default.skuPath ["70/content"] "contentcount", none⟩⟩).1.body =
          "\x7b\"count\":1\x7d" := by
  obtain ⟨a, r, ha, hr⟩ := exists_default_router (Store.ofDump wordSkuDump "").storage
  have hsame := (split_sku_answered_as_whole ha hr "70" "content" SchemaCache.empty none).2.1
  refine ⟨a, r, ha, hr, by decide +kernel, hsame, ?_⟩
  cases ha
  cases hr
  decide +kernel

end Router
end ContentProjection
