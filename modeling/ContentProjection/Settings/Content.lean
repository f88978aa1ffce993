import ContentProjection.Json
import ContentProjection.Json.Parser
import ContentProjection.Service.Policy
import ContentProjection.Settings.Layer

/-!
# Settings of the content service

Where the routes live, what may be listed, the defaults and bounds of request
parameters, the offset of dates, and where files and content come from. The base
path and the site become literal parts of routes, so they are checked before any
route is made.
-/
namespace ContentProjection

structure ContentSettings where
  basePath : String
  site : String
  contentTypes : List String
  vocabularies : List String
  ideaTypes : List String
  contributorContentTypes : List String
  productContentTypes : List String
  defaultLimit : UInt64
  maxLimit : UInt64
  defaultDepth : UInt32
  maxDepth : UInt32
  utcOffsetMinutes : Int
  publicBaseUrl : String
  /-- The content dump to serve, none for an empty store. -/
  fixtures : Option String
  deriving DecidableEq, Repr

/-- Why settings cannot make routes. -/
inductive RouteFault where
  | unrootedBase (basePath : String)
  | parameterInBase (basePath : String)
  | siteNotOneSegment (site : String)
  deriving DecidableEq, Repr

def RouteFault.message : RouteFault → String
  | unrootedBase basePath => "base_path must be empty or start with '/': '" ++ basePath ++ "'"
  | parameterInBase basePath =>
    "base_path must not contain route parameters: '" ++ basePath ++ "'"
  | siteNotOneSegment site => "site must be a single non-empty path segment: '" ++ site ++ "'"

namespace ContentSettings

def default : ContentSettings where
  basePath := "/api"
  site := "fun365"
  contentTypes := Policy.default.contentTypes
  vocabularies := Policy.default.vocabularies
  ideaTypes := Policy.default.ideaTypes
  contributorContentTypes := Policy.default.contributorContentTypes
  productContentTypes := Policy.default.productContentTypes
  defaultLimit := 10
  maxLimit := 100
  defaultDepth := 2
  maxDepth := 10
  utcOffsetMinutes := 0
  publicBaseUrl := "http://localhost:8087"
  fixtures := none

def policy (c : ContentSettings) : Policy :=
  ⟨c.contentTypes, c.vocabularies, c.ideaTypes, c.contributorContentTypes,
    c.productContentTypes, c.maxDepth⟩

def isBrace (c : Char) : Bool := c = '\x7b' || c = '\x7d'

/-- The first reason why the settings cannot make routes. -/
def routeFault? (c : ContentSettings) : Option RouteFault :=
  let base := c.basePath.toList
  let site := c.site.toList
  if !base.isEmpty && base.head? != some '/' then some (.unrootedBase c.basePath)
  else if base.any isBrace then some (.parameterInBase c.basePath)
  else if site.isEmpty || site.any (fun ch => ch = '/' || isBrace ch) then
    some (.siteNotOneSegment c.site)
  else none

def toJson (c : ContentSettings) : Json :=
  .obj ([("base_path", .str c.basePath), ("site", .str c.site),
    ("content_types", Json.strings c.contentTypes), ("vocabularies", Json.strings c.vocabularies),
    ("idea_types", Json.strings c.ideaTypes),
    ("contributor_content_types", Json.strings c.contributorContentTypes),
    ("product_content_types", Json.strings c.productContentTypes),
    ("default_limit", .int c.defaultLimit.toNat), ("max_limit", .int c.maxLimit.toNat),
    ("default_depth", .int c.defaultDepth.toNat), ("max_depth", .int c.maxDepth.toNat),
    ("utc_offset_minutes", .int c.utcOffsetMinutes), ("public_base_url", .str c.publicBaseUrl)]
    ++ (c.fixtures.map fun path => ("fixtures", Json.str path)).toList)

def names : List String :=
  ["base_path", "site", "content_types", "vocabularies", "idea_types",
    "contributor_content_types", "product_content_types", "default_limit", "max_limit",
    "default_depth", "max_depth", "utc_offset_minutes", "public_base_url", "fixtures"]

/-- The settings that a layer gives, with the defaults of those it does not. -/
def ofLayer? (layer : Layer) : Option ContentSettings := do
  match ← layer.record? names with
  | [basePath, site, contentTypes, vocabularies, ideaTypes, contributorTypes, productTypes,
      defaultLimit, maxLimit, defaultDepth, maxDepth, offset, baseUrl, fixtures] =>
    return {
      basePath := ← Layer.setting? default.basePath Layer.text? basePath
      site := ← Layer.setting? default.site Layer.text? site
      contentTypes := ← Layer.setting? default.contentTypes Layer.texts? contentTypes
      vocabularies := ← Layer.setting? default.vocabularies Layer.texts? vocabularies
      ideaTypes := ← Layer.setting? default.ideaTypes Layer.texts? ideaTypes
      contributorContentTypes :=
        ← Layer.setting? default.contributorContentTypes Layer.texts? contributorTypes
      productContentTypes := ← Layer.setting? default.productContentTypes Layer.texts? productTypes
      defaultLimit := ← Layer.setting? default.defaultLimit Layer.uint64? defaultLimit
      maxLimit := ← Layer.setting? default.maxLimit Layer.uint64? maxLimit
      defaultDepth := ← Layer.setting? default.defaultDepth Layer.uint32? defaultDepth
      maxDepth := ← Layer.setting? default.maxDepth Layer.uint32? maxDepth
      utcOffsetMinutes := ← Layer.setting? default.utcOffsetMinutes Layer.int32? offset
      publicBaseUrl := ← Layer.setting? default.publicBaseUrl Layer.text? baseUrl
      fixtures := ← Layer.setting? default.fixtures Layer.optionalText? fixtures }
  | _ => none

/-- An array with more items than there are settings. -/
def hasSurplus : Json.Tree → Bool
  | .array items => names.length < items.length
  | _ => false

/-- The settings that a JSON value writes. -/
def ofTree? (t : Json.Tree) : Option ContentSettings :=
  if hasSurplus t then none else (Layer.ofTree? t).bind ofLayer?

/-- The settings that a JSON text writes. -/
def ofText? (text : String) : Option ContentSettings :=
  (Json.Parser.parse? text.toList).bind ofTree?

end ContentSettings
end ContentProjection
