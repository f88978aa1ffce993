import ContentProjection.Settings.Content
import ContentProjection.Service.Options
import ContentProjection.Text.Split

/-!
# Routes and how a path chooses one

A route is a list of segments, each a word or a capture. A path is cut at its
slashes and compared raw, escapes included. At every segment the routes with the
very word there are tried first, and only when none of them fits the rest of the
path those with a capture. A capture takes any segment, except that the last
segment of a path must not be empty to be captured.
-/
namespace ContentProjection

inductive Segment where
  | word (text : String)
  | capture (name : String)
  deriving DecidableEq, Repr

/-- What a route answers with. -/
inductive Endpoint where
  | ideas
  | typeListing (contentType : String)
  | typeItem (contentType : String)
  | contributorContent
  | vocabularyListing (vocabulary : String)
  | vocabularyItem (vocabulary : String)
  | vocabularyContent (vocabulary : ListedVocabulary)
  /-- A SKU of one segment, or of two joined by a slash. -/
  | productContent (joined : Bool)
  | productCount (joined : Bool)
  | siteListing
  | siteItem
  | brandListing
  | brandItem
  deriving DecidableEq, Repr

structure Route where
  template : List Segment
  endpoint : Endpoint
  deriving DecidableEq, Repr

namespace Route

def segmentsOf (path : List Char) : List String :=
  (Text.splitOn '/' path).map String.ofList

/-- Candidates whose next segment is the word, with that segment removed. -/
def afterWord (segment : String) (candidates : List (List Segment × Route)) :
    List (List Segment × Route) :=
  candidates.filterMap fun (rest, route) =>
    match rest with
    | .word text :: rest => if text = segment then some (rest, route) else none
    | _ => none

/-- Candidates whose next segment is a capture, with that segment removed. -/
def afterCapture (candidates : List (List Segment × Route)) : List (List Segment × Route) :=
  candidates.filterMap fun (rest, route) =>
    match rest with
    | .capture _ :: rest => some (rest, route)
    | _ => none

/-- The first candidate that fits all segments, words preferred to captures from the left. -/
def search : List (List Segment × Route) → List String → Option Route
  | candidates, [] => (candidates.find? fun candidate => candidate.1.isEmpty).map Prod.snd
  | candidates, segment :: segments =>
    let captured :=
      if segment.isEmpty && segments.isEmpty then [] else afterCapture candidates
    (search (afterWord segment candidates) segments).or (search captured segments)

def find? (routes : List Route) (path : List Char) : Option Route :=
  search (routes.map fun route => (route.template, route)) (segmentsOf path)

/-- The captured segments of a path that a template fits, by name. -/
def captures : List Segment → List String → List (String × String)
  | .capture name :: rest, segment :: segments => (name, segment) :: captures rest segments
  | .word _ :: rest, _ :: segments => captures rest segments
  | _, _ => []

/-- A word that a router would take for a capture of an older form. -/
def isReserved : Segment → Bool
  | .word text => text.toList.head? == some ':' || text.toList.head? == some '*'
  | .capture _ => false

end Route

namespace ContentSettings

/-- The segments of the base path, slashes at its end dropped. -/
def baseSegments (c : ContentSettings) : List Segment :=
  (Route.segmentsOf (c.basePath.toList.reverse.dropWhile (· = '/')).reverse).map .word

def siteSegments (c : ContentSettings) : List Segment := c.baseSegments ++ [.word c.site]

/-- All routes; those of the site stand beside the ones for any brand. -/
def routes (c : ContentSettings) : List Route :=
  let site (rest : List Segment) (endpoint : Endpoint) : Route := ⟨c.siteSegments ++ rest, endpoint⟩
  let base (rest : List Segment) (endpoint : Endpoint) : Route := ⟨c.baseSegments ++ rest, endpoint⟩
  let ofVocabulary (word : String) (vocabulary : ListedVocabulary) : List Route :=
    [site [.word word] (.vocabularyListing word),
      site [.word word, .capture "id"] (.vocabularyItem word),
      site [.word word, .capture "id", .word "content"] (.vocabularyContent vocabulary)]
  [site [.word "idea"] .ideas,
    site [.word "contributor"] (.typeListing "contributor"),
    site [.word "contributor", .capture "id"] (.typeItem "contributor"),
    site [.word "contributor", .capture "id", .word "content"] .contributorContent]
  ++ ofVocabulary "contributor_group" .contributorGroup
  ++ ofVocabulary "category" .category
  ++ ofVocabulary "tag" .tag
  ++ [site [.word "product"] (.typeListing "product"),
    site [.word "product", .capture "id"] (.typeItem "product"),
    site [.word "product", .capture "id", .word "content"] (.productContent false),
    site [.word "product", .capture "id", .word "contentcount"] (.productCount false),
    site [.word "product", .capture "id", .capture "sku2", .word "content"] (.productContent true),
    site [.word "product", .capture "id", .capture "sku2", .word "contentcount"]
      (.productCount true),
    site [.capture "content_type"] .siteListing,
    site [.capture "content_type", .capture "id"] .siteItem,
    base [.capture "brand", .capture "content_type"] .brandListing,
    base [.capture "brand", .capture "content_type", .capture "id"] .brandItem]

end ContentSettings
end ContentProjection
