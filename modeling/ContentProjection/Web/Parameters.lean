import ContentProjection.Service.Options
import ContentProjection.Settings.Content
import ContentProjection.Text.Blank
import ContentProjection.Text.Numeral
import ContentProjection.Text.Percent

/-!
# Query strings

The parameters of a request are the pairs of its query string, read as form
data. Of a repeated single parameter the first counts. A number that does not
parse, or does not fit its word, counts as not given. A given limit of at least
one is cut to the largest one; the default limit is used as it is. List
parameters collect every non-empty value, under the key or the key with brackets.
-/
namespace ContentProjection

/-- Defaults and bounds of the parameters. -/
structure ParamBounds where
  defaultLimit : UInt64
  maxLimit : UInt64
  defaultDepth : UInt32
  maxDepth : UInt32
  deriving DecidableEq, Repr

/-- Limits are at least one. -/
def ContentSettings.paramBounds (c : ContentSettings) : ParamBounds :=
  ⟨max c.defaultLimit 1, max c.maxLimit 1, c.defaultDepth, c.maxDepth⟩

abbrev QueryPairs := List (String × String)

namespace QueryPairs

def ofQuery (query : Option String) : QueryPairs :=
  (query.map fun text => Text.Percent.formPairs text.toList).getD []

def first? (pairs : QueryPairs) (key : String) : Option String := pairs.lookup key

def all (pairs : QueryPairs) (key : String) : List String :=
  (pairs.filter fun pair => (pair.1 == key ++ "[]" || pair.1 == key) && !pair.2.isEmpty).map
    Prod.snd

def page (pairs : QueryPairs) : UInt64 :=
  ((pairs.first? "page").bind fun v => Text.Numeral.uint64? (Text.trim v.toList)).getD 0

def limit (pairs : QueryPairs) (bounds : ParamBounds) : UInt64 :=
  match (pairs.first? "limit").bind fun v => Text.Numeral.uint64? (Text.trim v.toList) with
  | some limit => if 0 < limit then min limit bounds.maxLimit else bounds.defaultLimit
  | none => bounds.defaultLimit

/-- Any value but the empty one and `0` asks for it. -/
def recurse (pairs : QueryPairs) : Bool :=
  (pairs.first? "recurse").any fun v => !v.isEmpty && v != "0"

def depth (pairs : QueryPairs) (bounds : ParamBounds) : UInt32 :=
  let asked := (pairs.first? "depth").bind fun v => Text.Numeral.uint32? (Text.trim v.toList)
  min (asked.getD bounds.defaultDepth) bounds.maxDepth

/-- Only the value `0` turns the publication filter off. -/
def published (pairs : QueryPairs) : Bool := pairs.first? "published" != some "0"

def listOptions (pairs : QueryPairs) (bounds : ParamBounds) : ListOptions :=
  ⟨pairs.page, pairs.limit bounds, pairs.recurse, pairs.depth bounds, pairs.published⟩

def lookupOptions (pairs : QueryPairs) (bounds : ParamBounds) : LookupOptions :=
  ⟨pairs.recurse, pairs.depth bounds⟩

def ideaScope (pairs : QueryPairs) : IdeaScope :=
  ⟨pairs.all "category", pairs.all "tag", pairs.all "type"⟩

end QueryPairs
end ContentProjection
