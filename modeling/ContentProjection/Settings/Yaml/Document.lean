import ContentProjection.Settings.Yaml.Collection

/-!
# YAML documents as layers

A text holds one document. Three dashes may stand before it and lines of three
points behind it. The document must be a group; one without any content, or with
an empty text for content, sets nothing.
-/
namespace ContentProjection.Settings.Yaml

/-- The layer that the tokens of a document write, and what follows them. -/
def root? (ts : List Token) : Option (Layer × List Token) :=
  match ts with
  | [] => some (Layer.empty, [])
  | .documentStart :: _ => some (Layer.empty, ts)
  | .documentEnd :: _ => some (Layer.empty, ts)
  | .scalar _ [] :: rest => some (Layer.empty, rest)
  | _ =>
    match value? (2 * ts.length + 2) maxDepth false ts with
    | some (.group members, rest) => some (.group members, rest)
    | _ => none

/-- The document of a text: one that begins with three points has none. -/
def document? : List Token → Option (Layer × List Token)
  | .documentEnd :: _ => none
  | .documentStart :: rest => root? rest
  | ts => root? ts

/-- The layer that a text writes. -/
def layer? (text : String) : Option Layer := do
  let (layer, rest) ← document? (← tokens? text)
  if rest.all (· == .documentEnd) then return layer else none

end ContentProjection.Settings.Yaml
