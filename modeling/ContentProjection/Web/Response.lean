import ContentProjection.Service.Session

/-!
# Responses

Answers are compact JSON with a tag by which caches drop them: the entity of a
lookup, the kind of a listing or count. A failure is a JSON object with the
message for the client, which says nothing of what went wrong inside.
-/
namespace ContentProjection

structure Response where
  status : Nat
  contentType : Option String
  cacheTags : Option String
  allow : Option String
  body : String
  deriving DecidableEq, Repr

namespace Fault

def status : Fault → Nat
  | notFound => 404
  | forbidden => 403
  | internal _ => 500
  | storage _ => 500

def publicMessage : Fault → String
  | notFound => notFound.message
  | forbidden => forbidden.message
  | internal _ => "Internal server error."
  | storage _ => "Internal server error."

end Fault

namespace Response

def jsonType : String := "application/json"

def ofFault (fault : Fault) : Response :=
  ⟨fault.status, some jsonType, none, none,
    (Json.obj [("error", .str fault.publicMessage)]).compact⟩

def tagged (tag : String) (body : Json) : Response :=
  ⟨200, some jsonType, some tag, none, body.compact⟩

/-- The request is not one. -/
def invalidRequest : Response := ⟨400, none, none, none, ""⟩

/-- The route exists, the method does not. -/
def methodNotAllowed : Response := ⟨405, none, none, some "GET,HEAD", ""⟩

/-- A captured segment is not UTF-8. The marks around its name have code point 0x60. -/
def invalidCapture (name : String) : Response :=
  let mark := String.ofList [Char.ofNat 0x60]
  ⟨400, some "text/plain; charset=utf-8", none, none,
    "Invalid URL: Invalid UTF-8 in " ++ mark ++ name ++ mark⟩

def headers (r : Response) : List (String × String) :=
  [("content-type", r.contentType), ("cache-tags", r.cacheTags), ("allow", r.allow)].filterMap
    fun (name, value) => value.map fun text => (name, text)

/-- Status, headers and body as lines, the body after a blank one. -/
def text (r : Response) : String :=
  String.intercalate "\n"
    (toString r.status :: (r.headers.map fun header => header.1 ++ ": " ++ header.2)
      ++ ["", r.body, ""])

def withoutBody (r : Response) : Response := { r with body := "" }

end Response

/-- The tag of the list that a call reads. -/
def Call.listTag : Call → String
  | .listTerms _ _ => "taxonomy_term"
  | _ => "node_list"

def Answer.response (call : Call) : Answer → Response
  | .page listed => .tagged call.listTag listed.toJson
  | .entity view =>
    .tagged (view.kind.name ++ ":" ++ toString view.id.toNat) (.obj view.body)
  | .count total => .tagged call.listTag (.obj [("count", .int total)])

end ContentProjection
