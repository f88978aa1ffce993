import ContentProjection.Store.Selection
import ContentProjection.Web.Parameters
import ContentProjection.Web.Response
import ContentProjection.Web.Route
import ContentProjection.Web.Target

/-!
# The application

Settings and storage make an application, unless the settings cannot make routes
or the offset is out of range. Its router refuses a base path or a site with a
segment that starts like a capture of an older form. A request is answered by
the call that its route, its captured segments and its query make; a head
request is answered like a get request, without the body.
-/
namespace ContentProjection

/-- Why settings make no application. -/
inductive SetupFault where
  | unreadableContent (path : String)
  | invalidContent (path : String)
  | routes (reason : RouteFault)
  | offsetOutOfRange (minutes : Int)
  deriving DecidableEq, Repr

namespace SetupFault

def message : SetupFault → String
  | unreadableContent path => "failed to read content fixture " ++ path
  | invalidContent path => "failed to load content fixture " ++ path
  | routes _ => "invalid content API route settings"
  | offsetOutOfRange minutes => "utc_offset_minutes out of range: " ++ toString minutes

/-- The message with its reason, where the reason is one of this program's own. -/
def fullMessage (fault : SetupFault) : String :=
  match fault with
  | routes reason => fault.message ++ ": " ++ reason.message
  | _ => fault.message

end SetupFault

structure Application where
  settings : ContentSettings
  service : Service (Except Fault)

structure Request where
  method : String
  target : Target
  deriving DecidableEq, Repr

namespace Request

/-- A method is a non-empty word of letters, digits and some marks. -/
def isMethod (s : String) : Bool :=
  !s.isEmpty && s.toList.all fun c => c.isAlphanum || "!#$%&'*+-.^_|~".toList.contains c
    || c.toNat = 0x60

def ofText? (method target : String) : Option Request :=
  if isMethod method then (Target.ofText? target).map fun t => ⟨method, t⟩ else none

end Request

/-- The routes of an application whose words no router mistakes for captures. -/
structure Router where
  application : Application
  routes : List Route

namespace Endpoint

/-- The call an endpoint makes of the captured texts and the query. -/
def call (endpoint : Endpoint) (site : String) (bounds : ParamBounds)
    (captured : String → String) (pairs : QueryPairs) : Call :=
  let list := pairs.listOptions bounds
  let lookup := pairs.lookupOptions bounds
  let sku (joined : Bool) : String :=
    if joined then captured "id" ++ "/" ++ captured "sku2" else captured "id"
  match endpoint with
  | ideas => .ideas pairs.ideaScope list
  | typeListing contentType => .listContent (some site) contentType list
  | typeItem contentType => .getContent contentType (captured "id") lookup
  | contributorContent => .contributorContent (captured "id") list
  | vocabularyListing vocabulary => .listTerms vocabulary list
  | vocabularyItem vocabulary => .getTerm vocabulary (captured "id") lookup
  | vocabularyContent vocabulary => .termContent vocabulary (captured "id") list
  | productContent joined => .productContent (sku joined) list
  | productCount joined => .productContentCount (sku joined) list.published
  | siteListing => .listContent (some site) (captured "content_type") list
  | siteItem => .getContent (captured "content_type") (captured "id") lookup
  | brandListing => .listContent (some (captured "brand")) (captured "content_type") list
  | brandItem => .getContent (captured "content_type") (captured "id") lookup

end Endpoint

namespace Application

def ofStorage (settings : ContentSettings) (storage : Storage (Except Fault)) :
    Except SetupFault Application :=
  match settings.routeFault? with
  | some reason => .error (.routes reason)
  | none =>
    match Calendar.Offset.ofMinutes? settings.utcOffsetMinutes with
    | none => .error (.offsetOutOfRange settings.utcOffsetMinutes)
    | some offset => .ok ⟨settings, ⟨storage, offset, settings.policy⟩⟩

/-- The store that the settings name: the dump read from a file, or an empty one. -/
def loadStore (settings : ContentSettings) (content : Option String) :
    Except SetupFault Store :=
  match settings.fixtures with
  | none => .ok (Store.ofDump Dump.empty settings.publicBaseUrl)
  | some path =>
    match content with
    | none => .error (.unreadableContent path)
    | some text =>
      match Dump.ofText? text with
      | none => .error (.invalidContent path)
      | some dump => .ok (Store.ofDump dump settings.publicBaseUrl)

/-- The application over the store that the settings name. -/
def init (settings : ContentSettings) (content : Option String) :
    Except SetupFault Application := do
  ofStorage settings (← loadStore settings content).storage

/-- The router, `none` when a word of its routes is reserved. -/
def router? (a : Application) : Option Router :=
  let routes := a.settings.routes
  if routes.any fun route => route.template.any Route.isReserved then none else some ⟨a, routes⟩

end Application

namespace Router

/-- Captured segments as text, or the name of the first that is not UTF-8. -/
def decodeCaptures : List (String × String) → Except String (List (String × String))
  | [] => .ok []
  | (name, raw) :: rest =>
    match Text.Percent.segment? raw.toList with
    | none => .error name
    | some text => (decodeCaptures rest).map fun decoded => (name, text) :: decoded

/-- The call behind a route and a target, or the name of a capture that is not UTF-8. -/
def callOf (r : Router) (route : Route) (target : Target) : Except String Call := do
  let decoded ← decodeCaptures (Route.captures route.template (Route.segmentsOf target.path))
  let captured (name : String) : String := (decoded.lookup name).getD ""
  return route.endpoint.call r.application.settings.site r.application.settings.paramBounds
    captured (QueryPairs.ofQuery target.query)

/-- The answer to a get request on a route, and the schema cache after it. -/
def serve (r : Router) (cache : SchemaCache) (route : Route) (target : Target) :
    Response × SchemaCache :=
  match r.callOf route target with
  | .error name => (.invalidCapture name, cache)
  | .ok call =>
    match r.application.service.step cache call with
    | (.ok answer, cache') => (answer.response call, cache')
    | (.error fault, cache') => (.ofFault fault, cache')

def respond (r : Router) (cache : SchemaCache) (request : Request) : Response × SchemaCache :=
  let head := request.method == "HEAD"
  let finish (answer : Response × SchemaCache) : Response × SchemaCache :=
    if head then (answer.1.withoutBody, answer.2) else answer
  match Route.find? r.routes request.target.path with
  | none => finish (.ofFault .notFound, cache)
  | some route =>
    if head || request.method == "GET" then finish (r.serve cache route request.target)
    else (.methodNotAllowed, cache)

/-- The answer to a line with a method and a target. -/
def answerLine (r : Router) (cache : SchemaCache) (line : String) : String × SchemaCache :=
  let request? := do
    let (method, target) ← Text.splitFirst? ' ' (Text.trim line.toList)
    Request.ofText? (String.ofList method) (String.ofList target)
  match request? with
  | none => (Response.invalidRequest.text, cache)
  | some request =>
    let (response, cache') := r.respond cache request
    (response.text, cache')

end Router
end ContentProjection
