import ContentProjection.Settings.Content
import ContentProjection.Settings.Environment
import ContentProjection.Settings.SocketAddress
import ContentProjection.Settings.Yaml.Document

/-!
# Settings of the server

Where to listen, how to log, and the settings of the content service. They are
read from layers: a file under the environment, the defaults under both. What
the command line gives is set last. A file that cannot be read, an unknown name
or a value of the wrong kind makes them unreadable as a whole; a torn text in the
environment ends the attempt before anything else is looked at.
-/
namespace ContentProjection

inductive LogFormat where
  | text | json
  deriving DecidableEq, Repr

namespace LogFormat

def name : LogFormat → String
  | text => "text"
  | json => "json"

def ofName? (s : String) : Option LogFormat :=
  if s = "text" then some text else if s = "json" then some json else none

/-- A format is given by its name, or by a group whose first name is its name without a
value. -/
def ofLayer? : Layer → Option LogFormat
  | .text name => ofName? name
  | .group entries =>
    match Layer.first? entries with
    | some (name, .null) => ofName? name
    | _ => none
  | _ => none

end LogFormat

structure LogSettings where
  level : String
  format : LogFormat
  deriving DecidableEq, Repr

namespace LogSettings

def default : LogSettings := ⟨"info", .text⟩

def ofLayer? (layer : Layer) : Option LogSettings := do
  match ← layer.record? ["level", "format"] with
  | [level, format] =>
    return ⟨← Layer.setting? default.level Layer.text? level,
      ← Layer.setting? default.format LogFormat.ofLayer? format⟩
  | _ => none

def toJson (l : LogSettings) : Json :=
  .obj [("level", .str l.level), ("format", .str l.format.name)]

end LogSettings

structure ServerSettings where
  address : SocketAddress
  logging : LogSettings
  content : ContentSettings
  deriving DecidableEq, Repr

/-- What the command line sets. -/
structure Overrides where
  portNumber : Option UInt16
  fixtures : Option String
  /-- How many times more detailed logging was asked for. -/
  verbosity : Nat
  deriving DecidableEq, Repr

def Overrides.none : Overrides := ⟨Option.none, Option.none, 0⟩

/-- The logging level that a verbosity asks for, if it asks for one. -/
def Overrides.level? (o : Overrides) : Option String :=
  match o.verbosity with
  | 0 => Option.none
  | 1 => some "info"
  | 2 => some "debug"
  | _ => some "trace"

/-- Why there are no settings. -/
inductive LoadFault where
  | unreadable
  | torn
  deriving DecidableEq, Repr

namespace ServerSettings

def defaultAddress : SocketAddress := ⟨.v4 127 0 0 1, 8087⟩

def default : ServerSettings := ⟨defaultAddress, LogSettings.default, ContentSettings.default⟩

def addressOfLayer? (layer : Layer) : Option SocketAddress := do
  match ← layer.record? ["bind_addr"] with
  | [address] =>
    Layer.setting? defaultAddress (fun given => given.text?.bind SocketAddress.ofString?) address
  | _ => none

def ofLayer? (layer : Layer) : Option ServerSettings := do
  match ← layer.record? ["server", "logging", "content_api"] with
  | [server, logging, content] =>
    return ⟨← Layer.setting? defaultAddress addressOfLayer? server,
      ← Layer.setting? LogSettings.default LogSettings.ofLayer? logging,
      ← Layer.setting? ContentSettings.default ContentSettings.ofLayer? content⟩
  | _ => none

/-- The layer of a settings file, empty without a file. -/
def fileLayer? (file : Option String) : Option Layer :=
  match file with
  | none => some Layer.empty
  | some text => Settings.Yaml.layer? text

/-- The settings of a file, if there is one, under those of the environment. -/
def load (file : Option String) (environment : List (String × String)) :
    Except LoadFault ServerSettings :=
  match Settings.Environment.layer? environment with
  | none => .error .torn
  | some upper =>
    match (fileLayer? file).bind fun lower => ofLayer? (lower.under upper) with
    | none => .error .unreadable
    | some settings => .ok settings

def override (s : ServerSettings) (o : Overrides) : ServerSettings where
  address := (o.portNumber.map s.address.withPortNumber).getD s.address
  logging := { s.logging with level := o.level?.getD s.logging.level }
  content := { s.content with fixtures := o.fixtures.or s.content.fixtures }

def toJson (s : ServerSettings) : Json :=
  .obj [("server", .obj [("bind_addr", .str s.address.text)]), ("logging", s.logging.toJson),
    ("content_api", s.content.toJson)]

def text (s : ServerSettings) : String := s.toJson.pretty

end ServerSettings
end ContentProjection
