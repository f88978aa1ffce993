import ContentProjection.Application
import ContentProjection.CommandLine

/-!
# Running a command line

A run reads at most two files, the settings and the content. It ends with a
report, or with a router that is ready to serve. The first thing that is wrong
ends it: the command line, a settings file that is not there, the settings, and
then what stands in the way of the application. Nothing is reported of a router
that cannot be made, or of torn settings, but an exit code of its own.
-/
namespace ContentProjection.CommandLine

/-- The exit code, the text for the standard output, and what went wrong, if it can be said. -/
structure Report where
  exitCode : Nat
  output : String
  error : Option String
  deriving DecidableEq, Repr

inductive Outcome where
  | finished (report : Report)
  | serving (settings : ServerSettings) (router : Router)

namespace Report

def success (output : String) : Report := ⟨0, output, none⟩

def failure (error : String) : Report := ⟨1, "", some error⟩

def wrongUsage : Report := ⟨2, "", none⟩

/-- The routes hold a word that no router takes, or the settings a torn text. -/
def abandoned : Report := ⟨101, "", none⟩

end Report

def programName : String := "content-api-server"

def versionLine : String := programName ++ " 0.1.0\n"

def usage : String :=
  String.intercalate "\n"
    ["Usage: " ++ programName ++ " [OPTIONS] [COMMAND]", "", "Commands:",
      "  run    Answer requests (default)", "  check  Check settings and content, then exit", "",
      "Options:", "  -c, --config <PATH>    Settings file",
      "  -p, --port <NUMBER>    TCP number to listen on",
      "      --fixtures <PATH>  Content to serve",
      "      --print-config     Print the settings and exit",
      "  -v, --verbose          Log more, may be repeated",
      "  -h, --help             Print this text",
      "  -V, --version          Print the version", ""]

def settingsUnreadable : String := "failed to load configuration"

/-- The application that settings make, or the report that ends the run. -/
def router? (settings : ServerSettings) (content : Option String) : Except Report Router :=
  match Application.init settings.content content with
  | .error fault => .error (.failure fault.message)
  | .ok application =>
    match application.router? with
    | none => .error .abandoned
    | some router => .ok router

def outcomeOf (command : Command) (settings : ServerSettings) (content : Option String) :
    Outcome :=
  match router? settings content, command with
  | .error report, _ => .finished report
  | .ok router, .run => .serving settings router
  | .ok _, .check => .finished (.success ("Configuration is valid\n" ++ settings.text ++ "\n"))

section
variable {m : Type → Type} [Monad m]

/-- A run with readable settings. -/
def proceed (readFile : String → m (Option String)) (invocation : Invocation)
    (loaded : ServerSettings) : m Outcome := do
  let settings := loaded.override invocation.overrides
  if invocation.printsSettings then return .finished (.success (settings.text ++ "\n"))
  let content ← match settings.content.fixtures with
    | none => pure none
    | some path => readFile path
  return outcomeOf invocation.command settings content

/-- A run over the text of the settings file, if one is named. -/
def load (readFile : String → m (Option String)) (environment : List (String × String))
    (invocation : Invocation) (file : Option String) : m Outcome :=
  match ServerSettings.load file environment with
  | .error .unreadable => pure (.finished (.failure settingsUnreadable))
  | .error .torn => pure (.finished .abandoned)
  | .ok settings => proceed readFile invocation settings

def invoke (readFile : String → m (Option String)) (environment : List (String × String))
    (invocation : Invocation) : m Outcome :=
  match invocation.configPath with
  | none => load readFile environment invocation none
  | some path => do
    match ← readFile path with
    | none => return .finished (.failure ("config file does not exist: " ++ path))
    | some text => load readFile environment invocation (some text)

/-- Runs the program on its arguments. -/
def execute (readFile : String → m (Option String)) (environment : List (String × String))
    (arguments : List String) : m Outcome :=
  match intent? arguments with
  | none => pure (.finished .wrongUsage)
  | some .version => pure (.finished (.success versionLine))
  | some .help => pure (.finished (.success usage))
  | some (.invoke invocation) => invoke readFile environment invocation

end

end ContentProjection.CommandLine
