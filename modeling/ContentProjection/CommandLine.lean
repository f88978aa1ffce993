import ContentProjection.Settings.Server

/-!
# The command line

Options stand before the command; arguments are read from the left, and the
first that asks for the version or for help, or that is wrong, settles the
matter. An option with a value takes it from its own argument or from the next
one, which must not look like an option. Only the verbosity may be asked for
more than once.
-/
namespace ContentProjection.CommandLine

inductive Command where
  | run | check
  deriving DecidableEq, Repr

structure Invocation where
  configPath : Option String
  overrides : Overrides
  printsSettings : Bool
  command : Command
  deriving DecidableEq, Repr

/-- What a command line asks for. -/
inductive Intent where
  | version
  | help
  | invoke (invocation : Invocation)
  deriving DecidableEq, Repr

inductive Flag where
  | printSettings | verbose | version | help
  deriving DecidableEq, Repr

/-- An option that takes a value. -/
inductive Valued where
  | configPath | portNumber | fixtures
  deriving DecidableEq, Repr

/-- One option in an argument. -/
inductive Switch where
  | flag (flag : Flag)
  /-- The value is in the argument itself, or else the next argument. -/
  | valued (valued : Valued) (attached : Option String)
  | unknown
  deriving DecidableEq, Repr

def longFlags : List (String × Flag) :=
  [("print-config", .printSettings), ("verbose", .verbose), ("version", .version), ("help", .help)]

def longValued : List (String × Valued) :=
  [("config", .configPath), ("port", .portNumber), ("fixtures", .fixtures)]

def shortFlags : List (Char × Flag) := [('v', .verbose), ('V', .version), ('h', .help)]

def shortValued : List (Char × Valued) := [('c', .configPath), ('p', .portNumber)]

/-- The option behind a double hyphen, its value behind an equals sign. -/
def longSwitch (cs : List Char) : Switch :=
  let (name, attached) := match Text.splitFirst? '=' cs with
    | some (name, value) => (String.ofList name, some (String.ofList value))
    | none => (String.ofList cs, none)
  match longFlags.lookup name, longValued.lookup name with
  | some flag, _ => if attached.isSome then .unknown else .flag flag
  | none, some valued => .valued valued attached
  | none, none => .unknown

/-- The value attached to a short option, an equals sign before it dropped. -/
def attachedValue : List Char → Option String
  | [] => none
  | '=' :: value => some (String.ofList value)
  | value => some (String.ofList value)

/-- The options behind a single hyphen; the first that takes a value takes the rest. -/
def shortSwitches : List Char → List Switch
  | [] => []
  | c :: rest =>
    match shortFlags.lookup c, shortValued.lookup c with
    | some flag, _ => .flag flag :: shortSwitches rest
    | none, some valued => [.valued valued (attachedValue rest)]
    | none, none => [.unknown]

inductive Argument where
  | switches (switches : List Switch)
  /-- The double hyphen after which no option stands. -/
  | endOfOptions
  | word (text : String)
  deriving DecidableEq, Repr

def Argument.ofString (s : String) : Argument :=
  match s.toList with
  | ['-', '-'] => endOfOptions
  | '-' :: '-' :: name => switches [longSwitch name]
  | ['-'] => word s
  | '-' :: cs => switches (shortSwitches cs)
  | _ => word s

/-- An argument that can be the value of the option before it. -/
def isValue (s : String) : Bool :=
  match Argument.ofString s with
  | .word _ => true
  | _ => false

/-- A value for an option that has none yet. -/
def once {α : Type} (old : Option α) (value : Option α) : Option (Option α) :=
  if old.isSome then none else value.map some

def path? (value : String) : Option String := if value.isEmpty then none else some value

/-- A signed numeral that is a 16-bit word. -/
def portNumber? (value : String) : Option UInt16 :=
  (Text.Numeral.int64? value.toList).bind Text.Numeral.word16?

namespace Invocation

def initial : Invocation := ⟨none, Overrides.none, false, .run⟩

/-- Sets an option with a value, `none` when it is set already or the value is wrong. -/
def set? (i : Invocation) (valued : Valued) (value : String) : Option Invocation :=
  match valued with
  | .configPath => (once i.configPath (path? value)).map fun path => { i with configPath := path }
  | .portNumber =>
    (once i.overrides.portNumber (portNumber? value)).map fun number =>
      { i with overrides := { i.overrides with portNumber := number } }
  | .fixtures =>
    (once i.overrides.fixtures (path? value)).map fun path =>
      { i with overrides := { i.overrides with fixtures := path } }

def moreVerbose (i : Invocation) : Invocation :=
  { i with overrides := { i.overrides with verbosity := i.overrides.verbosity + 1 } }

end Invocation

/-- Where the reading of one argument ends. -/
inductive Progress where
  | wrong
  | settled (intent : Intent)
  | next (soFar : Invocation)
  /-- The next argument is the value of an option. -/
  | awaiting (soFar : Invocation) (valued : Valued)
  deriving DecidableEq, Repr

def advance (i : Invocation) : List Switch → Progress
  | [] => .next i
  | .unknown :: _ => .wrong
  | .flag .version :: _ => .settled .version
  | .flag .help :: _ => .settled .help
  | .flag .verbose :: rest => advance i.moreVerbose rest
  | .flag .printSettings :: rest =>
    if i.printsSettings then .wrong else advance { i with printsSettings := true } rest
  | .valued valued none :: _ => .awaiting i valued
  | .valued valued (some value) :: rest =>
    match i.set? valued value with
    | some i => advance i rest
    | none => .wrong

def commands : List (String × Command) := [("run", .run), ("check", .check)]

/-- What follows a command: nothing, or a request for help. -/
def afterCommand? (i : Invocation) : List String → Option Intent
  | [] => some (.invoke i)
  | argument :: rest =>
    match Argument.ofString argument with
    | .endOfOptions => if rest.isEmpty then some (.invoke i) else none
    | .switches (.flag .help :: _) => some .help
    | _ => none

/-- Help may be asked for one command. -/
def helpOn? : List String → Option Intent
  | [] => some .help
  | [topic] => if topic = "help" || (commands.lookup topic).isSome then some .help else none
  | _ => none

/-- A word that is not the value of an option is a command. -/
def command? (i : Invocation) (word : String) (rest : List String) : Option Intent :=
  if word = "help" then helpOn? rest
  else (commands.lookup word).bind fun command => afterCommand? { i with command } rest

/-- What arguments ask for after those read so far, `none` when they are wrong. -/
def read? (i : Invocation) : List String → Option Intent
  | [] => some (.invoke i)
  | argument :: rest =>
    match Argument.ofString argument with
    | .endOfOptions => if rest.isEmpty then some (.invoke i) else none
    | .word word => command? i word rest
    | .switches switches =>
      match advance i switches with
      | .wrong => none
      | .settled intent => some intent
      | .next i => read? i rest
      | .awaiting i valued =>
        match rest with
        | [] => none
        | value :: rest =>
          if isValue value then (i.set? valued value).bind fun i => read? i rest else none

/-- What a command line asks for, `none` when it is wrong. -/
def intent? (arguments : List String) : Option Intent := read? Invocation.initial arguments

end ContentProjection.CommandLine
