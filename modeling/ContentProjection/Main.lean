import ContentProjection.CommandLine.Execution

/-!
# The program

Files, environment and standard streams around the command line. A server reads
one request a line from standard input, a method and a target with a blank
between them, and writes the response to standard output, a blank line after it.
-/
namespace ContentProjection

/-- The text of a file, `none` when it is no file or cannot be read. -/
def readFile? (path : String) : IO (Option String) := do
  try
    return some (← IO.FS.readFile path)
  catch _ => return none

/-- The variables of this process, none where the system does not list them. -/
def processEnvironment : IO (List (String × String)) := do
  return ((← readFile? "/proc/self/environ").map Settings.Environment.ofBlock).getD []

/-- Answers requests until the input ends. -/
partial def serve (router : Router) (cache : SchemaCache) (input output : IO.FS.Stream) :
    IO Unit := do
  let line ← input.getLine
  if line.isEmpty then return ()
  let (text, cache') := router.answerLine cache line
  output.putStrLn text
  output.flush
  serve router cache' input output

end ContentProjection

open ContentProjection

def main (arguments : List String) : IO UInt32 := do
  match ← CommandLine.execute readFile? (← processEnvironment) arguments with
  | .finished report =>
    IO.print report.output
    if let some error := report.error then IO.eprintln ("Error: " ++ error)
    return UInt32.ofNat report.exitCode
  | .serving settings router =>
    IO.eprintln ("Content for " ++ settings.address.text)
    serve router SchemaCache.empty (← IO.getStdin) (← IO.getStdout)
    return 0
