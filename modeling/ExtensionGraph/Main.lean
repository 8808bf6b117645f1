import ExtensionGraph.CommandLine.Session

/-!
# The program

The outer layer of the command line: it reads arguments, files and variables, prints what a
session leaves behind, and keeps a run going until its standard input ends.

## Main definitions

* `main` — the program.
-/

namespace ExtensionGraph.CommandLine

/-- What stands at a path. -/
def fileAt (path : String) : IO File := do
  try
    return .content (← IO.FS.readBinFile path)
  catch
    | .noFileOrDirectory .. => return .missing
    | .inappropriateType .. => return .directory
    | e => return .unreadable e.toString

/-- The values of the variables that are set. -/
def environment : IO (List (String × String)) := do
  let values ← variableNames.mapM fun name => do return (← IO.getEnv name).map (name, ·)
  return values.filterMap id

/-- An event on one line. -/
def eventLine (json : Bool) (e : LogEvent) : String :=
  let entry := e.entry
  let fields := Json.Object.ofList entry.fields
  let level := entry.level.name.toUpper
  if json then
    (Json.Value.object (Json.Object.ofList [("level", .string level),
      ("fields", .object (fields.insert "message" (.string entry.message)))])).compact
  else
    " ".intercalate ([level, entry.message] ++
      fields.map fun f => f.1 ++ "=" ++ f.2.compact)

/-- Prints the events of an outcome that were not printed before, and then its texts. -/
def report (o : Outcome) (printed : List String) : IO UInt32 := do
  for line in printed.foldl List.erase (o.log.map (eventLine o.logJson)) do
    IO.println line
  IO.print o.stdout
  IO.eprint o.stderr
  return o.exit.toUInt32

/-- Starts a graph, keeps it going until the standard input ends, and closes it. -/
def keepRunning (c : Config) (path name : String) (i : Inputs) : IO UInt32 := do
  match begin c path name i with
  | (a, .error r) => report (outcome c i a (.error r)) []
  | (a, .ok ()) =>
    let lines := (outcome c i a (.ok ())).log.map (eventLine c.logJson)
    for line in lines do
      IO.println line
    let _ ← (← IO.getStdin).readToEnd
    let (a, result) := finish a i.graphId
    report (outcome c i a result) lines

/-- Does what the arguments ask for. -/
def program (args : List String) : IO UInt32 := do
  match read args with
  | .error stop => report (stopped stop) []
  | .ok inv =>
    let config ← inv.config.mapM fileAt
    let inputs : Inputs := ⟨config, ← fileAt inv.command.graph, ← environment, "1"⟩
    match settings inv inputs, inv.command with
    | .ok c, .run path _ name => keepRunning c path name inputs
    | _, _ => report (execute inv inputs) []

end ExtensionGraph.CommandLine

/-- The program. -/
def main (args : List String) : IO UInt32 := ExtensionGraph.CommandLine.program args
