import ExtensionGraph.App
import ExtensionGraph.Builtin
import ExtensionGraph.CommandLine.Arguments
import ExtensionGraph.LogFilter

/-!
# Sessions of the command line

A session reads the configuration and the graph. `validate` prints the tables that the graph
would start with; `run` starts the graph and runs it until it is interrupted or closes on its
own. A failure is reported with its causes.

## Main definitions

* `ExtensionGraph.CommandLine.Inputs` — the files and variables of a session.
* `ExtensionGraph.CommandLine.variableNames` — the variables that a session looks at.
* `ExtensionGraph.CommandLine.Outcome` — what a session leaves behind.
* `ExtensionGraph.CommandLine.summary` — the tables of a graph for people.
* `ExtensionGraph.CommandLine.begin`, `ExtensionGraph.CommandLine.finish` — the two halves of
  `run`.
* `ExtensionGraph.CommandLine.execute` — a whole session.
-/

namespace ExtensionGraph.CommandLine

/-! ## Reports of failures -/

/-- A failure: what it is, and its causes from the nearest on. -/
structure Report where
  head : String
  causes : List String
deriving DecidableEq, Inhabited

namespace Report

/-- What an error goes back to. -/
def origins : Error → List String
  | .file fault => [fault.message]
  | .json _ text => [text]
  | .toml text => [text ++ "\n"]
  | _ => []

/-- The report of an error. -/
def ofError (e : Error) : Report := ⟨e.message, origins e⟩

/-- The report of an error that made something fail. -/
def inContext (what : String) (e : Error) : Report := ⟨what, e.message :: origins e⟩

/-- The lines of a cause: the first one behind its number, the others below it. -/
def causeLines (label indent cause : String) : String :=
  "\n" ++ label ++ ("\n" ++ indent).intercalate (cause.splitOn "\n")

/-- The causes of a failure, with numbers if there are several. -/
def causesText (causes : List String) : String :=
  match causes with
  | [cause] => causeLines "    " "    " cause
  | causes => "".intercalate (causes.zipIdx.map fun (cause, n) =>
      let number := toString n
      causeLines (String.ofList (List.replicate (5 - number.length) ' ') ++ number ++ ": ")
        "       " cause)

/-- The text of a report. -/
def text (r : Report) : String :=
  "Error: " ++ r.head ++
    (if r.causes.isEmpty then "" else "\n\nCaused by:" ++ causesText r.causes) ++ "\n"

end Report

/-! ## Sessions -/

/-- The files and variables of a session. -/
structure Inputs where
  config : Option File
  graph : File
  values : List (String × String)
  /-- The id of the graph that is run. -/
  graphId : String

/-- The variables that a session looks at. -/
def variableNames : List String :=
  ["TEN_APP_URI", "TEN_APP_BASE_DIR", "TEN_LOG_LEVEL", "TEN_LOG_JSON", "TEN_CLOSE_TIMEOUT_MS",
    "RUST_LOG"]

/-- The value of a variable. -/
def Inputs.lookup (i : Inputs) (name : String) : Option String := i.values.lookup name

/-- What a session leaves behind. -/
structure Outcome where
  exit : Nat
  stdout : String
  stderr : String
  /-- The events that pass the log filter. -/
  log : List LogEvent
  /-- Whether the log is written in JSON. -/
  logJson : Bool

/-- The settings of a session. -/
def settings (inv : Invocation) (i : Inputs) : Except Report Config := do
  let c ← (Config.load i.config i.lookup).mapError
    (Report.inContext "Failed to load runtime config")
  let c := if inv.verbose then { c with logLevel := "debug" } else c
  .ok (match inv.command with
    | .run _ (some uri) _ => { c with uri }
    | _ => c)

/-- The name of the program. -/
def programName : String := "ten"

/-- The log filter that a variable gives, if it can be read. -/
def chosenFilter (i : Inputs) : Option LogFilter := (i.lookup "RUST_LOG").bind LogFilter.ofText?

/-- The log filter of a session: that of the variable comes before that of the settings. -/
def filter (c : Config) (i : Inputs) : LogFilter :=
  (chosenFilter i).getD (.ofTextLenient c.logLevel)

/-- What is said about the filter of the settings when it is used. -/
def filterNotices (c : Config) (i : Inputs) : String :=
  match chosenFilter i with
  | some _ => ""
  | none => LogFilter.notices c.logLevel

/-- A group in a summary. -/
def groupSummary (s : StartGraph) (g : GroupInfo) : Json.Value :=
  let member (m : Member) : Json.Value :=
    .object (Json.Object.ofList [("name", .string m.name), ("addon", .string m.addon)])
  .object (Json.Object.ofList
    [("name", .string g.name), ("addon", .string g.addon), ("app", .string g.loc.app),
      ("extensions", .array ((s.members g.loc.app s.graph g.name).map member))])

/-- The tables of a graph for people. -/
def summary (c : Config) (s : StartGraph) : Json.Value :=
  .object (Json.Object.ofList
    [("app_uri", .string c.uri),
      ("extension_groups", .array (s.topology.groups.map (groupSummary s))),
      ("local_extension_groups", .ofNat (s.groupCount c.uri)),
      ("routes", .ofNat s.topology.routes.size)])

/-- The command `validate`. -/
def validate (c : Config) (path : String) (i : Inputs) : Except Report String := do
  let g ← (GraphDefinition.ofFile i.graph).mapError (Report.inContext ("Invalid graph " ++ path))
  let s ← (StartGraph.ofDefinition g c.uri "validate").mapError Report.ofError
  .ok ((summary c s).pretty ++ "\n")

/-- The first half of `run`: the graph is started and left to itself. A session gets every thread
that it asks for. -/
def begin (c : Config) (path name : String) (i : Inputs) : App × Except Report Unit :=
  let a := { App.create c .builtin .willing with log := Registry.builtinLog }
  match GraphDefinition.ofFile i.graph with
  | .error e => (a, .error (Report.inContext ("Failed to load graph " ++ path) e))
  | .ok g =>
    match a.start i.graphId name g with
    | (a, .error e) => (a.settle, .error (Report.ofError e))
    | (a, .ok ()) => ((a.record (.running i.graphId)).settle, .ok ())

/-- The second half of `run`: the graph has closed on its own, or the session is interrupted;
then the app closes. A call that waits for ever counts as success. -/
def finish (a : App) (graph : String) : App × Except Report Unit :=
  let a := a.record (if a.isOver graph then .graphClosedItself graph else .interrupted)
  match a.close with
  | (a, some (.error e)) => (a.settle, .error (Report.ofError e))
  | (a, _) => (a.settle, .ok ())

/-- Everything that was logged: by the app, by the engines and by the threads. -/
def logged (a : App) : List LogEvent :=
  a.log ++ a.engines.flatMap fun e =>
    e.host.log ++ e.host.workers.flatMap fun w =>
      w.trace.filterMap fun
        | .log e => some e
        | _ => none

/-- How a session ends. -/
def exitOf : Except Report Unit → Nat × String
  | .ok () => (0, "")
  | .error r => (1, r.text)

/-- The outcome of a run. -/
def outcome (c : Config) (i : Inputs) (a : App) (result : Except Report Unit) : Outcome :=
  let (exit, stderr) := exitOf result
  ⟨exit, "", filterNotices c i ++ stderr, (logged a).filter (filter c i).passes, c.logJson⟩

/-- A whole session; a run is interrupted when the graph has come to rest. -/
def execute (inv : Invocation) (i : Inputs) : Outcome :=
  match settings inv i with
  | .error r => ⟨1, "", r.text, [], false⟩
  | .ok c =>
    match inv.command with
    | .validate path =>
      match validate c path i with
      | .ok text => ⟨0, text, filterNotices c i, [], c.logJson⟩
      | .error r => ⟨1, "", filterNotices c i ++ r.text, [], c.logJson⟩
    | .run path _ name =>
      match begin c path name i with
      | (a, .error r) => outcome c i a (.error r)
      | (a, .ok ()) =>
        let (a, result) := finish a i.graphId
        outcome c i a result

/-- What is printed when a version is asked for. -/
def versionText : String := programName ++ " 0.3.0\n"

/-- The lines that are printed when help is asked for, or is needed. -/
def helpLines : List String := [
  "TEN runtime - run extension graphs",
  "",
  "Usage: ten [OPTIONS] <COMMAND>",
  "",
  "Commands:",
  "  run       Start a graph with the builtin addons and run it until Ctrl-C",
  "  validate  Parse a graph and print the topology it would start",
  "  help      Print this message or the help of the given subcommand(s)",
  "",
  "Options:",
  "  -c, --config <CONFIG>  Runtime config file (TOML)",
  "  -v, --verbose          Verbose output",
  "  -h, --help             Print help",
  "  -V, --version          Print version",
  ""]

/-- What is printed when help is asked for. -/
def helpText : String := "\n".intercalate helpLines

/-- The outcome of arguments that ask for nothing to be done. -/
def stopped : Stop → Outcome
  | .help => ⟨0, helpText, "", [], false⟩
  | .version => ⟨0, versionText, "", [], false⟩
  | .misuse .noArguments => ⟨2, "", helpText, [], false⟩
  | .misuse m => ⟨2, "", m.report, [], false⟩

end ExtensionGraph.CommandLine
