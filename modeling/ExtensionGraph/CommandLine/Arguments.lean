/-!
# Arguments of the command line

Two commands, `run` and `validate`, take a graph file. The options for the configuration file
and for verbose output may stand in front of the command or behind it; the one behind it
counts. No option may be given twice in the same place.

## Main definitions

* `ExtensionGraph.CommandLine.Invocation` — what is to be done.
* `ExtensionGraph.CommandLine.Misuse`, `ExtensionGraph.CommandLine.Misuse.message` — why
  arguments are refused.
* `ExtensionGraph.CommandLine.read` — reads the arguments.
-/

namespace ExtensionGraph.CommandLine

/-- The commands. -/
inductive Command where
  | run (graph : String) (appUri : Option String) (name : String)
  | validate (graph : String)
deriving DecidableEq, Inhabited

/-- The file of the graph of a command. -/
def Command.graph : Command → String
  | .run graph _ _ => graph
  | .validate graph => graph

/-- What is to be done. -/
structure Invocation where
  command : Command
  config : Option String
  verbose : Bool
deriving DecidableEq, Inhabited

/-- Where an argument stands. -/
inductive Place where
  | top
  | run
  | validate
deriving DecidableEq, Inhabited

/-- The options. -/
inductive Switch where
  | config
  | verbose
  | appUri
  | name
  | help
  | version
deriving DecidableEq, Inhabited

/-- How an option is written. -/
def Switch.text : Switch → String
  | .config => "--config <CONFIG>"
  | .verbose => "--verbose"
  | .appUri => "--app-uri <APP_URI>"
  | .name => "--name <NAME>"
  | .help => "--help"
  | .version => "--version"

/-- How the file of a graph is asked for. -/
def graphText : String := "<GRAPH>"

/-- Whether an option has a value. -/
def Switch.hasValue : Switch → Bool
  | .config | .appUri | .name => true
  | _ => false

/-- The option with a long name. -/
def Place.long? (p : Place) : String → Option Switch
  | "config" => some .config
  | "verbose" => some .verbose
  | "help" => some .help
  | "version" => if p = .top then some .version else none
  | "app-uri" => if p = .run then some .appUri else none
  | "name" => if p = .run then some .name else none
  | _ => none

/-- The option with a letter. -/
def Place.short? (p : Place) : Char → Option Switch
  | 'c' => some .config
  | 'v' => some .verbose
  | 'h' => some .help
  | 'V' => if p = .top then some .version else none
  | 'n' => if p = .run then some .name else none
  | _ => none

/-- Why arguments are refused. -/
inductive Misuse where
  | noArguments
  | noCommand
  | unknownCommand (name : String)
  | unexpected (place : Place) (argument : String)
  /-- An option that has no value was given one. -/
  | surplusValue (place : Place) (option : Switch) (value : String)
  | repeated (place : Place) (option : Switch)
  /-- A value is missing or empty; `what` tells where it belongs. -/
  | noValue (what : String)
  | noGraph (place : Place)
deriving DecidableEq, Inhabited

/-- How the arguments in a place are written. -/
def Place.usage : Place → String
  | .top => "\n\nUsage: ten [OPTIONS] <COMMAND>"
  | .run => "\n\nUsage: ten run [OPTIONS] " ++ graphText
  | .validate => "\n\nUsage: ten validate [OPTIONS] " ++ graphText

/-- How a command is written without options. -/
def Place.bareUsage : Place → String
  | .top => "\n\nUsage: ten <COMMAND>"
  | .run => "\n\nUsage: ten run " ++ graphText
  | .validate => "\n\nUsage: ten validate " ++ graphText

/-- The advice on an unknown option: behind two dashes it can be the file of a graph. -/
def Place.advice (p : Place) (argument : String) : String :=
  if p = .top ∨ ¬ argument.startsWith "-" then ""
  else "\n\n  tip: to pass '" ++ argument ++ "' as a value, use '-- " ++ argument ++ "'"

/-- The wording of a misuse. -/
def Misuse.message : Misuse → String
  | .noArguments | .noCommand =>
    "'ten' requires a subcommand but one was not provided\n  [subcommands: run, validate, help]" ++
      Place.top.usage
  | .unknownCommand name => "unrecognized subcommand '" ++ name ++ "'" ++ Place.top.usage
  | .unexpected p argument =>
    "unexpected argument '" ++ argument ++ "' found" ++ p.advice argument ++ p.usage
  | .surplusValue p o value =>
    "unexpected value '" ++ value ++ "' for '" ++ o.text ++ "' found; no more were expected" ++
      p.usage
  | .repeated p o => "the argument '" ++ o.text ++ "' cannot be used multiple times" ++ p.usage
  | .noValue what => "a value is required for '" ++ what ++ "' but none was supplied"
  | .noGraph p =>
    "the following required arguments were not provided:\n  " ++ graphText ++ p.bareUsage

/-- What is printed on a misuse. -/
def Misuse.report (m : Misuse) : String :=
  "error: " ++ m.message ++ "\n\nFor more information, try '--help'.\n"

/-- Why nothing is to be done. -/
inductive Stop where
  | help
  | version
  | misuse (cause : Misuse)
deriving DecidableEq, Inhabited

/-- What was given in one place. -/
structure Given where
  config : Option String := none
  verbose : Bool := false
  appUri : Option String := none
  name : Option String := none
  graph : Option String := none

/-- Takes a value that must not be there yet. -/
def once (old : Option String) (value : String) (again : Misuse) :
    Except Stop (Option String) :=
  match old with
  | some _ => .error (.misuse again)
  | none => .ok (some value)

/-- Takes an option with its value. -/
def Given.take (p : Place) (g : Given) (value : String) (o : Switch) : Except Stop Given :=
  match o with
  | .config => do
    if value = "" then .error (.misuse (.noValue o.text))
    .ok { g with config := ← once g.config value (.repeated p o) }
  | .appUri => do .ok { g with appUri := ← once g.appUri value (.repeated p o) }
  | .name => do .ok { g with name := ← once g.name value (.repeated p o) }
  | o => .error (.misuse (.surplusValue p o value))

/-- Takes an option without a value. -/
def Given.mark (p : Place) (g : Given) (o : Switch) : Except Stop Given :=
  match o with
  | .verbose =>
    if g.verbose then .error (.misuse (.repeated p o)) else .ok { g with verbose := true }
  | .help => .error .help
  | .version => .error .version
  | o => .error (.misuse (.noValue o.text))

/-- An argument that is no option: the file of a graph, whose name must not be empty. -/
def Given.place (p : Place) (g : Given) (value : String) : Except Stop Given := do
  let graph ← once g.graph value (.unexpected p value)
  if value = "" then .error (.misuse (.noValue graphText))
  .ok { g with graph }

/-- Takes an option by its long name; without a value of its own it may wait for one. -/
def takeLong (p : Place) (g : Given) (cs : List Char) : Except Stop (Given × Option Switch) :=
  let name := String.ofList (cs.takeWhile (· ≠ '='))
  match p.long? name, cs.dropWhile (· ≠ '=') with
  | none, _ => .error (.misuse (.unexpected p ("--" ++ name)))
  | some o, [] => if o.hasValue then .ok (g, some o) else do .ok (← g.mark p o, none)
  | some o, _ :: value => do .ok (← g.take p (String.ofList value) o, none)

/-- Takes options by their letters; the last one may wait for a value. -/
def takeShort (p : Place) (g : Given) : List Char → Except Stop (Given × Option Switch)
  | [] => .ok (g, none)
  | c :: cs =>
    match p.short? c with
    | none => .error (.misuse (.unexpected p (String.ofList ['-', c])))
    | some o =>
      if o.hasValue then
        match cs with
        | [] => .ok (g, some o)
        | '=' :: value => do .ok (← g.take p (String.ofList value) o, none)
        | value => do .ok (← g.take p (String.ofList value) o, none)
      else do takeShort p (← g.mark p o) cs

/-- Reads arguments that are not looked at for options. -/
def takeRest (p : Place) (g : Given) (args : List String) : Except Stop Given :=
  args.foldlM (Given.place p) g

/-- The arguments of a command. `waiting` is an option that waits for its value. -/
def readCommand (p : Place) (g : Given) (waiting : Option Switch) :
    List String → Except Stop Given
  | [] =>
    match waiting with
    | some o => .error (.misuse (.noValue o.text))
    | none => .ok g
  | arg :: rest =>
    match arg.toList, waiting with
    | ['-', '-'], none => takeRest p g rest
    | '-' :: '-' :: cs, none => do
      let (g, waiting) ← takeLong p g cs
      readCommand p g waiting rest
    | '-' :: c :: cs, none => do
      let (g, waiting) ← takeShort p g (c :: cs)
      readCommand p g waiting rest
    | '-' :: _ :: _, some o => .error (.misuse (.noValue o.text))
    | _, some o => do readCommand p (← g.take p arg o) none rest
    | _, none => do readCommand p (← g.place p arg) none rest

/-- What is to be done, given the arguments in front of the command and behind it. -/
def invocation (p : Place) (top g : Given) : Except Stop Invocation :=
  match g.graph with
  | none => .error (.misuse (.noGraph p))
  | some graph =>
    let command := if p = .run then Command.run graph g.appUri (g.name.getD "")
      else .validate graph
    .ok ⟨command, g.config.or top.config, g.verbose || top.verbose⟩

/-- Help on a command, or on all of them. -/
def helpOn : List String → Stop
  | [] | ["run"] | ["validate"] | ["help"] => .help
  | "run" :: extra :: _ | "validate" :: extra :: _ | "help" :: extra :: _ =>
    .misuse (.unknownCommand extra)
  | topic :: _ => .misuse (.unknownCommand topic)

/-- The arguments in front of the command, and then the others. -/
def readTop (g : Given) (waiting : Option Switch) : List String → Except Stop Invocation
  | [] => .error (.misuse (match waiting with
    | some o => .noValue o.text
    | none => .noCommand))
  | arg :: rest =>
    match arg.toList, waiting with
    | ['-', '-'], none => .error (.misuse (match rest with
      | [] => .noCommand
      | name :: _ => .unexpected .top name))
    | '-' :: '-' :: cs, none => do
      let (g, waiting) ← takeLong .top g cs
      readTop g waiting rest
    | '-' :: c :: cs, none => do
      let (g, waiting) ← takeShort .top g (c :: cs)
      readTop g waiting rest
    | '-' :: _ :: _, some o => .error (.misuse (.noValue o.text))
    | _, some o => do readTop (← g.take .top arg o) none rest
    | _, none =>
      match arg with
      | "run" => do invocation .run g (← readCommand .run {} none rest)
      | "validate" => do invocation .validate g (← readCommand .validate {} none rest)
      | "help" => .error (helpOn rest)
      | name => .error (.misuse (.unknownCommand name))

/-- Reads the arguments of the command line. -/
def read (args : List String) : Except Stop Invocation :=
  if args.isEmpty then .error (.misuse .noArguments) else readTop {} none args

end ExtensionGraph.CommandLine
