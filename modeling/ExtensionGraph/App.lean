import ExtensionGraph.Config
import ExtensionGraph.Engine.Basic

/-!
# Apps

An app runs any number of graphs with the addons of one registry. It holds the graphs that it
has started until it closes them, or finds that they have closed on their own.

A call that waits lets time pass: every graph makes the moves that it can make. How many it
makes at most is given by `patience`.

## Main definitions

* `ExtensionGraph.App` — apps.
* `ExtensionGraph.App.start`, `ExtensionGraph.App.send` — graphs and messages into them.
* `ExtensionGraph.App.closeGraph`, `ExtensionGraph.App.close` — closing with or without a bound
  on the time.
* `ExtensionGraph.App.waitClosed` — waiting for one graph.
-/

namespace ExtensionGraph

/-- An app with its graphs. -/
structure App where
  info : AppInfo
  registry : Registry
  spawner : Spawner
  /-- How long to wait for a graph to close; for ever if it is not given. -/
  closeTimeout : Option Duration
  /-- Every graph that was ever started. -/
  engines : List Engine
  /-- The ids of the graphs that are held. -/
  held : List String
  log : List LogEvent

/-- How many moves a graph makes at most while somebody waits. -/
def patience : Nat := 100000

namespace App

/-- An app without graphs. -/
def create (config : Config) (registry : Registry) (spawner : Spawner) : App :=
  ⟨⟨config.uri, config.baseDir⟩, registry, spawner, config.closeTimeout, [], [], []⟩

variable (a : App)

/-- Appends to the log. -/
def record (e : LogEvent) : App := { a with log := a.log ++ [e] }

/-- The graph with an id, held or not. -/
def engine? (graph : String) : Option Engine := a.engines.find? (·.graph = graph)

/-- A graph that is held. -/
def held? (graph : String) : Option Engine :=
  if graph ∈ a.held then a.engine? graph else none

/-- Whether a graph has closed. -/
def isClosed (graph : String) : Bool := ((a.engine? graph).map (·.isClosed)).getD true

/-- Whether a graph has closed, or its engine is gone. -/
def isOver (graph : String) : Bool := ((a.engine? graph).map (·.isOver)).getD true

/-- Changes the graph with an id. -/
def modify (graph : String) (f : Engine → Engine) : App :=
  { a with engines := a.engines.map fun e => if e.graph = graph then f e else e }

/-- Lets time pass for every graph. -/
def settle : App := { a with engines := a.engines.map (Engine.settle patience) }

/-- Lets go of graphs that have closed. -/
def retain : App := { a with held := a.held.filter fun graph => !a.isClosed graph }

/-! ## Graphs and messages -/

/-- Starts a graph under a new id. -/
def start (graph name : String) (g : GraphDefinition) : App × Except Error Unit :=
  match StartGraph.ofDefinition g a.info.uri graph with
  | .error e => (a, .error e)
  | .ok s =>
    match Engine.start (.ofStart a.info a.registry a.spawner (s.withName name)) with
    | (e, .error err) => ({ a with engines := a.engines ++ [e] }, .error err)
    | (e, .ok ()) =>
      let a := { a with engines := a.engines ++ [e] }.record (.graphStarting graph name)
      ({ a.retain with held := a.retain.held ++ [graph] }, .ok ())

/-- The ids of the graphs that have not closed, in ascending order. -/
def running : App × List String :=
  let a := a.retain
  (a, a.held.mergeSort fun x y => x ≤ y)

/-- The error of a graph that is not held. -/
def notFound {α : Type} (graph : String) : Except Error α := .error (.graphNotFound graph)

/-- Sends a message into the graph of an engine. -/
def sendTo (e : Engine) (m : Msg) : App × Except Error Unit :=
  (a.modify e.graph fun e => (e.send m).1, (e.send m).2)

/-- Sends a message into a graph that is held. -/
def send (graph : String) (m : Msg) : App × Except Error Unit :=
  match a.held? graph with
  | none => (a, notFound graph)
  | some e => a.sendTo e m

/-! ## Closing -/

/-- Asks for the end of a graph. -/
def requestClose (graph : String) : App := a.modify graph Engine.requestClose

/-- Waits for a graph to close; none if that takes for ever. A call that waits for no time at
all only looks. There is nothing to wait for if the engine is gone. -/
def waitClosed (graph : String) (timeout : Option Duration) : App × Option (Except Error Unit) :=
  let a := if timeout = some ⟨0⟩ then a else a.settle
  (a, if a.isOver graph then some (.ok ())
    else timeout.map fun d =>
      .error (.timeout ("graph " ++ graph ++ " did not close within " ++ d.text)))

/-- Closes a graph and waits for it. -/
def closeGraph (graph : String) : App × Option (Except Error Unit) :=
  match a.held? graph with
  | none => (a, some (notFound graph))
  | some _ =>
    let a := { a with held := a.held.erase graph }
    (a.requestClose graph).waitClosed graph a.closeTimeout

/-- Waits for several graphs, also after one that did not close in time; the first failure is
the answer. -/
def waitAll (a : App) : List String → App × Option (Except Error Unit)
  | [] => (a, some (.ok ()))
  | graph :: rest =>
    match a.waitClosed graph a.closeTimeout with
    | (a, none) => (a, none)
    | (a, some (.ok ())) => waitAll a rest
    | (a, some (.error e)) =>
      let (a, others) := waitAll (a.record (.graphNotClosed graph e)) rest
      (a, others.map fun _ => .error e)

/-- Closes every graph that is held and waits for all of them. -/
def close : App × Option (Except Error Unit) :=
  let graphs := a.held
  let closing := graphs.foldl requestClose { a with held := [] }
  match closing.waitAll graphs with
  | (a, none) => (a, none)
  | (a, some result) => (a.record (.appClosed a.info.uri graphs.length), some result)

end App

end ExtensionGraph
