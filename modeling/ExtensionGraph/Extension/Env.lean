import ExtensionGraph.Mailbox
import ExtensionGraph.Topology.Basic

/-!
# The environment of an extension

An extension sees the graph through its environment: its own address, its declared property,
the frozen topology, and the mailbox of the engine. A message that names no destination goes
where the connections of the graph say; the fields that a named destination leaves empty are
filled in from the sender's address.

## Main definitions

* `ExtensionGraph.Env` — environments.
* `ExtensionGraph.Env.address` — a message as it leaves the extension.
* `ExtensionGraph.Env.send`, `ExtensionGraph.Env.closeGraph` — what is posted to the engine.
-/

namespace ExtensionGraph

/-- The environment of an extension. -/
structure Env where
  loc : Loc
  group : String
  property : Json.Value
  topology : Topology
deriving Inhabited

/-- Which messages a way of sending admits. -/
inductive SendMode where
  | any
  | cmdOnly
  | dataOnly
deriving DecidableEq, Inhabited

namespace Env

/-- The environment at an address; the property is the declared one. -/
def ofTopology (loc : Loc) (group : String) (t : Topology) : Env :=
  ⟨loc, group, ((t.extension? loc.app loc.graph loc.extension).map (·.property)).getD .null, t⟩

variable (e : Env)

/-- The name of the extension. -/
def name : String := e.loc.extension.getD ""

/-- A string among the declared properties. -/
def propertyString? (key : String) : Option String :=
  (e.property.member? key).bind Json.Value.asString?

/-- An unsigned number among the declared properties. -/
def propertyNat? (key : String) : Option Nat := (e.property.member? key).bind Json.Value.asNat?

/-- The declaration of an extension of the same graph. -/
def extension? (name : String) : Option ExtensionInfo :=
  e.topology.extension? e.loc.app e.loc.graph name

/-- Where the connections bring a message. -/
def connected (m : Msg) : List Loc := e.topology.routes.destinations e.loc m.kind m.name

/-- A message as it leaves the extension. -/
def address (m : Msg) : Except Error Msg :=
  let m := { m with src := e.loc }
  if m.dest.isEmpty then
    if (e.connected m).isEmpty then
      .error (.invalidArgument ("no destination for " ++ m.kind.name ++ " '" ++ m.name ++
        "' from '" ++ e.name ++ "'"))
    else .ok { m with dest := e.connected m }
  else .ok (m.resolve e.loc.app e.loc.graph)

/-- Refuses a message of the wrong kind. -/
def checkKind (mode : SendMode) (m : Msg) : Except Error Unit :=
  match mode, m.kind with
  | .cmdOnly, .data => .error (.invalidArgument ("'" ++ m.name ++ "' is not a cmd"))
  | .dataOnly, .cmd => .error (.invalidArgument ("'" ++ m.name ++ "' is not data"))
  | _, _ => .ok ()

/-- The error of a graph whose engine is gone. -/
def gone : Error := .closed ("graph " ++ e.loc.graph ++ " is gone")

/-- Posts to the engine. -/
def post (engine : Mailbox EngineMsg) (m : EngineMsg) : Mailbox EngineMsg × Except Error Unit :=
  if engine.listening then (engine.post m, .ok ()) else (engine, .error e.gone)

/-- Sends a message. -/
def send (mode : SendMode) (m : Msg) (engine : Mailbox EngineMsg) :
    Mailbox EngineMsg × Except Error Unit :=
  match checkKind mode m with
  | .error err => (engine, .error err)
  | .ok () =>
    match e.address m with
    | .error err => (engine, .error err)
    | .ok m => e.post engine (.route m)

/-- Asks the engine to close the graph. -/
def closeGraph (engine : Mailbox EngineMsg) : Mailbox EngineMsg × Except Error Unit :=
  e.post engine .close

/-- A description for people. -/
def describe : String :=
  "TenEnv \x7b loc: Loc \x7b app_uri: " ++ quoted e.loc.app ++ ", graph_id: " ++
    quoted e.loc.graph ++ ", extension: " ++ quotedOption e.loc.extension ++
    " \x7d, extension_group: " ++ quoted e.group ++ " \x7d"

end Env

end ExtensionGraph
