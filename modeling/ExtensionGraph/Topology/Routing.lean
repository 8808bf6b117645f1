import ExtensionGraph.Graph.Definition
import ExtensionGraph.Msg

/-!
# Routing

The routing table maps a sending extension, a message kind and a message name to the
destinations that the connections of the graph give them, in the order in which they are
declared and with repetitions.

## Main definitions

* `ExtensionGraph.RouteKey`, `ExtensionGraph.RoutingTable` — the table.
* `ExtensionGraph.RoutingTable.ofConnections` — the table of a list of connections.
* `ExtensionGraph.RoutingTable.destinations` — where a message goes.
-/

namespace ExtensionGraph

/-- What decides where a message goes. -/
structure RouteKey where
  app : String
  extension : String
  kind : MsgKind
  name : String
deriving DecidableEq, Inhabited

/-- The destinations of every key that occurs, each key once. -/
structure RoutingTable where
  routes : List (RouteKey × List Loc)
deriving DecidableEq, Inhabited

/-- Appends destinations to those of a key. -/
def addRoute (key : RouteKey) (dests : List Loc) :
    List (RouteKey × List Loc) → List (RouteKey × List Loc)
  | [] => [(key, dests)]
  | (k, ds) :: rest =>
    if k = key then (k, ds ++ dests) :: rest else (k, ds) :: addRoute key dests rest

/-- The address of a destination in a graph. -/
def FlowDest.loc (host graph : String) (d : FlowDest) : Loc :=
  .ofExtension (d.app.getD host) graph d.extension

/-- The key of a flow of a connection. -/
def Connection.routeKey (host : String) (c : Connection) (kind : MsgKind) (f : Flow) :
    RouteKey :=
  ⟨c.app.getD host, c.extension, kind, f.name⟩

/-- The routes that a connection declares, commands before data. -/
def Connection.routes (host graph : String) (c : Connection) : List (RouteKey × List Loc) :=
  (c.cmd.map fun f => (c.routeKey host .cmd f, f.dest.map (FlowDest.loc host graph))) ++
    c.data.map fun f => (c.routeKey host .data f, f.dest.map (FlowDest.loc host graph))

namespace RoutingTable

/-- The table without routes. -/
def empty : RoutingTable := ⟨[]⟩

/-- Adds declared routes one after the other. -/
def addAll (routes declared : List (RouteKey × List Loc)) : List (RouteKey × List Loc) :=
  declared.foldl (fun rs r => addRoute r.1 r.2 rs) routes

/-- The table of a list of connections in a graph that is hosted by an app. -/
def ofConnections (connections : List Connection) (host graph : String) : RoutingTable :=
  ⟨addAll [] (connections.flatMap (Connection.routes host graph))⟩

/-- The destinations of a key; none if it does not occur. -/
def lookup (t : RoutingTable) (key : RouteKey) : List Loc :=
  match t.routes.find? fun r => r.1 = key with
  | some r => r.2
  | none => []

/-- Where a message leaving `src` goes; nowhere if `src` is no extension. -/
def destinations (t : RoutingTable) (src : Loc) (kind : MsgKind) (name : String) : List Loc :=
  match src.extension with
  | none => []
  | some extension => t.lookup ⟨src.app, extension, kind, name⟩

/-- The number of keys that occur. -/
def size (t : RoutingTable) : Nat := t.routes.length

end RoutingTable

end ExtensionGraph
