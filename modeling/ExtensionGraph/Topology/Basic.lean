import ExtensionGraph.Topology.Info
import ExtensionGraph.Topology.Routing

/-!
# Topologies

A topology is the frozen view of a started graph: its groups, its extensions and its routes.
It is made once, before any extension runs, and only looked up afterwards.

## Main definitions

* `ExtensionGraph.Topology` — the tables.
* `ExtensionGraph.Topology.extension?`, `ExtensionGraph.Topology.group?`,
  `ExtensionGraph.Topology.groupOf?` — lookups.
-/

namespace ExtensionGraph

/-- The tables of a started graph. -/
structure Topology where
  groups : List GroupInfo
  extensions : List ExtensionInfo
  routes : RoutingTable
deriving Inhabited

/-- Whether a value is the wanted one; nothing wanted matches anything. -/
def matchesKey (wanted : Option String) (value : String) : Bool :=
  match wanted with
  | none => true
  | some w => value = w

/-- Whether an extension has the given app, graph and name, as far as they are given. -/
def ExtensionInfo.matchesKeys (app graph name : Option String) (e : ExtensionInfo) : Bool :=
  matchesKey app e.loc.app && matchesKey graph e.loc.graph && matchesKey name e.name

namespace Topology

/-- The topology of a graph without nodes. -/
def empty : Topology := ⟨[], [], .empty⟩

variable (t : Topology)

/-- Whether neither groups nor extensions are declared. -/
def isEmpty : Bool := t.groups.isEmpty && t.extensions.isEmpty

/-- The first extension that matches every given key. -/
def extension? (app graph name : Option String) : Option ExtensionInfo :=
  t.extensions.find? (ExtensionInfo.matchesKeys app graph name)

/-- The group of the first extension that matches every given key. -/
def groupOf? (app graph name : Option String) : Option String :=
  (t.extension? app graph name).map (·.group)

/-- The first group of an app with the given name. -/
def group? (app name : String) : Option GroupInfo :=
  t.groups.find? fun g => g.loc.app = app && g.name = name

end Topology

end ExtensionGraph
