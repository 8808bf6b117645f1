import ExtensionGraph.Topology.Info

/-!
# Extension groups

The extensions of a group share a thread. A group is built by its addon and then bound to the
graph that asked for it. Unless the addon fixed the members, the graph decides on them.

## Main definitions

* `ExtensionGraph.Group` — groups.
* `ExtensionGraph.Group.bind`, `ExtensionGraph.Group.withMembers`,
  `ExtensionGraph.Group.setMembers`, `ExtensionGraph.Group.setInfo` — how they are filled in.
-/

namespace ExtensionGraph

/-- An extension group. -/
structure Group where
  name : String
  addon : String
  /-- The app and the graph, once the group is bound. -/
  app : Option String
  graph : Option String
  members : List Member
  /-- Whether the addon decided on the members. -/
  fixed : Bool
  /-- What the graph says about the group, once that is known. -/
  info : Option GroupInfo
deriving Inhabited

namespace Group

/-- A group as an addon builds it. -/
def create (name addon : String) : Group := ⟨name, addon, none, none, [], false, none⟩

variable (g : Group)

/-- Fixes the members. -/
def withMembers (members : List Member) : Group := { g with members, fixed := true }

/-- Fills in the members. -/
def setMembers (members : List Member) : Group := { g with members }

/-- Binds the group to a graph. -/
def bind (app graph : String) : Group := { g with app := some app, graph := some graph }

/-- Attaches what the graph says about the group. -/
def setInfo (info : GroupInfo) : Group := { g with info := some info }

/-- Whether the group comes from the default addon. -/
def isDefault : Bool := g.addon = defaultGroupAddon

/-- Whether the graph decides on the members. -/
def isGraphDriven : Bool := !g.fixed

end Group

end ExtensionGraph
