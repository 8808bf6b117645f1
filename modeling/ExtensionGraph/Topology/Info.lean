import ExtensionGraph.Json.Value
import ExtensionGraph.Loc

/-!
# Declared groups and extensions

The rows of the tables that a graph is started with.

## Main definitions

* `ExtensionGraph.GroupInfo` — a group as it is declared or implied.
* `ExtensionGraph.ExtensionInfo` — an extension as it is declared.
* `ExtensionGraph.Member` — what a group has to create for one of its extensions.
-/

namespace ExtensionGraph

/-- The addon of groups whose members are decided by the graph. -/
def defaultGroupAddon : String := "default_extension_group"

/-- An extension group of a graph. -/
structure GroupInfo where
  /-- The app and the graph that own the group. -/
  loc : Loc
  name : String
  addon : String
deriving DecidableEq, Inhabited

/-- Whether the graph decides on the members. -/
def GroupInfo.isDefault (g : GroupInfo) : Bool := g.addon = defaultGroupAddon

/-- An extension of a graph. -/
structure ExtensionInfo where
  loc : Loc
  group : String
  addon : String
  /-- The declared property, `null` if there is none. -/
  property : Json.Value
deriving Inhabited

/-- The name of an extension. -/
def ExtensionInfo.name (e : ExtensionInfo) : String := e.loc.extension.getD ""

/-- An extension to create: the addon that creates it and the name it is given. -/
structure Member where
  addon : String
  name : String
deriving DecidableEq, Inhabited

/-- What a group has to create for a declared extension. -/
def ExtensionInfo.member (e : ExtensionInfo) : Member := ⟨e.addon, e.name⟩

/-- The JSON form of a group. -/
def GroupInfo.toJson (g : GroupInfo) : Json.Value :=
  .object (Json.Object.ofList
    [("loc", g.loc.toJson), ("extension_group_instance_name", .string g.name),
      ("extension_group_addon_name", .string g.addon)])

/-- The JSON form of an extension. -/
def ExtensionInfo.toJson (e : ExtensionInfo) : Json.Value :=
  .object (Json.Object.ofList
    [("loc", e.loc.toJson), ("extension_group_name", .string e.group),
      ("extension_addon_name", .string e.addon), ("property", e.property)])

end ExtensionGraph
