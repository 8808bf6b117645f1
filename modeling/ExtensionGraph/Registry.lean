import ExtensionGraph.Extension.Script

/-!
# Addon registry

Addons are factories, registered under names of their own: some build extensions, the others
build extension groups. An extension is built on the thread on which it is going to live, and the
addon may take this thread down, or keep it for ever. Building a group may take a while. The first
registration of a name stays.

## Main definitions

* `ExtensionGraph.Making` — what comes of asking an addon for an extension.
* `ExtensionGraph.Registry` — the registered addons.
* `ExtensionGraph.Registry.registerExtension`, `ExtensionGraph.Registry.registerGroup` —
  registration.
* `ExtensionGraph.Registry.createExtension`, `ExtensionGraph.Registry.createGroup` — creation.
-/

namespace ExtensionGraph

/-- When an addon is asked for an extension: by which thread of which graph. Asked for the same name
on another occasion, it may answer something else. -/
structure Occasion where
  graph : String
  thread : ThreadId
deriving DecidableEq, Inhabited

/-- How an addon keeps the thread that has asked it for an extension from going on. -/
inductive Loss where
  /-- The addon takes the thread down. -/
  | crash
  /-- The addon never answers. -/
  | hang
deriving DecidableEq, Inhabited

/-- What comes of asking an addon for an extension. -/
inductive Making where
  | made (extension : Extension)
  | refused (cause : Error)
  | lost (loss : Loss)
deriving Inhabited

/-- Whether there is an extension. -/
def Making.isMade : Making → Bool
  | .made _ => true
  | .refused _ => false
  | .lost _ => false

/-- Builds an extension for a given name, or does not. -/
abbrev ExtensionAddon := Occasion → String → Making

/-- A group that is being built: how many turns it lets pass, and what comes out. -/
structure Creation where
  delay : Nat
  result : Except Error Group
deriving Inhabited

/-- A description for people, which does not wait for the group. -/
def Creation.describe (_ : Creation) : String := "PendingGroup \x7b .. \x7d"

/-- Builds a group for a given name. -/
abbrev GroupAddon := String → Creation

/-- The registered addons by name. -/
structure Registry where
  extensions : List (String × ExtensionAddon)
  groups : List (String × GroupAddon)
deriving Inhabited

namespace Registry

/-- A registry without addons. -/
def empty : Registry := ⟨[], []⟩

/-- The addon of groups whose members are decided by the graph. -/
def defaultGroup : GroupAddon := fun name => ⟨0, .ok (.create name defaultGroupAddon)⟩

/-- A registry with the default group addon. -/
def withDefaults : Registry := ⟨[], [(defaultGroupAddon, defaultGroup)]⟩

variable (r : Registry)

/-- The extension addon with a name. -/
def extension? (name : String) : Option ExtensionAddon := r.extensions.lookup name

/-- The group addon with a name. -/
def group? (name : String) : Option GroupAddon := r.groups.lookup name

/-- Whether an extension addon has the name. -/
def hasExtension (name : String) : Bool := (r.extension? name).isSome

/-- Whether a group addon has the name. -/
def hasGroup (name : String) : Bool := (r.group? name).isSome

/-- Registers an extension addon. -/
def registerExtension (name : String) (addon : ExtensionAddon) : Except Error Registry :=
  if r.hasExtension name then .error (.addonAlreadyRegistered name)
  else .ok { r with extensions := r.extensions ++ [(name, addon)] }

/-- Registers a group addon. -/
def registerGroup (name : String) (addon : GroupAddon) : Except Error Registry :=
  if r.hasGroup name then .error (.addonAlreadyRegistered name)
  else .ok { r with groups := r.groups ++ [(name, addon)] }

/-- Asks an addon for an extension. -/
def createExtension (occasion : Occasion) (addon name : String) : Making :=
  match r.extension? addon with
  | none => .refused (.addonNotFound addon)
  | some build => build occasion name

/-- Refuses a group with another name than the one it was asked for. -/
def checkName (addon name : String) (g : Group) : Except Error Group :=
  if g.name = name then .ok g
  else .error (.groupCreationFailed ("addon '" ++ addon ++ "' was asked for '" ++ name ++
    "' but built '" ++ g.name ++ "'"))

/-- Begins to build a group. -/
def createGroup (addon name : String) : Except Error Creation :=
  match r.group? addon with
  | none => .error (.addonNotFound addon)
  | some build =>
    let c := build name
    .ok { c with result := c.result.bind (checkName addon name) }

end Registry

end ExtensionGraph
