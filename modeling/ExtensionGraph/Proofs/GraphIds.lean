import Mathlib.Tactic.Common
import ExtensionGraph.Proofs.GroupMembers

/-!
# The id of a graph does not matter

A graph is given its id when it is started, and the id gets into the address of every row of its
tables. But nothing is decided by it. The checks do not know it, groups are told apart by their apps
and names, and a message leaves an extension by the way of its app and its name. So a graph that is
started under two ids gets the same tables, up to the id, and whatever is shown of them is the same.
An id may be empty, or be the name of something else.

## Main definitions

* `ExtensionGraph.Loc.rename`, `ExtensionGraph.StartGraph.rename` — an address and a whole command
  with the id of a graph replaced by another one.
* `ExtensionGraph.StartGraph.Mirrors` — two commands that start one graph under two ids.

## Main results

* `ExtensionGraph.GraphDefinition.topology_rename` — the tables of a graph under two ids.
* `ExtensionGraph.StartGraph.ofDefinition_rename` — the same for the verdict and the command.
* `ExtensionGraph.StartGraph.mirrors_of_ofDefinition` — what the commands agree on.
* `ExtensionGraph.CommandLine.validate_eq` — `validate` shows the tables of any id.
-/

namespace ExtensionGraph

variable {old new : String}

/-! ## Replacing an id -/

/-- An address in a graph becomes the same address in another one. -/
def Loc.rename (old new : String) (l : Loc) : Loc :=
  if l.graph = old then { l with graph := new } else l

def GroupInfo.rename (old new : String) (i : GroupInfo) : GroupInfo :=
  { i with loc := i.loc.rename old new }

def ExtensionInfo.rename (old new : String) (i : ExtensionInfo) : ExtensionInfo :=
  { i with loc := i.loc.rename old new }

/-- Routes keep their keys, in which there is no id. -/
def RoutingTable.rename (old new : String) (t : RoutingTable) : RoutingTable :=
  ⟨t.routes.map (Prod.map id (List.map (Loc.rename old new)))⟩

def Topology.rename (old new : String) (t : Topology) : Topology :=
  ⟨t.groups.map (GroupInfo.rename old new), t.extensions.map (ExtensionInfo.rename old new),
    t.routes.rename old new⟩

def StartGraph.rename (old new : String) (s : StartGraph) : StartGraph :=
  { s with dest := s.dest.rename old new, topology := s.topology.rename old new }

namespace Loc

/-- A location keeps its app when graphs are renamed. -/
@[simp] lemma rename_app (l : Loc) : (l.rename old new).app = l.app := by
  unfold rename
  split <;> rfl

/-- A location keeps its extension when graphs are renamed. -/
@[simp] lemma rename_extension (l : Loc) : (l.rename old new).extension = l.extension := by
  unfold rename
  split <;> rfl

/-- The location of the renamed graph itself. -/
@[simp] lemma rename_ofGraph (app : String) : (ofGraph app old).rename old new = ofGraph app new :=
  if_pos rfl

/-- The location of an extension of the renamed graph. -/
@[simp] lemma rename_ofExtension (app extension : String) :
    (ofExtension app old extension).rename old new = ofExtension app new extension :=
  if_pos rfl

end Loc

/-- Groups are told apart by app and name, so that renaming the graph changes no key. -/
@[simp] lemma GroupInfo.key_rename (i : GroupInfo) : (i.rename old new).key = i.key := by
  simp [key, rename]

/-! ## Groups and extensions -/

/-- Whether a group is there already is decided by the keys. -/
lemma addGroup_map {f : GroupInfo → GroupInfo} (hf : ∀ i, (f i).key = i.key)
    (groups : List GroupInfo) (i : GroupInfo) :
    addGroup (groups.map f) (f i) = (addGroup groups i).map f := by
  have hany : (groups.map f).any (·.sameGroup (f i)) = groups.any (·.sameGroup i) := by
    rw [List.any_map]
    congr 1
    funext j
    rw [Bool.eq_iff_iff, GroupInfo.sameGroup_iff, ← hf i, ← hf j, ← GroupInfo.sameGroup_iff]
    rfl
  unfold addGroup
  rw [hany]
  split
  · rfl
  · rw [List.map_append, List.map_singleton]

/-- Changing groups that keep their keys commutes with adding them. -/
lemma foldl_addGroup_map {f : GroupInfo → GroupInfo} (hf : ∀ i, (f i).key = i.key)
    (groups xs : List GroupInfo) :
    (xs.map f).foldl addGroup (groups.map f) = (xs.foldl addGroup groups).map f := by
  rw [List.foldl_map]
  exact List.foldl_hom _ fun groups i => addGroup_map hf groups i

namespace GraphDefinition

variable (g : GraphDefinition) (host : String)

/-- The table of groups depends on the id of the graph only by the locations in it. -/
lemma groupInfos_rename :
    g.groupInfos host new = (g.groupInfos host old).map (GroupInfo.rename old new) := by
  have hdeclared : g.groups.map (GroupNode.info host new) =
      (g.groups.map (GroupNode.info host old)).map (GroupInfo.rename old new) := by
    simp [GroupNode.info, GroupInfo.rename]
  have himplied : g.extensions.map (ExtensionNode.impliedGroup host new) =
      (g.extensions.map (ExtensionNode.impliedGroup host old)).map (GroupInfo.rename old new) := by
    simp [ExtensionNode.impliedGroup, GroupInfo.rename]
  have hkey (i : GroupInfo) : (i.rename old new).key = i.key := i.key_rename
  rw [groupInfos, groupInfos, hdeclared, himplied, foldl_addGroup_map hkey]

/-- The table of extensions depends on the id of the graph only by the locations in it. -/
lemma extensionInfos_rename :
    g.extensionInfos host new =
      (g.extensionInfos host old).map (ExtensionInfo.rename old new) := by
  simp [extensionInfos, ExtensionNode.info, ExtensionInfo.rename]

end GraphDefinition

/-! ## Routes -/

/-- Destinations may be replaced before or after they are appended. -/
lemma addRoute_map (f : Loc → Loc) (key : RouteKey) (dests : List Loc)
    (routes : List (RouteKey × List Loc)) :
    addRoute key (dests.map f) (routes.map (Prod.map id (List.map f))) =
      (addRoute key dests routes).map (Prod.map id (List.map f)) := by
  induction routes with
  | nil => rfl
  | cons r rest ih =>
    obtain ⟨k, ds⟩ := r
    rw [addRoute, List.map_cons, Prod.map_apply, addRoute]
    by_cases hk : k = key
    · simp [hk]
    · simp [hk, ih]

/-- A declared destination is on the graph of its connection. -/
lemma FlowDest.rename_loc (host : String) (d : FlowDest) :
    (d.loc host old).rename old new = d.loc host new :=
  Loc.rename_ofExtension _ _

/-- The routes of a connection lead to extensions of its own graph. -/
lemma Connection.routes_rename (host : String) (c : Connection) :
    c.routes host new =
      (c.routes host old).map (Prod.map id (List.map (Loc.rename old new))) := by
  simp [routes, Function.comp_def, FlowDest.rename_loc]

namespace RoutingTable

/-- Changing destinations commutes with adding routes. -/
lemma addAll_map (f : Loc → Loc) (routes declared : List (RouteKey × List Loc)) :
    addAll (routes.map (Prod.map id (List.map f))) (declared.map (Prod.map id (List.map f))) =
      (addAll routes declared).map (Prod.map id (List.map f)) := by
  unfold addAll
  rw [List.foldl_map]
  exact List.foldl_hom _ fun routes r => addRoute_map f r.1 r.2 routes

/-- The routes depend on the id of the graph only by their destinations. -/
lemma ofConnections_rename (connections : List Connection) (host : String) :
    ofConnections connections host new =
      (ofConnections connections host old).rename old new := by
  have hroutes : connections.flatMap (Connection.routes host new) =
      (connections.flatMap (Connection.routes host old)).map
        (Prod.map id (List.map (Loc.rename old new))) := by
    rw [List.map_flatMap]
    exact List.flatMap_congr fun c _ => c.routes_rename host
  rw [ofConnections, ofConnections, rename, hroutes]
  exact congrArg RoutingTable.mk (addAll_map _ [] _)

/-- Renaming the graph in the routes renames it in every lookup. -/
lemma lookup_rename (t : RoutingTable) (key : RouteKey) :
    (t.rename old new).lookup key = (t.lookup key).map (Loc.rename old new) := by
  have hfind : (t.rename old new).routes.find? (fun r => r.1 = key) =
      (t.routes.find? fun r => r.1 = key).map (Prod.map id (List.map (Loc.rename old new))) :=
    List.find?_map
  unfold lookup
  rw [hfind]
  cases t.routes.find? fun r => r.1 = key with
  | none => rfl
  | some r => rfl

/-- What leaves an extension goes the same ways, in the other graph. -/
lemma destinations_rename (t : RoutingTable) (src : Loc) (kind : MsgKind) (name : String) :
    (t.rename old new).destinations (src.rename old new) kind name =
      (t.destinations src kind name).map (Loc.rename old new) := by
  unfold destinations
  rw [Loc.rename_extension, Loc.rename_app]
  cases src.extension with
  | none => rfl
  | some extension => exact lookup_rename t _

end RoutingTable

/-! ## The tables and the command -/

/-- **The tables of a graph under two ids** differ in the id only. -/
theorem GraphDefinition.topology_rename (g : GraphDefinition) (host old new : String) :
    g.topology host new = (g.topology host old).rename old new := by
  rw [topology, topology, Topology.rename, ← groupInfos_rename, ← extensionInfos_rename,
    ← RoutingTable.ofConnections_rename]

namespace StartGraph

variable {g : GraphDefinition} {host : String} {s s' : StartGraph}

/-- **A graph is accepted under any id or under none**, in which case it is refused for the same
reason. The commands differ in the id only. -/
theorem ofDefinition_rename (g : GraphDefinition) (host old new : String) :
    ofDefinition g host new = (ofDefinition g host old).map (rename old new) := by
  unfold ofDefinition
  cases g.validateFor host with
  | error e => rfl
  | ok u =>
    show Except.ok _ = Except.ok _
    rw [rename, Loc.rename_ofGraph, g.topology_rename host old new]

/-- Two commands start one graph under two ids. -/
structure Mirrors (old new : String) (s s' : StartGraph) : Prop where
  dest : s'.dest = s.dest.rename old new
  graphName : s'.graphName = s.graphName
  groups : s'.topology.groups = s.topology.groups.map (GroupInfo.rename old new)
  extensions : s'.topology.extensions = s.topology.extensions.map (ExtensionInfo.rename old new)
  routed : ∀ src kind name,
    s'.topology.routes.destinations (src.rename old new) kind name =
      (s.topology.routes.destinations src kind name).map (Loc.rename old new)
  routeCount : s'.topology.routes.size = s.topology.routes.size
  groupCount : ∀ app, s'.groupCount app = s.groupCount app
  /-- A group has the same members. -/
  members : ∀ app group, s'.members app s'.graph group = s.members app s.graph group

/-- The groups of an app are the same, up to the id. -/
lemma groupsOf_rename (s : StartGraph) (app : String) :
    (s.rename old new).groupsOf app = (s.groupsOf app).map (GroupInfo.rename old new) := by
  unfold groupsOf rename Topology.rename
  rw [List.filter_map]
  refine congrArg _ (List.filter_congr fun i _ => ?_)
  simp [GroupInfo.rename]

/-- **The commands of an accepted graph under two ids** agree on everything but the id.

**Proof sketch.** The second command is the first one with another id. The rows below a group do not
depend on the id, and no more do the numbers of groups and routes. -/
theorem mirrors_of_ofDefinition (h : ofDefinition g host old = .ok s)
    (h' : ofDefinition g host new = .ok s') : s.Mirrors old new s' := by
  have hrename : s' = s.rename old new := by
    rw [ofDefinition_rename g host old new, h] at h'
    exact (Except.ok.inj h').symm
  have hmembers (app group : String) :
      s'.members app s'.graph group = s.members app s.graph group := by
    rw [graph_eq h, graph_eq h', members_eq_ite h, members_eq_ite h', if_pos rfl, if_pos rfl]
  subst hrename
  exact
    { dest := rfl
      graphName := rfl
      groups := rfl
      extensions := rfl
      routed := s.topology.routes.destinations_rename
      routeCount := List.length_map _
      groupCount := fun app => by
        rw [groupCount, groupsOf_rename, List.length_map, groupCount]
      members := hmembers }

end StartGraph

/-! ## What is shown -/

namespace CommandLine

variable {g : GraphDefinition} {s s' : StartGraph}

/-- **The tables that are printed do not depend on the id.** -/
theorem summary_of_mirrors (h : s.Mirrors old new s') (c : Config) :
    summary c s' = summary c s := by
  have hgroup (i : GroupInfo) : groupSummary s' (i.rename old new) = groupSummary s i := by
    have happ : (i.rename old new).loc.app = i.loc.app := i.loc.rename_app
    unfold groupSummary
    rw [happ, show (i.rename old new).name = i.name from rfl, h.members]
    rfl
  have hgroups : s'.topology.groups.map (groupSummary s') =
      s.topology.groups.map (groupSummary s) := by
    rw [h.groups, List.map_map]
    exact List.map_congr_left fun i _ => hgroup i
  rw [summary, summary, hgroups, h.groupCount, h.routeCount]

/-- **What `validate` says of a graph is what any id gives**: the same tables, or the same error.

**Proof sketch.** The command under the given id is the one under the id of the preview, renamed.
The summary of both is the same, and so are their errors. -/
theorem validate_eq {c : Config} {i : Inputs} (hread : GraphDefinition.ofFile i.graph = .ok g)
    (path graph : String) :
    validate c path i = ((StartGraph.ofDefinition g c.uri graph).mapError Report.ofError).map
      fun s => (summary c s).pretty ++ "\n" := by
  rw [validate, hread]
  show (StartGraph.ofDefinition g c.uri "validate").mapError Report.ofError >>= _ = _
  have hrename := StartGraph.ofDefinition_rename g c.uri "validate" graph
  cases hs : StartGraph.ofDefinition g c.uri "validate" with
  | error e =>
    rw [hs] at hrename
    rw [hrename]
    rfl
  | ok s =>
    rw [hs] at hrename
    rw [hrename]
    show Except.ok _ = Except.ok ((summary c (s.rename "validate" graph)).pretty ++ "\n")
    rw [summary_of_mirrors (StartGraph.mirrors_of_ofDefinition hs hrename) c]

end CommandLine

end ExtensionGraph
