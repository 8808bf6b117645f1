import Mathlib.Data.List.Forall2
import Mathlib.Tactic.Common
import ExtensionGraph.Topology.StartGraph

/-!
# Omitted fields are only notation

A node or an end of a connection that names no app belongs to the app that hosts the graph, and an
extension that names no group has one with its own name. Either can also be spelled out. Every part
of a graph looks at its fields through these defaults only, so that it makes no difference to the
checks and to the tables which of them are written and which are left out, and the spellings may be
mixed within one graph.

All spellings of a graph have the same full spelling, in which nothing is left out. So it is enough
to show that a graph means the same as its full spelling.

## Main definitions

* `ExtensionGraph.Fills` — a field that may have been replaced by its default.
* `ExtensionGraph.GraphDefinition.Spells` — a graph in which some omitted fields are spelled out.
* `ExtensionGraph.GraphDefinition.spelledOut` — the full spelling of a graph.
* `ExtensionGraph.GraphDefinition.SameMeaning` — graphs that are checked and started alike.

## Main results

* `ExtensionGraph.GraphDefinition.Spells.spelledOut_eq` — all spellings have one full spelling.
* `ExtensionGraph.GraphDefinition.fault?_spelledOut`,
  `ExtensionGraph.GraphDefinition.topology_spelledOut` — it has the same fault and the same tables.
* `ExtensionGraph.GraphDefinition.sameMeaning_of_spells` — spelling out makes no difference.
-/

namespace ExtensionGraph

/-! ## Spelling out -/

/-- A field is left as it is, or it was omitted and has got its default. -/
def Fills (default : String) (omitted written : Option String) : Prop :=
  written = omitted ∨ omitted = none ∧ written = some default

/-- What is filled in is the default, so that it makes no difference. -/
lemma Fills.getD_eq {default : String} {omitted written : Option String}
    (h : Fills default omitted written) : written.getD default = omitted.getD default := by
  rcases h with rfl | ⟨rfl, rfl⟩
  · rfl
  · rfl

section Spells

variable (host : String)

/-- A destination whose app may have been spelled out. -/
structure FlowDest.Spells (d d' : FlowDest) : Prop where
  app : Fills host d.app d'.app
  extension : d'.extension = d.extension

/-- A flow in whose destinations some apps may have been spelled out. -/
structure Flow.Spells (f f' : Flow) : Prop where
  name : f'.name = f.name
  dest : List.Forall₂ (FlowDest.Spells host) f.dest f'.dest

/-- A connection in which some apps may have been spelled out. -/
structure Connection.Spells (c c' : Connection) : Prop where
  app : Fills host c.app c'.app
  extension : c'.extension = c.extension
  cmd : List.Forall₂ (Flow.Spells host) c.cmd c'.cmd
  data : List.Forall₂ (Flow.Spells host) c.data c'.data

/-- A node whose app, and whose group if it is an extension, may have been spelled out. -/
inductive Node.Spells : Node → Node → Prop
  | extension {n : ExtensionNode} {app group : Option String} (ha : Fills host n.app app)
      (hg : Fills n.name n.group group) :
      Node.Spells (.extension n) (.extension { n with app, group })
  | group {n : GroupNode} {app : Option String} (ha : Fills host n.app app) :
      Node.Spells (.group n) (.group { n with app })

/-- A graph in which any of the omitted fields may have been spelled out. -/
structure GraphDefinition.Spells (g g' : GraphDefinition) : Prop where
  nodes : List.Forall₂ (Node.Spells host) g.nodes g'.nodes
  connections : List.Forall₂ (Connection.Spells host) g.connections g'.connections

/-! ## The full spelling -/

/-- The full spelling of a destination. -/
def FlowDest.spelledOut (d : FlowDest) : FlowDest := { d with app := some (d.app.getD host) }

/-- The full spelling of a flow. -/
def Flow.spelledOut (f : Flow) : Flow := { f with dest := f.dest.map (FlowDest.spelledOut host) }

/-- The full spelling of a connection. -/
def Connection.spelledOut (c : Connection) : Connection :=
  { c with
    app := some (c.app.getD host)
    cmd := c.cmd.map (Flow.spelledOut host)
    data := c.data.map (Flow.spelledOut host) }

/-- The full spelling of an extension. -/
def ExtensionNode.spelledOut (n : ExtensionNode) : ExtensionNode :=
  { n with app := some (n.app.getD host), group := some n.groupName }

/-- The full spelling of a group. -/
def GroupNode.spelledOut (n : GroupNode) : GroupNode := { n with app := some (n.app.getD host) }

/-- The full spelling of a node. -/
def Node.spelledOut : Node → Node
  | .extension n => .extension (n.spelledOut host)
  | .group n => .group (n.spelledOut host)

/-- The full spelling of a graph. -/
def GraphDefinition.spelledOut (g : GraphDefinition) : GraphDefinition :=
  ⟨g.nodes.map (Node.spelledOut host), g.connections.map (Connection.spelledOut host)⟩

end Spells

/-- Lists whose entries look alike in pairs look alike. -/
lemma map_eq_map_of_forall₂ {α β : Type} {R : α → α → Prop} (f : α → β)
    (hf : ∀ {a b}, R a b → f b = f a) {l l' : List α} (h : List.Forall₂ R l l') :
    l'.map f = l.map f := by
  induction h with
  | nil => rfl
  | cons hab _ ih => rw [List.map_cons, List.map_cons, hf hab, ih]

variable {host graph : String}

/-- Two spellings of a destination are the same when spelled out. -/
lemma FlowDest.Spells.spelledOut_eq {d d' : FlowDest} (h : d.Spells host d') :
    d'.spelledOut host = d.spelledOut host := by
  unfold spelledOut
  rw [h.app.getD_eq, h.extension]

/-- Two spellings of a flow are the same when spelled out. -/
lemma Flow.Spells.spelledOut_eq {f f' : Flow} (h : f.Spells host f') :
    f'.spelledOut host = f.spelledOut host := by
  unfold spelledOut
  rw [h.name, map_eq_map_of_forall₂ (FlowDest.spelledOut host) FlowDest.Spells.spelledOut_eq h.dest]

/-- Two spellings of a connection are the same when spelled out. -/
lemma Connection.Spells.spelledOut_eq {c c' : Connection} (h : c.Spells host c') :
    c'.spelledOut host = c.spelledOut host := by
  unfold spelledOut
  rw [h.app.getD_eq, h.extension,
    map_eq_map_of_forall₂ (Flow.spelledOut host) Flow.Spells.spelledOut_eq h.cmd,
    map_eq_map_of_forall₂ (Flow.spelledOut host) Flow.Spells.spelledOut_eq h.data]

/-- Two spellings of a node are the same when spelled out. -/
lemma Node.Spells.spelledOut_eq {n n' : Node} (h : n.Spells host n') :
    n'.spelledOut host = n.spelledOut host := by
  cases h with
  | @extension n app group ha hg =>
    have hout : ({ n with app, group } : ExtensionNode).spelledOut host = n.spelledOut host := by
      unfold ExtensionNode.spelledOut ExtensionNode.groupName
      rw [ha.getD_eq, hg.getD_eq]
    exact congrArg Node.extension hout
  | @group n app ha =>
    have hout : ({ n with app } : GroupNode).spelledOut host = n.spelledOut host := by
      unfold GroupNode.spelledOut
      rw [ha.getD_eq]
    exact congrArg Node.group hout

/-! ## What is looked at through the defaults -/

/-- Spelling out a node gives it no name and takes none away. -/
lemma Node.unnamed?_spelledOut (n : Node) : (n.spelledOut host).unnamed? = n.unnamed? := by
  cases n <;> rfl

/-- A node has its key however it is spelled. -/
lemma Node.key_spelledOut (n : Node) : (n.spelledOut host).key host = n.key host := by
  cases n <;> rfl

/-- What is said of a node that occurs twice does not depend on its spelling. -/
lemma Node.duplicate_spelledOut (n : Node) : (n.spelledOut host).duplicate = n.duplicate := by
  cases n <;> rfl

/-- The same node is complained about for being declared twice. -/
lemma duplicateNode?_spelledOut (seen : List (NodeKind × String × String)) (ns : List Node) :
    duplicateNode? host seen (ns.map (Node.spelledOut host)) = duplicateNode? host seen ns := by
  induction ns generalizing seen with
  | nil => rfl
  | cons n ns ih =>
    rw [List.map_cons, duplicateNode?, duplicateNode?, n.key_spelledOut, n.duplicate_spelledOut, ih]

/-- The same destination of a flow is complained about. -/
lemma Flow.fault?_spelledOut (declared : List (String × String)) (f : Flow) :
    (f.spelledOut host).fault? host declared = f.fault? host declared := by
  unfold fault? spelledOut
  rw [List.findSome?_map]
  rfl

/-- The flows of a connection are spelled out one by one. -/
lemma Connection.flows_spelledOut (c : Connection) :
    (c.spelledOut host).flows = c.flows.map (Flow.spelledOut host) :=
  List.map_append.symm

/-- The same end of a connection is complained about. -/
lemma Connection.fault?_spelledOut (declared : List (String × String)) (c : Connection) :
    (c.spelledOut host).fault? host declared = c.fault? host declared := by
  have hflows : (c.spelledOut host).flows.findSome? (Flow.fault? host declared) =
      c.flows.findSome? (Flow.fault? host declared) := by
    rw [c.flows_spelledOut, List.findSome?_map]
    congr 1
    funext f
    exact f.fault?_spelledOut declared
  unfold fault?
  rw [hflows]
  rfl

/-- The routes of a list of flows are those of their full spellings. -/
lemma Connection.map_routes_spelledOut (c : Connection) (kind : MsgKind) (flows : List Flow) :
    (flows.map (Flow.spelledOut host)).map (fun f =>
        ((c.spelledOut host).routeKey host kind f, f.dest.map (FlowDest.loc host graph))) =
      flows.map fun f => (c.routeKey host kind f, f.dest.map (FlowDest.loc host graph)) := by
  rw [List.map_map]
  refine List.map_congr_left fun f _ => ?_
  have hdest : (f.spelledOut host).dest.map (FlowDest.loc host graph) =
      f.dest.map (FlowDest.loc host graph) := by
    show (f.dest.map (FlowDest.spelledOut host)).map _ = _
    rw [List.map_map]
    rfl
  exact Prod.ext rfl hdest

/-- A connection declares the same routes. -/
lemma Connection.routes_spelledOut (c : Connection) :
    (c.spelledOut host).routes host graph = c.routes host graph := by
  unfold routes
  rw [← c.map_routes_spelledOut .cmd c.cmd, ← c.map_routes_spelledOut .data c.data]
  rfl

namespace GraphDefinition

variable {g g' : GraphDefinition}

/-- **All spellings of a graph have the same full spelling.** -/
theorem Spells.spelledOut_eq (h : g.Spells host g') : g'.spelledOut host = g.spelledOut host := by
  unfold spelledOut
  rw [map_eq_map_of_forall₂ (Node.spelledOut host) Node.Spells.spelledOut_eq h.nodes,
    map_eq_map_of_forall₂ (Connection.spelledOut host) Connection.Spells.spelledOut_eq
      h.connections]

/-! ## Graphs and their full spellings -/

/-- The extensions of a graph are spelled out one by one. -/
lemma extensions_spelledOut :
    (g.spelledOut host).extensions = g.extensions.map (ExtensionNode.spelledOut host) := by
  show (g.nodes.map (Node.spelledOut host)).filterMap Node.extension? = _
  rw [extensions, List.filterMap_map, List.map_filterMap]
  congr 1
  funext n
  cases n <;> rfl

/-- The groups of a graph are spelled out one by one. -/
lemma groups_spelledOut :
    (g.spelledOut host).groups = g.groups.map (GroupNode.spelledOut host) := by
  show (g.nodes.map (Node.spelledOut host)).filterMap Node.group? = _
  rw [groups, List.filterMap_map, List.map_filterMap]
  congr 1
  funext n
  cases n <;> rfl

/-- Whether a node has no name does not depend on the spelling. -/
lemma unnamed?_spelledOut : (g.spelledOut host).unnamed? = g.unnamed? := by
  show (g.nodes.map (Node.spelledOut host)).findSome? Node.unnamed? = _
  rw [unnamed?, List.findSome?_map]
  congr 1
  funext n
  exact n.unnamed?_spelledOut

/-- The keys of the extensions do not depend on the spelling. -/
lemma extensionKeys_spelledOut : (g.spelledOut host).extensionKeys host = g.extensionKeys host := by
  rw [extensionKeys, extensions_spelledOut, List.map_map]
  rfl

/-- **A graph has the same fault as its full spelling**, or neither has one. -/
theorem fault?_spelledOut : (g.spelledOut host).fault? host = g.fault? host := by
  have hconnections (declared : List (String × String)) :
      (g.spelledOut host).connections.findSome? (Connection.fault? host declared) =
        g.connections.findSome? (Connection.fault? host declared) := by
    show (g.connections.map (Connection.spelledOut host)).findSome? _ = _
    rw [List.findSome?_map]
    congr 1
    funext c
    exact c.fault?_spelledOut declared
  unfold fault?
  rw [unnamed?_spelledOut, extensionKeys_spelledOut, hconnections]
  congr 2
  exact duplicateNode?_spelledOut [] g.nodes

/-- The table of groups does not depend on the spelling. -/
lemma groupInfos_spelledOut :
    (g.spelledOut host).groupInfos host graph = g.groupInfos host graph := by
  rw [groupInfos, groups_spelledOut, extensions_spelledOut, List.map_map, List.map_map]
  rfl

/-- The table of extensions does not depend on the spelling. -/
lemma extensionInfos_spelledOut :
    (g.spelledOut host).extensionInfos host graph = g.extensionInfos host graph := by
  rw [extensionInfos, extensions_spelledOut, List.map_map]
  rfl

/-- **A graph has the same tables as its full spelling.** -/
theorem topology_spelledOut : (g.spelledOut host).topology host graph = g.topology host graph := by
  have hroutes : (g.spelledOut host).connections.flatMap (Connection.routes host graph) =
      g.connections.flatMap (Connection.routes host graph) := by
    show (g.connections.map (Connection.spelledOut host)).flatMap _ = _
    rw [List.flatMap_map]
    exact List.flatMap_congr fun c _ => c.routes_spelledOut
  unfold topology RoutingTable.ofConnections
  rw [groupInfos_spelledOut, extensionInfos_spelledOut, hroutes]

/-! ## Graphs that differ in their spelling -/

/-- An app checks the graphs alike, and starts them alike under the given id. -/
structure SameMeaning (host graph : String) (g g' : GraphDefinition) : Prop where
  /-- Both are accepted, or both are refused with the same complaint. -/
  checked : g'.validateFor host = g.validateFor host
  groups : g'.groupInfos host graph = g.groupInfos host graph
  extensions : g'.extensionInfos host graph = g.extensionInfos host graph
  /-- Whatever an extension sends goes to the same destinations. -/
  routed : ∀ src kind name,
    (RoutingTable.ofConnections g'.connections host graph).destinations src kind name =
      (RoutingTable.ofConnections g.connections host graph).destinations src kind name
  /-- The commands that start the graphs are the same, or there is none for the same reason. -/
  command : StartGraph.ofDefinition g' host graph = StartGraph.ofDefinition g host graph

/-- **Omitted fields are only notation.** Spelling out any of the omitted apps and groups of a graph
makes no difference, neither to the checks of its app nor to the command that starts it.

**Proof sketch.** Both graphs are the same when everything is spelled out, and spelling everything
out changes neither the checks nor the tables. -/
theorem sameMeaning_of_spells (h : g.Spells host g') (graph : String) :
    SameMeaning host graph g g' := by
  have hfault : g'.fault? host = g.fault? host := by
    rw [← fault?_spelledOut, h.spelledOut_eq, fault?_spelledOut]
  have htopology : g'.topology host graph = g.topology host graph := by
    rw [← topology_spelledOut, h.spelledOut_eq, topology_spelledOut]
  have hchecked : g'.validateFor host = g.validateFor host := by
    unfold validateFor
    rw [hfault]
  refine
    { checked := hchecked
      groups := congrArg Topology.groups htopology
      extensions := congrArg Topology.extensions htopology
      routed := fun src kind name => ?_
      command := ?_ }
  · exact congrArg (fun t => t.routes.destinations src kind name) htopology
  · unfold StartGraph.ofDefinition
    rw [hchecked, htopology]

/-- Two extensions in one group, which is declared under the name of the first. -/
def terse : GraphDefinition :=
  ⟨[.extension ⟨"near", "boat", none, none, none⟩, .group ⟨"near", "shore", none⟩,
      .extension ⟨"far", "boat", some "near", none, none⟩],
    [⟨none, "near", [⟨"cross", [⟨none, "far"⟩, ⟨none, "near"⟩]⟩], []⟩]⟩

/-- The same graph with some of its omitted fields spelled out. -/
def wordy : GraphDefinition :=
  ⟨[.extension ⟨"near", "boat", some "near", some "app", none⟩, .group ⟨"near", "shore", none⟩,
      .extension ⟨"far", "boat", some "near", some "app", none⟩],
    [⟨some "app", "near", [⟨"cross", [⟨none, "far"⟩, ⟨some "app", "near"⟩]⟩], []⟩]⟩

/-- Both are accepted and started alike. -/
theorem sameMeaning_of_spells_wordy :
    terse.Spells "app" wordy ∧ terse.validateFor "app" = .ok () ∧
      SameMeaning "app" "1" terse wordy := by
  have hout : Fills "app" none (some "app") := .inr ⟨rfl, rfl⟩
  have hdest : List.Forall₂ (FlowDest.Spells "app") [⟨none, "far"⟩, ⟨none, "near"⟩]
      [⟨none, "far"⟩, ⟨some "app", "near"⟩] :=
    .cons ⟨.inl rfl, rfl⟩ (.cons ⟨hout, rfl⟩ .nil)
  have hspells : terse.Spells "app" wordy :=
    { nodes := .cons (.extension hout (.inr ⟨rfl, rfl⟩))
        (.cons (.group (.inl rfl)) (.cons (.extension hout (.inl rfl)) .nil))
      connections := .cons ⟨hout, rfl, .cons ⟨rfl, hdest⟩ .nil, .nil⟩ .nil }
  exact ⟨hspells, rfl, sameMeaning_of_spells hspells "1"⟩

end GraphDefinition

end ExtensionGraph
