import ExtensionGraph.Proofs.RouteTable

/-!
# The command that starts a graph is closed

The groups, the extensions and the routes of a graph are computed from its nodes one by one, with
defaults for what a node leaves out. Whatever is left out, and whichever apps the nodes belong to,
the three tables fit together: an extension refers to one of the groups, and a route leads from one
of the extensions to others of them.

## Main definitions

* `ExtensionGraph.ExtensionInfo.key` — the app and the name of an extension.
* `ExtensionGraph.IsOnly` — an entry of a table is the only one of its kind.
* `ExtensionGraph.StartGraph.IsClosed` — the tables fit together.

## Main results

* `ExtensionGraph.GraphDefinition.group_of_mem` — where a group comes from.
* `ExtensionGraph.GraphDefinition.row_of_key` — a declared app and name stand for one row.
* `ExtensionGraph.StartGraph.closed_of_accepted` — every accepted graph has tables that fit.
-/

namespace ExtensionGraph

/-- The app and the name of an extension. -/
def ExtensionInfo.key (e : ExtensionInfo) : String × String := (e.loc.app, e.name)

/-- An entry is the only one in a table that has what is asked for. -/
def IsOnly {α : Type} (table : List α) (asked : α → Bool) (a : α) : Prop :=
  table.filter asked = [a]

/-- The tables of a graph fit together. -/
structure StartGraph.IsClosed (g : GraphDefinition) (host graph : String) (s : StartGraph) :
    Prop where
  /-- The declared groups have rows. -/
  declared : ∀ n ∈ g.groups, n.info host graph ∈ s.topology.groups
  /-- The declared extensions have rows, in the order of the nodes. -/
  rows : s.topology.extensions = g.extensions.map (ExtensionNode.info host graph)
  /-- The connections are in the table of routes. -/
  connected : ∀ key, s.topology.routes.lookup key =
    (g.flowDests host key).map (FlowDest.loc host graph)
  /-- All groups are groups of the graph. -/
  groupsHere : ∀ i ∈ s.topology.groups, i.loc.graph = graph
  /-- All extensions are extensions of the graph. -/
  extensionsHere : ∀ e ∈ s.topology.extensions, e.loc.graph = graph
  /-- An app and a name stand for one group at most. -/
  groupKeys : (s.topology.groups.map GroupInfo.key).Nodup
  /-- An app and a name stand for one extension at most. -/
  extensionKeys : (s.topology.extensions.map ExtensionInfo.key).Nodup
  /-- An extension names one of the groups of its own app. -/
  grouped : ∀ e ∈ s.topology.extensions, ∃ i,
    IsOnly s.topology.groups (fun j => j.key = (e.loc.app, e.group)) i
  /-- A group is declared, or else some extension implies it. -/
  origins : ∀ i ∈ s.topology.groups, (∃ n ∈ g.groups, i = n.info host graph) ∨
    (∀ n ∈ g.groups, (n.info host graph).key ≠ i.key) ∧
      ∃ n ∈ g.extensions, i = n.impliedGroup host graph
  /-- A route leaves one of the extensions. -/
  sources : ∀ r ∈ s.topology.routes.routes, ∃ e,
    IsOnly s.topology.extensions (fun x => x.key = (r.1.app, r.1.extension)) e
  /-- A route leads to some of the extensions. -/
  destinations : ∀ r ∈ s.topology.routes.routes, ∀ d ∈ r.2, ∃ e,
    IsOnly s.topology.extensions (fun x => x.loc = d) e
  /-- The group that is looked up for a destination is one of the groups. -/
  resolved : ∀ r ∈ s.topology.routes.routes, ∀ d ∈ r.2, ∃ group i,
    s.topology.groupOf? (some d.app) (some d.graph) d.extension = some group ∧
      IsOnly s.topology.groups (fun j => j.key = (d.app, group)) i

namespace GraphDefinition

variable {g : GraphDefinition} {host graph : String}

/-! ## Groups -/

/-- A group that is added in the end was there, or it is one of the added ones and no group with its
app and its name was there.

**Proof sketch.** By induction over the groups that are added. One that is added has a key that is
new, also among the groups from the beginning. -/
lemma mem_foldl_addGroup {groups xs : List GroupInfo} {i : GroupInfo}
    (hi : i ∈ xs.foldl addGroup groups) :
    i ∈ groups ∨ i ∈ xs ∧ i.key ∉ groups.map GroupInfo.key := by
  induction xs generalizing groups with
  | nil => exact .inl hi
  | cons x xs ih =>
    rcases ih hi with hi | ⟨hi, hkey⟩
    · unfold addGroup at hi
      split at hi
      · exact .inl hi
      · next hnew =>
        rcases List.mem_append.1 hi with hi | hi
        · exact .inl hi
        · obtain rfl := List.mem_singleton.1 hi
          refine .inr ⟨List.mem_cons_self, fun hkey => hnew ?_⟩
          obtain ⟨j, hj, hsame⟩ := List.mem_map.1 hkey
          exact List.any_eq_true.2 ⟨j, hj, (GroupInfo.sameGroup_iff j i).2 hsame⟩
    · refine .inr ⟨List.mem_cons_of_mem _ hi, fun hold => hkey ?_⟩
      exact List.map_subset _ (addGroup_subset groups x) hold

/-- **A group is declared, or else it is implied by an extension**, and then no declared group has
its app and its name. -/
theorem group_of_mem {i : GroupInfo} (hi : i ∈ g.groupInfos host graph) :
    (∃ n ∈ g.groups, i = n.info host graph) ∨
      (∀ n ∈ g.groups, (n.info host graph).key ≠ i.key) ∧
        ∃ n ∈ g.extensions, i = n.impliedGroup host graph := by
  rcases mem_foldl_addGroup hi with hi | ⟨hi, hkey⟩
  · obtain ⟨n, hn, rfl⟩ := List.mem_map.1 hi
    exact .inl ⟨n, hn, rfl⟩
  · obtain ⟨n, hn, rfl⟩ := List.mem_map.1 hi
    refine .inr ⟨fun n' hn' hsame => hkey ?_, n, hn, rfl⟩
    rw [← hsame]
    exact List.mem_map_of_mem (List.mem_map_of_mem hn')

/-- All groups of a graph are on this graph. -/
lemma groupInfos_here {i : GroupInfo} (hi : i ∈ g.groupInfos host graph) :
    i.loc.graph = graph := by
  rcases group_of_mem hi with ⟨n, -, rfl⟩ | ⟨-, n, -, rfl⟩
  · rfl
  · rfl

/-- The group of an extension is one of the groups of its app, and the only one with its name. -/
lemma exists_group (graph : String) (h : g.fault? host = none) {n : ExtensionNode}
    (hn : n ∈ g.extensions) :
    ∃ i, IsOnly (g.groupInfos host graph)
      (fun j => j.key = (n.app.getD host, n.groupName)) i := by
  obtain ⟨i, hi, hkey⟩ := List.mem_map.1 (impliedKey_mem graph hn)
  exact ⟨i, filter_key_eq_singleton (groupInfos_nodup h) hi hkey⟩

/-! ## Extensions -/

/-- The extensions of a graph without a fault have different keys. -/
lemma extensionInfos_nodup (graph : String) (h : g.fault? host = none) :
    ((g.extensionInfos host graph).map ExtensionInfo.key).Nodup := by
  rw [extensionInfos, List.map_map]
  exact extensions_nodup h

/-- **A declared app and name stand for one row**, and the address of the row is theirs.

**Proof sketch.** The rows have different keys, so one has this key at most. A key can be read off
the address, so that addresses tell rows apart as well. -/
theorem row_of_key (graph : String) (h : g.fault? host = none) {app name : String}
    (hkey : (app, name) ∈ g.extensionKeys host) :
    ∃ n ∈ g.extensions, n.app.getD host = app ∧ n.name = name ∧
      IsOnly (g.extensionInfos host graph) (fun x => x.key = (app, name)) (n.info host graph) ∧
      IsOnly (g.extensionInfos host graph) (fun x => x.loc = .ofExtension app graph name)
        (n.info host graph) := by
  obtain ⟨n, hn, hk⟩ := List.mem_map.1 hkey
  obtain ⟨rfl, rfl⟩ : n.app.getD host = app ∧ n.name = name := Prod.mk.inj hk
  have hmem : n.info host graph ∈ g.extensionInfos host graph := List.mem_map_of_mem hn
  -- The key of a row can be read off its address, so the addresses are different as well.
  have hlocs : ((g.extensionInfos host graph).map (·.loc)).Nodup := by
    have hnd := extensionInfos_nodup graph h
    have hread : (g.extensionInfos host graph).map ExtensionInfo.key =
        ((g.extensionInfos host graph).map (·.loc)).map
          fun l => (l.app, l.extension.getD "") := by
      rw [List.map_map]
      rfl
    rw [hread] at hnd
    exact hnd.of_map _
  exact ⟨n, hn, rfl, rfl, filter_key_eq_singleton (extensionInfos_nodup graph h) hmem rfl,
    filter_key_eq_singleton hlocs hmem rfl⟩

/-- The group of a declared extension is found at its address.

**Proof sketch.** All rows are on this graph, so that the lookup goes by app and name, which are the
key of the row. -/
lemma groupOf?_of_mem (graph : String) (h : g.fault? host = none) {n : ExtensionNode}
    (hn : n ∈ g.extensions) :
    (g.topology host graph).groupOf? (some (n.app.getD host)) (some graph) (some n.name) =
      some n.groupName := by
  have hfind : (g.topology host graph).extension? (some (n.app.getD host)) (some graph)
      (some n.name) = atKey? ExtensionInfo.key (g.extensionInfos host graph)
        (n.app.getD host, n.name) := by
    -- All rows are rows of this graph, so the app and the name decide.
    have hrow (n' : ExtensionNode) :
        (n'.info host graph).matchesKeys (some (n.app.getD host)) (some graph) (some n.name) =
          decide ((n'.info host graph).key = (n.app.getD host, n.name)) := by
      rw [Bool.eq_iff_iff, ExtensionInfo.matchesKeys_some_iff, decide_eq_true_iff,
        ExtensionInfo.key, Prod.mk.injEq]
      constructor
      · rintro ⟨happ, -, hname⟩
        exact ⟨happ, hname⟩
      · rintro ⟨happ, hname⟩
        exact ⟨happ, rfl, hname⟩
    show (g.extensions.map (ExtensionNode.info host graph)).find? _ =
      (g.extensions.map (ExtensionNode.info host graph)).find? _
    rw [List.find?_map, List.find?_map]
    exact congrArg (fun p => (g.extensions.find? p).map (ExtensionNode.info host graph))
      (funext hrow)
  have hmem : n.info host graph ∈ g.extensionInfos host graph := List.mem_map_of_mem hn
  have hat := atKey?_of_mem (extensionInfos_nodup graph h) hmem
  unfold Topology.groupOf?
  rw [hfind]
  exact congrArg (Option.map ExtensionInfo.group) hat

end GraphDefinition

namespace StartGraph

variable {g : GraphDefinition} {host graph : String} {s : StartGraph}

/-- **Every accepted graph has tables that fit together.**

**Proof sketch.** Every end of a connection is the key of a declared extension, or the graph has a
fault. Such a key stands for one row (`row_of_key`), and the row names a group which has a row of
its own (`exists_group`). -/
theorem closed_of_accepted (h : ofDefinition g host graph = .ok s) :
    s.IsClosed g host graph := by
  obtain ⟨hf, rfl⟩ := ofDefinition_eq_ok h
  have hend {r : RouteKey × List Loc}
      (hr : r ∈ (RoutingTable.ofConnections g.connections host graph).routes) {d : Loc}
      (hd : d ∈ r.2) :
      ∃ x : FlowDest, d = x.loc host graph ∧ x.key host ∈ g.extensionKeys host := by
    obtain ⟨-, hdests⟩ := RoutingTable.mem_ofConnections_iff.1 hr
    rw [hdests] at hd
    obtain ⟨x, hx, rfl⟩ := List.mem_map.1 hd
    exact ⟨x, rfl, GraphDefinition.flowDests_declared hf hx⟩
  constructor
  case declared =>
    intro n hn
    exact GraphDefinition.foldl_addGroup_subset _ _ (List.mem_map_of_mem hn)
  case rows => rfl
  case connected => exact RoutingTable.lookup_ofConnections g host graph
  case groupsHere =>
    intro i hi
    exact GraphDefinition.groupInfos_here hi
  case extensionsHere =>
    intro e he
    obtain ⟨n, -, rfl⟩ := List.mem_map.1 he
    rfl
  case groupKeys => exact GraphDefinition.groupInfos_nodup hf
  case extensionKeys => exact GraphDefinition.extensionInfos_nodup graph hf
  case grouped =>
    intro e he
    obtain ⟨n, hn, rfl⟩ := List.mem_map.1 he
    exact GraphDefinition.exists_group graph hf hn
  case origins =>
    intro i hi
    exact GraphDefinition.group_of_mem hi
  case sources =>
    rintro ⟨key, dests⟩ hr
    obtain ⟨⟨c, hc, hkey, -⟩, -⟩ := RoutingTable.mem_ofConnections_iff.1 hr
    have hdeclared := GraphDefinition.source_declared hf hc
    rw [hkey] at hdeclared
    obtain ⟨n, -, -, -, honly, -⟩ := GraphDefinition.row_of_key graph hf hdeclared
    exact ⟨_, honly⟩
  case destinations =>
    intro r hr d hd
    obtain ⟨x, rfl, hx⟩ := hend hr hd
    obtain ⟨n, -, -, -, -, honly⟩ := GraphDefinition.row_of_key graph hf hx
    exact ⟨_, honly⟩
  case resolved =>
    intro r hr d hd
    obtain ⟨x, rfl, hx⟩ := hend hr hd
    obtain ⟨n, hn, happ, hname, -⟩ := GraphDefinition.row_of_key graph hf hx
    obtain ⟨i, honly⟩ := GraphDefinition.exists_group graph hf hn
    have hgroup := GraphDefinition.groupOf?_of_mem graph hf hn
    rw [happ, hname] at hgroup
    rw [happ] at honly
    exact ⟨n.groupName, i, hgroup, honly⟩

/-- A graph on two apps. The group of one extension is declared, that of the other is implied. -/
def bridge : GraphDefinition :=
  ⟨[.group ⟨"west", "shore", none⟩, .extension ⟨"near", "addon", some "west", none, none⟩,
      .extension ⟨"far", "addon", none, some "other", none⟩],
    [⟨none, "near", [⟨"cross", [⟨some "other", "far"⟩, ⟨none, "near"⟩]⟩], []⟩]⟩

/-- The tables of this graph fit together. -/
theorem closed_of_accepted_bridge :
    let s : StartGraph := ⟨.ofGraph "app" "1", none, bridge.topology "app" "1"⟩
    ofDefinition bridge "app" "1" = .ok s ∧
      s.topology.groups = [⟨.ofGraph "app" "1", "west", "shore"⟩,
        ⟨.ofGraph "other" "1", "far", defaultGroupAddon⟩] ∧
      s.IsClosed bridge "app" "1" := by
  have hs : ofDefinition bridge "app" "1" =
      .ok ⟨.ofGraph "app" "1", none, bridge.topology "app" "1"⟩ := rfl
  exact ⟨hs, rfl, closed_of_accepted hs⟩

end StartGraph

end ExtensionGraph
