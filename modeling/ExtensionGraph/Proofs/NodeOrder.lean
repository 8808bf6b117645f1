import Mathlib.Tactic.Common
import ExtensionGraph.Proofs.ReferentialClosure

/-!
# The order of the nodes does not matter

The checks of a graph meet its nodes one after the other, and so does whoever makes its tables: a
group is implied by the first extension that needs it, unless some node declares it, before or after
the extension. Still the nodes may stand in any order. Whether a node is met first or last decides
neither on the verdict nor on the rows of the tables, but only on their places. Since no two rows
share their keys, a lookup finds the same row wherever it stands.

Groups and extensions are tables of their own. So a group may be moved past an extension, and then
not even a place changes.

## Main definitions

* `ExtensionGraph.GraphDefinition.Reorders` — the same graph with its nodes in some other order.
* `ExtensionGraph.Topology.SameRows` — tables with the same rows, in which the same is found.

## Main results

* `ExtensionGraph.GraphDefinition.Reorders.fault?_eq_none_iff` — both graphs are accepted, or
  neither is.
* `ExtensionGraph.GraphDefinition.mem_groupInfos_iff` — which groups a graph has.
* `ExtensionGraph.GraphDefinition.Reorders.sameRows` — the tables have the same rows.
* `ExtensionGraph.StartGraph.node_order_irrelevant` — all of it, for the commands that start them.
-/

namespace ExtensionGraph

/-- What one entry at most has is found in any order. -/
lemma find?_eq_of_perm {α : Type} {asked : α → Bool} {l l' : List α} (h : l.Perm l')
    (honly : ∀ a ∈ l, ∀ b ∈ l, asked a = true → asked b = true → a = b) :
    l'.find? asked = l.find? asked := by
  cases hf : l.find? asked with
  | none =>
    rw [List.find?_eq_none] at hf ⊢
    exact fun a ha => hf a (h.mem_iff.2 ha)
  | some a =>
    have ha := List.mem_of_find?_eq_some hf
    cases hf' : l'.find? asked with
    | none => exact absurd (List.find?_some hf) (List.find?_eq_none.1 hf' a (h.mem_iff.1 ha))
    | some b =>
      have hb := h.mem_iff.2 (List.mem_of_find?_eq_some hf')
      rw [honly b hb a ha (List.find?_some hf') (List.find?_some hf)]

/-- Two tables have the same rows in some order, and the same is found in them. -/
structure Topology.SameRows (t t' : Topology) : Prop where
  groups : t'.groups.Perm t.groups
  /-- An app and a name stand for the same group, which has the same addon. -/
  groupFound : ∀ app name, t'.group? app name = t.group? app name
  extensions : t'.extensions.Perm t.extensions
  extensionFound : ∀ app graph name,
    t'.extension? (some app) (some graph) (some name) =
      t.extension? (some app) (some graph) (some name)
  /-- Whatever an extension sends goes to the same destinations, in the same order. -/
  routed : ∀ src kind name,
    t'.routes.destinations src kind name = t.routes.destinations src kind name

namespace GraphDefinition

variable {g g' : GraphDefinition} {host graph : String}

/-- A graph with the same nodes in some order, and with the same connections. -/
structure Reorders (g g' : GraphDefinition) : Prop where
  nodes : g'.nodes.Perm g.nodes
  connections : g'.connections = g.connections

namespace Reorders

/-- Moving nodes can be undone. -/
lemma symm (h : g.Reorders g') : g'.Reorders g := ⟨h.nodes.symm, h.connections.symm⟩

/-- Moving nodes moves the extensions. -/
lemma extensions (h : g.Reorders g') : g'.extensions.Perm g.extensions :=
  h.nodes.filterMap Node.extension?

/-- Moving nodes moves the groups. -/
lemma groups (h : g.Reorders g') : g'.groups.Perm g.groups := h.nodes.filterMap Node.group?

/-! ## The verdict -/

/-- What a graph declares does not depend on the order of its nodes. -/
lemma declares (h : g.Reorders g') {app : Option String} {name : String}
    (hd : g.Declares host app name) : g'.Declares host app name := by
  obtain ⟨n, hn, hkey⟩ := hd
  exact ⟨n, h.extensions.mem_iff.2 hn, hkey⟩

/-- No part of being well formed looks at places. -/
lemma wellFormed (h : g.Reorders g') (hg : g.WellFormed host) : g'.WellFormed host where
  named n hn := hg.named n (h.nodes.mem_iff.1 hn)
  extensions := (h.extensions.map _).nodup_iff.2 hg.extensions
  groups := (h.groups.map _).nodup_iff.2 hg.groups
  sources c hc := h.declares (hg.sources c (h.connections ▸ hc))
  dests c hc f hf d hd := h.declares (hg.dests c (h.connections ▸ hc) f hf d hd)

/-- **Both graphs are accepted, or neither is.** -/
theorem fault?_eq_none_iff (h : g.Reorders g') :
    g'.fault? host = none ↔ g.fault? host = none := by
  rw [GraphDefinition.fault?_eq_none_iff, GraphDefinition.fault?_eq_none_iff]
  exact ⟨h.symm.wellFormed, h.wellFormed⟩

end Reorders

/-! ## Groups -/

/-- The app and the name of an implied group are all that is known about it. -/
lemma impliedGroup_eq_of_key {n n' : ExtensionNode}
    (h : (n.impliedGroup host graph).key = (n'.impliedGroup host graph).key) :
    n.impliedGroup host graph = n'.impliedGroup host graph := by
  obtain ⟨happ, hname⟩ : n.app.getD host = n'.app.getD host ∧ n.groupName = n'.groupName :=
    Prod.mk.inj h
  rw [ExtensionNode.impliedGroup, ExtensionNode.impliedGroup, happ, hname]

/-- **A graph has the groups that it declares, and those that an extension implies and nobody
declares.** It does not matter which extension comes first.

**Proof sketch.** The table of groups has a row under each key in question. What has come under a
key that nobody declares was implied by some extension, and extensions with the same key imply the
same row. -/
theorem mem_groupInfos_iff {i : GroupInfo} :
    i ∈ g.groupInfos host graph ↔
      (∃ n ∈ g.groups, i = n.info host graph) ∨
        (∀ n ∈ g.groups, (n.info host graph).key ≠ i.key) ∧
          ∃ n ∈ g.extensions, i = n.impliedGroup host graph := by
  refine ⟨group_of_mem, ?_⟩
  rintro (⟨n, hn, rfl⟩ | ⟨hnew, n, hn, rfl⟩)
  · exact foldl_addGroup_subset _ _ (List.mem_map_of_mem hn)
  · have hkeyed : (n.impliedGroup host graph).key ∈
        (g.groupInfos host graph).map GroupInfo.key := impliedKey_mem graph hn
    obtain ⟨j, hj, hkey⟩ := List.mem_map.1 hkeyed
    -- What has come under this key cannot have been declared, so it is the same group.
    rcases group_of_mem hj with ⟨n', hn', rfl⟩ | ⟨-, n', -, rfl⟩
    · exact absurd hkey (hnew n' hn')
    · have hsame : n'.impliedGroup host graph = n.impliedGroup host graph :=
        impliedGroup_eq_of_key hkey
      exact hsame ▸ hj

/-- Rows with the key of a group are the same row. -/
lemma group_only (hf : g.fault? host = none) (app name : String) :
    ∀ i ∈ g.groupInfos host graph, ∀ j ∈ g.groupInfos host graph,
      (decide (i.loc.app = app) && decide (i.name = name)) = true →
        (decide (j.loc.app = app) && decide (j.name = name)) = true → i = j := by
  intro i hi j hj hasked hasked'
  simp only [Bool.and_eq_true, decide_eq_true_eq] at hasked hasked'
  have hnodup : ((g.groupInfos host graph).map GroupInfo.key).Nodup := groupInfos_nodup hf
  refine List.inj_on_of_nodup_map hnodup hi hj ?_
  rw [GroupInfo.key, GroupInfo.key, hasked.1, hasked.2, hasked'.1, hasked'.2]

/-- Rows with the key of an extension are the same row. -/
lemma extension_only (hf : g.fault? host = none) (app graph' name : String) :
    ∀ i ∈ g.extensionInfos host graph, ∀ j ∈ g.extensionInfos host graph,
      i.matchesKeys (some app) (some graph') (some name) = true →
        j.matchesKeys (some app) (some graph') (some name) = true → i = j := by
  intro i hi j hj hasked hasked'
  rw [ExtensionInfo.matchesKeys_some_iff] at hasked hasked'
  obtain ⟨happ, -, hname⟩ := hasked
  obtain ⟨happ', -, hname'⟩ := hasked'
  refine List.inj_on_of_nodup_map (extensionInfos_nodup graph hf) hi hj ?_
  rw [ExtensionInfo.key, ExtensionInfo.key, happ, hname, happ', hname']

namespace Reorders

/-- The groups are the same, though in another order. -/
lemma groupInfos (h : g.Reorders g') (graph : String) (hf : g.fault? host = none) :
    (g'.groupInfos host graph).Perm (g.groupInfos host graph) := by
  have hf' := h.fault?_eq_none_iff.2 hf
  rw [List.perm_ext_iff_of_nodup ((groupInfos_nodup hf').of_map _) ((groupInfos_nodup hf).of_map _)]
  intro i
  rw [mem_groupInfos_iff, mem_groupInfos_iff]
  simp only [h.groups.mem_iff, h.extensions.mem_iff]

/-- **The tables of both graphs have the same rows.** -/
theorem sameRows (h : g.Reorders g') (graph : String) (hf : g.fault? host = none) :
    (g.topology host graph).SameRows (g'.topology host graph) where
  groups := h.groupInfos graph hf
  groupFound app name := find?_eq_of_perm (h.groupInfos graph hf).symm (group_only hf app name)
  extensions := h.extensions.map _
  extensionFound app graph' name :=
    find?_eq_of_perm (h.extensions.map _).symm (extension_only hf app graph' name)
  routed src kind name := by
    show (RoutingTable.ofConnections g'.connections host graph).destinations src kind name = _
    rw [h.connections]
    rfl

/-- Groups that are moved past extensions change no table. -/
lemma topology_eq (h : g.Reorders g') (hgroups : g'.groups = g.groups)
    (hextensions : g'.extensions = g.extensions) :
    g'.topology host graph = g.topology host graph := by
  rw [topology, topology, GraphDefinition.groupInfos, GraphDefinition.groupInfos, extensionInfos,
    extensionInfos, hgroups, hextensions, h.connections]

end Reorders

end GraphDefinition

namespace StartGraph

variable {g g' : GraphDefinition} {host graph : String}

/-- **The order of the nodes does not matter.** Two graphs that differ in the order of their nodes
only are both accepted or both refused. If they are accepted, then the commands that start them
differ in the order of their groups and their extensions only: every lookup finds the same group,
with the same addon, or the same extension, and messages go the same ways. If moreover the groups
stand in the same order, and so do the extensions, then the commands do not differ at all. -/
theorem node_order_irrelevant (h : g.Reorders g') (host graph : String) :
    ((∃ s, ofDefinition g' host graph = .ok s) ↔ ∃ s, ofDefinition g host graph = .ok s) ∧
    (∀ s s', ofDefinition g host graph = .ok s → ofDefinition g' host graph = .ok s' →
      s'.dest = s.dest ∧ s'.graphName = s.graphName ∧ s.topology.SameRows s'.topology) ∧
    (g'.groups = g.groups → g'.extensions = g.extensions →
      ∀ s, ofDefinition g' host graph = .ok s ↔ ofDefinition g host graph = .ok s) := by
  have hverdict : g'.fault? host = none ↔ g.fault? host = none := h.fault?_eq_none_iff
  refine ⟨?_, ?_, ?_⟩
  · simp only [ofDefinition_eq_ok_iff, exists_and_left, exists_eq, and_true]
    exact hverdict
  · intro s s' hs hs'
    obtain ⟨hf, rfl⟩ := ofDefinition_eq_ok hs
    obtain ⟨-, rfl⟩ := ofDefinition_eq_ok hs'
    exact ⟨rfl, rfl, h.sameRows graph hf⟩
  · intro hgroups hextensions s
    rw [ofDefinition_eq_ok_iff, ofDefinition_eq_ok_iff, hverdict, h.topology_eq hgroups hextensions]

/-- Two extensions of a group that is declared behind them, and one that implies its own. -/
def backToFront : GraphDefinition :=
  ⟨[.extension ⟨"bow", "oar", some "boat", none, none⟩,
      .extension ⟨"buoy", "bell", none, none, none⟩,
      .extension ⟨"stern", "oar", some "boat", none, none⟩, .group ⟨"boat", "shore", none⟩],
    [⟨none, "bow", [⟨"ahoy", [⟨none, "stern"⟩]⟩], []⟩]⟩

/-- The same graph from the front. -/
def frontToBack : GraphDefinition := { backToFront with nodes := backToFront.nodes.reverse }

/-- The same graph with the group moved to the front. -/
def groupsFirst : GraphDefinition :=
  { backToFront with
    nodes := backToFront.groups.map .group ++ backToFront.extensions.map .extension }

/-- All three are accepted. Read from the front, the graph has the same rows; with only the group
moved, it is started by the same command. -/
theorem node_order_irrelevant_backToFront :
    let s : StartGraph := ⟨.ofGraph "app" "1", none, backToFront.topology "app" "1"⟩
    let s' : StartGraph := ⟨.ofGraph "app" "1", none, frontToBack.topology "app" "1"⟩
    backToFront.Reorders frontToBack ∧ backToFront.Reorders groupsFirst ∧
    ofDefinition backToFront "app" "1" = .ok s ∧ ofDefinition frontToBack "app" "1" = .ok s' ∧
    s'.topology.extensions.map (·.name) = ["stern", "buoy", "bow"] ∧
    s.topology.SameRows s'.topology ∧
    ofDefinition groupsFirst "app" "1" = .ok s := by
  intro s s'
  have hreversed : backToFront.Reorders frontToBack := ⟨List.reverse_perm _, rfl⟩
  have hmoved : backToFront.Reorders groupsFirst := by
    refine ⟨?_, rfl⟩
    show List.Perm ([_] ++ [_, _, _]) ([_, _, _] ++ [_])
    exact List.perm_append_comm
  have hs : ofDefinition backToFront "app" "1" = .ok s := rfl
  have hs' : ofDefinition frontToBack "app" "1" = .ok s' := rfl
  refine ⟨hreversed, hmoved, hs, hs', rfl, ?_, ?_⟩
  · exact ((node_order_irrelevant hreversed "app" "1").2.1 s s' hs hs').2.2
  · exact ((node_order_irrelevant hmoved "app" "1").2.2 rfl rfl s).2 hs

end StartGraph

end ExtensionGraph
