import Mathlib.Tactic.Common
import Mathlib.Data.List.Pairwise
import ExtensionGraph.Registry
import ExtensionGraph.Topology.StartGraph
import ExtensionGraph.Proofs.GraphChecks
import ExtensionGraph.Proofs.Keyed

/-!
# The groups of an accepted graph

A graph that passes its checks declares no group twice, and an extension implies a group only where
nobody declares it. So an app and a name stand for one group at most, and the group that is looked
up by them is the one that was declared. The groups that addons build for it carry its names, since
the registry refuses any other.

## Main definitions

* `ExtensionGraph.GroupInfo.key` — the app and the name of a group.
* `ExtensionGraph.Registry.Builds` — a group that an addon builds for a declared group.

## Main results

* `ExtensionGraph.StartGraph.groupKeys_nodup` — no two groups share their app and their name.
* `ExtensionGraph.StartGraph.group?_of_mem` — a group is found by its app and its name.
* `ExtensionGraph.Registry.built_names` — the groups that are built for an app have the names
  that were declared.
-/

namespace ExtensionGraph

/-! ## Groups that are declared once -/

/-- The app and the name of a group. -/
def GroupInfo.key (g : GroupInfo) : String × String := (g.loc.app, g.name)

/-- Two rows are of the same group exactly if they have the same key. -/
lemma GroupInfo.sameGroup_iff (a b : GroupInfo) : a.sameGroup b = true ↔ a.key = b.key := by
  simp [sameGroup, key]

namespace GraphDefinition

variable {g : GraphDefinition} {host graph : String}

/-- A graph without a fault declares no group twice. -/
lemma groups_nodup (h : g.fault? host = none) :
    (g.groups.map fun n => (n.app.getD host, n.name)).Nodup :=
  ((g.fault?_eq_none_iff host).1 h).groups

/-- Adding a group keeps the keys apart. -/
lemma addGroup_nodup {groups : List GroupInfo} (h : (groups.map GroupInfo.key).Nodup)
    (x : GroupInfo) : ((addGroup groups x).map GroupInfo.key).Nodup := by
  unfold addGroup
  split
  · exact h
  · next hx =>
    rw [List.map_append, List.nodup_append]
    refine ⟨h, by simp, ?_⟩
    intro a ha b hb hab
    obtain ⟨y, hy, rfl⟩ := List.mem_map.1 ha
    obtain rfl : b = x.key := by simpa using hb
    refine hx (List.any_eq_true.2 ⟨y, hy, ?_⟩)
    rw [GroupInfo.sameGroup_iff]
    exact hab

/-- Adding groups keeps their keys different. -/
lemma foldl_addGroup_nodup {groups : List GroupInfo} (h : (groups.map GroupInfo.key).Nodup)
    (xs : List GroupInfo) : ((xs.foldl addGroup groups).map GroupInfo.key).Nodup := by
  induction xs generalizing groups with
  | nil => exact h
  | cons x xs ih => exact ih (addGroup_nodup h x)

/-- A graph without a fault has no two groups that share their app and their name. -/
lemma groupInfos_nodup (h : g.fault? host = none) :
    ((g.groupInfos host graph).map GroupInfo.key).Nodup := by
  refine foldl_addGroup_nodup ?_ _
  rw [List.map_map]
  exact groups_nodup h

end GraphDefinition

namespace StartGraph

variable {g : GraphDefinition} {host graph : String} {s : StartGraph}

/-- The command of an accepted graph has the tables of the graph, which is without a fault. -/
lemma ofDefinition_eq_ok (h : ofDefinition g host graph = .ok s) :
    g.fault? host = none ∧ s = ⟨.ofGraph host graph, none, g.topology host graph⟩ := by
  unfold ofDefinition GraphDefinition.validateFor at h
  cases hf : g.fault? host with
  | some f =>
    rw [hf] at h
    cases h
  | none =>
    rw [hf] at h
    cases h
    exact ⟨rfl, rfl⟩

/-- The command of a graph, if there is one, is known. -/
lemma ofDefinition_eq_ok_iff :
    ofDefinition g host graph = .ok s ↔
      g.fault? host = none ∧ s = ⟨.ofGraph host graph, none, g.topology host graph⟩ := by
  refine ⟨ofDefinition_eq_ok, ?_⟩
  rintro ⟨hf, rfl⟩
  rw [ofDefinition, GraphDefinition.validateFor, hf]
  rfl

/-- The groups of an accepted graph have apps and names of their own. -/
theorem groupKeys_nodup (h : ofDefinition g host graph = .ok s) :
    (s.topology.groups.map GroupInfo.key).Nodup := by
  obtain ⟨hf, rfl⟩ := ofDefinition_eq_ok h
  exact GraphDefinition.groupInfos_nodup hf

/-- The groups of one app have names of their own. -/
lemma names_nodup (h : (s.topology.groups.map GroupInfo.key).Nodup) (app : String) :
    ((s.groupsOf app).map (·.name)).Nodup := by
  have hpair := (List.pairwise_map.1 h).filter fun i => i.loc.app = app
  refine List.pairwise_map.2 (hpair.imp_of_mem fun {a b} ha hb hne hname => hne ?_)
  have haa : a.loc.app = app := by simpa using (List.mem_filter.1 ha).2
  have hba : b.loc.app = app := by simpa using (List.mem_filter.1 hb).2
  rw [GroupInfo.key, GroupInfo.key, haa, hba, hname]

/-- A group is looked up by its key. -/
lemma group?_eq_atKey? (t : Topology) (app name : String) :
    t.group? app name = atKey? GroupInfo.key t.groups (app, name) := by
  unfold Topology.group? atKey?
  congr 1
  funext i
  simp [GroupInfo.key]

/-- A group is found by its app and its name. -/
theorem group?_of_mem (h : (s.topology.groups.map GroupInfo.key).Nodup) {app : String}
    {info : GroupInfo} (hi : info ∈ s.groupsOf app) :
    s.topology.group? app info.name = some info := by
  obtain ⟨hmem, happ⟩ := List.mem_filter.1 hi
  have hkey : (app, info.name) = info.key := by
    rw [GroupInfo.key, show info.loc.app = app by simpa using happ]
  rw [group?_eq_atKey?, hkey]
  exact atKey?_of_mem h hmem

end StartGraph

/-! ## Groups that are built -/

/-- The addon of a declared group builds the given group, after some time. -/
def Registry.Builds (r : Registry) (info : GroupInfo) (g : Group) : Prop :=
  ∃ delay, r.createGroup info.addon info.name = .ok ⟨delay, .ok g⟩

/-- The registry refuses groups with another name than the declared one.

**Proof sketch.** An addon may fail, in which case nothing is built, or make a group, which the
registry compares by name before it hands it out. -/
lemma Registry.Builds.name_eq {r : Registry} {info : GroupInfo} {g : Group}
    (h : r.Builds info g) : g.name = info.name := by
  obtain ⟨delay, hc⟩ := h
  unfold createGroup at hc
  split at hc
  · cases hc
  · next build _ =>
    have hr : (build info.name).result.bind (checkName info.addon info.name) = .ok g := by
      exact congrArg Creation.result (Except.ok.inj hc)
    cases hb : (build info.name).result with
    | error e =>
      rw [hb] at hr
      cases hr
    | ok g' =>
      rw [hb] at hr
      have hcheck : checkName info.addon info.name g' = .ok g := hr
      unfold checkName at hcheck
      split at hcheck
      · next hn =>
        cases hcheck
        exact hn
      · cases hcheck

/-- Groups that are built for declared groups have their names. -/
theorem Registry.built_names {r : Registry} {infos : List GroupInfo} {gs : List Group}
    (h : List.Forall₂ r.Builds infos gs) : gs.map (·.name) = infos.map (·.name) := by
  induction h with
  | nil => rfl
  | cons hb _ ih => rw [List.map_cons, List.map_cons, hb.name_eq, ih]

end ExtensionGraph
