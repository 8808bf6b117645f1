import Mathlib.Tactic.Common
import ExtensionGraph.Proofs.GroupTable

/-!
# The extensions of an accepted graph

A graph that passes its checks declares no extension twice, so an app, a graph and a name stand for
one extension at most. What the tables of a started graph say about an extension is therefore what
its node declares: the group, the addon and the property. In particular the extensions that a group
has to create are the declared ones, in the order of the nodes, and every extension of an app has a
group that this app hosts.

## Main definitions

* `ExtensionGraph.GraphDefinition.declaredOn` — the declared extensions of any app.
* `ExtensionGraph.GraphDefinition.extensionsOn`, `ExtensionGraph.GraphDefinition.extensionsOf` —
  those of the host, and those of one of its groups.
* `ExtensionGraph.GraphDefinition.addresses` — the addresses of the extensions of a group.

## Main results

* `ExtensionGraph.GraphDefinition.extension?_eq_some_iff` — what a lookup by app and name finds.
* `ExtensionGraph.GraphDefinition.groupOf?_eq_some_iff` — which group an address belongs to.
* `ExtensionGraph.GraphDefinition.impliedKey_mem` — extensions have groups.
* `ExtensionGraph.StartGraph.members_eq_ite` — the members of a group.
* `ExtensionGraph.StartGraph.flatMap_declaredOn_perm` — the extensions of all groups of an app are
  those of the app, each of them once.
-/

namespace ExtensionGraph

/-- The address of an extension of an app. -/
def ExtensionNode.address (host graph : String) (n : ExtensionNode) : Loc :=
  .ofExtension host graph n.name

/-- What a group has to create for the extension. -/
def ExtensionNode.member (n : ExtensionNode) : Member := ⟨n.addon, n.name⟩

/-- A key that is stated matches its own value only. -/
lemma matchesKey_some_iff (wanted value : String) :
    matchesKey (some wanted) value = true ↔ value = wanted := by
  simp [matchesKey]

/-- A row matches app, graph and name exactly if these are its own. -/
lemma ExtensionInfo.matchesKeys_some_iff (app graph name : String) (i : ExtensionInfo) :
    i.matchesKeys (some app) (some graph) (some name) = true ↔
      i.loc.app = app ∧ i.loc.graph = graph ∧ i.name = name := by
  simp [matchesKeys, matchesKey_some_iff, and_assoc]

namespace GraphDefinition

variable {g : GraphDefinition} {host graph : String}

/-- The declared extensions of any app. Those that name no app belong to the host. -/
def declaredOn (g : GraphDefinition) (host app : String) : List ExtensionNode :=
  g.extensions.filter fun n => n.app.getD host = app

/-- The declared extensions of the host. -/
def extensionsOn (g : GraphDefinition) (host : String) : List ExtensionNode :=
  g.extensions.filter fun n => n.app.getD host = host

/-- The declared extensions of a group of an app. -/
def extensionsOf (g : GraphDefinition) (host group : String) : List ExtensionNode :=
  (g.extensionsOn host).filter fun n => n.groupName = group

/-- The addresses of the extensions of a group of an app. -/
def addresses (g : GraphDefinition) (host graph group : String) : List Loc :=
  (g.extensionsOf host group).map (ExtensionNode.address host graph)

/-- An extension is declared on an app if its node names the app, or names none and the app is the
host. -/
lemma mem_declaredOn {app : String} {n : ExtensionNode} :
    n ∈ g.declaredOn host app ↔ n ∈ g.extensions ∧ n.app.getD host = app := by
  simp [declaredOn]

/-- An extension runs on the host if its node names the host or no app. -/
lemma mem_extensionsOn {n : ExtensionNode} :
    n ∈ g.extensionsOn host ↔ n ∈ g.extensions ∧ n.app.getD host = host := by
  simp [extensionsOn]

/-- An extension belongs to a group of the host if it runs there and its node names the group. -/
lemma mem_extensionsOf {group : String} {n : ExtensionNode} :
    n ∈ g.extensionsOf host group ↔ n ∈ g.extensionsOn host ∧ n.groupName = group := by
  simp [extensionsOf]

/-- The addresses of a group are those of its extensions. -/
lemma mem_addresses {group : String} {d : Loc} :
    d ∈ g.addresses host graph group ↔
      ∃ n ∈ g.extensionsOn host, n.groupName = group ∧ n.address host graph = d := by
  simp [addresses, mem_extensionsOf, and_assoc]

/-! ## Names -/

/-- A graph without a fault declares no extension twice. -/
lemma extensions_nodup (h : g.fault? host = none) :
    (g.extensions.map fun n => (n.app.getD host, n.name)).Nodup :=
  ((g.fault?_eq_none_iff host).1 h).extensions

/-- The extensions of an app have names of their own. -/
lemma declaredNames_nodup (h : g.fault? host = none) (app : String) :
    ((g.declaredOn host app).map (·.name)).Nodup := by
  have hpair := (List.pairwise_map.1 (extensions_nodup h)).filter fun n => n.app.getD host = app
  refine List.pairwise_map.2 (hpair.imp_of_mem fun {a b} ha hb hne hname => hne ?_)
  rw [(mem_declaredOn.1 ha).2, (mem_declaredOn.1 hb).2, hname]

/-- In a graph without a fault the extensions of the host differ by name. -/
lemma names_nodup (h : g.fault? host = none) : ((g.extensionsOn host).map (·.name)).Nodup :=
  declaredNames_nodup h host

/-- Extensions of an app with the same name are the same. -/
lemma eq_of_name_eq (h : g.fault? host = none) {n n' : ExtensionNode}
    (hn : n ∈ g.extensionsOn host) (hn' : n' ∈ g.extensionsOn host) (hname : n.name = n'.name) :
    n = n' :=
  List.inj_on_of_nodup_map (names_nodup h) hn hn' hname

/-! ## Lookups -/

/-- **A lookup by app and name finds the row of the declared extension**, and nothing else.

**Proof sketch.** A row matches exactly if its node is of this app, graph and name. The lookup finds
the first such row; since the names on the host are all different, there is no other. -/
theorem extension?_eq_some_iff (h : g.fault? host = none) {graph' name : String}
    {i : ExtensionInfo} :
    (g.topology host graph).extension? (some host) (some graph') (some name) = some i ↔
      ∃ n ∈ g.extensionsOn host, graph' = graph ∧ n.name = name ∧ i = n.info host graph := by
  have hmatch (n : ExtensionNode) :
      (n.info host graph).matchesKeys (some host) (some graph') (some name) = true ↔
        n.app.getD host = host ∧ graph = graph' ∧ n.name = name := by
    rw [ExtensionInfo.matchesKeys_some_iff]
    rfl
  have hfind : (g.topology host graph).extension? (some host) (some graph') (some name) =
      (g.extensions.find? fun n => (n.info host graph).matchesKeys (some host) (some graph')
        (some name)).map (ExtensionNode.info host graph) := by
    show (g.extensions.map (ExtensionNode.info host graph)).find? _ = _
    rw [List.find?_map]
    rfl
  rw [hfind, Option.map_eq_some_iff]
  constructor
  · rintro ⟨n, hf, rfl⟩
    have hm := List.find?_some hf
    obtain ⟨happ, hgraph, hname⟩ := (hmatch n).1 hm
    exact ⟨n, mem_extensionsOn.2 ⟨List.mem_of_find?_eq_some hf, happ⟩, hgraph.symm, hname, rfl⟩
  · rintro ⟨n, hn, rfl, hname, rfl⟩
    obtain ⟨hmem, happ⟩ := mem_extensionsOn.1 hn
    refine ⟨n, ?_, rfl⟩
    cases hf : g.extensions.find? fun n => (n.info host graph').matchesKeys (some host)
        (some graph') (some name) with
    | none =>
      have hno := List.find?_eq_none.1 hf n hmem
      exact absurd ((hmatch n).2 ⟨happ, rfl, hname⟩) hno
    | some n' =>
      have hm := List.find?_some hf
      obtain ⟨happ', -, hname'⟩ := (hmatch n').1 hm
      have hn' : n' ∈ g.extensionsOn host :=
        mem_extensionsOn.2 ⟨List.mem_of_find?_eq_some hf, happ'⟩
      rw [eq_of_name_eq h hn' hn (hname'.trans hname.symm)]

/-- The row of a declared extension is found under its name. -/
lemma extension?_of_mem (h : g.fault? host = none) {n : ExtensionNode}
    (hn : n ∈ g.extensionsOn host) :
    (g.topology host graph).extension? (some host) (some graph) (some n.name) =
      some (n.info host graph) :=
  (extension?_eq_some_iff h).2 ⟨n, hn, rfl, rfl, rfl⟩

/-- **An address on the app belongs to a group exactly if it is the address of one of the
extensions of the group.** -/
theorem groupOf?_eq_some_iff (h : g.fault? host = none) {graph' name group : String} :
    (g.topology host graph).groupOf? (some host) (some graph') (some name) = some group ↔
      Loc.ofExtension host graph' name ∈ g.addresses host graph group := by
  rw [Topology.groupOf?, Option.map_eq_some_iff, mem_addresses]
  constructor
  · rintro ⟨i, hi, hgroup⟩
    obtain ⟨n, hn, rfl, rfl, rfl⟩ := (extension?_eq_some_iff h).1 hi
    exact ⟨n, hn, hgroup, rfl⟩
  · rintro ⟨n, hn, hgroup, haddress⟩
    obtain ⟨-, hgraph, hname⟩ : host = host ∧ graph = graph' ∧ some n.name = some name :=
      Loc.mk.inj haddress
    exact ⟨n.info host graph,
      (extension?_eq_some_iff h).2 ⟨n, hn, hgraph.symm, Option.some.inj hname, rfl⟩, hgroup⟩

/-! ## Groups of extensions -/

/-- A group that is added is in the list under its key. -/
lemma mem_addGroup_name {groups : List GroupInfo} {x : GroupInfo} :
    x.key ∈ (addGroup groups x).map GroupInfo.key := by
  unfold addGroup
  split
  · next hx =>
    obtain ⟨y, hy, hsame⟩ := List.any_eq_true.1 hx
    exact List.mem_map.2 ⟨y, hy, (GroupInfo.sameGroup_iff y x).1 hsame⟩
  · exact List.mem_map_of_mem (List.mem_append_right _ (List.mem_singleton_self x))

/-- Adding a group takes none away. -/
lemma addGroup_subset (groups : List GroupInfo) (x : GroupInfo) :
    groups ⊆ addGroup groups x := by
  unfold addGroup
  split
  · exact List.Subset.refl _
  · exact List.subset_append_left _ _

/-- Adding groups takes none away. -/
lemma foldl_addGroup_subset (groups xs : List GroupInfo) :
    groups ⊆ xs.foldl addGroup groups := by
  induction xs generalizing groups with
  | nil => exact List.Subset.refl _
  | cons x xs ih => exact List.Subset.trans (addGroup_subset groups x) (ih _)

/-- Every group that is added is there in the end, under its app and its name. -/
lemma key_mem_foldl_addGroup (groups : List GroupInfo) {xs : List GroupInfo} {x : GroupInfo}
    (hx : x ∈ xs) : x.key ∈ (xs.foldl addGroup groups).map GroupInfo.key := by
  induction xs generalizing groups with
  | nil => cases hx
  | cons y xs ih =>
    rcases List.mem_cons.1 hx with rfl | hx
    · exact List.map_subset _ (foldl_addGroup_subset _ xs) mem_addGroup_name
    · exact ih _ hx

/-- **Every extension has a group**, which belongs to the same app. -/
theorem impliedKey_mem (graph : String) {n : ExtensionNode} (hn : n ∈ g.extensions) :
    (n.app.getD host, n.groupName) ∈ (g.groupInfos host graph).map GroupInfo.key :=
  key_mem_foldl_addGroup (g.groups.map (GroupNode.info host graph))
    (List.mem_map_of_mem (f := ExtensionNode.impliedGroup host graph) hn)

end GraphDefinition

namespace StartGraph

variable {g : GraphDefinition} {host graph : String} {s : StartGraph}

/-- **The members of a group are the extensions that are declared for it**, in their order, and
there are none in another graph.

**Proof sketch.** The table is the list of declared extensions, row by row. So filtering the rows by
app, graph and group is filtering the nodes, where the graph is the same for all. -/
theorem members_eq_ite (h : ofDefinition g host graph = .ok s) (app graph' group : String) :
    s.members app graph' group =
      if graph' = graph then
        ((g.declaredOn host app).filter fun n => n.groupName = group).map ExtensionNode.member
      else [] := by
  obtain ⟨-, rfl⟩ := ofDefinition_eq_ok h
  have hkeep (n : ExtensionNode) :
      (decide ((n.info host graph).loc.app = app) &&
        decide ((n.info host graph).loc.graph = graph') &&
          decide ((n.info host graph).group = group)) =
        (decide (n.groupName = group) && decide (n.app.getD host = app) &&
          decide (graph = graph')) := by
    rw [Bool.and_right_comm, Bool.and_comm (decide ((n.info host graph).loc.app = app))]
    rfl
  show (List.filter _ (g.extensions.map (ExtensionNode.info host graph))).map _ = _
  rw [List.filter_map, List.map_map]
  by_cases hgraph : graph' = graph
  · subst hgraph
    rw [if_pos rfl, GraphDefinition.declaredOn, List.filter_filter]
    refine congrArg (List.map ExtensionNode.member) (List.filter_congr fun n _ => ?_)
    exact (hkeep n).trans (by simp)
  · rw [if_neg hgraph, List.map_eq_nil_iff, List.filter_eq_nil_iff]
    intro n _ hn
    have hkept := (hkeep n).symm.trans hn
    rw [Bool.and_eq_true] at hkept
    exact hgraph (of_decide_eq_true hkept.2).symm

/-- The members of a group of the host are its declared extensions. -/
lemma members_eq (h : ofDefinition g host graph = .ok s) (group : String) :
    s.members host graph group = (g.extensionsOf host group).map ExtensionNode.member := by
  rw [members_eq_ite h, if_pos rfl]
  rfl

/-- The group that an extension names has a row, under the app of the extension. -/
lemma groupKey_mem (h : ofDefinition g host graph = .ok s) {n : ExtensionNode}
    (hn : n ∈ g.extensions) :
    (n.app.getD host, n.groupName) ∈ s.topology.groups.map GroupInfo.key := by
  obtain ⟨-, rfl⟩ := ofDefinition_eq_ok h
  exact GraphDefinition.impliedKey_mem graph hn

/-- The group of an extension that is declared on an app is among the groups of that app. -/
lemma declared_groupName_mem (h : ofDefinition g host graph = .ok s) {app : String}
    {n : ExtensionNode} (hn : n ∈ g.declaredOn host app) :
    n.groupName ∈ (s.groupsOf app).map (·.name) := by
  obtain ⟨hmem, happ⟩ := GraphDefinition.mem_declaredOn.1 hn
  obtain ⟨i, hi, hkey⟩ := List.mem_map.1 (groupKey_mem h hmem)
  obtain ⟨hiapp, hiname⟩ : i.loc.app = n.app.getD host ∧ i.name = n.groupName :=
    Prod.mk.inj hkey
  refine List.mem_map.2 ⟨i, List.mem_filter.2 ⟨hi, ?_⟩, hiname⟩
  simpa using hiapp.trans happ

/-- The group of an extension of the host is among the groups of the host. -/
lemma groupName_mem (h : ofDefinition g host graph = .ok s) {n : ExtensionNode}
    (hn : n ∈ g.extensionsOn host) : n.groupName ∈ (s.groupsOf host).map (·.name) :=
  declared_groupName_mem h hn

/-- Sorting a list by keys that are all different keeps every entry, once.

**Proof sketch.** Induction on the keys. What belongs to the first key comes first, and the
remaining keys sort the entries without it. -/
lemma flatMap_filter_perm {α κ : Type} [DecidableEq κ] (key : α → κ) {keys : List κ}
    (hnd : keys.Nodup) {l : List α} (hl : ∀ a ∈ l, key a ∈ keys) :
    (keys.flatMap fun k => l.filter fun a => key a = k).Perm l := by
  induction keys generalizing l with
  | nil =>
    have hnil : l = [] := List.eq_nil_iff_forall_not_mem.2 fun a ha => by simpa using hl a ha
    rw [hnil]
    exact .nil
  | cons k keys ih =>
    rw [List.nodup_cons] at hnd
    -- The entries without the first key are all that the other keys can see.
    have hrest : (keys.flatMap fun k' => l.filter fun a => key a = k') =
        keys.flatMap fun k' => (l.filter fun a => !decide (key a = k)).filter
          fun a => key a = k' := by
      refine List.flatMap_congr fun k' hk' => ?_
      rw [List.filter_filter]
      refine List.filter_congr fun a _ => ?_
      have hne : k' ≠ k := fun heq => hnd.1 (heq ▸ hk')
      by_cases ha : key a = k'
      · simp [ha, hne]
      · simp [ha]
    have hperm := ih hnd.2 (l := l.filter fun a => !decide (key a = k)) fun a ha => by
      obtain ⟨hmem, hne⟩ := List.mem_filter.1 ha
      exact (List.mem_cons.1 (hl a hmem)).resolve_left (by simpa using hne)
    rw [List.flatMap_cons, hrest]
    exact (hperm.append_left _).trans (List.filter_append_perm _ l)

/-- **The extensions of all groups of an app are the extensions of the app**, each of them once. -/
theorem flatMap_declaredOn_perm (h : ofDefinition g host graph = .ok s) (app : String) :
    (((s.groupsOf app).map (·.name)).flatMap fun group =>
      (g.declaredOn host app).filter fun n => n.groupName = group).Perm (g.declaredOn host app) :=
  flatMap_filter_perm ExtensionNode.groupName (names_nodup (groupKeys_nodup h) app)
    fun _ hn => declared_groupName_mem h hn

/-- The extensions of the host, group by group, are its extensions in another order. -/
lemma flatMap_extensionsOf_perm (h : ofDefinition g host graph = .ok s) :
    (((s.groupsOf host).map (·.name)).flatMap (g.extensionsOf host)).Perm (g.extensionsOn host) :=
  flatMap_declaredOn_perm h host

end StartGraph

end ExtensionGraph
