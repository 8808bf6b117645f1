import Mathlib.Tactic.Common
import Mathlib.Data.List.Nodup
import ExtensionGraph.Graph.Definition

/-!
# The checks of a graph

A graph is asked many things, one after the other: whether each node has a name and an addon, then
whether each node differs from those before it, and then whether the ends of the connections are
declared. It is accepted if the answer is always yes, and this is what it means to be well formed.
Otherwise it is told about the first check that it fails, and about no other.

The checks are written down as a list, so that "first" has a meaning. Each of them says by itself
what it asks for and what the complaint is; no check knows what the checks before it have found out.

## Main definitions

* `ExtensionGraph.GraphDefinition.Declares` — an app and a name stand for a declared extension.
* `ExtensionGraph.GraphDefinition.WellFormed` — what a graph has to be like on its host.
* `ExtensionGraph.Check`, `ExtensionGraph.Check.Holds`, `ExtensionGraph.Check.fault` — a check, when
  it is passed, and the complaint if it is not.
* `ExtensionGraph.GraphDefinition.checks` — the checks of a graph in their order.

## Main results

* `ExtensionGraph.GraphDefinition.fault?_eq_findSome?` — the fault of a graph is that of the first
  check that it fails.
* `ExtensionGraph.nodes_nodup_iff` — nodes that are told apart, kind by kind.
* `ExtensionGraph.GraphDefinition.wellFormed_iff` — a graph is well formed if it passes all checks.
* `ExtensionGraph.GraphDefinition.fault?_eq_none_iff` — and then it has no fault.
* `ExtensionGraph.GraphDefinition.wellFormed_or_first_fault` — which graphs are accepted, and what
  the others are told.
-/

namespace ExtensionGraph

/-- An app and a name stand for a declared extension. Whatever names no app belongs to the host. -/
def GraphDefinition.Declares (g : GraphDefinition) (host : String) (app : Option String)
    (name : String) : Prop :=
  ∃ n ∈ g.extensions, n.app.getD host = app.getD host ∧ n.name = name

/-- A graph that its host can start. -/
structure GraphDefinition.WellFormed (g : GraphDefinition) (host : String) : Prop where
  named : ∀ n ∈ g.nodes, n.name ≠ "" ∧ n.addon ≠ ""
  /-- No two extensions share their app and their name. -/
  extensions : (g.extensions.map fun n => (n.app.getD host, n.name)).Nodup
  /-- No two groups do; an extension and a group may. -/
  groups : (g.groups.map fun n => (n.app.getD host, n.name)).Nodup
  sources : ∀ c ∈ g.connections, g.Declares host c.app c.extension
  dests : ∀ c ∈ g.connections, ∀ f ∈ c.cmd ++ c.data, ∀ d ∈ f.dest,
    g.Declares host d.app d.extension

/-- Something that is asked of a graph. -/
inductive Check where
  /-- A node has a name and an addon. -/
  | named (n : Node)
  /-- A node differs from the nodes before it. -/
  | unique (earlier : List Node) (n : Node)
  /-- The source of a connection is declared. -/
  | source (c : Connection)
  /-- A destination of a flow is declared. -/
  | dest (f : Flow) (d : FlowDest)

namespace Check

/-- A graph passes a check on its host. -/
def Holds (g : GraphDefinition) (host : String) : Check → Prop
  | .named n => n.name ≠ "" ∧ n.addon ≠ ""
  | .unique earlier n =>
    ∀ m ∈ earlier, ¬ (m.kind = n.kind ∧ m.appOn host = n.appOn host ∧ m.name = n.name)
  | .source c => g.Declares host c.app c.extension
  | .dest _ d => g.Declares host d.app d.extension

/-- What a graph is told that fails a check. -/
def fault : Check → GraphFault
  | .named n => .unnamed n.kind
  | .unique _ n => n.duplicate
  | .source c => .unknownSource c.extension
  | .dest f d => .unknownDestination d.extension f.name

instance (g : GraphDefinition) (host : String) (app : Option String) (name : String) :
    Decidable (g.Declares host app name) :=
  inferInstanceAs (Decidable (∃ n ∈ g.extensions, n.app.getD host = app.getD host ∧ n.name = name))

instance decidableHolds (g : GraphDefinition) (host : String) :
    (c : Check) → Decidable (c.Holds g host)
  | .named n => inferInstanceAs (Decidable (n.name ≠ "" ∧ n.addon ≠ ""))
  | .unique earlier n => inferInstanceAs (Decidable (∀ m ∈ earlier,
      ¬ (m.kind = n.kind ∧ m.appOn host = n.appOn host ∧ m.name = n.name)))
  | .source c => inferInstanceAs (Decidable (g.Declares host c.app c.extension))
  | .dest _ d => inferInstanceAs (Decidable (g.Declares host d.app d.extension))

/-- The complaint about a check, if the graph fails it. -/
def fault? (g : GraphDefinition) (host : String) (c : Check) : Option GraphFault :=
  if c.Holds g host then none else some c.fault

/-- A check finds no fault exactly if it holds. -/
lemma fault?_eq_none_iff {g : GraphDefinition} {host : String} {c : Check} :
    c.fault? g host = none ↔ c.Holds g host := by
  unfold fault?
  by_cases h : c.Holds g host
  · simp [h]
  · simp [h]

/-- A check finds its own fault, exactly if it does not hold. -/
lemma fault?_eq_some_iff {g : GraphDefinition} {host : String} {c : Check} {f : GraphFault} :
    c.fault? g host = some f ↔ ¬ c.Holds g host ∧ f = c.fault := by
  unfold fault?
  by_cases h : c.Holds g host
  · simp [h]
  · simp [h, eq_comm]

end Check

/-- Each node is compared with those before it. -/
def uniqueChecks : List Node → List Node → List Check
  | _, [] => []
  | earlier, n :: ns => .unique earlier n :: uniqueChecks (earlier ++ [n]) ns

/-- The destinations of a flow are looked up one after the other. -/
def Flow.checks (f : Flow) : List Check := f.dest.map (Check.dest f)

/-- The source of a connection is looked up first, then where its commands go, and then where its
data goes. -/
def Connection.checks (c : Connection) : List Check :=
  .source c :: (c.cmd ++ c.data).flatMap Flow.checks

/-! ## Nodes that are told apart -/

/-- No node is complained about exactly if no key occurs twice, and none was seen before.

**Proof sketch.** Induction on the nodes. A key that passes is added to those that were seen, so it
must be neither among the later keys nor among the earlier ones. -/
lemma duplicateNode?_eq_none_iff (host : String) (seen : List (NodeKind × String × String))
    (ns : List Node) :
    duplicateNode? host seen ns = none ↔
      (ns.map (Node.key host)).Nodup ∧ ∀ n ∈ ns, n.key host ∉ seen := by
  induction ns generalizing seen with
  | nil => simp [duplicateNode?]
  | cons n ns ih =>
    rw [duplicateNode?]
    by_cases hn : n.key host ∈ seen
    · rw [if_pos hn]
      simp [hn]
    · rw [if_neg hn, ih, List.map_cons, List.nodup_cons]
      constructor
      · rintro ⟨hnd, hseen⟩
        refine ⟨⟨fun hm => ?_, hnd⟩, ?_⟩
        · obtain ⟨n', hn', hk⟩ := List.mem_map.1 hm
          exact hseen n' hn' (by simp [hk])
        · intro n' hn'
          rcases List.mem_cons.1 hn' with rfl | hn'
          · exact hn
          · exact fun hs => hseen n' hn' (List.mem_cons_of_mem _ hs)
      · rintro ⟨⟨hm, hnd⟩, hseen⟩
        refine ⟨hnd, fun n' hn' hs => ?_⟩
        rcases List.mem_cons.1 hs with hk | hs
        · exact hm (List.mem_map.2 ⟨n', hn', hk⟩)
        · exact hseen n' (List.mem_cons_of_mem _ hn') hs

/-- A node has the key of an extension exactly if it is an extension with this app and name. -/
lemma Node.key_eq_extension_iff {host : String} (m : Node) (k : String × String) :
    m.key host = (.extension, k) ↔
      ∃ a, m.extension? = some a ∧ (a.app.getD host, a.name) = k := by
  cases m with
  | extension x => simp [key, kind, appOn, app, name, extension?]
  | group x => simp [key, kind, extension?]

/-- A node has the key of a group exactly if it is a group with this app and name. -/
lemma Node.key_eq_group_iff {host : String} (m : Node) (k : String × String) :
    m.key host = (.extensionGroup, k) ↔
      ∃ a, m.group? = some a ∧ (a.app.getD host, a.name) = k := by
  cases m with
  | extension x => simp [key, kind, group?]
  | group x => simp [key, kind, appOn, app, name, group?]

/-- Among all nodes, a key with a certain kind belongs to the nodes of this kind. -/
lemma key_mem_iff {α : Type} {host : String} {kind : NodeKind} {pick : Node → Option α}
    {key : α → String × String}
    (hpick : ∀ m k, m.key host = (kind, k) ↔ ∃ a, pick m = some a ∧ key a = k) (ns : List Node)
    (k : String × String) :
    (kind, k) ∈ ns.map (Node.key host) ↔ k ∈ (ns.filterMap pick).map key := by
  rw [List.mem_map, List.mem_map]
  constructor
  · rintro ⟨m, hm, hk⟩
    obtain ⟨a, ha, hka⟩ := (hpick m k).1 hk
    exact ⟨a, List.mem_filterMap.2 ⟨m, hm, ha⟩, hka⟩
  · rintro ⟨a, ha, hka⟩
    obtain ⟨m, hm, hma⟩ := List.mem_filterMap.1 ha
    exact ⟨m, hm, (hpick m k).2 ⟨a, hma, hka⟩⟩

/-- **Nodes are told apart by their keys exactly if the extensions are told apart by their apps and
names, and so are the groups.**

**Proof sketch.** Induction on the nodes. A key carries the kind of its node, so an extension can
only clash with an extension and a group with a group. -/
theorem nodes_nodup_iff (host : String) (ns : List Node) :
    (ns.map (Node.key host)).Nodup ↔
      ((ns.filterMap Node.extension?).map fun n => (n.app.getD host, n.name)).Nodup ∧
        ((ns.filterMap Node.group?).map fun n => (n.app.getD host, n.name)).Nodup := by
  induction ns with
  | nil => simp
  | cons n ns ih =>
    rw [List.map_cons, List.nodup_cons, ih]
    cases n with
    | extension x =>
      have hpicked : (Node.extension x :: ns).filterMap Node.extension? =
          x :: ns.filterMap Node.extension? := rfl
      have hleft : (Node.extension x :: ns).filterMap Node.group? =
          ns.filterMap Node.group? := rfl
      rw [hpicked, hleft, List.map_cons, List.nodup_cons, and_assoc]
      exact and_congr_left' (not_congr (key_mem_iff Node.key_eq_extension_iff ns _))
    | group x =>
      have hpicked : (Node.group x :: ns).filterMap Node.group? =
          x :: ns.filterMap Node.group? := rfl
      have hleft : (Node.group x :: ns).filterMap Node.extension? =
          ns.filterMap Node.extension? := rfl
      rw [hpicked, hleft, List.map_cons, List.nodup_cons, and_left_comm]
      exact and_congr_right' (and_congr_left' (not_congr (key_mem_iff Node.key_eq_group_iff ns _)))

namespace GraphDefinition

/-- The checks of a graph in their order. -/
def checks (g : GraphDefinition) : List Check :=
  g.nodes.map Check.named ++ uniqueChecks [] g.nodes ++ g.connections.flatMap Connection.checks

variable (g : GraphDefinition) (host : String)

/-! ## The first check that fails -/

/-- What is found first in lists that are put together is found in the first list that has any. -/
lemma findSome?_flatMap {α β γ : Type} (f : β → Option γ) (h : α → List β) (l : List α) :
    (l.flatMap h).findSome? f = l.findSome? fun a => (h a).findSome? f := by
  induction l with
  | nil => rfl
  | cons a l ih =>
    rw [List.flatMap_cons, List.findSome?_append, ih, List.findSome?_cons]
    cases (h a).findSome? f with
    | none => rfl
    | some b => rfl

/-- The keys of the extensions are those that the graph declares. -/
lemma mem_extensionKeys_iff {app : Option String} {name : String} :
    (app.getD host, name) ∈ g.extensionKeys host ↔ g.Declares host app name := by
  unfold extensionKeys Declares
  simp

/-- The first node without a name is the first fault of the checks on names. -/
lemma unnamed?_eq_findSome? :
    g.unnamed? = (g.nodes.map Check.named).findSome? (Check.fault? g host) := by
  rw [List.findSome?_map, unnamed?]
  refine congrArg (fun f => g.nodes.findSome? f) (funext fun n => ?_)
  show n.unnamed? = (Check.named n).fault? g host
  unfold Node.unnamed? Check.fault? Check.Holds
  by_cases hn : n.name = ""
  · simp [hn, Check.fault]
  · by_cases ha : n.addon = ""
    · simp [ha, Check.fault]
    · simp [hn, ha]

/-- The keys that have been seen are those of the nodes before, in whatever order.

**Proof sketch.** By induction over the nodes. The keys that have been seen are those of the nodes
before, so that the scan fails at a node exactly if the check for that node does. -/
lemma duplicateNode?_eq_findSome? (seen : List (NodeKind × String × String)) (earlier : List Node)
    (hseen : ∀ key, key ∈ seen ↔ key ∈ earlier.map (Node.key host)) (ns : List Node) :
    duplicateNode? host seen ns = (uniqueChecks earlier ns).findSome? (Check.fault? g host) := by
  induction ns generalizing seen earlier with
  | nil => rfl
  | cons n ns ih =>
    have hholds : n.key host ∉ seen ↔ (Check.unique earlier n).Holds g host := by
      rw [hseen, List.mem_map]
      simp [Check.Holds, Node.key]
    rw [duplicateNode?, uniqueChecks, List.findSome?_cons]
    by_cases hn : n.key host ∈ seen
    · have hfault : (Check.unique earlier n).fault? g host = some n.duplicate :=
        Check.fault?_eq_some_iff.2 ⟨fun h => hholds.2 h hn, rfl⟩
      rw [if_pos hn, hfault]
    · rw [if_neg hn, Check.fault?_eq_none_iff.2 (hholds.1 hn)]
      refine ih _ _ fun key => ?_
      rw [List.mem_cons, hseen, List.map_append, List.mem_append, or_comm]
      simp

/-- The fault of a flow is the first of its checks. -/
lemma flow_fault?_eq_findSome? (f : Flow) :
    f.fault? host (g.extensionKeys host) = f.checks.findSome? (Check.fault? g host) := by
  rw [Flow.fault?, Flow.checks, List.findSome?_map]
  refine congrArg (fun p => f.dest.findSome? p) (funext fun d => ?_)
  show _ = (Check.dest f d).fault? g host
  unfold Check.fault? Check.Holds FlowDest.key
  simp only [mem_extensionKeys_iff]
  rfl

/-- The fault of a connection is the first of its checks. -/
lemma connection_fault?_eq_findSome? (c : Connection) :
    c.fault? host (g.extensionKeys host) = c.checks.findSome? (Check.fault? g host) := by
  rw [Connection.fault?, Connection.checks, List.findSome?_cons, findSome?_flatMap]
  by_cases hc : g.Declares host c.app c.extension
  · have hkey : c.key host ∈ g.extensionKeys host := (g.mem_extensionKeys_iff host).2 hc
    have hfault : (Check.source c).fault? g host = none := Check.fault?_eq_none_iff.2 hc
    rw [if_pos hkey, hfault]
    exact congrArg (fun p => c.flows.findSome? p) (funext (g.flow_fault?_eq_findSome? host))
  · have hkey : c.key host ∉ g.extensionKeys host := fun h =>
      hc ((g.mem_extensionKeys_iff host).1 h)
    have hfault : (Check.source c).fault? g host = some (.unknownSource c.extension) :=
      Check.fault?_eq_some_iff.2 ⟨hc, rfl⟩
    rw [if_neg hkey, hfault]

/-- **The fault of a graph is that of the first check that it fails.** -/
theorem fault?_eq_findSome? : g.fault? host = g.checks.findSome? (Check.fault? g host) := by
  have hduplicate := g.duplicateNode?_eq_findSome? host [] [] (fun key => Iff.rfl) g.nodes
  rw [fault?, checks, List.findSome?_append, List.findSome?_append, findSome?_flatMap,
    g.unnamed?_eq_findSome? host, hduplicate]
  refine congrArg (Option.or _) ?_
  exact congrArg (fun p => g.connections.findSome? p)
    (funext (g.connection_fault?_eq_findSome? host))

/-! ## All checks -/

/-- Every node differs from those before it exactly if no two nodes share their keys. -/
lemma uniqueChecks_hold_iff :
    (∀ c ∈ uniqueChecks [] g.nodes, c.Holds g host) ↔ (g.nodes.map (Node.key host)).Nodup := by
  have hduplicate := g.duplicateNode?_eq_findSome? host [] [] (fun key => Iff.rfl) g.nodes
  have hnone := duplicateNode?_eq_none_iff host [] g.nodes
  rw [hduplicate, List.findSome?_eq_none_iff] at hnone
  constructor
  · intro h
    exact (hnone.1 fun c hc => Check.fault?_eq_none_iff.2 (h c hc)).1
  · intro h c hc
    exact Check.fault?_eq_none_iff.1 (hnone.2 ⟨h, fun n _ => List.not_mem_nil⟩ c hc)

/-- A connection passes its checks exactly if its source and all destinations are declared. -/
lemma connection_checks_hold_iff (c : Connection) :
    (∀ check ∈ c.checks, check.Holds g host) ↔
      g.Declares host c.app c.extension ∧
        ∀ f ∈ c.cmd ++ c.data, ∀ d ∈ f.dest, g.Declares host d.app d.extension := by
  rw [Connection.checks, List.forall_mem_cons, List.forall_mem_flatMap]
  refine and_congr Iff.rfl (forall₂_congr fun f _ => ?_)
  rw [Flow.checks, List.forall_mem_map]
  rfl

/-- **A graph is well formed exactly if it passes all of its checks.** -/
theorem wellFormed_iff : g.WellFormed host ↔ ∀ c ∈ g.checks, c.Holds g host := by
  have hkeys := (g.uniqueChecks_hold_iff host).trans (nodes_nodup_iff host g.nodes)
  unfold checks
  rw [List.forall_mem_append, List.forall_mem_append, hkeys, List.forall_mem_map,
    List.forall_mem_flatMap]
  constructor
  · intro h
    exact ⟨⟨h.named, h.extensions, h.groups⟩, fun c hc =>
      (g.connection_checks_hold_iff host c).2 ⟨h.sources c hc, h.dests c hc⟩⟩
  · rintro ⟨⟨hnamed, hextensions, hgroups⟩, hconnections⟩
    have hends (c : Connection) (hc : c ∈ g.connections) :=
      (g.connection_checks_hold_iff host c).1 (hconnections c hc)
    exact ⟨hnamed, hextensions, hgroups, fun c hc => (hends c hc).1, fun c hc => (hends c hc).2⟩

/-! ## The verdict -/

/-- A graph has no fault exactly if it is well formed. -/
theorem fault?_eq_none_iff : g.fault? host = none ↔ g.WellFormed host := by
  rw [fault?_eq_findSome?, List.findSome?_eq_none_iff, wellFormed_iff]
  exact forall₂_congr fun c _ => Check.fault?_eq_none_iff

/-- A graph is valid for a host exactly if it has no fault. -/
lemma validateFor_eq_ok_iff : g.validateFor host = .ok () ↔ g.fault? host = none := by
  unfold validateFor
  cases g.fault? host with
  | none => simp
  | some f => simp

/-- A graph is invalid for a host exactly if it has a fault, which is what the error tells. -/
lemma validateFor_eq_error_iff {err : Error} :
    g.validateFor host = .error err ↔ ∃ f, g.fault? host = some f ∧ err = .invalidGraph f := by
  unfold validateFor
  cases g.fault? host with
  | none => simp
  | some f => simp [eq_comm]

/-- **A graph is accepted exactly if it is well formed, and otherwise told about its first fault.**
The error says which check it is that fails, and the graph passes all checks before that one.

**Proof sketch.** The verdict is the first fault that is found along the list of checks. A check
gives a fault if and only if it does not hold. -/
theorem wellFormed_or_first_fault :
    (g.validateFor host = .ok () ↔ g.WellFormed host) ∧
    ∀ err, g.validateFor host = .error err ↔
      ∃ before check after, g.checks = before ++ check :: after ∧
        (∀ c ∈ before, c.Holds g host) ∧ ¬ check.Holds g host ∧
        err = .invalidGraph check.fault := by
  constructor
  · rw [validateFor_eq_ok_iff, fault?_eq_none_iff]
  · intro err
    rw [validateFor_eq_error_iff, fault?_eq_findSome?]
    constructor
    · rintro ⟨f, hf, rfl⟩
      obtain ⟨before, check, after, hsplit, hcheck, hbefore⟩ := List.findSome?_eq_some_iff.1 hf
      obtain ⟨hfails, rfl⟩ := Check.fault?_eq_some_iff.1 hcheck
      exact ⟨before, check, after, hsplit,
        fun c hc => Check.fault?_eq_none_iff.1 (hbefore c hc), hfails, rfl⟩
    · rintro ⟨before, check, after, hsplit, hbefore, hfails, rfl⟩
      refine ⟨check.fault, List.findSome?_eq_some_iff.2 ⟨before, check, after, hsplit, ?_, ?_⟩, rfl⟩
      · exact Check.fault?_eq_some_iff.2 ⟨hfails, rfl⟩
      · exact fun c hc => Check.fault?_eq_none_iff.2 (hbefore c hc)

-- Names come first: the last node is complained about before the second one.
example :
    let g : GraphDefinition := ⟨[.extension ⟨"a", "x", none, none, none⟩,
      .extension ⟨"a", "y", none, some "app", none⟩, .group ⟨"", "z", none⟩], []⟩
    g.validateFor "app" = .error (.invalidGraph (.unnamed .extensionGroup)) := rfl

end GraphDefinition

end ExtensionGraph
