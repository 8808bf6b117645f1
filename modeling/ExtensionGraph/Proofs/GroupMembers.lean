import Mathlib.Tactic.Common
import ExtensionGraph.CommandLine.Session
import ExtensionGraph.Proofs.ExtensionTable

/-!
# Groups partition the extensions

Each extension of an accepted graph is a member of exactly one group, whichever way it came by its
group: the group may be declared, implied by the extension itself, shared with the extension it is
named after, or have no name at all. A group of the same name on another app is another group. So
the members of the groups of an app are the extensions of the app, sorted by their groups, and
whoever lists the groups with their members lists every extension exactly once.

## Main definitions

* `ExtensionGraph.CommandLine.Row` — an extension as it is listed below its group.
* `ExtensionGraph.CommandLine.rows` — the extensions that are listed in printed tables.
* `ExtensionGraph.CommandLine.Shows` — what printed tables say of a graph.

## Main results

* `ExtensionGraph.StartGraph.mem_members_iff` — an extension is in its group and in no other.
* `ExtensionGraph.CommandLine.rows_summary` — the tables list the members of all groups.
* `ExtensionGraph.CommandLine.rows_summary_perm` — these are all declared extensions.
* `ExtensionGraph.CommandLine.shows_summary` — the tables say what there is to say.
* `ExtensionGraph.StartGraph.groups_partition_extensions` — the members of the groups of an app,
  and what `validate` makes of them.
-/

namespace ExtensionGraph

namespace StartGraph

variable {g : GraphDefinition} {host graph : String} {s : StartGraph}

/-- The graph that is asked for has the id that was given. -/
lemma graph_eq (h : ofDefinition g host graph = .ok s) : s.graph = graph := by
  rw [(ofDefinition_eq_ok h).2]
  rfl

/-- The members of all groups of an app are the extensions of this app. -/
lemma flatMap_members_perm (h : ofDefinition g host graph = .ok s) (app : String) :
    (((s.groupsOf app).map (·.name)).flatMap (s.members app graph)).Perm
      ((g.declaredOn host app).map ExtensionNode.member) := by
  have hmembers : s.members app graph = fun group =>
      ((g.declaredOn host app).filter fun n => n.groupName = group).map ExtensionNode.member :=
    funext fun group => (members_eq_ite h app graph group).trans (if_pos rfl)
  rw [hmembers, ← List.map_flatMap]
  exact (flatMap_declaredOn_perm h app).map _

/-- The members of a group are the extensions that have its app and its name. -/
lemma members_eq_filter_key (h : ofDefinition g host graph = .ok s) (i : GroupInfo) :
    s.members i.loc.app graph i.name =
      (g.extensions.filter fun n => (n.app.getD host, n.groupName) = i.key).map
        ExtensionNode.member := by
  rw [members_eq_ite h, if_pos rfl, GraphDefinition.declaredOn, List.filter_filter]
  refine congrArg (List.map ExtensionNode.member) (List.filter_congr fun n _ => ?_)
  simp [GroupInfo.key, Bool.and_comm]

/-- **An extension is a member of its group, and of no other.** -/
theorem mem_members_iff (h : ofDefinition g host graph = .ok s) {app : String} {n : ExtensionNode}
    (hn : n ∈ g.declaredOn host app) (group : String) :
    n.member ∈ s.members app graph group ↔ group = n.groupName := by
  rw [members_eq_ite h, if_pos rfl, List.mem_map]
  constructor
  · rintro ⟨n', hn', hmember⟩
    obtain ⟨hdeclared, hgroup⟩ := List.mem_filter.1 hn'
    have hname : n'.name = n.name := congrArg Member.name hmember
    have hnodup := GraphDefinition.declaredNames_nodup (ofDefinition_eq_ok h).1 app
    rw [← List.inj_on_of_nodup_map hnodup hdeclared hn hname]
    exact (of_decide_eq_true hgroup).symm
  · rintro rfl
    exact ⟨n, List.mem_filter.2 ⟨hn, decide_eq_true rfl⟩, rfl⟩

/-- Where there is no group there are no members. -/
lemma members_eq_nil (h : ofDefinition g host graph = .ok s) {app graph' group : String}
    (hno : graph' = graph → group ∉ (s.groupsOf app).map (·.name)) :
    s.members app graph' group = [] := by
  rw [members_eq_ite h]
  split
  · next hgraph =>
    rw [List.map_eq_nil_iff, List.filter_eq_nil_iff]
    intro n hn hgroup
    have hmem := declared_groupName_mem h hn
    rw [of_decide_eq_true hgroup] at hmem
    exact hno hgraph hmem
  · rfl

end StartGraph

/-! ## Printed tables -/

namespace CommandLine

open Json

/-- An extension as it is listed below its group. -/
structure Row where
  app : String
  group : String
  addon : String
  name : String
deriving DecidableEq

/-- The items below a key. -/
def itemsAt (v : Value) (key : String) : List Value :=
  match v.member? key with
  | some (.array items) => items
  | _ => []

/-- The text below a key. -/
def textAt (v : Value) (key : String) : String := ((v.member? key).bind Value.asString?).getD ""

/-- The extensions that are listed in printed tables, group by group. -/
def rows (tables : Value) : List Row :=
  (itemsAt tables "extension_groups").flatMap fun group =>
    (itemsAt group "extensions").map fun e =>
      ⟨textAt group "app", textAt group "name", textAt e "addon", textAt e "name"⟩

/-- How a declared extension is to be listed. -/
def rowOf (host : String) (n : ExtensionNode) : Row :=
  ⟨n.app.getD host, n.groupName, n.addon, n.name⟩

/-- A group as it is listed. -/
structure Listing where
  app : String
  name : String
  addon : String
  members : List Member
deriving DecidableEq

/-- The groups that are listed in printed tables, each with its members. -/
def listings (tables : Value) : List Listing :=
  (itemsAt tables "extension_groups").map fun group =>
    ⟨textAt group "app", textAt group "name", textAt group "addon",
      (itemsAt group "extensions").map fun e => ⟨textAt e "addon", textAt e "name"⟩⟩

/-- What printed tables say of a graph that is to be started on an app. -/
structure Shows (tables : Value) (host : String) (s : StartGraph) : Prop where
  uri : tables.member? "app_uri" = some (.string host)
  /-- The groups are listed in their order, with their apps, addons and members. -/
  groups : listings tables = s.topology.groups.map fun i =>
    ⟨i.loc.app, i.name, i.addon, s.members i.loc.app s.graph i.name⟩
  /-- The number of the groups that the app hosts. -/
  localGroups : tables.member? "local_extension_groups" = some (.ofNat (s.groupCount host))
  routes : tables.member? "routes" = some (.ofNat s.topology.routes.size)

/-- The printed groups, one row for each group of the topology. -/
lemma itemsAt_summary (c : Config) (s : StartGraph) :
    itemsAt (summary c s) "extension_groups" = s.topology.groups.map (groupSummary s) := by
  simp [itemsAt, summary, Value.member?, Object.ofList, Object.find?_insert]

/-- **The printed tables say what there is to say**: which groups there are, with which addons and
members, how many of them the app hosts, and how many routes there are. -/
theorem shows_summary (c : Config) (s : StartGraph) : Shows (summary c s) c.uri s where
  uri := by simp [summary, Value.member?, Object.ofList, Object.find?_insert]
  groups := by
    rw [listings, itemsAt_summary, List.map_map]
    refine List.map_congr_left fun i _ => ?_
    simp [groupSummary, itemsAt, textAt, Value.member?, Value.asString?, Object.ofList,
      Object.find?_insert, Function.comp_def]
  localGroups := by simp [summary, Value.member?, Object.ofList, Object.find?_insert]
  routes := by simp [summary, Value.member?, Object.ofList, Object.find?_insert]

/-- **The printed tables list the members of all groups.** -/
theorem rows_summary (c : Config) (s : StartGraph) :
    rows (summary c s) = s.topology.groups.flatMap fun i =>
      (s.members i.loc.app s.graph i.name).map fun m => ⟨i.loc.app, i.name, m.addon, m.name⟩ := by
  rw [rows, itemsAt_summary, List.flatMap_map]
  refine List.flatMap_congr fun i _ => ?_
  simp [groupSummary, itemsAt, textAt, Value.member?, Value.asString?, Object.ofList,
    Object.find?_insert, Function.comp_def]

/-- **Every declared extension is listed exactly once**, below its app and its group.

**Proof sketch.** The rows are the extensions, sorted by the keys of the groups in the order of the
table. These keys are different, and each extension has one of them. -/
theorem rows_summary_perm {g : GraphDefinition} {host graph : String} {s : StartGraph}
    (h : StartGraph.ofDefinition g host graph = .ok s) (c : Config) :
    (rows (summary c s)).Perm (g.extensions.map (rowOf host)) := by
  -- The rows are the extensions, sorted by their apps and groups.
  have hsorted : rows (summary c s) = ((s.topology.groups.map GroupInfo.key).flatMap fun key =>
      g.extensions.filter fun n => (n.app.getD host, n.groupName) = key).map (rowOf host) := by
    rw [rows_summary, List.flatMap_map, List.map_flatMap]
    refine List.flatMap_congr fun i _ => ?_
    rw [StartGraph.graph_eq h, StartGraph.members_eq_filter_key h, List.map_map]
    refine List.map_congr_left fun n hn => ?_
    have hkey : (n.app.getD host, n.groupName) = i.key :=
      of_decide_eq_true (List.mem_filter.1 hn).2
    obtain ⟨happ, hname⟩ := Prod.mk.inj hkey
    rw [rowOf, happ, hname]
    rfl
  rw [hsorted]
  exact (StartGraph.flatMap_filter_perm (fun n : ExtensionNode => (n.app.getD host, n.groupName))
    (StartGraph.groupKeys_nodup h) fun n hn => StartGraph.groupKey_mem h hn).map _

/-- The file with a text is read as this text. -/
lemma ofFile_ofText (text : String) :
    GraphDefinition.ofFile (.ofText text) = GraphDefinition.ofText text := by
  rw [GraphDefinition.ofFile, File.ofText, File.text, String.fromUTF8?,
    String.toUTF8_eq_toByteArray, dif_pos text.isValidUTF8]
  rfl

/-- `validate` prints the tables of a graph that is accepted. -/
lemma validate_eq_ok {c : Config} {i : Inputs} {g : GraphDefinition} {s : StartGraph}
    (hread : GraphDefinition.ofFile i.graph = .ok g)
    (h : StartGraph.ofDefinition g c.uri "validate" = .ok s) (path : String) :
    validate c path i = .ok ((summary c s).pretty ++ "\n") := by
  rw [validate, hread]
  show (StartGraph.ofDefinition g c.uri "validate").mapError Report.ofError >>= _ = _
  rw [h]
  rfl

end CommandLine

open CommandLine in
/-- **The groups partition the extensions.** Put together, the members of the groups of an app are
the extensions that are declared for this app, in some order and with names of their own. Each of
them is a member of one group only, and each group keeps the order of the declaration. There are no
members in another graph and none of a group that the app does not have. Therefore what `validate`
prints of a graph that it accepts lists every declared extension exactly once.

**Proof sketch.** The rows of an accepted graph are its declared extensions, and each of their
groups has a row. Sorting by group is therefore a permutation (`flatMap_members_perm`); the names of
one app are all different, which makes the parts disjoint. The printed rows are the same lists, read
back by `rows_summary_perm`. -/
theorem StartGraph.groups_partition_extensions {g : GraphDefinition} {host graph : String}
    {s : StartGraph} (h : ofDefinition g host graph = .ok s) :
    (∀ app,
      let together := ((s.groupsOf app).map (·.name)).flatMap (s.members app s.graph)
      together.Perm ((g.declaredOn host app).map ExtensionNode.member) ∧
      (together.map (·.name)).Nodup ∧
      ∀ n ∈ g.declaredOn host app, ∀ group,
        n.member ∈ s.members app s.graph group ↔ group = n.groupName) ∧
    (∀ app group, s.members app s.graph group =
      ((g.declaredOn host app).filter fun n => n.groupName = group).map ExtensionNode.member) ∧
    (∀ app graph' group, (graph' = s.graph → group ∉ (s.groupsOf app).map (·.name)) →
      s.members app graph' group = []) ∧
    ∀ c path i, c.uri = host → graph = "validate" → GraphDefinition.ofFile i.graph = .ok g →
      validate c path i = .ok ((summary c s).pretty ++ "\n") ∧
      (rows (summary c s)).Perm (g.extensions.map (rowOf host)) ∧
      ((rows (summary c s)).map fun r => (r.app, r.name)).Nodup := by
  obtain rfl : s.graph = graph := graph_eq h
  have hfault := (ofDefinition_eq_ok h).1
  refine ⟨fun app => ⟨flatMap_members_perm h app, ?_, fun n hn => mem_members_iff h hn⟩,
    fun app group => (members_eq_ite h app _ group).trans (if_pos rfl),
    fun app graph' group => members_eq_nil h, ?_⟩
  · rw [((flatMap_members_perm h app).map (·.name)).nodup_iff, List.map_map]
    exact GraphDefinition.declaredNames_nodup hfault app
  · rintro c path i rfl hgraph hread
    have hperm := rows_summary_perm h c
    refine ⟨validate_eq_ok hread (hgraph ▸ h) path, hperm, ?_⟩
    rw [(hperm.map fun r => (r.app, r.name)).nodup_iff, List.map_map]
    exact GraphDefinition.extensions_nodup hfault

/-- Extensions that come by their groups in all ways: by themselves, by the name of another
extension, by a group without a name, and on another app. The declared group has no members. -/
def crew : GraphDefinition :=
  ⟨[.extension ⟨"a", "oar", none, none, none⟩, .extension ⟨"b", "oar", some "a", none, none⟩,
      .extension ⟨"a", "kite", none, some "there", none⟩,
      .extension ⟨"c", "sail", some "", none, none⟩, .group ⟨"d", "raft", none⟩], []⟩

/-- The text of the graph, with arrays for records. -/
def crew.text : String :=
  "[[[\"extension\",\"a\",\"oar\"],[\"extension\",\"b\",\"oar\",\"a\"],[\"extension\",\"a\"," ++
    "\"kite\",null,\"there\"],[\"extension\",\"c\",\"sail\",\"\"],[\"extension_group\",\"d\"," ++
    "\"raft\"]]]"

set_option maxRecDepth 2000 in
open CommandLine in
/-- The groups of one name on two apps keep apart, and the printed tables list everybody. -/
theorem StartGraph.groups_partition_extensions_crew :
    let s : StartGraph :=
      ⟨.ofGraph "localhost" "validate", none, crew.topology "localhost" "validate"⟩
    ofDefinition crew "localhost" "validate" = .ok s ∧
    s.members "localhost" "validate" "a" = [⟨"oar", "a"⟩, ⟨"oar", "b"⟩] ∧
    s.members "there" "validate" "a" = [⟨"kite", "a"⟩] ∧
    s.members "localhost" "validate" "" = [⟨"sail", "c"⟩] ∧
    s.members "localhost" "validate" "d" = [] ∧ s.members "there" "validate" "" = [] ∧
    validate .default "crew.json" ⟨none, .ofText crew.text, [], "1"⟩ =
      .ok ((summary .default s).pretty ++ "\n") ∧
    (rows (summary .default s)).Perm
      [⟨"localhost", "a", "oar", "a"⟩, ⟨"localhost", "a", "oar", "b"⟩,
        ⟨"there", "a", "kite", "a"⟩, ⟨"localhost", "", "sail", "c"⟩] := by
  intro s
  have hs : ofDefinition crew "localhost" "validate" = .ok s := rfl
  have hread : GraphDefinition.ofFile (.ofText crew.text) = .ok crew :=
    (ofFile_ofText crew.text).trans (by cbv)
  obtain ⟨-, hmembers, hnone, hprinted⟩ := groups_partition_extensions hs
  obtain ⟨hvalid, hrows, -⟩ :=
    hprinted .default "crew.json" ⟨none, .ofText crew.text, [], "1"⟩ rfl rfl hread
  exact ⟨hs, hmembers "localhost" "a", hmembers "there" "a", hmembers "localhost" "",
    hmembers "localhost" "d", hnone "there" "validate" "" fun _ => by decide, hvalid, hrows⟩

end ExtensionGraph
