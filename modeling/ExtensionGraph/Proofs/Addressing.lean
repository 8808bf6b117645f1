import ExtensionGraph.Proofs.HostedExtensions
import ExtensionGraph.Proofs.RouteTable

/-!
# The addresses of messages that leave an extension

A message leaves its extension with the destinations that it names, or else with those of the
connections. What a named destination leaves empty is filled in from the sender's address. What the
connections say is taken as it stands, so a destination of a connection whose app is the empty text
stays without an app. Such a graph is accepted, if a node has the same empty app.

## Main definitions

* `ExtensionGraph.Env.Posts` — what is posted for a message that is sent.
* `ExtensionGraph.Env.dests` — the destinations with which a message leaves.
* `ExtensionGraph.Env.Stands` — the environment of an extension of a started graph.
* `ExtensionGraph.Env.WellAddressed` — how far a message is addressed when it leaves.

## Main results

* `ExtensionGraph.Env.posts_iff`, `ExtensionGraph.Env.address_eq_ok_iff` — which message is posted.
* `ExtensionGraph.Engine.stands_of_hosted` — the extensions on threads have such environments.
* `ExtensionGraph.Env.wellAddressed_of_posts` — messages are addressed but for empty apps of
  connections.
-/

namespace ExtensionGraph

/-! ## Resolving -/

namespace Loc

variable {app graph : String}

/-- An address that has been filled in names a graph, if the graph that fills it in has an id. -/
lemma resolve_graph_ne (hg : graph ≠ "") (l : Loc) : (l.resolve app graph).graph ≠ "" := by
  show (if l.graph = "" then graph else l.graph) ≠ ""
  split
  · exact hg
  · next h => exact h

/-- The app is filled in, if there is one to fill in. -/
lemma resolve_app_ne_iff (l : Loc) :
    (l.resolve app graph).app ≠ "" ↔ app ≠ "" ∨ l.app ≠ "" := by
  show (if l.app = "" then app else l.app) ≠ "" ↔ _
  by_cases h : l.app = ""
  · rw [if_pos h]
    simp [h]
  · rw [if_neg h]
    simp [h]

/-- An address with a graph stays as it is if it has an app, or if there is none to fill in. -/
lemma resolve_eq_self_iff {l : Loc} (hl : l.graph ≠ "") :
    l.resolve app graph = l ↔ app = "" ∨ l.app ≠ "" := by
  obtain ⟨app', graph', extension⟩ := l
  change graph' ≠ "" at hl
  by_cases h : app' = ""
  · simp [resolve, h, hl]
  · simp [resolve, h, hl]

end Loc

/-- Several addresses stay as they are if each of them does. -/
lemma map_resolve_eq_self_iff {app graph : String} {ds : List Loc} (hds : ∀ d ∈ ds, d.graph ≠ "") :
    ds.map (Loc.resolve app graph) = ds ↔ app = "" ∨ ∀ d ∈ ds, d.app ≠ "" := by
  have hself : ds.map (Loc.resolve app graph) = ds ↔ ∀ d ∈ ds, d.resolve app graph = d := by
    simpa using List.map_inj_left (f := Loc.resolve app graph) (g := id) (l := ds)
  rw [hself, ← forall_or_left]
  refine forall_congr' fun d => ?_
  rw [← forall_or_left]
  exact forall_congr' fun hd => Loc.resolve_eq_self_iff (hds d hd)

/-! ## What is posted -/

namespace Env

variable (e : Env)

/-- Sending a message posts another one, which is routed to its destinations. -/
def Posts (mode : SendMode) (engine : Mailbox EngineMsg) (m posted : Msg) : Prop :=
  e.send mode m engine = (engine.post (.route posted), .ok ())

/-- The destinations with which a message leaves. -/
def dests (m : Msg) : List Loc :=
  if m.dest = [] then e.connected m else m.dest.map (Loc.resolve e.loc.app e.loc.graph)

variable {e} {mode : SendMode} {engine : Mailbox EngineMsg} {m posted : Msg}

/-- **A message leaves with its destinations**, if it has any, and with its sender. -/
theorem address_eq_ok_iff :
    e.address m = .ok posted ↔
      posted = { m with src := e.loc, dest := e.dests m } ∧ e.dests m ≠ [] := by
  have hconnected : e.connected { m with src := e.loc } = e.connected m := rfl
  unfold address dests
  dsimp only
  rw [hconnected]
  by_cases hm : m.dest = []
  · rw [if_pos (List.isEmpty_iff.2 hm), if_pos hm]
    by_cases hc : e.connected m = []
    · simp [hc]
    · rw [if_neg (by simpa using hc), Except.ok.injEq]
      exact ⟨fun h => ⟨h.symm, hc⟩, fun h => h.1.symm⟩
  · rw [if_neg (by simpa using hm), if_neg hm, Except.ok.injEq]
    exact ⟨fun h => ⟨h.symm, by simpa using hm⟩, fun h => h.1.symm⟩

/-- Who looks into a mailbox that listens can tell what has been posted. -/
lemma post_injective (hl : engine.listening = true) {a b : EngineMsg}
    (h : engine.post a = engine.post b) : a = b := by
  have hmessages := congrArg Mailbox.messages h
  rw [Mailbox.post_messages, Mailbox.post_messages, if_pos hl, if_pos hl] at hmessages
  simpa using hmessages

/-- **A message is posted** if it is of the right kind, the engine listens and it has a
destination.

**Proof sketch.** The three conditions are looked at one after the other, as the operation does: the
kind, the address, and whether the engine listens. From the mailbox afterwards one can read back
which message was posted. -/
theorem posts_iff :
    e.Posts mode engine m posted ↔
      checkKind mode m = .ok () ∧ engine.listening = true ∧ e.address m = .ok posted := by
  unfold Posts send
  cases hk : checkKind mode m with
  | error err => simp
  | ok u =>
    cases ha : e.address m with
    | error err => simp
    | ok m' =>
      dsimp only
      unfold post
      by_cases hl : engine.listening = true
      · rw [if_pos hl]
        constructor
        · intro h
          cases post_injective hl (Prod.mk.inj h).1
          exact ⟨rfl, hl, rfl⟩
        · rintro ⟨-, -, h⟩
          cases h
          rfl
      · rw [if_neg hl]
        simp [hl]

/-- What is posted for a message that names the destinations itself. -/
lemma posts_explicit (h : e.Posts mode engine m posted) {ds : List Loc} (hds : ds ≠ [])
    (posted' : Msg) :
    e.Posts mode engine { m with dest := ds } posted' ↔
      posted' = { m with src := e.loc, dest := ds.map (Loc.resolve e.loc.app e.loc.graph) } := by
  obtain ⟨hkind, hlistening, -⟩ := posts_iff.1 h
  have hkind' : checkKind mode { m with dest := ds } = .ok () := hkind
  have hnamed : e.dests { m with dest := ds } =
      ds.map (Loc.resolve e.loc.app e.loc.graph) := if_neg hds
  rw [posts_iff, address_eq_ok_iff, hnamed]
  constructor
  · rintro ⟨-, -, h, -⟩
    exact h
  · intro h
    exact ⟨hkind', hlistening, h, by simpa using hds⟩

/-! ## Environments in a graph -/

/-- The environment has the address of an extension of a graph, and the tables of the graph. -/
structure Stands (e : Env) (s : StartGraph) (i : ExtensionInfo) : Prop where
  row : i ∈ s.topology.extensions
  loc : e.loc = i.loc
  topology : e.topology = s.topology

variable {g : GraphDefinition} {host graph : String} {s : StartGraph} {n : ExtensionNode}

/-- The connections that a message of an extension can take. -/
def route (n : ExtensionNode) (host : String) (m : Msg) : RouteKey :=
  ⟨n.app.getD host, n.name, m.kind, m.name⟩

/-- The connections bring a message to the destinations that are declared for it. -/
lemma Stands.connected_eq (h : e.Stands s (n.info host graph))
    (hs : StartGraph.ofDefinition g host graph = .ok s) (m : Msg) :
    e.connected m = (g.flowDests host (route n host m)).map (FlowDest.loc host graph) := by
  obtain ⟨-, rfl⟩ := StartGraph.ofDefinition_eq_ok hs
  unfold connected
  rw [h.loc, h.topology]
  exact RoutingTable.lookup_ofConnections g host graph (route n host m)

/-- **How far a message is addressed when it leaves an extension of a graph.** -/
structure WellAddressed (g : GraphDefinition) (host graph : String) (n : ExtensionNode) (e : Env)
    (mode : SendMode) (engine : Mailbox EngineMsg) (m posted : Msg) : Prop where
  /-- What is posted is the message with its sender and its destinations. -/
  posted_eq : posted = { m with
    src := .ofExtension (n.app.getD host) graph n.name
    dest := if m.dest = [] then
        (g.flowDests host (route n host m)).map (FlowDest.loc host graph)
      else m.dest.map (Loc.resolve (n.app.getD host) graph) }
  /-- It has a destination. -/
  somewhere : posted.dest ≠ []
  /-- Every destination has a graph. -/
  graphs : ∀ d ∈ posted.dest, d.graph ≠ ""
  /-- Every destination has an app, unless a connection has given it the empty one, or the sender's
  own app is empty. -/
  apps : (∀ d ∈ posted.dest, d.app ≠ "") ↔
    if m.dest = [] then ∀ d ∈ g.flowDests host (route n host m), d.app ≠ some ""
    else n.app ≠ some "" ∨ ∀ d ∈ m.dest, d.app ≠ ""
  /-- Naming the destinations of the connections instead makes no difference, unless one of them has
  the empty app and the sender has one to fill in. -/
  again : m.dest = [] →
    (e.Posts mode engine { m with dest := posted.dest } posted ↔
      n.app = some "" ∨ ∀ d ∈ g.flowDests host (route n host m), d.app ≠ some "")

/-- The app of an end of a connection is empty only if it is said to be. -/
lemma getD_app_ne_iff (hhost : host ≠ "") (app : Option String) :
    app.getD host ≠ "" ↔ app ≠ some "" := by
  cases app with
  | none => simpa using hhost
  | some a => simp

/-- **Messages leave an extension of an accepted graph with an app and a graph for every
destination**, and the same whether the connections or the sender says where they go; exceptions are
the empty apps that connections give, and nothing else.

**Proof sketch.** Named destinations are filled in. Those of the connections get the app and the
graph that host them by default, so that they lack an app only if it is declared to be empty.
Filling them in again changes these and no others. -/
theorem wellAddressed_of_posts (hs : StartGraph.ofDefinition g host graph = .ok s)
    (hhost : host ≠ "") (hgraph : graph ≠ "") (he : e.Stands s (n.info host graph))
    (h : e.Posts mode engine m posted) :
    WellAddressed g host graph n e mode engine m posted := by
  obtain ⟨hposted, hsome⟩ := address_eq_ok_iff.1 (posts_iff.1 h).2.2
  have hdest : posted.dest = e.dests m := congrArg Msg.dest hposted
  have happ : e.loc.app = n.app.getD host := congrArg Loc.app he.loc
  have hgr : e.loc.graph = graph := congrArg Loc.graph he.loc
  have hconnected := he.connected_eq hs m
  -- All destinations have a graph, wherever they come from.
  have hgraphs : ∀ d ∈ posted.dest, d.graph ≠ "" := by
    rw [hdest, dests]
    split
    · rw [hconnected]
      intro d hd
      obtain ⟨x, -, rfl⟩ := List.mem_map.1 hd
      exact hgraph
    · intro d hd
      obtain ⟨x, -, rfl⟩ := List.mem_map.1 hd
      exact Loc.resolve_graph_ne (hgr ▸ hgraph) x
  -- Those of the connections have the apps that are declared.
  have hdeclared (hm : m.dest = []) : (∀ d ∈ posted.dest, d.app ≠ "") ↔
      ∀ d ∈ g.flowDests host (route n host m), d.app ≠ some "" := by
    rw [hdest, dests, if_pos hm, hconnected, List.forall_mem_map]
    exact forall_congr' fun d => forall_congr' fun _ => getD_app_ne_iff hhost d.app
  constructor
  case posted_eq =>
    rw [hposted, dests, hconnected, he.loc]
    rfl
  case somewhere => exact hdest ▸ hsome
  case graphs => exact hgraphs
  case apps =>
    by_cases hm : m.dest = []
    · rw [if_pos hm, hdeclared hm]
    · rw [if_neg hm, hdest, dests, if_neg hm, List.forall_mem_map, happ, ← getD_app_ne_iff hhost,
        ← forall_or_left]
      refine forall_congr' fun d => ?_
      rw [← forall_or_left]
      exact forall_congr' fun _ => Loc.resolve_app_ne_iff d
  case again =>
    intro hm
    have hempty : e.loc.app = "" ↔ n.app = some "" := by
      rw [happ, ← not_iff_not]
      exact getD_app_ne_iff hhost n.app
    rw [posts_explicit h (hdest ▸ hsome), ← hdeclared hm, ← hempty,
      ← map_resolve_eq_self_iff hgraphs]
    constructor
    · intro hsame
      exact (congrArg Msg.dest hsame).symm
    · intro hsame
      rw [hsame]
      exact hposted.trans (by rw [hdest])

/-- A graph in which one connection gives its destination the empty app. -/
def unspelled : GraphDefinition :=
  ⟨[.extension ⟨"a", "addon", none, none, none⟩, .extension ⟨"b", "addon", none, some "", none⟩],
    [⟨none, "a", [⟨"hello", [⟨some "", "b"⟩]⟩, ⟨"again", [⟨none, "a"⟩]⟩], []⟩]⟩

/-- What leaves on the other connection is well addressed. -/
theorem wellAddressed_of_posts_unspelled :
    let s : StartGraph := ⟨.ofGraph "app" "g", none, unspelled.topology "app" "g"⟩
    let n : ExtensionNode := ⟨"a", "addon", none, none, none⟩
    let e : Env := .ofTopology (.ofExtension "app" "g" "a") "a" s.topology
    let m := Msg.create .cmd "again" default
    let posted : Msg := { m with src := e.loc, dest := [.ofExtension "app" "g" "a"] }
    StartGraph.ofDefinition unspelled "app" "g" = .ok s ∧ e.Stands s (n.info "app" "g") ∧
      e.Posts .any .empty m posted ∧
      WellAddressed unspelled "app" "g" n e .any .empty m posted := by
  intro s n e m posted
  have hs : StartGraph.ofDefinition unspelled "app" "g" = .ok s := rfl
  have he : e.Stands s (n.info "app" "g") := ⟨List.mem_cons_self, rfl, rfl⟩
  have hposts : e.Posts .any .empty m posted := rfl
  exact ⟨hs, he, hposts, wellAddressed_of_posts hs (by decide) (by decide) he hposts⟩

/-- **A message can leave its extension without an app.** The graph is accepted, and the connection
does not do what naming its destination does. -/
theorem connection_without_app :
    let s : StartGraph := ⟨.ofGraph "app" "g", none, unspelled.topology "app" "g"⟩
    let n : ExtensionNode := ⟨"a", "addon", none, none, none⟩
    let e : Env := .ofTopology (.ofExtension "app" "g" "a") "a" s.topology
    let m := Msg.create .cmd "hello" default
    let posted : Msg := { m with src := e.loc, dest := [.ofExtension "" "g" "b"] }
    StartGraph.ofDefinition unspelled "app" "g" = .ok s ∧ e.Stands s (n.info "app" "g") ∧
      e.Posts .any .empty m posted ∧ (∃ d ∈ posted.dest, d.app = "") ∧
      ¬ e.Posts .any .empty { m with dest := posted.dest } posted := by
  intro s n e m posted
  have hposts : e.Posts .any .empty m posted := rfl
  refine ⟨rfl, ⟨List.mem_cons_self, rfl, rfl⟩, hposts, ⟨_, List.mem_cons_self, rfl⟩, fun h => ?_⟩
  have hdest := congrArg Msg.dest ((posts_explicit hposts (List.cons_ne_nil _ _) posted).1 h)
  exact absurd hdest (by decide)

end Env

/-! ## Environments on threads -/

namespace Engine

/-- **The declared extensions on threads have the environments of their rows**, at any time of any
run.

**Proof sketch.** The environment of a hosted extension is made from the topology of the link, under
the name of the extension. Compare it with the row of the node, place by place. -/
theorem stands_of_hosted (app : AppInfo) {g : GraphDefinition} {graph : String} {s : StartGraph}
    (hs : StartGraph.ofDefinition g app.uri graph = .ok s) (name : String) (registry : Registry)
    (spawner : Spawner) {moves : List Move} {taken : List EngineMsg} {e : Engine}
    (hp : (start (Link.ofStart app registry spawner (s.withName name))).1.play moves =
      some (taken, e))
    {w : Worker} (hw : w ∈ e.host.workers) {h : Hosted} (hh : h ∈ w.hosted) {n : ExtensionNode}
    (hn : n ∈ g.extensionsOn app.uri) (hname : n.name = h.name) :
    h.env.Stands s (n.info app.uri graph) := by
  obtain ⟨-, rfl⟩ := StartGraph.ofDefinition_eq_ok hs
  obtain ⟨hmem, happ⟩ := GraphDefinition.mem_extensionsOn.1 hn
  have henv := env_of_hosted hp hw hh
  refine ⟨List.mem_map_of_mem hmem, ?_, congrArg Env.topology henv⟩
  show h.env.loc = .ofExtension (n.app.getD app.uri) graph n.name
  rw [happ, hname]
  exact congrArg Env.loc henv

end Engine

end ExtensionGraph
