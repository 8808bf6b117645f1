import Mathlib.Tactic.Common
import ExtensionGraph.Proofs.ExtensionTable

/-!
# The routes of a graph

The routing table is made by adding what one connection after the other declares. In the end each
key has one entry, and the entry has the destinations of all flows with this key, in the order in
which they are declared. In a graph without a fault both ends of a connection are declared
extensions.

## Main definitions

* `ExtensionGraph.declaredFor` — what a list of declared routes says about a key.
* `ExtensionGraph.GraphDefinition.flowDests` — where the connections bring what has a key.

## Main results

* `ExtensionGraph.RoutingTable.lookup_addAll` — adding routes appends what they declare.
* `ExtensionGraph.RoutingTable.lookup_ofConnections` — the destinations of a key.
* `ExtensionGraph.RoutingTable.mem_ofConnections_iff` — the entries of the table.
* `ExtensionGraph.GraphDefinition.source_declared`, `ExtensionGraph.GraphDefinition.dest_declared` —
  the ends of a connection are declared.
-/

namespace ExtensionGraph

/-! ## Adding routes -/

/-- The destinations that a list of declared routes has for a key. -/
def declaredFor (key : RouteKey) (declared : List (RouteKey × List Loc)) : List Loc :=
  (declared.filter fun r => r.1 = key).flatMap (·.2)

/-- What is declared for a key, entry by entry. -/
lemma declaredFor_cons (key : RouteKey) (r : RouteKey × List Loc)
    (declared : List (RouteKey × List Loc)) :
    declaredFor key (r :: declared) =
      (if r.1 = key then r.2 else []) ++ declaredFor key declared := by
  unfold declaredFor
  by_cases hr : r.1 = key
  · rw [List.filter_cons_of_pos (by simpa using hr), List.flatMap_cons, if_pos hr]
  · rw [List.filter_cons_of_neg (by simpa using hr), if_neg hr, List.nil_append]

/-- What is declared for a key, part by part. -/
lemma declaredFor_append (key : RouteKey) (xs ys : List (RouteKey × List Loc)) :
    declaredFor key (xs ++ ys) = declaredFor key xs ++ declaredFor key ys := by
  rw [declaredFor, List.filter_append, List.flatMap_append]
  rfl

namespace RoutingTable

/-- A key is looked up in the first entry, and then in the others. -/
lemma lookup_cons (r : RouteKey × List Loc) (routes : List (RouteKey × List Loc))
    (key : RouteKey) :
    lookup ⟨r :: routes⟩ key = if r.1 = key then r.2 else lookup ⟨routes⟩ key := by
  unfold lookup
  by_cases hr : r.1 = key
  · rw [List.find?_cons_of_pos (by simpa using hr), if_pos hr]
  · rw [List.find?_cons_of_neg (by simpa using hr), if_neg hr]

/-- Adding a route appends to the destinations of its key.

**Proof sketch.** By induction over the table, up to the row with the key or to its end. -/
lemma lookup_addRoute (key : RouteKey) (dests : List Loc) (routes : List (RouteKey × List Loc))
    (key' : RouteKey) :
    lookup ⟨addRoute key dests routes⟩ key' =
      lookup ⟨routes⟩ key' ++ if key = key' then dests else [] := by
  induction routes with
  | nil =>
    rw [addRoute, lookup_cons]
    rfl
  | cons r routes ih =>
    rw [addRoute]
    by_cases hr : r.1 = key
    · rw [if_pos hr, lookup_cons, lookup_cons, hr]
      split
      · rfl
      · rw [List.append_nil]
    · rw [if_neg hr, lookup_cons, lookup_cons, ih]
      by_cases hk : r.1 = key'
      · rw [if_pos hk, if_pos hk, if_neg fun h => hr (hk.trans h.symm), List.append_nil]
      · rw [if_neg hk, if_neg hk]

/-- **Adding routes one after the other appends what they declare for a key**, in their order. -/
theorem lookup_addAll (routes declared : List (RouteKey × List Loc)) (key : RouteKey) :
    lookup ⟨addAll routes declared⟩ key = lookup ⟨routes⟩ key ++ declaredFor key declared := by
  induction declared generalizing routes with
  | nil => exact (List.append_nil _).symm
  | cons r declared ih =>
    show lookup ⟨addAll (addRoute r.1 r.2 routes) declared⟩ key = _
    rw [ih, lookup_addRoute, declaredFor_cons, List.append_assoc]

/-- Adding a route adds its key, unless that is there. -/
lemma keys_addRoute (key : RouteKey) (dests : List Loc) (routes : List (RouteKey × List Loc)) :
    (addRoute key dests routes).map Prod.fst =
      if key ∈ routes.map Prod.fst then routes.map Prod.fst
      else routes.map Prod.fst ++ [key] := by
  induction routes with
  | nil => rfl
  | cons r routes ih =>
    rw [addRoute]
    by_cases hr : r.1 = key
    · rw [if_pos hr, List.map_cons, List.map_cons, if_pos (by simp [hr])]
    · rw [if_neg hr, List.map_cons, List.map_cons, ih]
      by_cases hk : key ∈ routes.map Prod.fst
      · rw [if_pos hk, if_pos (List.mem_cons_of_mem _ hk)]
      · rw [if_neg hk, if_neg (by simpa [Ne.symm hr] using hk), List.cons_append]

/-- Adding a route keeps the keys different. -/
lemma keys_addRoute_nodup {routes : List (RouteKey × List Loc)}
    (h : (routes.map Prod.fst).Nodup) (key : RouteKey) (dests : List Loc) :
    ((addRoute key dests routes).map Prod.fst).Nodup := by
  rw [keys_addRoute]
  split
  · exact h
  · next hk => exact List.concat_eq_append ▸ h.concat hk

/-- Adding routes keeps the keys apart. -/
lemma keys_addAll_nodup {routes : List (RouteKey × List Loc)} (h : (routes.map Prod.fst).Nodup)
    (declared : List (RouteKey × List Loc)) : ((addAll routes declared).map Prod.fst).Nodup := by
  induction declared generalizing routes with
  | nil => exact h
  | cons r declared ih => exact ih (keys_addRoute_nodup h r.1 r.2)

/-- The keys are those that were there and those that are declared.

**Proof sketch.** By induction over the declared rows. Adding one adds its key, unless it is
there. -/
lemma mem_keys_addAll {routes declared : List (RouteKey × List Loc)} {key : RouteKey} :
    key ∈ (addAll routes declared).map Prod.fst ↔
      key ∈ routes.map Prod.fst ∨ key ∈ declared.map Prod.fst := by
  induction declared generalizing routes with
  | nil => simp [addAll]
  | cons r declared ih =>
    show key ∈ (addAll (addRoute r.1 r.2 routes) declared).map Prod.fst ↔ _
    rw [ih, keys_addRoute, List.map_cons, List.mem_cons]
    split
    · next hr =>
      constructor
      · rintro (h | h)
        · exact .inl h
        · exact .inr (.inr h)
      · rintro (h | rfl | h)
        · exact .inl h
        · exact .inl hr
        · exact .inr h
    · rw [List.mem_append, List.mem_singleton, or_assoc]

/-- With keys of their own, the entries are the keys with what is found for them. -/
lemma mem_routes_iff {t : RoutingTable} (h : (t.routes.map Prod.fst).Nodup) {key : RouteKey}
    {dests : List Loc} :
    (key, dests) ∈ t.routes ↔ key ∈ t.routes.map Prod.fst ∧ dests = t.lookup key := by
  have hfound {r : RouteKey × List Loc} (hr : r ∈ t.routes) : t.lookup r.1 = r.2 := by
    have hat : atKey? Prod.fst t.routes r.1 = some r := atKey?_of_mem h hr
    unfold atKey? at hat
    unfold lookup
    rw [hat]
  constructor
  · intro hr
    exact ⟨List.mem_map_of_mem hr, (hfound hr).symm⟩
  · rintro ⟨hk, rfl⟩
    obtain ⟨r, hr, rfl⟩ := List.mem_map.1 hk
    rw [hfound hr]
    exact hr

end RoutingTable

/-! ## What connections declare -/

/-- The flows of a connection for messages of a kind. -/
def Connection.flowsOf (c : Connection) : MsgKind → List Flow
  | .cmd => c.cmd
  | .data => c.data

/-- Where a connection brings messages of a kind and a name. -/
def Connection.destsOf (c : Connection) (kind : MsgKind) (name : String) : List FlowDest :=
  ((c.flowsOf kind).filter fun f => f.name = name).flatMap (·.dest)

/-- Where the connections of a graph bring what has a key, in the order in which it is declared. -/
def GraphDefinition.flowDests (g : GraphDefinition) (host : String) (key : RouteKey) :
    List FlowDest :=
  (g.connections.filter fun c => c.key host = (key.app, key.extension)).flatMap fun c =>
    c.destsOf key.kind key.name

/-- The flows of one kind declare for a key what those with its name say, if it is one of theirs.

**Proof sketch.** Induction on the flows. The key of a flow has the ends and the kind of its
connection, so that these decide for all flows at once and only the name decides for each. -/
lemma declaredFor_flows (host graph : String) (c : Connection) (kind : MsgKind)
    (flows : List Flow) (key : RouteKey) :
    declaredFor key (flows.map fun f =>
        (c.routeKey host kind f, f.dest.map (FlowDest.loc host graph))) =
      if c.key host = (key.app, key.extension) ∧ kind = key.kind then
        ((flows.filter fun f => f.name = key.name).flatMap (·.dest)).map (FlowDest.loc host graph)
      else [] := by
  have hkey (f : Flow) : c.routeKey host kind f = key ↔
      (c.key host = (key.app, key.extension) ∧ kind = key.kind) ∧ f.name = key.name := by
    obtain ⟨app, extension, kind', name⟩ := key
    simp [Connection.routeKey, Connection.key, and_assoc]
  induction flows with
  | nil =>
    split
    · rfl
    · rfl
  | cons f flows ih =>
    rw [List.map_cons, declaredFor_cons, ih]
    dsimp only
    by_cases hc : c.key host = (key.app, key.extension) ∧ kind = key.kind
    · rw [if_pos hc, if_pos hc]
      by_cases hf : f.name = key.name
      · rw [if_pos ((hkey f).2 ⟨hc, hf⟩), List.filter_cons_of_pos (by simpa using hf),
          List.flatMap_cons, List.map_append]
      · rw [if_neg fun h => hf ((hkey f).1 h).2, List.filter_cons_of_neg (by simpa using hf),
          List.nil_append]
    · rw [if_neg hc, if_neg hc, if_neg fun h => hc ((hkey f).1 h).1]
      rfl

/-- A connection declares one route for each of its flows. -/
lemma Connection.mem_routes_iff (c : Connection) {host graph : String}
    {r : RouteKey × List Loc} :
    r ∈ c.routes host graph ↔
      ∃ kind, ∃ f ∈ c.flowsOf kind,
        (c.routeKey host kind f, f.dest.map (FlowDest.loc host graph)) = r := by
  rw [routes, List.mem_append, List.mem_map, List.mem_map]
  constructor
  · rintro (h | h)
    · exact ⟨.cmd, h⟩
    · exact ⟨.data, h⟩
  · rintro ⟨kind, h⟩
    cases kind with
    | cmd => exact .inl h
    | data => exact .inr h

/-- What one connection declares for a key. -/
lemma Connection.declaredFor_routes (c : Connection) (host graph : String) (key : RouteKey) :
    declaredFor key (c.routes host graph) =
      if c.key host = (key.app, key.extension) then
        (c.destsOf key.kind key.name).map (FlowDest.loc host graph)
      else [] := by
  rw [routes, declaredFor_append, declaredFor_flows, declaredFor_flows]
  unfold destsOf flowsOf
  by_cases hc : c.key host = (key.app, key.extension)
  · cases key.kind with
    | cmd => simp [hc]
    | data => simp [hc]
  · simp [hc]

namespace RoutingTable

/-- **The destinations of a key are those that the connections give it**, each at its address. -/
theorem lookup_ofConnections (g : GraphDefinition) (host graph : String) (key : RouteKey) :
    (ofConnections g.connections host graph).lookup key =
      (g.flowDests host key).map (FlowDest.loc host graph) := by
  rw [ofConnections, lookup_addAll]
  show declaredFor key _ = _
  unfold GraphDefinition.flowDests
  induction g.connections with
  | nil => rfl
  | cons c cs ih =>
    rw [List.flatMap_cons, declaredFor_append, ih, c.declaredFor_routes]
    by_cases hc : c.key host = (key.app, key.extension)
    · rw [if_pos hc, List.filter_cons_of_pos (by simpa using hc), List.flatMap_cons,
        List.map_append]
    · rw [if_neg hc, List.filter_cons_of_neg (by simpa using hc), List.nil_append]

/-- Each key has one entry at most. -/
lemma keys_ofConnections_nodup (connections : List Connection) (host graph : String) :
    ((ofConnections connections host graph).routes.map Prod.fst).Nodup := by
  have hnone : (([] : List (RouteKey × List Loc)).map Prod.fst).Nodup := List.nodup_nil
  exact keys_addAll_nodup hnone _

/-- A key is in the table if some connection has a flow with it.

**Proof sketch.** The table begins empty, and the rows that are added are those of the flows of all
connections. -/
lemma mem_keys_ofConnections {connections : List Connection} {host graph : String}
    {key : RouteKey} :
    key ∈ (ofConnections connections host graph).routes.map Prod.fst ↔
      ∃ c ∈ connections, c.key host = (key.app, key.extension) ∧
        ∃ f ∈ c.flowsOf key.kind, f.name = key.name := by
  have hnone : key ∉ ([] : List (RouteKey × List Loc)).map Prod.fst := List.not_mem_nil
  rw [ofConnections, mem_keys_addAll, or_iff_right hnone, List.mem_map]
  constructor
  · rintro ⟨r, hr, rfl⟩
    obtain ⟨c, hc, hr⟩ := List.mem_flatMap.1 hr
    obtain ⟨kind, f, hf, rfl⟩ := c.mem_routes_iff.1 hr
    exact ⟨c, hc, rfl, f, hf, rfl⟩
  · rintro ⟨c, hc, hkey, f, hf, hname⟩
    obtain ⟨app, extension, kind, name⟩ := key
    cases hkey
    cases hname
    exact ⟨_, List.mem_flatMap.2 ⟨c, hc, c.mem_routes_iff.2 ⟨kind, f, hf, rfl⟩⟩, rfl⟩

/-- **The entries of the table**: every key of a flow, with the destinations that the connections
give it. -/
theorem mem_ofConnections_iff {g : GraphDefinition} {host graph : String} {key : RouteKey}
    {dests : List Loc} :
    (key, dests) ∈ (ofConnections g.connections host graph).routes ↔
      (∃ c ∈ g.connections, c.key host = (key.app, key.extension) ∧
        ∃ f ∈ c.flowsOf key.kind, f.name = key.name) ∧
      dests = (g.flowDests host key).map (FlowDest.loc host graph) := by
  rw [mem_routes_iff (keys_ofConnections_nodup g.connections host graph), mem_keys_ofConnections,
    lookup_ofConnections]

end RoutingTable

/-! ## Connections of a graph without a fault -/

namespace GraphDefinition

variable {g : GraphDefinition} {host : String}

/-- **The source of a connection is a declared extension.** -/
theorem source_declared (h : g.fault? host = none) {c : Connection} (hc : c ∈ g.connections) :
    c.key host ∈ g.extensionKeys host :=
  (g.mem_extensionKeys_iff host).2 (((g.fault?_eq_none_iff host).1 h).sources c hc)

/-- **Every destination of a connection is a declared extension.** -/
theorem dest_declared (h : g.fault? host = none) {c : Connection} (hc : c ∈ g.connections)
    {f : Flow} (hf : f ∈ c.flows) {d : FlowDest} (hd : d ∈ f.dest) :
    d.key host ∈ g.extensionKeys host :=
  (g.mem_extensionKeys_iff host).2 (((g.fault?_eq_none_iff host).1 h).dests c hc f hf d hd)

/-- The flows of one kind are among all flows. -/
lemma mem_flows_of_flowsOf {c : Connection} {kind : MsgKind} {f : Flow}
    (hf : f ∈ c.flowsOf kind) : f ∈ c.flows := by
  cases kind with
  | cmd => exact List.mem_append_left _ hf
  | data => exact List.mem_append_right _ hf

/-- What has a key is brought to declared extensions only. -/
lemma flowDests_declared (h : g.fault? host = none) {key : RouteKey} {d : FlowDest}
    (hd : d ∈ g.flowDests host key) : d.key host ∈ g.extensionKeys host := by
  obtain ⟨c, hc, hd⟩ := List.mem_flatMap.1 hd
  obtain ⟨f, hf, hd⟩ := List.mem_flatMap.1 hd
  exact dest_declared h (List.mem_of_mem_filter hc)
    (mem_flows_of_flowsOf (List.mem_of_mem_filter hf)) hd

end GraphDefinition

end ExtensionGraph
