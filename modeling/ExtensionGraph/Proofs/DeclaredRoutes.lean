import Mathlib.Data.Set.Card
import ExtensionGraph.Proofs.RouteTable

/-!
# The routing table is the connections

The table of a list of connections says what the connections say and nothing else. Each destination
that a flow lists for a key is there, in the place and as often as it is listed. So tables are put
together as lists of connections are, the flows of one kind have no say in the messages of the
other, and the table is as large as there are keys.

## Main definitions

* `ExtensionGraph.Connection.only` — a connection without its flows of the other kind.
* `ExtensionGraph.RouteKey.OccursIn` — some flow of the connections has the key.

## Main results

* `ExtensionGraph.RoutingTable.lookup_eq` — a key has the destinations that are listed for it.
* `ExtensionGraph.RoutingTable.size_eq_encard` — the size of the table is the number of its keys.
* `ExtensionGraph.RoutingTable.exactly_connections` — both, with what follows for several lists and
  for the two kinds.
-/

namespace ExtensionGraph

/-- A connection without its flows of the other kind. -/
def Connection.only (kind : MsgKind) (c : Connection) : Connection :=
  match kind with
  | .cmd => { c with data := [] }
  | .data => { c with cmd := [] }

/-- Leaving out the flows of another kind does not change where a connection begins. -/
@[simp] lemma Connection.key_only (host : String) (kind : MsgKind) (c : Connection) :
    (c.only kind).key host = c.key host := by
  cases kind with
  | cmd => rfl
  | data => rfl

/-- What remains of a connection are the flows of its kind. -/
lemma Connection.flowsOf_only (kind kind' : MsgKind) (c : Connection) :
    (c.only kind).flowsOf kind' = if kind' = kind then c.flowsOf kind' else [] := by
  cases kind with
  | cmd => cases kind' <;> rfl
  | data => cases kind' <;> rfl

/-- Some flow of the connections has the key. -/
def RouteKey.OccursIn (key : RouteKey) (host : String) (connections : List Connection) : Prop :=
  ∃ c ∈ connections, c.key host = (key.app, key.extension) ∧
    ∃ f ∈ c.flowsOf key.kind, f.name = key.name

namespace RoutingTable

variable (connections : List Connection) (host graph : String)

/-- **The destinations of a key are those that the connections list for it**, each of them in its
place. -/
theorem lookup_eq (key : RouteKey) :
    (ofConnections connections host graph).lookup key =
      (connections.filter fun c => c.key host = (key.app, key.extension)).flatMap fun c =>
        ((c.flowsOf key.kind).filter fun f => f.name = key.name).flatMap fun f =>
          f.dest.map (FlowDest.loc host graph) := by
  have hlookup := lookup_ofConnections ⟨[], connections⟩ host graph key
  refine hlookup.trans ?_
  rw [GraphDefinition.flowDests, List.map_flatMap]
  refine List.flatMap_congr fun c _ => ?_
  rw [Connection.destsOf, List.map_flatMap]

/-- The table of two lists of connections gives the answers of both. -/
lemma destinations_append (more : List Connection) (src : Loc) (kind : MsgKind) (name : String) :
    (ofConnections (connections ++ more) host graph).destinations src kind name =
      (ofConnections connections host graph).destinations src kind name ++
        (ofConnections more host graph).destinations src kind name := by
  unfold destinations
  cases src.extension with
  | none => rfl
  | some extension => simp only [lookup_eq, List.filter_append, List.flatMap_append]

/-- The flows of one kind decide on the messages of this kind, and on no others. -/
lemma destinations_only (src : Loc) (kind kind' : MsgKind) (name : String) :
    (ofConnections (connections.map (Connection.only kind)) host graph).destinations src kind'
        name =
      if kind' = kind then (ofConnections connections host graph).destinations src kind' name
      else [] := by
  unfold destinations
  cases src.extension with
  | none => exact (ite_self _).symm
  | some extension =>
    simp only [lookup_eq, List.filter_map, List.flatMap_map, Function.comp_def,
      Connection.key_only, Connection.flowsOf_only]
    by_cases hkind : kind' = kind
    · simp only [if_pos hkind]
    · simp [if_neg hkind]

/-- **The size of the table is the number of keys that occur.** -/
theorem size_eq_encard :
    ({key | key.OccursIn host connections} : Set RouteKey).encard =
      (ofConnections connections host graph).size := by
  have hkeys : {key | key.OccursIn host connections} =
      (((ofConnections connections host graph).routes.map Prod.fst).toFinset : Set RouteKey) := by
    rw [List.coe_toFinset]
    exact Set.ext fun key => mem_keys_ofConnections.symm
  have hnodup := keys_ofConnections_nodup connections host graph
  rw [hkeys, Set.encard_coe_eq_coe_finsetCard, List.toFinset_card_of_nodup hnodup, List.length_map]
  rfl

/-- **The routing table is exactly the connections.** What leaves an extension goes to the
destinations that the flows of its kind and name list, in all connections whose source it is, one
flow after the other and with repetitions; what leaves no extension goes nowhere. Therefore the
table of two lists of connections gives the answers of both, commands and data of one name do not
mix, and the size of the table is the number of keys that occur.

**Proof sketch.** The lookup of a key is known as a list over the connections; whatever is claimed
of two lists, or of one kind, is a fact about filtering and joining these lists. The size counts the
keys of the table, each of which occurs in a connection, and once. -/
theorem exactly_connections :
    (∀ app graph' extension kind name,
      (ofConnections connections host graph).destinations (.ofExtension app graph' extension) kind
          name =
        (connections.filter fun c => c.key host = (app, extension)).flatMap fun c =>
          ((c.flowsOf kind).filter fun f => f.name = name).flatMap fun f =>
            f.dest.map (FlowDest.loc host graph)) ∧
    (∀ app graph' kind name,
      (ofConnections connections host graph).destinations (.ofGraph app graph') kind name = []) ∧
    (∀ more src kind name,
      (ofConnections (connections ++ more) host graph).destinations src kind name =
        (ofConnections connections host graph).destinations src kind name ++
          (ofConnections more host graph).destinations src kind name) ∧
    (∀ src kind kind' name,
      (ofConnections (connections.map (Connection.only kind)) host graph).destinations src kind'
          name =
        if kind' = kind then (ofConnections connections host graph).destinations src kind' name
        else []) ∧
    ({key | key.OccursIn host connections} : Set RouteKey).encard =
      (ofConnections connections host graph).size :=
  ⟨fun app _ extension kind name =>
      lookup_eq connections host graph ⟨app, extension, kind, name⟩, fun _ _ _ _ => rfl,
    destinations_append connections host graph, destinations_only connections host graph,
    size_eq_encard connections host graph⟩

-- Two connections contribute to the commands of one source, and data of the same name does not.
example :
    (ofConnections [⟨none, "a", [⟨"x", [⟨none, "b"⟩]⟩], [⟨"x", [⟨none, "c"⟩]⟩]⟩,
      ⟨some "app", "a", [⟨"x", [⟨some "far", "d"⟩, ⟨none, "b"⟩]⟩], []⟩] "app" "1").destinations
        (.ofExtension "app" "1" "a") .cmd "x" =
      [.ofExtension "app" "1" "b", .ofExtension "far" "1" "d", .ofExtension "app" "1" "b"] := by
  decide

end RoutingTable

end ExtensionGraph
