import Mathlib.Data.List.Find
import Mathlib.Data.Nat.Find
import Mathlib.Tactic.Tauto
import ExtensionGraph.Proofs.NodeOrder

/-!
# Lookups with keys left out

The table of extensions is searched by app, graph and name, and each of the three may be left out. A
table that was made by hand may have rows of several apps and graphs, rows that share all their
keys, and rows without a name. Then the order of the rows decides: the first one that has whatever
is asked for is found. Asking for less finds more, and finds it earlier.

The tables of a graph that is started are better than that. All rows belong to the graph, and no two
of them share both app and name. So an app and a name already say which row is meant, whether or not
the graph is given too, and the order of the rows is of no account.

## Main definitions

* `ExtensionGraph.Inquiry`, `ExtensionGraph.Inquiry.Met` — what is asked for, and the rows that
  have it.
* `ExtensionGraph.Topology.FirstAt` — the place of the row that is to be found.
* `ExtensionGraph.Topology.FindsFirst` — what is promised of any table.
* `ExtensionGraph.StartGraph.Settles` — what is promised of the table of a graph.

## Main results

* `ExtensionGraph.Topology.extension?_eq_some_iff_firstAt` — the first row is found.
* `ExtensionGraph.Topology.FirstAt.loosen` — asking for less finds a row no later.
* `ExtensionGraph.GraphDefinition.extension?_eq_find?_key` — what an app and a name find in the
  table of a graph.
* `ExtensionGraph.lookups_coherent` — all of it.
-/

namespace ExtensionGraph

/-! ## What is asked for -/

/-- What a lookup asks for. A key that is left out asks for nothing. -/
structure Inquiry where
  app : Option String
  graph : Option String
  name : Option String

namespace Inquiry

/-- A row has whatever is asked for. An extension without a name has the empty one. -/
structure Met (q : Inquiry) (e : ExtensionInfo) : Prop where
  app : ∀ a, q.app = some a → e.loc.app = a
  graph : ∀ g, q.graph = some g → e.loc.graph = g
  name : ∀ n, q.name = some n → e.loc.extension.getD "" = n

/-- Some of the keys are left out, and the others are kept. -/
structure Loosens (q q' : Inquiry) : Prop where
  app : q'.app = none ∨ q'.app = q.app
  graph : q'.graph = none ∨ q'.graph = q.graph
  name : q'.name = none ∨ q'.name = q.name

variable {q q' : Inquiry} {e : ExtensionInfo}

/-- A value matches if it is the one that is wanted, or if none is wanted. -/
lemma matchesKey_iff (wanted : Option String) (value : String) :
    matchesKey wanted value = true ↔ ∀ w, wanted = some w → value = w := by
  cases wanted with
  | none => simp [matchesKey]
  | some w => simp [matchesKey]

/-- The rows that a lookup accepts are those with what is asked for. -/
lemma matchesKeys_iff_met : e.matchesKeys q.app q.graph q.name = true ↔ q.Met e := by
  simp only [ExtensionInfo.matchesKeys, Bool.and_eq_true, matchesKey_iff]
  constructor
  · rintro ⟨⟨happ, hgraph⟩, hname⟩
    exact ⟨happ, hgraph, hname⟩
  · rintro ⟨happ, hgraph, hname⟩
    exact ⟨⟨happ, hgraph⟩, hname⟩

/-- A row that has what is asked for has it also if less is asked for. -/
lemma Loosens.met (h : q.Loosens q') (hm : q.Met e) : q'.Met e := by
  have hkey {wanted wanted' : Option String} {value : String}
      (hl : wanted' = none ∨ wanted' = wanted) (hv : ∀ w, wanted = some w → value = w) :
      ∀ w, wanted' = some w → value = w := by
    rintro w rfl
    exact hv w ((hl.resolve_left (Option.some_ne_none w)).symm)
  exact ⟨hkey h.app hm.app, hkey h.graph hm.graph, hkey h.name hm.name⟩

end Inquiry

/-! ## Any table -/

namespace Topology

/-- At a place there is the first row that has what is asked for. -/
structure FirstAt (t : Topology) (q : Inquiry) (place : Nat) (e : ExtensionInfo) : Prop where
  row : t.extensions[place]? = some e
  met : q.Met e
  first : ∀ earlier < place, ∀ e', t.extensions[earlier]? = some e' → ¬ q.Met e'

variable {t : Topology} {q q' : Inquiry} {place : Nat} {e : ExtensionInfo}

/-- **The first row is found** that has what is asked for. -/
theorem extension?_eq_some_iff_firstAt :
    t.extension? q.app q.graph q.name = some e ↔ ∃ place, t.FirstAt q place e := by
  rw [extension?, List.find?_eq_some_iff_getElem, Inquiry.matchesKeys_iff_met]
  constructor
  · rintro ⟨hmet, place, hlt, rfl, hfirst⟩
    refine ⟨place, List.getElem?_eq_getElem hlt, hmet, fun earlier he e' hrow hmet' => ?_⟩
    have hrejected := hfirst earlier he
    rw [(List.getElem?_eq_some_iff.1 hrow).2, Inquiry.matchesKeys_iff_met.2 hmet'] at hrejected
    cases hrejected
  · rintro ⟨place, hrow, hmet, hfirst⟩
    obtain ⟨hlt, hat⟩ := List.getElem?_eq_some_iff.1 hrow
    refine ⟨hmet, place, hlt, hat, fun earlier he => ?_⟩
    rw [Bool.not_eq_true', ← Bool.not_eq_true, Inquiry.matchesKeys_iff_met]
    exact hfirst earlier he _ (List.getElem?_eq_getElem (Nat.lt_trans he hlt))

/-- If some row has what is asked for, then there is a first one, at its place or before. -/
lemma exists_firstAt (hrow : t.extensions[place]? = some e) (hmet : q.Met e) :
    ∃ place' ≤ place, ∃ e', t.FirstAt q place' e' := by
  classical
  have hsome : ∃ k e', t.extensions[k]? = some e' ∧ q.Met e' := ⟨place, e, hrow, hmet⟩
  obtain ⟨e', hrow', hmet'⟩ := Nat.find_spec hsome
  exact ⟨Nat.find hsome, Nat.find_min' hsome ⟨e, hrow, hmet⟩, e', hrow', hmet',
    fun earlier he x hx hxmet => Nat.find_min hsome he ⟨x, hx, hxmet⟩⟩

/-- **Asking for less finds a row no later.** -/
theorem FirstAt.loosen (h : t.FirstAt q place e) (hq : q.Loosens q') :
    ∃ place' ≤ place, ∃ e', t.FirstAt q' place' e' :=
  exists_firstAt h.row (hq.met h.met)

/-- What is promised of the lookups in any table. -/
structure FindsFirst (t : Topology) : Prop where
  /-- The first row is found that has all the keys that are given. -/
  found : ∀ (q : Inquiry) (e : ExtensionInfo),
    t.extension? q.app q.graph q.name = some e ↔ ∃ place, t.FirstAt q place e
  /-- Nothing is found only if there is no such row. -/
  missing : ∀ q : Inquiry, t.extension? q.app q.graph q.name = none ↔
    ∀ e ∈ t.extensions, ¬ q.Met e
  /-- The group that is found is the group of this row. -/
  group : ∀ (q : Inquiry) (group : String), t.groupOf? q.app q.graph q.name = some group ↔
    ∃ place e, t.FirstAt q place e ∧ e.group = group
  /-- A row that is found is still found if keys are left out, or else an earlier one is. -/
  loosened : ∀ (q q' : Inquiry) (place : Nat) (e : ExtensionInfo),
    q.Loosens q' → t.FirstAt q place e → ∃ place' ≤ place, ∃ e', t.FirstAt q' place' e' ∧
      t.extension? q'.app q'.graph q'.name = some e'

/-- A table of extensions finds the first row that matches. -/
lemma findsFirst (t : Topology) : t.FindsFirst where
  found _ _ := extension?_eq_some_iff_firstAt
  missing q := by
    rw [extension?, List.find?_eq_none]
    exact forall₂_congr fun e _ => not_congr Inquiry.matchesKeys_iff_met
  group q group := by
    rw [groupOf?, Option.map_eq_some_iff]
    simp only [extension?_eq_some_iff_firstAt]
    constructor
    · rintro ⟨e, ⟨place, hfirst⟩, hgroup⟩
      exact ⟨place, e, hfirst, hgroup⟩
    · rintro ⟨place, e, hfirst, hgroup⟩
      exact ⟨e, ⟨place, hfirst⟩, hgroup⟩
  loosened q q' place e hq h := by
    obtain ⟨place', hle, e', hfirst⟩ := h.loosen hq
    exact ⟨place', hle, e', hfirst, extension?_eq_some_iff_firstAt.2 ⟨place', hfirst⟩⟩

end Topology

/-! ## The table of a graph -/

namespace GraphDefinition

variable {g : GraphDefinition} {host graph : String}

/-- **In the table of a graph an app and a name are looked up by themselves**, unless another graph
is asked for.

**Proof sketch.** All rows are on the graph of the table, so that the graph matches all of them or
none. The first row that matches the other two is the first one with this key. -/
theorem extension?_eq_find?_key (g : GraphDefinition) (host graph app name : String)
    (graph? : Option String) :
    (g.topology host graph).extension? (some app) graph? (some name) =
      if graph? = none ∨ graph? = some graph then
        atKey? ExtensionInfo.key (g.extensionInfos host graph) (app, name)
      else none := by
  have hrow : ∀ e ∈ g.extensionInfos host graph,
      e.matchesKeys (some app) graph? (some name) =
        decide (e.key = (app, name) ∧ (graph? = none ∨ graph? = some graph)) := by
    intro e he
    obtain ⟨n, -, rfl⟩ := List.mem_map.1 he
    have hgraph : matchesKey graph? graph = decide (graph? = none ∨ graph? = some graph) := by
      cases graph? with
      | none => rfl
      | some wanted => simp [matchesKey, eq_comm]
    have hkey : matchesKey graph? (n.info host graph).loc.graph = matchesKey graph? graph := rfl
    rw [ExtensionInfo.matchesKeys, hkey, hgraph, Bool.eq_iff_iff]
    simp only [Bool.and_eq_true, matchesKey_some_iff, decide_eq_true_eq, ExtensionInfo.key,
      Prod.mk.injEq]
    tauto
  show (g.extensionInfos host graph).find? _ = _
  rw [List.find?_congr hrow]
  split
  · next hg =>
    unfold atKey?
    simp only [hg, and_true]
  · next hg => simp [hg]

end GraphDefinition

/-- What is promised of the lookups in the table of a graph that is to be started. -/
structure StartGraph.Settles (s : StartGraph) : Prop where
  /-- An app and a name stand for one place at most. -/
  only : ∀ (app name : String) (place place' : Nat) (e e' : ExtensionInfo),
    s.topology.extensions[place]? = some e → s.topology.extensions[place']? = some e' →
      Inquiry.Met ⟨some app, none, some name⟩ e → Inquiry.Met ⟨some app, none, some name⟩ e' →
        place = place'
  /-- They find every row that has them, without the graph. -/
  found : ∀ app name e, s.topology.extension? (some app) none (some name) = some e ↔
    e ∈ s.topology.extensions ∧ Inquiry.Met ⟨some app, none, some name⟩ e
  /-- With the graph they find the same. -/
  graphGiven : ∀ app name, s.topology.extension? (some app) (some s.graph) (some name) =
    s.topology.extension? (some app) none (some name)
  /-- There are no rows of other graphs. -/
  otherGraph : ∀ app graph name, graph ≠ s.graph →
    s.topology.extension? (some app) (some graph) (some name) = none
  /-- They find the same in every order of the rows. -/
  anyOrder : ∀ t : Topology, t.extensions.Perm s.topology.extensions → ∀ app graph? name,
    t.extension? (some app) graph? (some name) =
        s.topology.extension? (some app) graph? (some name) ∧
      t.groupOf? (some app) graph? (some name) = s.topology.groupOf? (some app) graph? (some name)

namespace StartGraph

variable {g : GraphDefinition} {host graph : String} {s : StartGraph}

/-- A row meets an inquiry for an app and a name exactly if these are its key. -/
lemma met_iff_key {app name : String} {e : ExtensionInfo} :
    Inquiry.Met ⟨some app, none, some name⟩ e ↔ e.key = (app, name) := by
  rw [ExtensionInfo.key, Prod.mk.injEq]
  constructor
  · rintro ⟨happ, -, hname⟩
    exact ⟨happ app rfl, hname name rfl⟩
  · rintro ⟨rfl, rfl⟩
    exact ⟨fun _ h => Option.some.inj h, by simp, fun _ h => Option.some.inj h⟩

/-- An accepted graph has a table in which an app and a name settle everything.

**Proof sketch.** The rows of an accepted graph have different keys, and an app and a name are the
key of a row. So one row at most can be found, at one place at most, and it is found in whatever
order the rows are. -/
lemma settles_of_accepted (h : ofDefinition g host graph = .ok s) : s.Settles := by
  obtain ⟨hf, rfl⟩ := ofDefinition_eq_ok h
  have hnodup : ((g.extensionInfos host graph).map ExtensionInfo.key).Nodup :=
    GraphDefinition.extensionInfos_nodup graph hf
  have hlook (app name : String) (graph? : Option String) :=
    GraphDefinition.extension?_eq_find?_key g host graph app name graph?
  constructor
  case only =>
    intro app name place place' e e' hrow hrow' hmet hmet'
    -- The keys have no repetitions, so equal keys stand at equal places.
    have hkey : ((g.extensionInfos host graph).map ExtensionInfo.key)[place]? =
        ((g.extensionInfos host graph).map ExtensionInfo.key)[place']? := by
      rw [List.getElem?_map, List.getElem?_map]
      show (g.topology host graph).extensions[place]?.map _ =
        (g.topology host graph).extensions[place']?.map _
      rw [hrow, hrow', Option.map_some, Option.map_some, met_iff_key.1 hmet, met_iff_key.1 hmet']
    refine (List.getElem?_inj ?_ hnodup).1 hkey
    rw [List.length_map]
    exact (List.getElem?_eq_some_iff.1 hrow).1
  case found =>
    intro app name e
    rw [met_iff_key]
    refine Iff.trans ?_ (atKey?_eq_some_iff hnodup)
    rw [hlook, if_pos (.inl rfl)]
  case graphGiven =>
    intro app name
    rw [hlook, hlook, if_pos (.inr rfl), if_pos (.inl rfl)]
  case otherGraph =>
    intro app graph' name hne
    rw [hlook, if_neg]
    rintro (hnone | hsome)
    · cases hnone
    · exact hne (Option.some.inj hsome)
  case anyOrder =>
    intro t hperm app graph? name
    have hsame : t.extension? (some app) graph? (some name) =
        (g.topology host graph).extension? (some app) graph? (some name) := by
      refine find?_eq_of_perm hperm.symm fun e he e' he' hasked hasked' => ?_
      have hkey {x : ExtensionInfo} (hx : x.matchesKeys (some app) graph? (some name) = true) :
          x.key = (app, name) := by
        obtain ⟨happ, -, hname⟩ :=
          (Inquiry.matchesKeys_iff_met (q := ⟨some app, graph?, some name⟩)).1 hx
        exact Prod.ext (happ app rfl) (hname name rfl)
      exact List.inj_on_of_nodup_map hnodup he he' ((hkey hasked).trans (hkey hasked').symm)
    exact ⟨hsame, congrArg (Option.map ExtensionInfo.group) hsame⟩

end StartGraph

/-- **Lookups fit together**: in any table the first row is found that has what is asked for, and in
the table of a graph an app and a name settle which one that is. -/
theorem lookups_coherent :
    (∀ t : Topology, t.FindsFirst) ∧
      ∀ (g : GraphDefinition) (host graph : String) (s : StartGraph),
        StartGraph.ofDefinition g host graph = .ok s → s.Settles :=
  ⟨Topology.findsFirst, fun _ _ _ _ => StartGraph.settles_of_accepted⟩

/-- A graph with an extension of the same name on each of two apps. -/
def namesakes : GraphDefinition :=
  ⟨[.extension ⟨"twin", "here", none, none, none⟩,
      .extension ⟨"twin", "there", none, some "other", none⟩], []⟩

/-- A name alone finds the first of the two. Together with the app it finds the one that is meant,
also if the rows change places. -/
theorem lookups_coherent_namesakes :
    ∃ s : StartGraph, StartGraph.ofDefinition namesakes "app" "1" = .ok s ∧ s.Settles ∧
      (s.topology.extension? none none (some "twin")).map ExtensionInfo.addon = some "here" ∧
      (s.topology.extension? (some "other") none (some "twin")).map ExtensionInfo.addon =
        some "there" ∧
      ({ s.topology with extensions := s.topology.extensions.reverse }.extension?
        (some "other") (some "1") (some "twin")).map ExtensionInfo.addon = some "there" := by
  have hs : StartGraph.ofDefinition namesakes "app" "1" =
      .ok ⟨.ofGraph "app" "1", none, namesakes.topology "app" "1"⟩ := rfl
  have hsettles := lookups_coherent.2 namesakes "app" "1" _ hs
  refine ⟨_, hs, hsettles, rfl, rfl, ?_⟩
  rw [(hsettles.anyOrder _ (List.reverse_perm _) "other" (some "1") "twin").1]
  rfl

end ExtensionGraph
