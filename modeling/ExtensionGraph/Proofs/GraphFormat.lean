import Mathlib.Data.List.Permutation
import Mathlib.Tactic.Common
import ExtensionGraph.Graph.Format
import ExtensionGraph.Proofs.JsonReading

/-!
# Graphs are read back as they were written

A graph that is written as a value and read from this value is the same graph, except that a
property that is `null` is left out. A graph that was read has no such property, whatever the text
looked like. So writing gives every graph that is read a normal form, which is read as this graph.

## Main definitions

* `ExtensionGraph.GraphDefinition.Ordered` — the properties of a graph list their members in order.
* `ExtensionGraph.GraphDefinition.forgetNull` — a graph without properties that are `null`.

## Main results

* `ExtensionGraph.GraphDefinition.decode_toJson` — what is written is read back.
* `ExtensionGraph.GraphDefinition.stated_of_decode` — what is read has no property that is `null`.
* `ExtensionGraph.GraphDefinition.format_round_trip` — reading, writing and reading again.
-/

namespace ExtensionGraph

open Json (Record Tree Value bind_eq_ok membersToTree once)

/-- The members of an object for a field that may be missing. -/
def optionalMember (key : String) (v : Option Value) : List (String × Value) :=
  v.toList.map (key, ·)

/-- An optional value that may be computed to nothing. -/
lemma getD_map_none {α β : Type} (o : Option α) (f : α → Option β) :
    (o.map f).getD none = o.bind f := by
  cases o with
  | none | some => rfl

/-- A string that may be missing is no tag, and in order. -/
lemma ordered_of_optionalMember {key : String} {s : Option String} (hkey : key ≠ "type") :
    ∀ m ∈ optionalMember key (stringOption s), m.1 ≠ "type" ∧ m.2.Ordered := by
  cases s with
  | none => simp [optionalMember, stringOption]
  | some s =>
    intro m hm
    cases List.mem_singleton.1 hm
    exact ⟨hkey, .string s⟩

/-! ## Connections -/

/-- The app of a destination is only written if it is stated. -/
lemma FlowDest.toJson_eq (d : FlowDest) :
    d.toJson = .object (optionalMember "app" (stringOption d.app) ++
      [("extension", .string d.extension)]) := by
  obtain ⟨app, extension⟩ := d
  cases app with
  | none | some =>
    simp only [toJson, presentMembers, stringOption, List.filterMap, Option.map,
      Json.Object.ofList, List.foldl, Json.Object.insert, String.reduceEq, String.reduceLT,
      ↓reduceIte]
    rfl

/-- A destination is read back. -/
lemma FlowDest.decode_toJson (d : FlowDest) : decode d.toJson.toTree = .ok d := by
  rw [toJson_eq]
  obtain ⟨app, extension⟩ := d
  cases app with
  | none | some => rfl

/-- A flow is written as its destinations and its name. -/
lemma Flow.toJson_eq (f : Flow) :
    f.toJson = .object [("dest", .array (f.dest.map FlowDest.toJson)),
      ("name", .string f.name)] := by
  simp only [toJson, presentMembers, List.filterMap, Option.map,
    Json.Object.ofList, List.foldl, Json.Object.insert, String.reduceEq, String.reduceLT,
    ↓reduceIte]

/-- A flow is read back. -/
lemma Flow.decode_toJson (f : Flow) : decode f.toJson.toTree = .ok f := by
  have hdest : Tree.list FlowDest.decode (Value.array (f.dest.map FlowDest.toJson)).toTree =
      .ok f.dest := by
    have hlist : Tree.list FlowDest.decode (Value.array (f.dest.map FlowDest.toJson)).toTree =
        .ok (f.dest.map id) := Tree.list_toTree fun d _ => d.decode_toJson
    rwa [List.map_id] at hlist
  rw [toJson_eq]
  refine Record.decodeWith_toTree (.text .malformed) (s := ⟨some f.name, some f.dest⟩) ?_ rfl
  simp only [membersToTree, Record.takeMembers, format, List.mem_cons, true_or, or_true, if_true,
    Fields.take, once, hdest]
  rfl

/-- The app of a connection is only written if it is stated. -/
lemma Connection.toJson_eq (c : Connection) :
    c.toJson = .object (optionalMember "app" (stringOption c.app) ++
      [("cmd", .array (c.cmd.map Flow.toJson)), ("data", .array (c.data.map Flow.toJson)),
        ("extension", .string c.extension)]) := by
  obtain ⟨app, extension, cmd, data⟩ := c
  cases app with
  | none | some =>
    simp only [toJson, presentMembers, stringOption, List.filterMap, Option.map,
      Json.Object.ofList, List.foldl, Json.Object.insert, String.reduceEq, String.reduceLT,
      ↓reduceIte]
    rfl

/-- A connection is read back.

**Proof sketch.** The members that are written fill in the fields of the record one by one. Only the
app may be missing; the lists of flows are read back as lists. -/
lemma Connection.decode_toJson (c : Connection) : decode c.toJson.toTree = .ok c := by
  have hflows (fs : List Flow) : Tree.list Flow.decode (Value.array (fs.map Flow.toJson)).toTree =
      .ok fs := by
    have hlist : Tree.list Flow.decode (Value.array (fs.map Flow.toJson)).toTree =
        .ok (fs.map id) := Tree.list_toTree fun f _ => f.decode_toJson
    rwa [List.map_id] at hlist
  rw [toJson_eq]
  refine Record.decodeWith_toTree (.text .malformed)
    (s := ⟨c.app.map some, some c.extension, some c.cmd, some c.data⟩) ?_ ?_
  · cases c.app with
    | none | some =>
      simp only [optionalMember, stringOption, Option.map_none, Option.map_some, Option.toList_none,
        Option.toList_some, List.map_nil, List.map_cons, List.nil_append, List.cons_append,
        membersToTree, Record.takeMembers, format, List.mem_cons, true_or, or_true, if_true,
        Fields.take, once, hflows]
      rfl
  · show Except.ok (Connection.mk ((c.app.map some).getD none) _ _ _) = _
    rw [getD_map_none, Option.bind_fun_some]
    rfl

/-! ## Nodes -/

/-- The property of an extension lists its members in order. -/
def ExtensionNode.Ordered (n : ExtensionNode) : Prop := ∀ v ∈ n.property, v.Ordered

/-- An extension whose property is left out if it is `null`. -/
def ExtensionNode.forgetNull (n : ExtensionNode) : ExtensionNode :=
  { n with property := n.property.bind Value.stated? }

namespace ExtensionNode

/-- What is written of an extension beside the kind of the node. -/
def members (n : ExtensionNode) : List (String × Value) :=
  [("addon", .string n.addon)] ++ optionalMember "app" (stringOption n.app) ++
    optionalMember "extension_group" (stringOption n.group) ++ [("name", .string n.name)] ++
    optionalMember "property" n.property

/-- An extension is written as its members, followed by its type. -/
lemma toJson_eq (n : ExtensionNode) :
    (Node.extension n).toJson = .object (n.members ++ [("type", .string "extension")]) := by
  obtain ⟨name, addon, group, app, property⟩ := n
  cases group with
  | none | some =>
    cases app with
    | none | some =>
      cases property with
      | none | some =>
        simp only [Node.toJson, Node.kind, NodeKind.name, presentMembers, stringOption,
          List.filterMap, Option.map, Json.Object.ofList, List.foldl, Json.Object.insert,
          String.reduceEq, String.reduceLT, ↓reduceIte]
        rfl

/-- The written members of an extension fill in the fields that they were written from.

**Proof sketch.** By which of the three optional members are written. A member that is not written
leaves its field as it was, which is empty. -/
lemma takeMembers_members {n : ExtensionNode} (h : n.Ordered) :
    format.takeMembers (membersToTree n.members) {} =
      .ok ⟨some n.name, some n.addon, n.group.map some, n.app.map some,
        n.property.map Value.stated?⟩ := by
  obtain ⟨name, addon, group, app, property⟩ := n
  have hproperty (v : Value) (hv : property = some v) :
      Tree.optional Tree.value v.toTree = .ok v.stated? := Tree.optional_toTree (h v hv)
  cases group with
  | none | some =>
    cases app with
    | none | some =>
      cases property with
      | none => rfl
      | some v =>
        have hread := hproperty v rfl
        simp only [members, optionalMember, stringOption, Option.map_none, Option.map_some,
          Option.toList_none, Option.toList_some, List.map_nil, List.map_cons, List.nil_append,
          List.cons_append, List.append_nil, membersToTree, Record.takeMembers, format,
          List.mem_cons, true_or, or_true, if_true, Fields.take, once, hread]
        rfl

/-- An extension is read back from its members. -/
lemma decode_members {n : ExtensionNode} (h : n.Ordered) :
    format.decodeWith .mismatch (Value.object n.members).toTree = .ok n.forgetNull := by
  refine Record.decodeWith_toTree .mismatch (takeMembers_members h) ?_
  show Except.ok (ExtensionNode.mk _ _ ((n.group.map some).getD none) ((n.app.map some).getD none)
    ((n.property.map Value.stated?).getD none)) = _
  rw [getD_map_none, getD_map_none, getD_map_none, Option.bind_fun_some, Option.bind_fun_some]
  rfl

/-- The members of an extension are in order, and none of them is called `type`. -/
lemma members_ordered {n : ExtensionNode} (h : n.Ordered) :
    ∀ m ∈ n.members, m.1 ≠ "type" ∧ m.2.Ordered := by
  intro m hm
  simp only [members, List.mem_append, List.mem_singleton] at hm
  obtain (((rfl | hm) | hm) | rfl) | hm := hm
  · exact ⟨by simp, .string _⟩
  · exact ordered_of_optionalMember (by simp) m hm
  · exact ordered_of_optionalMember (by simp) m hm
  · exact ⟨by simp, .string _⟩
  · obtain ⟨v, hv, rfl⟩ := List.mem_map.1 hm
    exact ⟨by simp, h v (Option.mem_toList.1 hv)⟩

end ExtensionNode

namespace GroupNode

/-- What is written of a group beside the kind of the node. -/
def members (n : GroupNode) : List (String × Value) :=
  [("addon", .string n.addon)] ++ optionalMember "app" (stringOption n.app) ++
    [("name", .string n.name)]

/-- A group is written as its members, followed by its type. -/
lemma toJson_eq (n : GroupNode) :
    (Node.group n).toJson = .object (n.members ++ [("type", .string "extension_group")]) := by
  obtain ⟨name, addon, app⟩ := n
  cases app with
  | none | some =>
    simp only [Node.toJson, Node.kind, NodeKind.name, presentMembers, stringOption,
      List.filterMap, Option.map, Json.Object.ofList, List.foldl, Json.Object.insert,
      String.reduceEq, String.reduceLT, ↓reduceIte]
    rfl

/-- A group is read back from its members. -/
lemma decode_members (n : GroupNode) :
    format.decodeWith .mismatch (Value.object n.members).toTree = .ok n := by
  obtain ⟨name, addon, app⟩ := n
  cases app with
  | none | some => rfl

/-- The members of a group are in order, and none of them is called `type`. -/
lemma members_ordered (n : GroupNode) : ∀ m ∈ n.members, m.1 ≠ "type" ∧ m.2.Ordered := by
  intro m hm
  simp only [members, List.mem_append, List.mem_singleton] at hm
  obtain (rfl | hm) | rfl := hm
  · exact ⟨by simp, .string _⟩
  · exact ordered_of_optionalMember (by simp) m hm
  · exact ⟨by simp, .string _⟩

end GroupNode

namespace Node

/-- The property of a node, if it has one, lists its members in order. -/
def Ordered : Node → Prop
  | .extension n => n.Ordered
  | .group _ => True

/-- A node whose property is left out if it is `null`. -/
def forgetNull : Node → Node
  | .extension n => .extension n.forgetNull
  | .group n => .group n

/-- **A node is read back**, except for a property that is `null`.

**Proof sketch.** The type stands among the members and says which kind to read. Splitting it off
leaves the other members, since none of them is called so, and these are read back. -/
lemma decode_toJson {n : Node} (h : n.Ordered) : decode n.toJson.toTree = .ok n.forgetNull := by
  cases n with
  | extension n =>
    have hsplit : (Node.extension n).toJson.toTree.splitTag "type" decodeKind =
        .ok (.extension, (Value.object n.members).toTree) := by
      have htag : decodeKind (Value.string "extension").toTree = .ok .extension := rfl
      rw [n.toJson_eq]
      exact Tree.splitTag_toTree htag (ExtensionNode.members_ordered h)
    rw [decode, hsplit]
    show ExtensionNode.format.decodeWith .mismatch _ >>= _ = _
    rw [ExtensionNode.decode_members h]
    rfl
  | group n =>
    have hsplit : (Node.group n).toJson.toTree.splitTag "type" decodeKind =
        .ok (.extensionGroup, (Value.object n.members).toTree) := by
      have htag : decodeKind (Value.string "extension_group").toTree = .ok .extensionGroup := rfl
      rw [n.toJson_eq]
      exact Tree.splitTag_toTree htag n.members_ordered
    rw [decode, hsplit]
    show GroupNode.format.decodeWith .mismatch _ >>= _ = _
    rw [n.decode_members]
    rfl

end Node

namespace GraphDefinition

variable {g : GraphDefinition}

/-! ## Writing and reading -/

/-- The properties of a graph list their members in order. -/
def Ordered (g : GraphDefinition) : Prop := ∀ n ∈ g.nodes, n.Ordered

/-- A graph whose properties are left out if they are `null`. -/
def forgetNull (g : GraphDefinition) : GraphDefinition :=
  { g with nodes := g.nodes.map Node.forgetNull }

/-- A graph is written as its connections and its nodes. -/
lemma toJson_eq (g : GraphDefinition) :
    g.toJson = .object [("connections", .array (g.connections.map Connection.toJson)),
      ("nodes", .array (g.nodes.map Node.toJson))] := by
  simp only [toJson, presentMembers, List.filterMap, Option.map,
    Json.Object.ofList, List.foldl, Json.Object.insert, String.reduceEq, String.reduceLT,
    ↓reduceIte]

/-- **What is written is read back**, except for properties that are `null`.

**Proof sketch.** The two lists are read back element by element. A graph has no optional members,
so that taking the members is a matter of evaluation. -/
theorem decode_toJson (h : g.Ordered) : decode g.toJson.toTree = .ok g.forgetNull := by
  have hnodes : Tree.list Node.decode (Value.array (g.nodes.map Node.toJson)).toTree =
      .ok (g.nodes.map Node.forgetNull) :=
    Tree.list_toTree fun n hn => Node.decode_toJson (h n hn)
  have hconnections : Tree.list Connection.decode
      (Value.array (g.connections.map Connection.toJson)).toTree = .ok g.connections := by
    have hlist : Tree.list Connection.decode
        (Value.array (g.connections.map Connection.toJson)).toTree =
          .ok (g.connections.map id) := Tree.list_toTree fun c _ => c.decode_toJson
    rwa [List.map_id] at hlist
  rw [toJson_eq]
  refine Record.decodeWith_toTree (.text .malformed)
    (s := ⟨some (g.nodes.map Node.forgetNull), some g.connections⟩) ?_ rfl
  simp only [membersToTree, Record.takeMembers, format, List.mem_cons, true_or, or_true, if_true,
    Fields.take, once, hnodes, hconnections]
  rfl

end GraphDefinition

/-! ## What is read -/

/-- The property of an extension lists its members in order and says something. -/
def ExtensionNode.Stated (n : ExtensionNode) : Prop :=
  ∀ v ∈ n.property, v.Ordered ∧ v.stated? = some v

/-- The same of a node that is an extension. -/
def Node.Stated : Node → Prop
  | .extension n => n.Stated
  | .group _ => True

namespace ExtensionNode

/-- The same of an extension that is being read. -/
def Fields.Stated (f : Fields) : Prop :=
  ∀ v ∈ f.property.getD none, v.Ordered ∧ v.stated? = some v

/-- A field that is taken is either not the property, or it says something. -/
lemma Fields.Stated.take {f f' : Fields} (h : f.Stated) {name : String} {t : Tree}
    (htake : f.take name t = .ok f') : f'.Stated := by
  unfold Fields.take at htake
  split at htake
  case h_5 =>
    obtain ⟨new, hnew, htake⟩ := bind_eq_ok.1 htake
    cases htake
    obtain ⟨p, hp, rfl⟩ := Json.once_eq_ok hnew
    exact Tree.stated_of_optional hp
  all_goals
    obtain ⟨new, -, htake⟩ := bind_eq_ok.1 htake
    cases htake
    exact h

/-- An extension that was read states a property that is not `null`, or none. -/
lemma stated_of_decodeWith {surplus : Json.Failure} {t : Tree} {n : ExtensionNode}
    (h : format.decodeWith surplus t = .ok n) : n.Stated := by
  have hempty : format.empty.Stated := by
    rintro v ⟨⟩
  obtain ⟨fields, hfields, h⟩ :=
    Record.finish_of_decodeWith hempty (fun _ _ _ _ hf htake => hf.take htake) h
  obtain ⟨name, -, h⟩ := bind_eq_ok.1 h
  obtain ⟨addon, -, h⟩ := bind_eq_ok.1 h
  cases h
  exact hfields

end ExtensionNode

/-- A node that was read states a property that is not `null`, or none. -/
lemma Node.stated_of_decode {t : Tree} {n : Node} (h : decode t = .ok n) : n.Stated := by
  obtain ⟨⟨kind, rest⟩, -, h⟩ := bind_eq_ok.1 h
  cases kind with
  | extension =>
    obtain ⟨x, hx, h⟩ := bind_eq_ok.1 h
    cases h
    exact ExtensionNode.stated_of_decodeWith hx
  | extensionGroup =>
    obtain ⟨x, -, h⟩ := bind_eq_ok.1 h
    cases h
    trivial

/-- A node whose property says something is in order, and has nothing to forget. -/
lemma Node.Stated.ordered {n : Node} (h : n.Stated) : n.Ordered := by
  cases n with
  | extension n => exact fun v hv => (h v hv).1
  | group n => trivial

/-- Where no property is `null`, nothing is forgotten. -/
lemma Node.Stated.forgetNull_eq {n : Node} (h : n.Stated) : n.forgetNull = n := by
  cases n with
  | extension n =>
    obtain ⟨name, addon, group, app, property⟩ := n
    cases property with
    | none => rfl
    | some v =>
      show Node.extension ⟨name, addon, group, app, v.stated?⟩ = _
      rw [(h v rfl).2]
  | group n => rfl

namespace GraphDefinition

variable {g : GraphDefinition} {t : Tree}

/-- All nodes of a graph that is being read have been read. -/
def Fields.Stated (f : Fields) : Prop := ∀ n ∈ f.nodes.getD [], n.Stated

/-- Taking up a further member keeps the stated fields of a graph as they should be. -/
lemma Fields.Stated.take {f f' : Fields} (h : f.Stated) {name : String} {t : Tree}
    (htake : f.take name t = .ok f') : f'.Stated := by
  unfold Fields.take at htake
  split at htake
  · obtain ⟨new, hnew, htake⟩ := bind_eq_ok.1 htake
    cases htake
    obtain ⟨ns, hns, rfl⟩ := Json.once_eq_ok hnew
    exact Tree.forall_of_list (fun t n => Node.stated_of_decode) hns
  · obtain ⟨new, -, htake⟩ := bind_eq_ok.1 htake
    cases htake
    exact h

/-- **What is read has no property that is `null`**, and all its properties are in order. -/
theorem stated_of_decode (h : decode t = .ok g) : ∀ n ∈ g.nodes, n.Stated := by
  have hempty : format.empty.Stated := by
    rintro n ⟨⟩
  obtain ⟨fields, hfields, h⟩ :=
    Record.finish_of_decodeWith hempty (fun _ _ _ _ hf htake => hf.take htake) h
  cases h
  exact hfields

/-- What has been read is read back as it is. -/
lemma decode_toJson_of_decode (h : decode t = .ok g) : decode g.toJson.toTree = .ok g := by
  have hstated := stated_of_decode h
  rw [decode_toJson fun n hn => (hstated n hn).ordered]
  have hnodes : g.nodes.map Node.forgetNull = g.nodes :=
    (List.map_congr_left fun n hn => (hstated n hn).forgetNull_eq).trans (List.map_id _)
  rw [forgetNull, hnodes]

/-! ## Texts -/

/-- A text is accepted if it can be read and its nodes have names and addons.

**Proof sketch.** Reading a text is decoding it and checking the names afterwards. The two steps
differ from the definition only in how they name their errors. -/
lemma ofText_eq_ok_iff {text : String} :
    ofText text = .ok g ↔ Json.decodeText decode text = .ok g ∧ g.validate = .ok () := by
  have hread : ofTextUnchecked text = .ok g ↔ Json.decodeText decode text = .ok g := by
    unfold ofTextUnchecked readJson
    cases Json.decodeText decode text with
    | error | ok => simp [Except.mapError]
  constructor
  · intro h
    obtain ⟨g', hg', h⟩ := bind_eq_ok.1 h
    obtain ⟨⟨⟩, hvalid, h⟩ := bind_eq_ok.1 h
    cases h
    exact ⟨hread.1 hg', hvalid⟩
  · rintro ⟨hg, hvalid⟩
    rw [ofText, hread.2 hg]
    show g.validate >>= _ = _
    rw [hvalid]
    rfl

/-- A text that is read as a tree, with nothing behind it, is decoded like the tree. -/
lemma decodeText_of_document {text : String} (h : Json.Document.ofString text = ⟨t, true⟩) :
    Json.decodeText decode text = decode t := by
  rw [Json.decodeText, h, Json.Document.decode]
  cases decode t with
  | error | ok => rfl

/-- **Graphs are read back as they were written.** Every graph is read back from what is written of
it, up to properties that are `null`. What was read from any tree, in whatever spelling, is read
back unchanged. If a text is accepted as a graph, then so is any text of what is written of it. -/
theorem format_round_trip :
    (∀ g : GraphDefinition, g.Ordered → decode g.toJson.toTree = .ok g.forgetNull) ∧
    (∀ (t : Tree) (g : GraphDefinition), decode t = .ok g → decode g.toJson.toTree = .ok g) ∧
    ∀ (text written : String) (g : GraphDefinition), ofText text = .ok g →
      Json.Document.ofString written = ⟨g.toJson.toTree, true⟩ → ofText written = .ok g := by
  refine ⟨fun g h => decode_toJson h, fun t g h => decode_toJson_of_decode h, ?_⟩
  intro text written g h hwritten
  obtain ⟨hread, hvalid⟩ := ofText_eq_ok_iff.1 h
  obtain ⟨g', hg', hclean⟩ := bind_eq_ok.1 hread
  split at hclean
  · cases hclean
    exact ofText_eq_ok_iff.2
      ⟨(decodeText_of_document hwritten).trans (decode_toJson_of_decode hg'), hvalid⟩
  · cases hclean

/-- A graph with one extension, which may have a property. -/
def solitary (property : Option Value) : GraphDefinition :=
  ⟨[.extension ⟨"a", "x", none, none, property⟩], []⟩

/-- A text in which all records are arrays. -/
def solitary.terse : String := "[[[\"extension\",\"a\",\"x\",null,null,\x7b\"k\":null\x7d]]]"

/-- A text in which they are objects. -/
def solitary.written : String :=
  "\x7b\"connections\":[],\"nodes\":[\x7b\"addon\":\"x\",\"name\":\"a\"," ++
    "\"property\":\x7b\"k\":null\x7d,\"type\":\"extension\"\x7d]\x7d"

/-- A property that is `null` is forgotten, and one that only contains `null` is kept. -/
theorem format_round_trip_solitary :
    let g := solitary (some (.object [("k", .null)]))
    let t : Tree := .array [.array [.array [.string "extension", .string "a", .string "x", .null,
      .null, .null] none] none] none
    decode (solitary (some .null)).toJson.toTree = .ok (solitary none) ∧
    decode t = .ok (solitary none) ∧
    decode (solitary none).toJson.toTree = .ok (solitary none) ∧
    ofText solitary.terse = .ok g ∧
    Json.Document.ofString solitary.written = ⟨g.toJson.toTree, true⟩ ∧
    ofText solitary.written = .ok g := by
  intro g t
  have hordered : (solitary (some .null)).Ordered := by
    intro n hn
    cases List.mem_singleton.1 hn
    rintro v ⟨⟩
    exact .null
  have ht : decode t = .ok (solitary none) := rfl
  have hterse : ofText solitary.terse = .ok (solitary (some (.object [("k", .null)]))) := by cbv
  have hwritten : Json.Document.ofString solitary.written =
      ⟨(solitary (some (.object [("k", .null)]))).toJson.toTree, true⟩ := by cbv
  obtain ⟨hwrite, hagain, htext⟩ := format_round_trip
  exact ⟨hwrite _ hordered, ht, hagain t _ ht, hterse, hwritten, htext _ _ _ hterse hwritten⟩

end GraphDefinition

end ExtensionGraph
