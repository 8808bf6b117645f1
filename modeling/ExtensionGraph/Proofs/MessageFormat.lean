import ExtensionGraph.Msg
import ExtensionGraph.Proofs.JsonReading
import ExtensionGraph.Proofs.TimeFormat

/-!
# The format of messages

A message is written as an object with all of its fields, and a location as one with an extension if
it has one. What is written of a message is read back as the same message if its properties list
their members in order and it was made at a point in time that can be read at all. Whatever is read
as a message, in whatever spelling, is such a message.

## Main definitions

* `ExtensionGraph.Msg.WellFormed` — the messages that can be read.

## Main results

* `ExtensionGraph.Loc.decode_toJson` — a location is read back.
* `ExtensionGraph.Msg.message_round_trip` — messages are read back as they were written.
-/

namespace ExtensionGraph

open Json (Record Tree Value bind_eq_ok membersToTree once)

/-! ## Locations -/

namespace Loc

/-- What is written of a location. -/
def members (l : Loc) : List (String × Value) :=
  [("app_uri", .string l.app)] ++ (l.extension.map fun e => ("extension", .string e)).toList ++
    [("graph_id", .string l.graph)]

/-- A location is written as its members. -/
lemma toJson_eq (l : Loc) : l.toJson = .object l.members := by
  obtain ⟨app, graph, extension⟩ := l
  cases extension with
  | none | some =>
    simp only [toJson, Json.Object.ofList, List.cons_append, List.nil_append, List.foldl,
      Json.Object.insert, String.reduceEq, String.reduceLT, ↓reduceIte]
    rfl

/-- **A location is read back.** -/
theorem decode_toJson (l : Loc) : decode l.toJson.toTree = .ok l := by
  rw [toJson_eq]
  obtain ⟨app, graph, extension⟩ := l
  cases extension with
  | none | some => rfl

end Loc

namespace Msg

variable {m : Msg} {t : Tree}

/-! ## Writing and reading -/

/-- **The messages that can be read**: the properties list their members in order, and so do all
objects within them, and the point in time is a regular one. -/
structure WellFormed (m : Msg) : Prop where
  keys : m.properties.Ascending
  values : ∀ p ∈ m.properties, p.2.Ordered
  createdAt : m.createdAt.Regular

/-- A message is written with all of its fields. -/
lemma toJson_eq (m : Msg) :
    m.toJson = .object [("created_at", .string m.createdAt.text),
      ("dest", .array (m.dest.map Loc.toJson)), ("kind", .string m.kind.name),
      ("name", .string m.name), ("properties", .object m.properties), ("src", m.src.toJson)] := by
  simp only [toJson, Json.Object.ofList, List.foldl, Json.Object.insert, String.reduceEq,
    String.reduceLT, ↓reduceIte]

/-- A kind of message is read back from its name. -/
lemma decodeKind_name (k : MsgKind) : decodeKind (Value.string k.name).toTree = .ok k := by
  cases k with
  | cmd | data => rfl

/-- A time within the calendar is read back from its text. -/
lemma decodeTime_text {time : Timestamp} (h : time.Regular) :
    decodeTime (Value.string time.text).toTree = .ok time := by
  have hread : Tree.text (Value.string time.text).toTree = .ok time.text := rfl
  simp only [decodeTime, hread, bind, Except.bind, Timestamp.ofChars?_text h]

/-- Properties in order are read back. -/
lemma map_toTree {o : Json.Object} (hkeys : o.Ascending) (hvalues : ∀ p ∈ o, p.2.Ordered) :
    Json.Tree.map (Value.object o).toTree = .ok o := by
  rw [Value.toTree, Json.Tree.map,
    Tree.memberValues_of_forall fun p hp => (hvalues p hp).value_toTree]
  show Except.ok (Json.Object.ofList o) = _
  rw [Json.Object.ofList_of_ascending hkeys]

/-- A well-formed message is read back. -/
theorem decode_toJson (h : m.WellFormed) : decode m.toJson.toTree = .ok m := by
  have hdest : Tree.list Loc.decode (Value.array (m.dest.map Loc.toJson)).toTree = .ok m.dest := by
    have hlist : Tree.list Loc.decode (Value.array (m.dest.map Loc.toJson)).toTree =
        .ok (m.dest.map id) := Tree.list_toTree fun l _ => l.decode_toJson
    rwa [List.map_id] at hlist
  have hname : Tree.text (Value.string m.name).toTree = .ok m.name := rfl
  rw [toJson_eq]
  refine Record.decodeWith_toTree (.text .malformed) (s := ⟨some m.kind, some m.name, some m.src,
    some m.dest, some m.properties, some m.createdAt⟩) ?_ rfl
  simp only [membersToTree, Record.takeMembers, format, List.mem_cons, true_or, or_true, if_true,
    Fields.take, once, hdest, hname, m.src.decode_toJson, decodeKind_name,
    decodeTime_text h.createdAt, map_toTree h.keys h.values]
  rfl

/-! ## What is read -/

/-- What has been read of a message is as it has to be. -/
structure Fields.WellFormed (f : Fields) : Prop where
  properties : ∀ o ∈ f.properties, Json.Object.Ascending o ∧ ∀ p ∈ o, p.2.Ordered
  createdAt : ∀ time ∈ f.createdAt, time.Regular

/-- A time that is read is within the calendar. -/
lemma regular_of_decodeTime {time : Timestamp} (h : decodeTime t = .ok time) : time.Regular := by
  obtain ⟨s, -, h⟩ := bind_eq_ok.1 h
  split at h
  · next htime =>
    cases h
    exact Timestamp.regular_of_ofChars? htime
  · cases h

/-- Properties that are read are in order, and so are their values. -/
lemma ordered_of_map {o : Json.Object} (h : Json.Tree.map t = .ok o) :
    o.Ascending ∧ ∀ p ∈ o, p.2.Ordered := by
  unfold Json.Tree.map at h
  split at h
  · next members stop =>
    obtain ⟨ms, hms, h⟩ := bind_eq_ok.1 h
    obtain ⟨-, -, h⟩ := bind_eq_ok.1 h
    cases h
    exact ⟨Json.Object.ascending_ofList ms, fun p hp =>
      Tree.ordered_of_memberValues members hms p (Json.Object.mem_of_mem_ofList hp)⟩
  all_goals cases h

/-- A field that is taken is as it has to be, and the others stay so.

**Proof sketch.** By the name of the member. Two fields have a form to keep, and reading them gives
it; the others are taken as they come. -/
lemma Fields.WellFormed.take {f f' : Fields} (h : f.WellFormed) {name : String}
    (htake : f.take name t = .ok f') : f'.WellFormed := by
  unfold Fields.take at htake
  split at htake
  case h_5 =>
    obtain ⟨new, hnew, htake⟩ := bind_eq_ok.1 htake
    cases htake
    obtain ⟨o, ho, rfl⟩ := Json.once_eq_ok hnew
    refine ⟨?_, h.createdAt⟩
    rintro _ ⟨⟩
    exact ordered_of_map ho
  case h_6 =>
    obtain ⟨new, hnew, htake⟩ := bind_eq_ok.1 htake
    cases htake
    obtain ⟨time, htime, rfl⟩ := Json.once_eq_ok hnew
    refine ⟨h.properties, ?_⟩
    rintro _ ⟨⟩
    exact regular_of_decodeTime htime
  all_goals
    obtain ⟨new, -, htake⟩ := bind_eq_ok.1 htake
    cases htake
    exact ⟨h.properties, h.createdAt⟩

/-- A required field that was given is there. -/
lemma eq_some_of_required {α : Type} {a : Option α} {b : α} (h : Json.required a = .ok b) :
    a = some b := by
  cases a with
  | none => cases h
  | some a =>
    cases h
    rfl

/-- **Whatever is read as a message is well-formed**, in whatever spelling. -/
theorem wellFormed_of_decode (h : decode t = .ok m) : m.WellFormed := by
  have hempty : format.empty.WellFormed := ⟨nofun, nofun⟩
  obtain ⟨fields, hfields, h⟩ :=
    Record.finish_of_decodeWith hempty (fun _ _ _ _ hf htake => hf.take htake) h
  obtain ⟨kind, -, h⟩ := bind_eq_ok.1 h
  obtain ⟨name, -, h⟩ := bind_eq_ok.1 h
  obtain ⟨time, htime, h⟩ := bind_eq_ok.1 h
  cases h
  have hproperties : Json.Object.Ascending (fields.properties.getD []) ∧
      ∀ p ∈ fields.properties.getD [], p.2.Ordered := by
    cases hp : fields.properties with
    | none => exact ⟨List.Pairwise.nil, nofun⟩
    | some o => exact hfields.properties o hp
  exact ⟨hproperties.1, hproperties.2, hfields.createdAt time (eq_some_of_required htime)⟩

/-- **Messages are read back as they were written.** Exactly the messages that are well-formed are
read back from what is written of them, and every message that was read is one of them. -/
theorem message_round_trip :
    (∀ m : Msg, decode m.toJson.toTree = .ok m ↔ m.WellFormed) ∧
    ∀ (t : Tree) (m : Msg), decode t = .ok m → decode m.toJson.toTree = .ok m := by
  constructor
  · intro m
    exact ⟨wellFormed_of_decode, decode_toJson⟩
  · intro t m h
    exact decode_toJson (wellFormed_of_decode h)

/-- A message that was made in a leap second. -/
def late : Msg where
  kind := .data
  name := "beat"
  src := ⟨"a", "", none⟩
  dest := [⟨"", "g", none⟩]
  properties := [("a", .bool true), ("b", .null)]
  createdAt := ⟨1719791999, 1500000000⟩

/-- The message as an array, with a location that is cut short and one with a field of its own. -/
def late.terse : Tree :=
  .array [.string "data", .string "beat", .array [.string "a"] none,
    .array [.object [(.ok "graph_id", .string "g"), (.ok "other", .null)] none] none,
    .object [(.ok "b", .null), (.ok "a", .bool true)] none,
    .string "2024-06-30T23:59:60.5+00:00"] none

/-- The message is read from the array, and then from what is written of it. -/
theorem message_round_trip_late :
    decode late.terse = .ok late ∧ decode late.toJson.toTree = .ok late := by
  have hread : decode late.terse = .ok late := rfl
  exact ⟨hread, message_round_trip.2 late.terse late hread⟩

end Msg

end ExtensionGraph
