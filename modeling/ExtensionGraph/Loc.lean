import ExtensionGraph.Json.Decode

/-!
# Locations

A location is the address of an extension, or of a whole graph when no extension is named. An
empty app or graph means "the same as the sender's" and is filled in before a message leaves
its extension.

## Main definitions

* `ExtensionGraph.Loc` — locations.
* `ExtensionGraph.Loc.resolve` — fills in what is empty.
* `ExtensionGraph.Loc.format`, `ExtensionGraph.Loc.toJson` — the JSON form.
-/

namespace ExtensionGraph

/-- The address of an extension or of a whole graph. -/
structure Loc where
  app : String
  graph : String
  extension : Option String
deriving DecidableEq, Inhabited

namespace Loc

/-- The address of a graph. -/
def ofGraph (app graph : String) : Loc := ⟨app, graph, none⟩

/-- The address of an extension. -/
def ofExtension (app graph extension : String) : Loc := ⟨app, graph, some extension⟩

/-- An address that says nothing. -/
def empty : Loc := ⟨"", "", none⟩

/-- An extension in the sender's own graph. -/
def here (extension : String) : Loc := ⟨"", "", some extension⟩

/-- The same graph with another extension. -/
def withExtension (l : Loc) (extension : String) : Loc := { l with extension := some extension }

/-- Fills in an empty app and an empty graph. -/
def resolve (app graph : String) (l : Loc) : Loc :=
  { l with
    app := if l.app = "" then app else l.app
    graph := if l.graph = "" then graph else l.graph }

/-- The address as one text. -/
def display (l : Loc) : String :=
  l.app ++ "/" ++ l.graph ++ (match l.extension with
    | some e => "/" ++ e
    | none => "")

/-- The fields of a location while it is read. -/
structure Fields where
  app : Option String := none
  graph : Option String := none
  extension : Option (Option String) := none

/-- Takes one field. -/
def Fields.take (name : String) (t : Json.Tree) (f : Fields) : Except Json.Failure Fields :=
  match name with
  | "app_uri" => do .ok { f with app := ← Json.once f.app Json.Tree.text t }
  | "graph_id" => do .ok { f with graph := ← Json.once f.graph Json.Tree.text t }
  | _ => do
    .ok { f with extension := ← Json.once f.extension (Json.Tree.optional Json.Tree.text) t }

/-- Every field of a location may be missing. -/
def format : Json.Record Fields Loc where
  names := ["app_uri", "graph_id", "extension"]
  empty := {}
  take := Fields.take
  finish f := .ok ⟨f.app.getD "", f.graph.getD "", f.extension.getD none⟩

/-- Reads a location. -/
def decode : Json.Decoder Loc := format.decode

/-- The JSON form of a location; no extension is written by leaving the field out. -/
def toJson (l : Loc) : Json.Value :=
  .object (Json.Object.ofList ([("app_uri", .string l.app), ("graph_id", .string l.graph)] ++
    match l.extension with
    | some e => [("extension", .string e)]
    | none => []))

end Loc

end ExtensionGraph
