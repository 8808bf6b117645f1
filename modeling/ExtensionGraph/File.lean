import ExtensionGraph.Graph.Format

/-!
# Files

What stands at a path of the file system, as far as a reader of text files can see it.

## Main definitions

* `ExtensionGraph.File` — a file, a directory or nothing.
* `ExtensionGraph.File.text` — its text, or why there is none.
* `ExtensionGraph.GraphDefinition.ofFile` — reads a graph from a file.
-/

namespace ExtensionGraph

/-- What stands at a path. -/
inductive File where
  | missing
  | directory
  /-- Something that cannot be read for another reason. -/
  | unreadable (reason : String)
  | content (bytes : ByteArray)
deriving Inhabited

namespace File

/-- The file with the given text. -/
def ofText (s : String) : File := .content s.toUTF8

/-- The text of a file. -/
def text : File → Except Error String
  | .missing => .error (.file .notFound)
  | .directory => .error (.file .isDirectory)
  | .unreadable reason => .error (.file (.other reason))
  | .content bytes =>
    match String.fromUTF8? bytes with
    | some s => .ok s
    | none => .error (.file .notText)

end File

/-- Reads a graph from a file. -/
def GraphDefinition.ofFile (file : File) : Except Error GraphDefinition := do
  GraphDefinition.ofText (← file.text)

end ExtensionGraph
