/-!
# TOML values

A table can come about in four ways: written in braces, under a header of its own, implied by
the header of a table inside it, or implied by a dotted key. They decide which later lines may
add to the table.

## Main definitions

* `ExtensionGraph.Toml.Value`, `ExtensionGraph.Toml.Members` — values and tables.
* `ExtensionGraph.Toml.Members.assign` — a line `a.b.c = value`.
* `ExtensionGraph.Toml.Members.openTable`, `ExtensionGraph.Toml.Members.openEntry` — the headers
  `[a.b]` and `[[a.b]]`.
-/

namespace ExtensionGraph.Toml

/-- How a table came about. -/
inductive Origin where
  | braces
  | header
  | outerHeader
  | dottedKey
deriving DecidableEq, Inhabited

/-- A TOML value. Of floating-point numbers and of points in time only the kind is kept. -/
inductive Value where
  | string (text : String)
  | integer (value : Int)
  | float
  | boolean (value : Bool)
  | time
  | array (items : List Value)
  | table (origin : Origin) (members : List (String × Value))
  /-- The tables under repeated headers in double brackets. -/
  | tables (entries : List (List (String × Value)))
deriving Inhabited

/-- The members of a table in the order in which they came about. -/
abbrev Members := List (String × Value)

namespace Members

/-- The value of a key. -/
def find? (ms : Members) (key : String) : Option Value := ms.lookup key

/-- Sets a member: a known key keeps its place. -/
def put (key : String) (v : Value) : Members → Members
  | [] => [(key, v)]
  | (k, w) :: rest => if k = key then (k, v) :: rest else (k, w) :: put key v rest

/-- Goes down to the table at a path and changes it there. Missing tables are made with the
given origin. Of repeated tables the last one counts. A dotted key must not lead through a
table that has its own header, and nothing leads through a table in braces or a value of
another kind. -/
def descend (origin : Origin) (change : Origin → Members → Option Members) :
    List String → Origin → Members → Option Members
  | [], here, ms => change here ms
  | key :: path, _, ms =>
    match ms.find? key with
    | none => do
      let inner ← descend origin change path origin []
      some (ms.put key (.table origin inner))
    | some (.table .braces _) => none
    | some (.table there inner) =>
      if origin = .dottedKey ∧ there = .header then none
      else do
        let inner ← descend origin change path there inner
        some (ms.put key (.table there inner))
    | some (.tables entries) =>
      match entries.getLast? with
      | none => none
      | some inner => do
        let inner ← descend origin change path .header inner
        some (ms.put key (.tables (entries.dropLast ++ [inner])))
    | some _ => none

/-- Sets a new member of a table; one that was reached by a dotted key must have come about by
a dotted key. -/
def add (dotted : Bool) (key : String) (v : Value) (here : Origin) (ms : Members) :
    Option Members :=
  if dotted ∧ here ≠ .dottedKey then none
  else match ms.find? key with
    | some _ => none
    | none => some (ms ++ [(key, v)])

/-- A line that sets a dotted key below the current table. -/
def assign (path : List String) (key : String) (v : Value) (ms : Members) : Option Members :=
  descend .dottedKey (add (!path.isEmpty) key v) path .header ms

/-- Opens the table of a header: it must be new, or only implied by other headers. -/
def openHere (key : String) (_ : Origin) (ms : Members) : Option Members :=
  match ms.find? key with
  | none => some (ms ++ [(key, .table .header [])])
  | some (.table .outerHeader inner) => some (ms.put key (.table .header inner))
  | some _ => none

/-- Opens one more table of a header in double brackets. -/
def openEntryHere (key : String) (_ : Origin) (ms : Members) : Option Members :=
  match ms.find? key with
  | none => some (ms ++ [(key, .tables [[]])])
  | some (.tables entries) => some (ms.put key (.tables (entries ++ [[]])))
  | some _ => none

/-- A header. -/
def openTable (path : List String) (key : String) (ms : Members) : Option Members :=
  descend .outerHeader (openHere key) path .header ms

/-- A header in double brackets. -/
def openEntry (path : List String) (key : String) (ms : Members) : Option Members :=
  descend .outerHeader (openEntryHere key) path .header ms

/-- A line that sets a dotted key below the table of the latest header. -/
def assignAt (header path : List String) (key : String) (v : Value) (ms : Members) :
    Option Members :=
  descend .outerHeader (fun _ ms => assign path key v ms) header .header ms

end Members

end ExtensionGraph.Toml
