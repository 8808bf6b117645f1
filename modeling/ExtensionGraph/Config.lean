import ExtensionGraph.Duration
import ExtensionGraph.File
import ExtensionGraph.Toml.Document

/-!
# Configuration

The settings of an app come from a TOML document, if there is one, and are then overridden
from the environment. What neither of them gives has a default.

## Main definitions

* `ExtensionGraph.Config` — the settings.
* `ExtensionGraph.Config.ofToml` — reads them from a document.
* `ExtensionGraph.Config.override` — overrides them from named values.
* `ExtensionGraph.Config.load` — both.
-/

namespace ExtensionGraph

/-- The settings of an app. -/
structure Config where
  uri : String
  baseDir : String
  logLevel : String
  logJson : Bool
  /-- How long callers wait for a graph to close, in milliseconds; for ever if it is not set. -/
  closeTimeoutMs : Option Nat
deriving DecidableEq, Inhabited

namespace Config

/-- The settings without document and environment. -/
def default : Config := ⟨"localhost", ".", "info", false, none⟩

/-- How long callers wait for a graph to close. -/
def closeTimeout (c : Config) : Option Duration := c.closeTimeoutMs.map .ofMillis

/-! ## From a document -/

/-- Changes the settings by a value of a document. -/
abbrev Setter := Toml.Value → Config → Option Config

/-- The setting `app.uri`. -/
def setUri : Setter
  | .string s, c => some { c with uri := s }
  | _, _ => none

/-- The setting `app.base_dir`. -/
def setBaseDir : Setter
  | .string s, c => some { c with baseDir := s }
  | _, _ => none

/-- The setting `log.level`. -/
def setLogLevel : Setter
  | .string s, c => some { c with logLevel := s }
  | _, _ => none

/-- The setting `log.json`. -/
def setLogJson : Setter
  | .boolean b, c => some { c with logJson := b }
  | _, _ => none

/-- The setting `close_timeout_ms`. -/
def setCloseTimeout : Setter
  | .integer i, c => if 0 ≤ i then some { c with closeTimeoutMs := some i.toNat } else none
  | _, _ => none

/-- Changes settings by the members of a table; unknown ones are passed over. -/
def setMembers (fields : List (String × Setter)) (ms : Toml.Members) (c : Config) :
    Option Config :=
  ms.foldlM (fun c m => match fields.lookup m.1 with
    | some set => set m.2 c
    | none => some c) c

/-- Changes settings by the items of an array, in the order of the fields; a surplus is passed
over. -/
def setItems (fields : List (String × Setter)) (items : List Toml.Value) (c : Config) :
    Option Config :=
  (fields.zip items).foldlM (fun c m => m.1.2 m.2 c) c

/-- The settings of a section: a table or an array. A point in time is a section without
settings. -/
def setSection (fields : List (String × Setter)) : Setter
  | .table _ ms, c => setMembers fields ms c
  | .array items, c => setItems fields items c
  | .tables entries, c => setItems fields (entries.map (.table .header)) c
  | .time, c => some c
  | _, _ => none

/-- The settings of an app. -/
def appFields : List (String × Setter) := [("uri", setUri), ("base_dir", setBaseDir)]

/-- The settings of the log. -/
def logFields : List (String × Setter) := [("level", setLogLevel), ("json", setLogJson)]

/-- All settings. -/
def fields : List (String × Setter) :=
  [("app", setSection appFields), ("log", setSection logFields),
    ("close_timeout_ms", setCloseTimeout)]

/-- Reads settings from a document. -/
def ofToml (text : String) : Except Error Config :=
  match (Toml.ofText? text).bind fun ms => setMembers fields ms default with
  | some c => .ok c
  | none => .error (.toml "")

/-! ## From the environment -/

/-- The override of `log.json`. -/
def overrideJson (c : Config) (s : String) : Except Error Config :=
  match s with
  | "true" => .ok { c with logJson := true }
  | "false" => .ok { c with logJson := false }
  | s => .error (.config ("TEN_LOG_JSON must be true or false, got '" ++ s ++ "'"))

/-- The override of `close_timeout_ms`. -/
def overrideTimeout (c : Config) (s : String) : Except Error Config :=
  match wordOfText? s with
  | some n => .ok { c with closeTimeoutMs := some n }
  | none => .error (.config ("TEN_CLOSE_TIMEOUT_MS must be milliseconds, got '" ++ s ++ "'"))

/-- Overrides one setting, if there is something to override it with. A value that is refused
leaves the settings as they are. -/
def overrideOne (value : Option String) (set : Config → String → Except Error Config)
    (c : Config) : Config × Except Error Unit :=
  match value with
  | none => (c, .ok ())
  | some s =>
    match set c s with
    | .ok c => (c, .ok ())
    | .error e => (c, .error e)

/-- Goes on with the next override unless one was refused. -/
def andThen (r : Config × Except Error Unit) (next : Config → Config × Except Error Unit) :
    Config × Except Error Unit :=
  match r.2 with
  | .ok () => next r.1
  | .error _ => r

/-- Overrides the settings by named values, up to the first that is refused; what was
overridden before it stays. -/
def override (lookup : String → Option String) (c : Config) : Config × Except Error Unit :=
  let plain (set : Config → String → Config) (c : Config) (s : String) : Except Error Config :=
    .ok (set c s)
  let r := overrideOne (lookup "TEN_APP_URI") (plain fun c s => { c with uri := s }) c
  let r := andThen r
    (overrideOne (lookup "TEN_APP_BASE_DIR") (plain fun c s => { c with baseDir := s }))
  let r := andThen r
    (overrideOne (lookup "TEN_LOG_LEVEL") (plain fun c s => { c with logLevel := s }))
  let r := andThen r (overrideOne (lookup "TEN_LOG_JSON") overrideJson)
  andThen r (overrideOne (lookup "TEN_CLOSE_TIMEOUT_MS") overrideTimeout)

/-- Reads settings from a file, if there is one, and overrides them from the environment. -/
def load (file : Option File) (lookup : String → Option String) : Except Error Config := do
  let c ← match file with
    | some f => ofToml (← f.text)
    | none => .ok default
  let (c, result) := c.override lookup
  result
  .ok c

/-- The JSON form of the settings. -/
def toJson (c : Config) : Json.Value :=
  .object (Json.Object.ofList
    [("app", .object (Json.Object.ofList
        [("uri", .string c.uri), ("base_dir", .string c.baseDir)])),
      ("log", .object (Json.Object.ofList
        [("level", .string c.logLevel), ("json", .bool c.logJson)])),
      ("close_timeout_ms", (c.closeTimeoutMs.map Json.Value.ofNat).getD .null)])

end Config

end ExtensionGraph
