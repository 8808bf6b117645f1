import ExtensionGraph.Json.Decode
import ExtensionGraph.Json.Remark

/-!
# Errors

Everything that can go wrong while a graph is described, started, run or stopped is one of the
causes below. A cause knows its wording and the coarse code that is reported to whoever issued
the failing request.

## Main definitions

* `ExtensionGraph.Error` — the causes.
* `ExtensionGraph.Error.message` — their wording.
* `ExtensionGraph.ErrorCode`, `ExtensionGraph.Error.code` — their coarse classification.
-/

namespace ExtensionGraph

/-- Coarse classification of errors. -/
inductive ErrorCode where
  | generic
  | invalidArgument
  | invalidGraph
  | closed
  | timeout
deriving DecidableEq, Inhabited

/-- The name under which a code is reported. -/
def ErrorCode.name : ErrorCode → String
  | .generic => "generic"
  | .invalidArgument => "invalid_argument"
  | .invalidGraph => "invalid_graph"
  | .closed => "closed"
  | .timeout => "timeout"

/-- Why a file could not be read. -/
inductive FileFault where
  | notFound
  | isDirectory
  | notText
  | other (text : String)
deriving DecidableEq, Inhabited

/-- The wording of a file fault. -/
def FileFault.message : FileFault → String
  | .notFound => "No such file or directory (os error 2)"
  | .isDirectory => "Is a directory (os error 21)"
  | .notText => "stream did not contain valid UTF-8"
  | .other text => text

/-- The two kinds of graph nodes, as far as complaints about them differ. -/
inductive NodeKind where
  | extension
  | extensionGroup
deriving DecidableEq, Inhabited

/-- The name of a node kind in a graph definition. -/
def NodeKind.name : NodeKind → String
  | .extension => "extension"
  | .extensionGroup => "extension_group"

/-- What can be wrong with a graph that could be read. -/
inductive GraphFault where
  /-- A node without a name or without an addon. -/
  | unnamed (kind : NodeKind)
  | duplicateExtension (name : String)
  | duplicateGroup (name : String)
  | unknownSource (extension : String)
  | unknownDestination (extension flow : String)
  /-- A fault reported by an addon in its own words. -/
  | other (text : String)
deriving DecidableEq, Inhabited

/-- The wording of a graph fault. -/
def GraphFault.message : GraphFault → String
  | .unnamed kind => kind.name ++ " node needs both 'name' and 'addon'"
  | .duplicateExtension name => "duplicate extension '" ++ name ++ "'"
  | .duplicateGroup name => "duplicate extension group '" ++ name ++ "'"
  | .unknownSource extension =>
    "connection source '" ++ extension ++ "' is not a node of the graph"
  | .unknownDestination extension flow =>
    "destination '" ++ extension ++ "' of '" ++ flow ++ "' is not a node of the graph"
  | .other text => text

/-- The causes of failure. -/
inductive Error where
  | addonNotFound (addon : String)
  | addonAlreadyRegistered (addon : String)
  | groupCreationFailed (text : String)
  | invalidGraph (fault : GraphFault)
  | topologyAlreadyInstalled
  | graphNotFound (graph : String)
  | invalidArgument (text : String)
  | invalidState (text : String)
  | closed (text : String)
  | timeout (text : String)
  | config (text : String)
  | file (fault : FileFault)
  /-- A text that is no JSON of the expected form, with the reader's own words if it has any. -/
  | json (failure : Json.Failure) (text : String)
  | toml (text : String)
deriving DecidableEq, Inhabited

namespace Error

/-- The wording of an error. -/
def message : Error → String
  | .addonNotFound addon => "Unable to find " ++ addon
  | .addonAlreadyRegistered addon => "Addon already registered: " ++ addon
  | .groupCreationFailed text => "Extension group creation failed: " ++ text
  | .invalidGraph fault => "Invalid graph: " ++ fault.message
  | .topologyAlreadyInstalled => "Graph topology already installed"
  | .graphNotFound graph => "Graph not found: " ++ graph
  | .invalidArgument text => "Invalid argument: " ++ text
  | .invalidState text => "Invalid state: " ++ text
  | .closed text => "Closed: " ++ text
  | .timeout text => "Timeout: " ++ text
  | .config text => "Config error: " ++ text
  | .file fault => "IO error: " ++ fault.message
  | .json _ text => "JSON error: " ++ text
  | .toml text => "TOML error: " ++ text ++ "\n"

/-- The code that is reported for an error. -/
def code : Error → ErrorCode
  | .invalidGraph _ | .graphNotFound _ => .invalidGraph
  | .invalidArgument _ | .config _ | .toml _ | .json _ _ => .invalidArgument
  | .closed _ => .closed
  | .timeout _ => .timeout
  | _ => .generic

/-- The error of a JSON text that was refused. -/
def ofJson (failure : Json.Failure) : Error := .json failure failure.category

/-- The refusal of a JSON text in somebody's own words. -/
def ofRemark (text : String) : Error := .json .mismatch (Json.Remark.ofText text).text

end Error

/-- Reads a JSON text with a decoder and reports a refusal as an error. -/
def readJson {α : Type} (read : Json.Decoder α) (text : String) : Except Error α :=
  (Json.decodeText read text).mapError Error.ofJson

end ExtensionGraph
