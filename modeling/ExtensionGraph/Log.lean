import ExtensionGraph.Error
import ExtensionGraph.Loc
import ExtensionGraph.Text.Quoted

/-!
# Log events

Everything that is worth telling about a running graph. An event has a level, a message and
named fields; the three are given in one place, `LogEvent.entry`. It comes from a part of the
program, by whose name a filter can choose it.

## Main definitions

* `ExtensionGraph.LogLevel`, `ExtensionGraph.LogPart`, `ExtensionGraph.LogEvent` — levels, parts
  of the program and events.
* `ExtensionGraph.LogEvent.entry` — how an event is written.
* `ExtensionGraph.LogEvent.part`, `ExtensionGraph.LogEvent.fieldNames` — by what it is chosen.
-/

namespace ExtensionGraph

/-- The number of an extension thread. -/
structure ThreadId where
  number : Nat
deriving DecidableEq, Inhabited

/-- The name of an extension thread. -/
def ThreadId.text (id : ThreadId) : String := "ext-thread-" ++ toString id.number

/-- How urgent an event is. -/
inductive LogLevel where
  | error
  | warn
  | info
  | debug
deriving DecidableEq, Inhabited

/-- The name of a level. -/
def LogLevel.name : LogLevel → String
  | .error => "error"
  | .warn => "warn"
  | .info => "info"
  | .debug => "debug"

/-- The parts of the program that log. -/
inductive LogPart where
  | addons
  | app
  | engine
  | context
  | threads
  | commandLine
  | builtins
deriving DecidableEq, Inhabited

/-- The name of a part. -/
def LogPart.name : LogPart → String
  | .addons => "ten_runtime::addon"
  | .app => "ten_runtime::app"
  | .engine => "ten_runtime::engine"
  | .context => "ten_runtime::extension_context"
  | .threads => "ten_runtime::extension_thread"
  | .commandLine => "ten"
  | .builtins => "ten::builtin"

/-- The points in the life of an extension at which it is called. -/
inductive Hook where
  | init
  | start
  | stop
  | deinit
deriving DecidableEq, Inhabited

/-- The name of the callback of a hook. -/
def Hook.name : Hook → String
  | .init => "on_init"
  | .start => "on_start"
  | .stop => "on_stop"
  | .deinit => "on_deinit"

/-- The events. -/
inductive LogEvent where
  -- Addons.
  | extensionAddonRegistered (addon : String)
  | groupAddonRegistered (addon : String)
  -- The life of a graph.
  | noLocalGroups (graph : String)
  | groupRefused (graph group addon : String) (cause : Error)
  | groupTooLate (group : String)
  | threadCreated (graph : String) (thread : ThreadId) (group : String)
  | readyTwice (graph : String) (cause : Error)
  | groupsUndeclared (graph : String) (groups : List String)
  | threadRefused (group : String) (cause : Error)
  | graphStarted (graph : String) (threads : Nat)
  | graphResources (resources : Json.Object)
  | closing (graph : String) (total : Nat)
  | unknownThreadClosed (thread : ThreadId)
  | threadJoined (thread : ThreadId) (group : String)
  | threadLeft (graph group : String)
  | waiting (graph : String) (closed total : Nat)
  | contextClosed (graph : String)
  | groupFailed (graph : String) (cause : Error)
  | engineClosed (graph : String)
  | engineStopped (graph : String)
  -- Messages on their way.
  | noExtensionAddressed (name : String) (dest : Loc)
  | remoteDestination (name : String) (dest : Loc)
  | threadNotRunning (name : String) (dest : Loc)
  | unknownDestination (name : String) (dest : Loc)
  -- Threads.
  | closedUnattached (thread : ThreadId)
  | threadPanicked (group : String)
  | spawnRefused (group reason : String)
  | runtimeRefused (thread : ThreadId) (reason : String)
  | threadStarted (graph group : String) (extensions : Nat)
  | extensionRefused (group extension addon : String) (cause : Error)
  | hookFailed (hook : Hook) (extension : String) (cause : Error)
  | handlerFailed (extension : String) (cause : Error)
  | notHosted (group extension name : String)
  | threadStopped (group : String)
  -- The builtin extensions.
  | received (extension : String) (sender : Loc) (command : Bool) (name : String)
      (properties : Json.Object)
  | receiverStopped (extension : String) (count : Nat)
  | heartbeatStopped (extension : String) (cause : Error)
  -- The app and the command line.
  | graphStarting (graph name : String)
  | graphNotClosed (graph : String) (cause : Error)
  | appClosed (uri : String) (graphs : Nat)
  | running (graph : String)
  | interrupted
  | graphClosedItself (graph : String)

namespace LogEvent

/-- Level, message and fields of an event. -/
structure Entry where
  level : LogLevel
  message : String
  fields : List (String × Json.Value)

/-- A text as the value of a field. -/
def text (s : String) : Json.Value := .string s

/-- An error as the value of a field. -/
def cause (e : Error) : Json.Value := .string e.message

/-- How an event is written. -/
def entry : LogEvent → Entry
  | extensionAddonRegistered addon =>
    ⟨.debug, "Registered extension addon", [("addon", text addon)]⟩
  | groupAddonRegistered addon =>
    ⟨.debug, "Registered extension group addon", [("addon", text addon)]⟩
  | noLocalGroups graph =>
    ⟨.debug, "No local extension groups, starting right away", [("graph_id", text graph)]⟩
  | groupRefused graph group addon e =>
    ⟨.error, "Failed to start extension group",
      [("graph_id", text graph), ("extension_group", text group), ("addon", text addon),
        ("error", cause e)]⟩
  | groupTooLate group =>
    ⟨.debug, "Extension group created after the graph closed, dropping it",
      [("extension_group", text group)]⟩
  | threadCreated graph thread group =>
    ⟨.debug, "Extension thread created",
      [("graph_id", text graph), ("thread", text thread.text),
        ("extension_group", text group)]⟩
  | readyTwice graph e =>
    ⟨.error, "Readiness barrier reached twice", [("graph_id", text graph), ("error", cause e)]⟩
  | groupsUndeclared graph groups =>
    ⟨.error, "Extension groups missing from the graph, closing",
      [("graph_id", text graph), ("extension_groups", text (quotedList groups))]⟩
  | threadRefused group e =>
    ⟨.error, "Failed to start extension thread",
      [("extension_group", text group), ("error", cause e)]⟩
  | graphStarted graph threads =>
    ⟨.info, "Graph started",
      [("graph_id", text graph), ("extension_threads", .ofNat threads)]⟩
  | graphResources resources =>
    ⟨.info, "[graph resources]",
      [("graph_resources", text (Json.Value.object resources).compact)]⟩
  | closing graph total =>
    ⟨.debug, "Closing extension threads", [("graph_id", text graph), ("total", .ofNat total)]⟩
  | unknownThreadClosed thread =>
    ⟨.warn, "Closed notification from an unknown extension thread",
      [("thread", text thread.text)]⟩
  | threadJoined thread group =>
    ⟨.debug, "Extension thread joined",
      [("thread", text thread.text), ("extension_group", text group)]⟩
  | threadLeft graph group =>
    ⟨.warn, "Extension thread exited on its own",
      [("graph_id", text graph), ("extension_group", text group)]⟩
  | waiting graph closed total =>
    ⟨.debug, "Waiting for extension threads to close",
      [("graph_id", text graph), ("closed", .ofNat closed), ("total", .ofNat total)]⟩
  | contextClosed graph => ⟨.info, "Extension context closed", [("graph_id", text graph)]⟩
  | groupFailed graph e =>
    ⟨.error, "Extension group creation failed, closing graph",
      [("graph_id", text graph), ("error", cause e)]⟩
  | engineClosed graph => ⟨.debug, "Engine closed", [("graph_id", text graph)]⟩
  | engineStopped graph => ⟨.info, "Engine stopped", [("graph_id", text graph)]⟩
  | noExtensionAddressed name dest =>
    ⟨.warn, "Destination without an extension",
      [("msg", text name), ("dest", text dest.display)]⟩
  | remoteDestination name dest =>
    ⟨.warn, "Remote destinations are not reachable, dropping",
      [("msg", text name), ("dest", text dest.display)]⟩
  | threadNotRunning name dest =>
    ⟨.debug, "Destination thread is not running",
      [("msg", text name), ("dest", text dest.display)]⟩
  | unknownDestination name dest =>
    ⟨.warn, "Unknown destination, dropping",
      [("msg", text name), ("dest", text dest.display)]⟩
  | closedUnattached thread =>
    ⟨.warn, "Closing a thread that was never attached", [("thread", text thread.text)]⟩
  | threadPanicked group =>
    ⟨.error, "Extension thread panicked", [("extension_group", text group)]⟩
  | spawnRefused group reason =>
    ⟨.error, "Failed to spawn extension thread",
      [("extension_group", text group), ("error", text reason)]⟩
  | runtimeRefused thread reason =>
    ⟨.error, "Failed to build extension thread runtime",
      [("thread", text thread.text), ("error", text reason)]⟩
  | threadStarted graph group extensions =>
    ⟨.info, "Extension thread started",
      [("graph_id", text graph), ("extension_group", text group),
        ("extensions", .ofNat extensions)]⟩
  | extensionRefused group extension addon e =>
    ⟨.error, "Failed to create extension",
      [("extension_group", text group), ("extension", text extension), ("addon", text addon),
        ("error", cause e)]⟩
  | hookFailed hook extension e =>
    ⟨.warn, hook.name ++ " failed", [("extension", text extension), ("error", cause e)]⟩
  | handlerFailed extension e =>
    ⟨.warn, "Message handler failed", [("extension", text extension), ("error", cause e)]⟩
  | notHosted group extension name =>
    ⟨.warn, "Message for an extension this group does not host",
      [("extension_group", text group), ("extension", text extension), ("msg", text name)]⟩
  | threadStopped group =>
    ⟨.debug, "Extension thread stopped", [("extension_group", text group)]⟩
  | received extension sender command name properties =>
    ⟨.info, if command then "Received cmd" else "Received data",
      [("extension", text extension), ("from", text sender.display),
        (if command then "cmd" else "data", text name),
        ("properties", text (Json.Value.object properties).compact)]⟩
  | receiverStopped extension count =>
    ⟨.info, "Log extension stopped",
      [("extension", text extension), ("received", .ofNat count)]⟩
  | heartbeatStopped extension e =>
    ⟨.warn, "Heartbeat stopped", [("extension", text extension), ("error", cause e)]⟩
  | graphStarting graph name =>
    ⟨.info, "Graph starting", [("graph_id", text graph), ("graph_name", text name)]⟩
  | graphNotClosed graph e =>
    ⟨.warn, "Graph did not close", [("graph_id", text graph), ("error", cause e)]⟩
  | appClosed uri graphs =>
    ⟨.info, "App closed", [("uri", text uri), ("graphs", .ofNat graphs)]⟩
  | running graph => ⟨.info, "Running, press Ctrl-C to stop", [("graph_id", text graph)]⟩
  | interrupted => ⟨.info, "Ctrl-C received, closing", []⟩
  | graphClosedItself graph => ⟨.info, "Graph closed itself", [("graph_id", text graph)]⟩

/-- The part of the program that an event comes from. -/
def part : LogEvent → LogPart
  | extensionAddonRegistered _ | groupAddonRegistered _ => .addons
  | graphStarting _ _ | graphNotClosed _ _ | appClosed _ _ => .app
  | groupFailed _ _ | engineClosed _ | engineStopped _ => .engine
  | closedUnattached _ | threadPanicked _ | spawnRefused _ _ | runtimeRefused _ _
  | threadStarted _ _ _ | extensionRefused _ _ _ _ | hookFailed _ _ _ | handlerFailed _ _
  | notHosted _ _ _ | threadStopped _ => .threads
  | received _ _ _ _ _ | receiverStopped _ _ | heartbeatStopped _ _ => .builtins
  | running _ | interrupted | graphClosedItself _ => .commandLine
  | _ => .context

/-- The names of the fields of an event: those of its entry, its message, and the time at which
a thread was made, which is not told. -/
def fieldNames (e : LogEvent) : List String :=
  "message" :: e.entry.fields.map (·.1) ++
    match e with
    | threadJoined _ _ => ["created_at"]
    | _ => []

end LogEvent

end ExtensionGraph
