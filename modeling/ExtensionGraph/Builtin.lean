import ExtensionGraph.Registry

/-!
# The builtin addons

The addons that every app of the command line offers. The log addon builds extensions that log
every message that they receive, and when they are stopped how many there were. The heartbeat addon
builds extensions that send a numbered `heartbeat` message in a fixed interval from their start to
their stop, or until a message is refused. The interval is the property `interval_ms`, a second if
it is not given.

## Main definitions

* `ExtensionGraph.Addon.log`, `ExtensionGraph.Addon.heartbeat` — the addons.
* `ExtensionGraph.Registry.builtin` — the default group addon and the builtin extensions.
-/

namespace ExtensionGraph

namespace Addon

/-! ## The log addon -/

/-- The number of messages that were received. -/
def receivedCount (memory : Memory) : Nat := memory.asNat?.getD 0

/-- What the extension does when it is called. -/
def logScript (memory : Memory) (env : Env) : Callback → Script
  | .message m =>
    .emit (.log (.received env.name m.src (m.kind = .cmd) m.name m.properties))
      (.done (.ok ()) (.ofNat (receivedCount memory + 1)))
  | .hook .stop =>
    .emit (.log (.receiverStopped env.name (receivedCount memory))) (.done (.ok ()) memory)
  | .hook _ => .done (.ok ()) memory

/-- The log addon. -/
def log : ExtensionAddon := fun _ _ => .made ⟨.ofNat 0, logScript⟩

/-! ## The heartbeat addon -/

/-- The interval in milliseconds. -/
def heartbeatInterval (env : Env) : Nat := (env.propertyNat? "interval_ms").getD 1000

/-- The message of a beat. -/
def heartbeatMsg (beat : Nat) : Msg :=
  (Msg.create .data "heartbeat" ⟨0, 0⟩).withProperty "seq" (.ofNat beat)

/-- The beat of an extension. -/
def heartbeatTicker (env : Env) : Ticker :=
  ⟨heartbeatInterval env, heartbeatMsg, .heartbeatStopped env.name⟩

/-- What the extension does when it is called. -/
def heartbeatScript (memory : Memory) (env : Env) : Callback → Script
  | .hook .start => .every (heartbeatTicker env) (.done (.ok ()) memory)
  | .hook .stop => .cancel (.done (.ok ()) memory)
  | _ => .done (.ok ()) memory

/-- The heartbeat addon. -/
def heartbeat : ExtensionAddon := fun _ _ => .made ⟨.null, heartbeatScript⟩

end Addon

namespace Registry

/-- The builtin extension addons in the order of their registration. -/
def builtinExtensions : List (String × ExtensionAddon) :=
  [("log", Addon.log), ("heartbeat", Addon.heartbeat)]

/-- The registry with the builtin addons. -/
def builtin : Registry := { withDefaults with extensions := builtinExtensions }

/-- What is logged while the builtin addons are registered. -/
def builtinLog : List LogEvent :=
  builtinExtensions.map fun addon => .extensionAddonRegistered addon.1

end Registry

end ExtensionGraph
