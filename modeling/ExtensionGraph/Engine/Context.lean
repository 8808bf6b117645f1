import ExtensionGraph.Thread.Handle

/-!
# The context of a running graph

The context decides on the life of a graph: it asks for the groups that its app hosts, puts
each of them on a thread of its own, starts all threads together once every group is there,
brings messages to the threads of their destinations, and closes the graph when every thread
has reported its end. What is to be done is returned as a list of effects.

## Main definitions

* `ExtensionGraph.Context` — contexts.
* `ExtensionGraph.Context.start`, `ExtensionGraph.Context.groupCreated`,
  `ExtensionGraph.Context.close`, `ExtensionGraph.Context.threadClosed`,
  `ExtensionGraph.Context.finishClosing` — the steps of its life.
* `ExtensionGraph.Context.dispatch` — where a message goes.
* `ExtensionGraph.Context.handle` — what a message to the engine leads to.

## Design

Every operation is a function to the new context and the effects in their order. Whether an
effect reaches anybody is not the context's business: a thread may have ended before it is told
something. So statements about the counters and the phase need no model of threads.
-/

namespace ExtensionGraph

/-- The phases of a graph. -/
inductive Phase where
  | init
  /-- The groups have been asked for. -/
  | starting
  | running
  | closing
  | closed
deriving DecidableEq, Inhabited

/-- The name of a phase. -/
def Phase.name : Phase → String
  | .init => "Init"
  | .starting => "Starting"
  | .running => "Running"
  | .closing => "Closing"
  | .closed => "Closed"

/-- How far the shutdown of a graph has come. -/
inductive Progress where
  | pending (closed total : Nat)
  | closed
deriving DecidableEq, Inhabited

/-- The state of a running graph. -/
structure Context where
  link : Link
  /-- The topology, once every group is there. -/
  topology : Option Topology
  threads : List Thread
  /-- How many threads were attached while the graph was coming up. -/
  ready : Nat
  /-- How many threads have reported since the shutdown began. -/
  closed : Nat
  /-- How many threads have to report until the graph is closed. -/
  total : Nat
  phase : Phase
  /-- Whether everybody may know that the graph is closed. -/
  envClosed : Bool
  /-- Whether somebody waits for the end. -/
  watched : Bool
  /-- The number of the next thread. -/
  nextThread : Nat

namespace Context

/-- The context of a graph before its start. -/
def create (link : Link) (watched : Bool) : Context :=
  ⟨link, none, [], 0, 0, 0, .init, false, watched, 1⟩

variable (c : Context)

/-- Whether the graph is closed. -/
def isClosed : Bool := c.phase = .closed

/-- The groups hosted by the app of the graph. -/
def localGroups : List GroupInfo := c.link.command.groupsOf c.link.app.uri

/-- How far the shutdown has come. -/
def progress : Progress := if c.isClosed then .closed else .pending c.closed c.total

/-! ## Coming up -/

/-- Makes the topology known; that can be done once. -/
def install (t : Topology) : Except Error Context :=
  match c.topology with
  | some _ => .error .topologyAlreadyInstalled
  | none => .ok { c with topology := some t }

/-- What is told about a graph when it is ready. -/
def resources : Json.Object :=
  Json.Object.ofList ([("app_base_dir", Json.Value.string c.link.app.baseDir)] ++
    (if c.link.app.uri = "" then [] else [("app_uri", .string c.link.app.uri)]) ++
    (match c.link.graphName with
      | some name => if name = "" then [] else [("graph_name", .string name)]
      | none => []) ++
    [("graph_id", .string c.link.graph)])

/-- Starts one thread; a refusal is only logged. -/
def startThread (topology : Topology) (t : Thread) : Thread × List Effect :=
  match t.start (c.link.refusal? t.id) topology with
  | (t, effects, some (.error e)) => (t, effects ++ [.log (.threadRefused t.groupName e)])
  | (t, effects, _) => (t, effects)

/-- Starts all threads, unless one of the starts panics; what would become of the threads behind it
does not matter then, since they are lost with the context. -/
def startThreads : Context × List Effect :=
  let started := c.threads.map (c.startThread (c.topology.getD .empty))
  ({ c with phase := .running, threads := started.map (·.1) },
    Effect.untilPanic ([.log (.graphResources c.resources)] ++ started.flatMap (·.2) ++
      [.log (.graphStarted c.link.graph c.threads.length)]))

/-- Asks for groups up to the first whose addon is unknown. -/
def request (link : Link) : List GroupInfo → List Effect × Except Error Unit
  | [] => ([], .ok ())
  | g :: rest =>
    match link.registry.createGroup g.addon g.name with
    | .ok creation =>
      let (effects, result) := request link rest
      (.await creation :: effects, result)
    | .error e => ([.log (.groupRefused link.graph g.name g.addon e)], .error e)

/-- Begins to start the graph. Without groups to host it is started at once. -/
def start : Context × List Effect × Except Error Unit :=
  let c := { c with phase := .starting }
  if c.localGroups.isEmpty then
    let notice := Effect.log (.noLocalGroups c.link.graph)
    match c.install c.link.command.topology with
    | .error e => (c, [notice], .error e)
    | .ok c =>
      let (c, effects) := c.startThreads
      (c, notice :: effects, .ok ())
  else
    let (effects, result) := request c.link c.localGroups
    (c, effects, result)

/-! ## Shutting down -/

/-- The last step of the shutdown. It asserts that every thread is gone. -/
def conclude : Context × List Effect :=
  if c.threads.isEmpty then
    ({ c with envClosed := true, phase := .closed, watched := false },
      [.log (.contextClosed c.link.graph)] ++ (if c.watched then [.announce] else []))
  else (c, [.panic])

/-- Begins to close the graph; closing it again changes nothing. -/
def close : Context × List Effect :=
  if c.phase = .closing ∨ c.phase = .closed then (c, [])
  else
    let c := { c with phase := .closing }
    if c.threads.isEmpty then c.conclude
    else
      let closing := c.threads.map Thread.close
      ({ c with total := c.threads.length, closed := 0, threads := closing.map (·.1) },
        [.log (.closing c.link.graph c.threads.length)] ++ closing.flatMap (·.2))

/-- Closes the graph for good if every thread has reported. -/
def finishClosing : Context × List Effect × Progress :=
  if c.phase = .closed then (c, [], .closed)
  else if c.closed ≠ c.total then
    (c, [.log (.waiting c.link.graph c.closed c.total)], c.progress)
  else
    let (c, effects) := c.conclude
    (c, effects, c.progress)

/-- A thread has reported its end. -/
def threadClosed (id : ThreadId) : Context × List Effect × Progress :=
  match c.threads.find? (·.id = id) with
  | none => (c, [.log (.unknownThreadClosed id)], c.progress)
  | some t =>
    let (t, effects) := t.join
    let c := { c with threads := c.threads.eraseP (·.id = id) }
    let effects := effects ++ [.log (.threadJoined id t.groupName)]
    if c.phase ≠ .closing then
      (c, effects ++ [.log (.threadLeft c.link.graph t.groupName)], c.progress)
    else
      let (c, more, p) := finishClosing { c with closed := c.closed + 1 }
      (c, effects ++ more, p)

/-! ## Groups that have been built -/

/-- Binds a group to the graph and gives it the members that the graph declares, unless its
addon has fixed them. -/
def adopt (g : Group) : Group :=
  let g := g.bind c.link.app.uri c.link.graph
  if g.isGraphDriven then
    g.setMembers (c.link.command.members c.link.app.uri c.link.graph g.name)
  else g

/-- Makes a handle for a group. -/
def attach (g : Group) : Context × Thread :=
  ({ c with nextThread := c.nextThread + 1 }, (Thread.create ⟨c.nextThread⟩).attach g)

/-- Tells a thread's group what the topology says about it; `none` if there is no such thing
to tell. -/
def inform (topology : Topology) (app : String) (t : Thread) : Option Thread :=
  match topology.group? app t.groupName, t.group with
  | some info, some g => some { t with group := some (g.setInfo info) }
  | _, _ => none

/-- The threads with what the topology says about their groups. -/
def informed (topology : Topology) : List (Thread × Option Thread) :=
  c.threads.map fun t => (t, inform topology c.link.app.uri t)

/-- Keeps what the groups were told. -/
def withInformed (informed : List (Thread × Option Thread)) : Context :=
  { c with threads := informed.map fun t => t.2.getD t.1 }

/-- The groups that the topology does not know, or that have left their handles already. -/
def undeclared (informed : List (Thread × Option Thread)) : List String :=
  (informed.filter fun t => t.2.isNone).map fun t => t.1.groupName

/-- All groups are there: the topology is made known, the groups are informed and the threads
started. A thread whose group is not declared makes the graph close again. -/
def allReady : Context × List Effect :=
  match c.install c.link.command.topology with
  | .error e => (c, [.log (.readyTwice c.link.graph e)])
  | .ok c =>
    let informed := c.informed (c.topology.getD .empty)
    let c := c.withInformed informed
    if (undeclared informed).isEmpty then c.startThreads
    else
      let (c, effects) := c.close
      (c, .log (.groupsUndeclared c.link.graph (undeclared informed)) :: effects)

/-- A group has been built. While the graph comes up it gets a thread, and with the last one
the threads are started. While the graph shuts down the thread is closed right away, and once
the graph is closed the group is dropped. -/
def groupCreated (g : Group) : Context × List Effect :=
  let g := c.adopt g
  match c.phase with
  | .closed => (c, [.log (.groupTooLate g.name)])
  | .closing =>
    let (c, t) := c.attach g
    let (t, effects) := t.close
    ({ c with threads := c.threads ++ [t], total := c.total + 1 }, effects)
  | _ =>
    let (c, t) := c.attach g
    let notice := Effect.log (.threadCreated c.link.graph t.id t.groupName)
    let c := { c with threads := c.threads ++ [t], ready := c.ready + 1 }
    if c.threads.length = c.localGroups.length then
      let (c, effects) := c.allReady
      (c, notice :: effects)
    else (c, [notice])

/-! ## Messages between extensions -/

/-- The group of an extension, as far as the topology is known. -/
def groupOf? (app graph extension : Option String) : Option String :=
  c.topology.bind (·.groupOf? app graph extension)

/-- The thread of a group. -/
def thread? (group : String) : Option Thread := c.threads.find? (·.groupName = group)

/-- Brings a message to one of its destinations. -/
def dispatchTo (m : Msg) (dest : Loc) : List Effect :=
  match dest.extension with
  | none => [.log (.noExtensionAddressed m.name dest)]
  | some extension =>
    if dest.app ≠ c.link.app.uri then [.log (.remoteDestination m.name dest)]
    else match (c.groupOf? dest.app dest.graph extension).bind c.thread? with
      | some t => t.deliver extension m (some (.threadNotRunning m.name dest))
      | none => [.log (.unknownDestination m.name dest)]

/-- Brings a message to its destinations. -/
def dispatch (m : Msg) : List Effect := m.dest.flatMap (c.dispatchTo m)

/-- What a message to the engine leads to. -/
def handle : EngineMsg → Context × List Effect
  | .created (.ok g) => c.groupCreated g
  | .created (.error e) =>
    let (c, effects) := c.close
    (c, .log (.groupFailed c.link.graph e) :: effects)
  | .threadClosed id =>
    let (c, effects, _) := c.threadClosed id
    (c, effects)
  | .route m => (c, c.dispatch m)
  | .close => c.close

/-- A description for people. -/
def describe : String :=
  "ExtensionContext \x7b graph_id: " ++ quoted c.link.graph ++ ", state: " ++ c.phase.name ++
    ", extension_threads: " ++ toString c.threads.length ++ " \x7d"

end Context

end ExtensionGraph
