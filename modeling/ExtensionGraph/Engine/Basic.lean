import ExtensionGraph.Engine.Host

/-!
# Engines

An engine runs one graph. It takes messages from its mailbox one at a time, lets the context
decide and the host do, until the graph is closed. Beside it groups are being built, threads
work and tickers beat, in any order. A run is described by the moves that are made.

## Main definitions

* `ExtensionGraph.Engine` — engines.
* `ExtensionGraph.Engine.start` — starts a graph.
* `ExtensionGraph.Engine.Move`, `ExtensionGraph.Engine.move?` — what can happen next.
* `ExtensionGraph.Engine.send`, `ExtensionGraph.Engine.requestClose` — from outside.
* `ExtensionGraph.Engine.settle` — a run until nothing is left to do.

## Design

A message is handled in one move, with everything that follows from it. Threads that work
meanwhile can tell no difference: they only post to the mailbox and read their own inboxes, and
what the engine itself posts while it handles a message concerns threads that were never
started, at a time when no thread is at work.
-/

namespace ExtensionGraph

/-- A running graph. -/
structure Engine where
  context : Context
  host : Host

namespace Engine

variable (e : Engine)

/-- The id of the graph. -/
def graph : String := e.context.link.graph

/-- Whether the end of the graph has been announced. -/
def isClosed : Bool := 0 < e.host.announced

/-- Whether nobody needs to wait for the graph any more: it has closed, or its engine is gone. -/
def isOver : Bool := e.isClosed || !e.host.mailbox.listening

/-! ## The engine itself -/

/-- Does one thing that the context has decided. -/
def perform (effect : Effect) : Engine :=
  let host := e.host.perform e.context.link effect
  match effect with
  | .announce => { e with host := host.record (.engineClosed e.graph) }
  | _ => { e with host }

/-- Takes over a decision of the context. -/
def carryOut (r : Context × List Effect) : Engine :=
  r.2.foldl perform { e with context := r.1 }

/-- Stops listening if the graph is closed. -/
def retire : Engine :=
  if e.context.isClosed ∧ e.host.mailbox.listening then
    let host := { e.host with mailbox := e.host.mailbox.hangUp }
    { e with host := host.record (.engineStopped e.graph) }
  else e

/-- Handles a message. -/
def handle (m : EngineMsg) : Engine := (e.carryOut (e.context.handle m)).retire

/-- Starts a graph; one whose groups cannot all be asked for closes again. -/
def start (link : Link) : Engine × Except Error Unit :=
  let e : Engine := ⟨.create link true, .create⟩
  let (c, effects, result) := e.context.start
  let e := e.carryOut (c, effects)
  match result with
  | .ok () => (e.retire, .ok ())
  | .error err => ((e.carryOut e.context.close).retire, .error err)

/-! ## From outside -/

/-- Posts a message to the engine. -/
def post (m : EngineMsg) : Engine :=
  { e with host := { e.host with mailbox := e.host.mailbox.post m } }

/-- Asks for the end of the graph. -/
def requestClose : Engine := e.post .close

/-- Sends a message into the graph; it has to name its destinations. -/
def send (m : Msg) : Engine × Except Error Unit :=
  if m.dest.isEmpty then
    (e, .error (.invalidArgument ("'" ++ m.name ++ "' has no destination")))
  else if e.host.mailbox.listening then
    (e.post (.route (m.resolve e.context.link.app.uri e.graph)), .ok ())
  else (e, .error (.closed ("graph " ++ e.graph ++ " is closed")))

/-- A description for people. -/
def describe : String :=
  "EngineHandle \x7b graph_id: " ++ quoted e.graph ++ ", closed: " ++
    (if e.isClosed then "true" else "false") ++ " \x7d"

/-! ## Runs -/

/-- What can happen next in a running graph. -/
inductive Move where
  /-- The engine takes the next message. -/
  | handle
  /-- The group at a place has been built. -/
  | complete (place : Nat)
  /-- The thread at a place makes a step. -/
  | work (place : Nat)
  /-- A ticker of the thread at a place beats. -/
  | beat (place ticker : Nat)
  /-- The thread at a place ends before it has begun, for want of a runtime. -/
  | abort (place : Nat) (reason : String)
  /-- A message is sent from outside. -/
  | send (msg : Msg)
  /-- The end of the graph is asked for from outside. -/
  | close

/-- Makes a move, if it is possible. -/
def move? : Move → Option Engine
  | .handle =>
    if e.context.isClosed then none
    else e.host.mailbox.take?.map fun (m, mailbox) =>
      { e with host := { e.host with mailbox } }.handle m
  | .complete place =>
    if place < e.host.creations.length then some { e with host := e.host.complete place }
    else none
  | .work place => do
    let w ← e.host.workers[place]?
    let (mailbox, w) ← w.step? e.host.mailbox
    some { e with host := { e.host with mailbox, workers := e.host.workers.set place w } }
  | .abort place reason => do
    let w ← e.host.workers[place]?
    let (mailbox, w) ← w.abort? reason e.host.mailbox
    some { e with host := { e.host with mailbox, workers := e.host.workers.set place w } }
  | .beat place ticker => do
    let w ← e.host.workers[place]?
    if ticker < w.tickers.length then some { e with host := e.host.beat place ticker } else none
  | .send m => some (e.send m).1
  | .close => some e.requestClose

/-- Whether the thread at a place can make a step. -/
def canWork (place : Nat) : Bool :=
  (e.host.workers[place]?.bind (·.step? e.host.mailbox)).isSome

/-- The move that is made next when nobody hurries: messages are handled at once, then the
quickest group is built, then the threads work in the order of their start, and each ticker
beats once. -/
def nextMove? : Option Move :=
  if !e.context.isClosed && !e.host.mailbox.messages.isEmpty then some .handle
  else if !e.host.creations.isEmpty then some (.complete (Host.earliest e.host.creations))
  else match (List.range e.host.workers.length).find? e.canWork with
    | some place => some (.work place)
    | none => e.host.freshTickers.head?.map fun (place, k) => .beat place k

/-- Makes moves until nothing is left to do; `fuel` bounds their number. -/
def settle : Nat → Engine → Engine
  | 0, e => e
  | fuel + 1, e =>
    match e.nextMove?.bind e.move? with
    | some e => settle fuel e
    | none => e

end Engine

end ExtensionGraph
