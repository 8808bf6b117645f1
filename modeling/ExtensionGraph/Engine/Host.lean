import ExtensionGraph.Engine.Context

/-!
# The host of a running graph

The host is everything that surrounds the context of a graph: the mailbox of the engine, the
groups that are being built, the threads at work and the log. It does what the context decides.

## Main definitions

* `ExtensionGraph.Host` — hosts.
* `ExtensionGraph.Host.perform` — doing one thing.
* `ExtensionGraph.Host.complete`, `ExtensionGraph.Host.runWorker` — what goes on by itself.
* `ExtensionGraph.Host.settle` — everything that goes on while the engine does nothing.
-/

namespace ExtensionGraph

/-- The surroundings of a context. -/
structure Host where
  mailbox : Mailbox EngineMsg
  /-- The groups that are being built, in the order in which they were asked for. -/
  creations : List Creation
  /-- The threads in the order in which they were started, also those that have ended. -/
  workers : List Worker
  log : List LogEvent
  /-- How often the end of the graph was announced. -/
  announced : Nat

namespace Host

/-- A host without anything going on. -/
def create : Host := ⟨.empty, [], [], [], 0⟩

variable (h : Host)

/-- Appends to the log. -/
def record (e : LogEvent) : Host := { h with log := h.log ++ [e] }

/-- The place of the latest thread with the given number. -/
def place? (id : ThreadId) : Option Nat :=
  (List.range h.workers.length).findRev? fun k => h.workers[k]?.any (·.id = id)

/-- Changes the worker at a place. -/
def modify (place : Nat) (f : Worker → Worker) : Host :=
  { h with workers := h.workers.modify place f }

/-- Runs the worker at a place until it has to wait. -/
def runWorker (place : Nat) : Host :=
  match h.workers[place]? with
  | none => h
  | some w =>
    let (mailbox, w) := w.run h.mailbox
    { h with mailbox, workers := h.workers.set place w }

/-- Runs a new thread; an earlier one with the same number loses its inbox. -/
def spawn (w : Worker) : Host :=
  let h := match h.place? w.id with
    | some place => h.modify place fun w => { w with hungUp := true }
    | none => h
  { h with workers := h.workers ++ [w] }

/-- Whether somebody reads the inbox of a thread. -/
def hears (id : ThreadId) : Bool :=
  match (h.place? id).bind (h.workers[·]?) with
  | some w => w.isReceiving
  | none => false

/-- Writes to the inbox of a thread. -/
def tell (id : ThreadId) (m : ThreadMsg) (unheard : Option LogEvent) : Host :=
  match h.place? id, h.hears id with
  | some place, true => h.modify place fun w => { w with inbox := w.inbox ++ [m] }
  | _, _ => match unheard with
    | some e => h.record e
    | none => h

/-- Takes a thread's inbox away and lets it run to its end. -/
def reap (id : ThreadId) (group : String) : Host :=
  match h.place? id with
  | none => h
  | some place =>
    let h := (h.modify place fun w => { w with hungUp := true }).runWorker place
    match h.workers[place]? with
    | some w => if w.stage = .crashed then h.record (.threadPanicked group) else h
    | none => h

/-- The engine is gone. Nobody reads its mailbox any more, and nobody can write to the inboxes of
its threads. -/
def collapse : Host :=
  { h with
    mailbox := h.mailbox.hangUp
    workers := h.workers.map fun w => { w with hungUp := true } }

/-- Does what a context has decided. -/
def perform (link : Link) : Effect → Host
  | .log e => h.record e
  | .await creation => { h with creations := h.creations ++ [creation] }
  | .post m => { h with mailbox := h.mailbox.post m }
  | .spawn id g t => h.spawn (Worker.create link id g t)
  | .tell id m unheard => h.tell id m unheard
  | .reap id group => h.reap id group
  | .announce => { h with announced := h.announced + 1 }
  | .panic => h.collapse

/-- Does several things one after the other. -/
def performAll (link : Link) (effects : List Effect) : Host :=
  effects.foldl (fun h e => h.perform link e) h

/-- The group at a place has been built; the engine is told. -/
def complete (place : Nat) : Host :=
  match h.creations[place]? with
  | none => h
  | some creation =>
    { h with
      creations := h.creations.eraseIdx place
      mailbox := h.mailbox.post (.created creation.result) }

/-- The place of the group that lets the fewest turns pass, the first of several. -/
def earliest (creations : List Creation) : Nat :=
  creations.findIdx fun x => creations.all fun y => x.delay ≤ y.delay

/-- One group after the other is built, the quickest first. -/
def completeAll : Host :=
  h.creations.length.repeat (fun h => h.complete (earliest h.creations)) h

/-- Every thread runs until it has to wait, in the order in which they were started. -/
def runWorkers : Host := (List.range h.workers.length).foldl runWorker h

/-- A ticker of the worker at a place beats. -/
def beat (place ticker : Nat) : Host :=
  match h.workers[place]? with
  | none => h
  | some w =>
    let (mailbox, w) := w.beat h.mailbox ticker
    { h with mailbox, workers := h.workers.set place w }

/-- The tickers that have not beaten yet, by the places of their workers. -/
def freshTickers : List (Nat × Nat) :=
  h.workers.zipIdx.flatMap fun (w, place) =>
    w.tickers.zipIdx.filterMap fun (b, k) => if b.beat = 1 then some (place, k) else none

/-- The first ticker that has not beaten yet beats; after that it has, or it has given up. -/
def beatFirst : Host :=
  match h.freshTickers with
  | [] => h
  | (place, ticker) :: _ => h.beat place ticker

/-- Each ticker that has not beaten yet beats once. -/
def beatFresh : Host := h.freshTickers.length.repeat beatFirst h

/-- Everything that goes on while the engine does nothing. -/
def settle : Host := h.completeAll.runWorkers.beatFresh

end Host

end ExtensionGraph
