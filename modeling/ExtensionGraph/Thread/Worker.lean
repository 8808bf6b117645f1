import ExtensionGraph.Registry
import ExtensionGraph.Topology.StartGraph

/-!
# Extension threads at work

A worker is the running thread of a group. It creates the extensions of the group, initialises
and starts them in order, hands them the messages of its inbox, stops them and takes them down
in the opposite order, and finally reports to the engine that it has ended. It works in small
steps, so that any interleaving with the engine and with other workers can be described.

## Main definitions

* `ExtensionGraph.Spawner` — what makes the threads.
* `ExtensionGraph.Link` — what a running graph knows about itself.
* `ExtensionGraph.Worker` — workers.
* `ExtensionGraph.Worker.step?` — one step of a worker.
* `ExtensionGraph.Worker.abort?` — the end of a worker that cannot even begin.
* `ExtensionGraph.Worker.run` — all steps until the worker has to wait.
* `ExtensionGraph.Worker.beat` — one beat of a ticker.

## Main results

* `ExtensionGraph.Worker.effort_step?` — every step brings a worker closer to rest.

## Design

What is left to do is kept as data: the lifecycle calls of the stage, the inbox, and the rest
of the script of the call that is being made. A step looks at nothing else, so a worker can be
stopped and continued anywhere. A script that hangs leaves a worker that never steps again and
still holds its inbox; one that crashes leaves a worker that is gone without having reported. An
addon that is asked for an extension can do the same to the thread.

The extensions are created at once when the thread is made, since nobody can tell the difference:
addons see nothing of the graph. Only if one of them does not return is the creation a stage of its
own, in which the worker waits for its crash, or for ever.
-/

namespace ExtensionGraph

/-- An app: its address and its directory. -/
structure AppInfo where
  uri : String
  baseDir : String
deriving DecidableEq, Inhabited

/-- What makes the threads. For the thread of a number in a graph it may refuse to, for some
reason. -/
structure Spawner where
  refusal? : String → ThreadId → Option String

/-- The spawner that never refuses. -/
def Spawner.willing : Spawner := ⟨fun _ _ => none⟩

instance : Inhabited Spawner := ⟨.willing⟩

/-- What a running graph knows about itself, and what it has to do with. -/
structure Link where
  graph : String
  graphName : Option String
  app : AppInfo
  command : StartGraph
  registry : Registry
  spawner : Spawner

/-- The link of a graph that is started on an app. -/
def Link.ofStart (app : AppInfo) (registry : Registry) (spawner : Spawner) (s : StartGraph) :
    Link :=
  ⟨s.graph, s.graphName, app, s, registry, spawner⟩

/-- Why the thread of a number is refused, if it is. -/
def Link.refusal? (l : Link) (id : ThreadId) : Option String := l.spawner.refusal? l.graph id

/-- A description of a link for people. -/
def Link.describe (l : Link) : String :=
  "EngineLink \x7b graph_id: " ++ quoted l.graph ++ ", graph_name: " ++ quotedOption l.graphName ++
    ", app_uri: " ++ quoted l.app.uri ++ " \x7d"

/-- A message to a thread. -/
inductive ThreadMsg where
  | deliver (extension : String) (msg : Msg)
  | close
deriving Inhabited

/-- An extension on its thread. -/
structure Hosted where
  name : String
  env : Env
  extension : Extension
deriving Inhabited

/-- A call that has not returned: the place of the extension, its name and environment, what it
was called for, and the rest of its script. -/
structure Call where
  place : Nat
  name : String
  env : Env
  callback : Callback
  script : Script

/-- A ticker at work: who has started it, from where it sends, and the number of its next
beat. -/
structure Beating where
  place : Nat
  env : Env
  beat : Nat
  ticker : Ticker

/-- How far a worker has come. -/
inductive Stage where
  /-- The extensions are being created, by an addon that does not return. -/
  | creating (loss : Loss)
  /-- The extensions are being initialised and started. -/
  | opening
  /-- The inbox is being served. -/
  | serving
  /-- The extensions are being stopped and taken down. -/
  | stopping
  /-- Nothing is left but to report. -/
  | stopped
  | ended
  | crashed
deriving DecidableEq, Inhabited

/-- Whether a worker can begin in a stage. -/
def Stage.isFirst : Stage → Bool
  | .creating _ => true
  | .opening => true
  | _ => false

/-- How much there is to come after a stage at most. -/
def Stage.rank : Stage → Nat
  | .creating _ => 5
  | .opening => 4
  | .serving => 3
  | .stopping => 2
  | .stopped => 1
  | .ended => 0
  | .crashed => 0

/-- A running thread. -/
structure Worker where
  id : ThreadId
  group : String
  hosted : List Hosted
  stage : Stage
  /-- The lifecycle calls that are still to be made in this stage. -/
  agenda : List (Nat × Hook)
  /-- The call that is being made. -/
  active : Option Call
  inbox : List ThreadMsg
  /-- Whether nobody can write to the inbox any more. -/
  hungUp : Bool
  tickers : List Beating
  /-- What has happened on the thread. -/
  trace : List Event

namespace Worker

/-! ## Creating a worker -/

/-- What comes of asking the addon of a member for its extension. -/
def making (link : Link) (id : ThreadId) (m : Member) : Making :=
  link.registry.createExtension ⟨link.graph, id⟩ m.addon m.name

/-- A member of a group as it stands on its thread, if its addon creates it. -/
def host? (link : Link) (id : ThreadId) (g : Group) (t : Topology) (m : Member) : Option Hosted :=
  match making link id m with
  | .made x =>
    some ⟨m.name, .ofTopology (.ofExtension (g.app.getD link.app.uri) link.graph m.name) g.name t,
      x⟩
  | _ => none

/-- The complaint about a member whose addon refuses to create it. -/
def refusal? (link : Link) (id : ThreadId) (g : Group) (m : Member) : Option LogEvent :=
  match making link id m with
  | .refused e => some (.extensionRefused g.name m.name m.addon e)
  | _ => none

/-- What the addon of a member does to the thread, if it does not return. -/
def lossOf? (link : Link) (id : ThreadId) (m : Member) : Option Loss :=
  match making link id m with
  | .lost loss => some loss
  | _ => none

/-- What keeps a thread from creating all members of its group. -/
def loss? (link : Link) (id : ThreadId) (g : Group) : Option Loss :=
  g.members.findSome? (lossOf? link id)

/-- The extensions of a group whose addons create them; none if an addon does not return. -/
def hostAll (link : Link) (id : ThreadId) (g : Group) (t : Topology) : List Hosted :=
  if (loss? link id g).isSome then [] else g.members.filterMap (host? link id g t)

/-- The complaints about the others, up to an addon that does not return. -/
def refusals (link : Link) (id : ThreadId) (g : Group) : List LogEvent :=
  (g.members.takeWhile fun m => (lossOf? link id m).isNone).filterMap (refusal? link id g)

/-- The calls with which `n` extensions are opened. -/
def openingAgenda (n : Nat) : List (Nat × Hook) :=
  (List.range n).map (·, .init) ++ (List.range n).map (·, .start)

/-- The calls with which `n` extensions are closed. -/
def stoppingAgenda (n : Nat) : List (Nat × Hook) :=
  (List.range n).reverse.map (·, .stop) ++ (List.range n).reverse.map (·, .deinit)

/-- The worker of a group. -/
def create (link : Link) (id : ThreadId) (g : Group) (t : Topology) : Worker :=
  let hosted := hostAll link id g t
  let begun := match loss? link id g with
    | some _ => []
    | none => [LogEvent.threadStarted link.graph g.name hosted.length]
  { id, group := g.name, hosted
    stage := match loss? link id g with
      | some loss => .creating loss
      | none => .opening
    agenda := openingAgenda hosted.length
    active := none, inbox := [], hungUp := false, tickers := []
    trace := (refusals link id g ++ begun).map Event.log }

/-! ## One step -/

variable (w : Worker)

/-- Whether messages are accepted. -/
def isReceiving : Bool :=
  match w.stage with
  | .creating _ => true
  | .opening => true
  | .serving => true
  | .stopping => true
  | _ => false

/-- Whether the thread is gone. -/
def isGone : Bool :=
  match w.stage with
  | .ended => true
  | .crashed => true
  | _ => false

/-- Appends to the trace. -/
def record (e : Event) : Worker := { w with trace := w.trace ++ [e] }

/-- Begins a call. -/
def call (place : Nat) (callback : Callback) : Worker :=
  match w.hosted[place]? with
  | none => w
  | some h =>
    { w.record (.called h.name callback) with
      active := some ⟨place, h.name, h.env, callback,
        h.extension.script h.extension.memory h.env callback⟩ }

/-- The complaint about a call that has failed. -/
def complaint (name : String) (e : Error) : Callback → LogEvent
  | .hook h => .hookFailed h name e
  | .message _ => .handlerFailed name e

/-- Ends a call. -/
def finish (c : Call) (result : Except Error Unit) (memory : Memory) : Worker :=
  let w := { w with
    active := none
    hosted := w.hosted.modify c.place fun h =>
      { h with extension := { h.extension with memory } } }
  match result with
  | .ok () => w
  | .error e => w.record (.log (complaint c.name e c.callback))

/-- The thread goes down. -/
def goDown : Worker :=
  { w.record .crashed with active := none, agenda := [], stage := .crashed, tickers := [] }

/-- Goes on with the rest of a script. -/
def goOn (c : Call) (s : Script) : Worker := { w with active := some { c with script := s } }

/-- Does the next instruction of a call; a hanging call has none. -/
def execute? (engine : Mailbox EngineMsg) (c : Call) : Option (Mailbox EngineMsg × Worker) :=
  match c.script with
  | .done result memory => some (engine, w.finish c result memory)
  | .crash => some (engine, w.goDown)
  | .hang => none
  | .emit n next => some (engine, (w.record n.event).goOn c next)
  | .send mode m next =>
    let (engine, r) := c.env.send mode m engine
    some (engine, w.goOn c (next r))
  | .closeGraph next =>
    let (engine, r) := c.env.closeGraph engine
    some (engine, w.goOn c (next r))
  | .every t next =>
    some (engine, { w with tickers := w.tickers ++ [Beating.mk c.place c.env 1 t] }.goOn c next)
  | .cancel next =>
    some (engine, { w with tickers := w.tickers.filter (·.place ≠ c.place) }.goOn c next)

/-- Begins to stop the extensions. -/
def windDown : Worker :=
  { w with stage := .stopping, agenda := stoppingAgenda w.hosted.length }

/-- Hands a message to the first extension of the given name. -/
def receive (extension : String) (m : Msg) : Worker :=
  match w.hosted.findIdx? (·.name = extension) with
  | some place => w.call place (.message m)
  | none => w.record (.log (.notHosted w.group extension m.name))

/-- Turns to the inbox. -/
def serve? : Option Worker :=
  match w.inbox with
  | .deliver extension m :: rest => some ({ w with inbox := rest }.receive extension m)
  | .close :: rest => some { w with inbox := rest }.windDown
  | [] => if w.hungUp then some w.windDown else none

/-- Goes on when all calls of a stage have been made. -/
def advance? (engine : Mailbox EngineMsg) : Option (Mailbox EngineMsg × Worker) :=
  match w.stage with
  | .creating .crash => some (engine, w.goDown)
  | .creating .hang => none
  | .opening => some (engine, { w with stage := .serving })
  | .serving => w.serve?.map (engine, ·)
  | .stopping => some (engine, { w.record (.log (.threadStopped w.group)) with stage := .stopped })
  | .stopped =>
    some (engine.post (.threadClosed w.id), { w with stage := .ended, tickers := [] })
  | .ended => none
  | .crashed => none

/-- One step of a worker beside the mailbox of its engine; none if it has to wait, or is
gone. -/
def step? (engine : Mailbox EngineMsg) : Option (Mailbox EngineMsg × Worker) :=
  match w.active, w.agenda with
  | some c, _ => w.execute? engine c
  | none, (place, hook) :: rest => some (engine, { w with agenda := rest }.call place (.hook hook))
  | none, [] => w.advance? engine

/-! ## A thread without a runtime -/

/-- Whether nothing has happened on the thread yet but the creation of its extensions. -/
def isFresh : Bool :=
  w.stage.isFirst && w.active.isNone && w.agenda = openingAgenda w.hosted.length

/-- The runtime of a thread cannot be built. That is found out before its extensions are created,
and the thread reports at once. -/
def abort? (reason : String) (engine : Mailbox EngineMsg) : Option (Mailbox EngineMsg × Worker) :=
  if w.isFresh then
    some (engine.post (.threadClosed w.id),
      { w with
        hosted := [], stage := .ended, agenda := [], tickers := []
        trace := [.log (.runtimeRefused w.id reason)] })
  else none

/-! ## All steps -/

/-- A bound on what is left to do: the stages to come, then the calls to come, then the rest of
the call that is being made. -/
structure Effort where
  stage : Nat
  calls : Nat
  script : Option Script

namespace Effort

/-- The three parts in the order of their weight. -/
def key (x : Effort) : Nat × Nat × Option Script := (x.stage, x.calls, x.script)

/-- Less effort. -/
instance : WellFoundedRelation Effort :=
  invImage key (Prod.lex Nat.lt_wfRel
    (Prod.lex Nat.lt_wfRel ⟨Script.Follows, Script.follows_wellFounded⟩))

/-- Whether an effort is less than another. -/
abbrev Less (x y : Effort) : Prop := WellFoundedRelation.rel x y

/-- A thread in a later stage has less before it, however many calls the stages ask for. -/
theorem less_stage {x y : Effort} (h : x.stage < y.stage) : Less x y := Prod.Lex.left _ _ h

/-- In the same stage, a thread with fewer calls before it has less before it. -/
theorem less_calls {x y : Effort} (hs : x.stage = y.stage) (h : x.calls < y.calls) :
    Less x y := by
  obtain ⟨s, c, t⟩ := x
  obtain ⟨s', c', t'⟩ := y
  subst hs
  exact Prod.Lex.right _ (Prod.Lex.left _ _ h)

/-- In the same stage and with the same number of calls, the one whose current call has less to do
has less before it. -/
theorem less_script {x y : Effort} (hs : x.stage = y.stage) (hc : x.calls = y.calls)
    (h : Script.Follows x.script y.script) : Less x y := by
  obtain ⟨s, c, t⟩ := x
  obtain ⟨s', c', t'⟩ := y
  subst hs hc
  exact Prod.Lex.right _ (Prod.Lex.right _ h)

end Effort

/-- What is left to do, at most. -/
def effort : Effort :=
  ⟨w.stage.rank, w.agenda.length + w.inbox.length, w.active.map (·.script)⟩

/-- Making a call does not change the stage of a thread. -/
theorem effort_call_stage (place : Nat) (cb : Callback) :
    (w.call place cb).effort.stage = w.effort.stage := by
  unfold call
  split <;> rfl

/-- Making a call does not change how many calls are to come. -/
theorem effort_call_calls (place : Nat) (cb : Callback) :
    (w.call place cb).effort.calls = w.effort.calls := by
  unfold call
  split <;> rfl

/-- When a call is over, nothing is left of its script, and everything else is as it was. -/
theorem effort_finish (c : Call) (r : Except Error Unit) (m : Memory) :
    (w.finish c r m).effort = { w.effort with script := none } := by
  unfold finish
  split <;> rfl

/-- A thread that goes down has nothing before it any more, so this is progress unless it had come
to its end before. -/
theorem effort_goDown_of_rank (h : 0 < w.stage.rank) : Effort.Less w.goDown.effort w.effort :=
  Effort.less_stage h

/-- A call that takes the thread down leaves less to do: a thread with a call cannot have come to
its end. -/
theorem effort_goDown {c : Call} (h : w.active = some c) :
    Effort.Less w.goDown.effort w.effort := by
  by_cases hr : w.stage.rank = 0
  · cases ha : w.agenda with
    | nil =>
      refine Effort.less_script hr.symm (by simp [effort, goDown, record, ha]) ?_
      simp only [effort, goDown, h, Option.map_some, Option.map_none]
      exact .ended _
    | cons _ _ => exact Effort.less_calls hr.symm (by simp [effort, goDown, record, ha])
  · exact w.effort_goDown_of_rank (Nat.pos_of_ne_zero hr)

/-- **An action of a call is progress**, whatever it is: the script becomes shorter with it, or the
call is over, or the thread goes down. -/
theorem effort_execute? {engine engine' : Mailbox EngineMsg} {c : Call} {w' : Worker}
    (ha : w.active = some c) (h : w.execute? engine c = some (engine', w')) :
    Effort.Less w'.effort w.effort := by
  have hs : w.effort.script = some c.script := by simp [effort, ha]
  unfold execute? at h
  split at h <;> simp only [Option.some.injEq, Prod.mk.injEq, reduceCtorEq] at h <;>
    obtain ⟨-, rfl⟩ := h
  · rw [effort_finish]
    exact Effort.less_script rfl rfl (hs ▸ .ended _)
  · exact w.effort_goDown ha
  all_goals
    next hc =>
      refine Effort.less_script rfl rfl ?_
      rw [hs, hc]
      constructor

/-- Looking into the inbox is progress.

**Proof sketch.** A message that is taken is one call less to come, also if nobody on the thread is
concerned. A request to end, and an inbox that nobody can write to any more, bring the thread into a
later stage. -/
theorem effort_serve? {w' : Worker} (hstage : w.stage = .serving) (h : w.serve? = some w') :
    Effort.Less w'.effort w.effort := by
  unfold serve? at h
  split at h
  · next hi =>
    simp only [Option.some.injEq] at h
    subst h
    unfold receive
    split
    · refine Effort.less_calls ?_ ?_
      · rw [effort_call_stage]; rfl
      · rw [effort_call_calls]; simp [effort, hi]
    · refine Effort.less_calls rfl ?_
      simp [effort, hi, record]
  · simp only [Option.some.injEq] at h
    subst h
    exact Effort.less_stage (by simp [effort, windDown, hstage, Stage.rank])
  · split at h <;> simp only [Option.some.injEq, reduceCtorEq] at h
    subst h
    exact Effort.less_stage (by simp [effort, windDown, hstage, Stage.rank])

/-- **What a thread does between two calls is progress.**

**Proof sketch.** One case for each stage. An addon that has taken the thread down, and an agenda
that has been worked off, bring it into a later stage; while it serves it looks into its inbox. In
the other stages nothing can be done. -/
theorem effort_advance? {engine engine' : Mailbox EngineMsg} {w' : Worker}
    (h : w.advance? engine = some (engine', w')) : Effort.Less w'.effort w.effort := by
  unfold advance? at h
  split at h
  · next hst =>
    simp only [Option.some.injEq, Prod.mk.injEq] at h
    obtain ⟨-, rfl⟩ := h
    exact w.effort_goDown_of_rank (by simp [hst, Stage.rank])
  · simp at h
  · next hst =>
    simp only [Option.some.injEq, Prod.mk.injEq] at h
    obtain ⟨-, rfl⟩ := h
    exact Effort.less_stage (by simp [effort, hst, Stage.rank])
  · next hst =>
    simp only [Option.map_eq_some_iff, Prod.mk.injEq] at h
    obtain ⟨v, hv, -, rfl⟩ := h
    exact w.effort_serve? hst hv
  · next hst =>
    simp only [Option.some.injEq, Prod.mk.injEq] at h
    obtain ⟨-, rfl⟩ := h
    exact Effort.less_stage (by simp [effort, hst, Stage.rank])
  · next hst =>
    simp only [Option.some.injEq, Prod.mk.injEq] at h
    obtain ⟨-, rfl⟩ := h
    exact Effort.less_stage (by simp [effort, hst, Stage.rank])
  · simp at h
  · simp at h

/-- **Every step of a thread is progress**, whatever its extensions do and whoever writes to it.
Between two steps others can add to its inbox, so this does not mean that it comes to an end by
itself. -/
theorem effort_step? {engine engine' : Mailbox EngineMsg} {w' : Worker}
    (h : w.step? engine = some (engine', w')) : Effort.Less w'.effort w.effort := by
  unfold step? at h
  split at h
  · next c hc => exact w.effort_execute? hc h
  · next hg =>
    simp only [Option.some.injEq, Prod.mk.injEq] at h
    obtain ⟨-, rfl⟩ := h
    refine Effort.less_calls ?_ ?_
    · rw [effort_call_stage]; rfl
    · rw [effort_call_calls]; simp [effort, hg]
  · exact w.effort_advance? h

/-- All steps of a worker until it has to wait or is gone, while its engine does nothing. -/
def run (engine : Mailbox EngineMsg) (w : Worker) : Mailbox EngineMsg × Worker :=
  match _h : w.step? engine with
  | none => (engine, w)
  | some (engine', w') => run engine' w'
termination_by w.effort
decreasing_by exact w.effort_step? _h

/-! ## Tickers -/

/-- The beat of a ticker: its message is sent, and the ticker goes on unless the message is
refused. With a period of zero it crashes instead. -/
def tick (engine : Mailbox EngineMsg) (b : Beating) :
    Mailbox EngineMsg × Option Beating × List Event :=
  if b.ticker.period = 0 then (engine, none, [.tickerCrashed])
  else match b.env.send .dataOnly (b.ticker.message b.beat) engine with
    | (engine, .ok ()) => (engine, some { b with beat := b.beat + 1 }, [])
    | (engine, .error e) => (engine, none, [.log (b.ticker.refused e)])

/-- One beat of the ticker at the given place. -/
def beat (engine : Mailbox EngineMsg) (k : Nat) : Mailbox EngineMsg × Worker :=
  match w.tickers[k]? with
  | none => (engine, w)
  | some b =>
    let (engine, b, events) := tick engine b
    (engine, { w with
      tickers := w.tickers.take k ++ b.toList ++ w.tickers.drop (k + 1)
      trace := w.trace ++ events })

end Worker

end ExtensionGraph
