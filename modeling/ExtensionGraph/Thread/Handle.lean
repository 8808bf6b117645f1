import ExtensionGraph.Thread.Worker

/-!
# Effects and thread handles

A running graph decides what is to be done; its host does it. The effects are what is decided.

An engine controls the thread of a group through a handle. The handle is attached to the graph
with its group, started with the topology, closed, and joined once the thread has reported. A
handle that is closed before it was started reports in place of the thread, also if there was no
thread to be had for it.

## Main definitions

* `ExtensionGraph.Effect` — the effects.
* `ExtensionGraph.Effect.untilPanic` — how far a list of them is carried out.
* `ExtensionGraph.Thread` — handles.
* `ExtensionGraph.Thread.attach`, `ExtensionGraph.Thread.start`, `ExtensionGraph.Thread.close`,
  `ExtensionGraph.Thread.deliver`, `ExtensionGraph.Thread.join` — what can be done with them.

## Main results

* `ExtensionGraph.Thread.startsAs_start` — everything that a start can lead to.
-/

namespace ExtensionGraph

/-! ## Effects -/

/-- Something that is to be done for a running graph. -/
inductive Effect where
  | log (event : LogEvent)
  /-- Wait for a group that is being built, and post the outcome to the engine. -/
  | await (creation : Creation)
  /-- Post a message to the engine. -/
  | post (msg : EngineMsg)
  /-- Run the thread of a group. A thread of the same number that is still running loses its
  inbox. -/
  | spawn (id : ThreadId) (group : Group) (topology : Topology)
  /-- Write to the inbox of a thread; the event is logged if nobody reads it any more. -/
  | tell (id : ThreadId) (msg : ThreadMsg) (unheard : Option LogEvent)
  /-- Take a thread's inbox away and wait for its end. -/
  | reap (id : ThreadId) (group : String)
  /-- Tell whoever waits for it that the graph is closed. -/
  | announce
  /-- Whoever is at work panics. Nothing that was to follow is done, and what it has in its hands
  is lost: the context with its handles, and the mailbox that it reads. -/
  | panic
deriving Inhabited

/-- How far effects are carried out: up to the first panic. -/
def Effect.untilPanic : List Effect → List Effect
  | [] => []
  | .panic :: _ => [.panic]
  | x :: rest => x :: untilPanic rest

/-! ## Handles -/

/-- Whether a thread can have a name: names of threads hold no NUL. -/
def isThreadName (name : String) : Bool := name.toList.all (· ≠ '\x00')

/-- The states of a handle. -/
inductive ThreadState where
  | created
  | attached
  | running
  | closing
  | closed
deriving DecidableEq, Inhabited

/-- The name of a state. -/
def ThreadState.name : ThreadState → String
  | .created => "Created"
  | .attached => "Attached"
  | .running => "Running"
  | .closing => "Closing"
  | .closed => "Closed"

/-- The handle of an extension thread. -/
structure Thread where
  id : ThreadId
  state : ThreadState
  groupName : String
  /-- The group, until it moves to its thread. -/
  group : Option Group
  /-- Whether the handle knows the engine to report to. -/
  attached : Bool
  /-- Whether there is a thread to write to and to wait for. -/
  wired : Bool
deriving Inhabited

namespace Thread

/-- A new handle. -/
def create (id : ThreadId) : Thread := ⟨id, .created, "", none, false, false⟩

variable (t : Thread)

/-- Attaches a handle to a graph with a group. -/
def attach (g : Group) : Thread :=
  { t with groupName := g.name, group := some g, attached := true, state := .attached }

/-- Whether a thread can have the name of the group. -/
def isNameable : Bool := isThreadName t.groupName

/-- Starts the thread. It may be refused, for the reason given; then the group is lost, but the
handle stays attached, so that it still reports when it is closed. A name that no thread can have
makes the start panic, and there is no answer. -/
def start (refusal : Option String) (topology : Topology) :
    Thread × List Effect × Option (Except Error Unit) :=
  if t.state ≠ .attached then
    (t, [], some (.error (.invalidState (t.id.text ++ " cannot start from " ++ t.state.name))))
  else match t.group with
    | none => (t, [], some (.error (.invalidState (t.id.text ++ " is not attached"))))
    | some g =>
      if t.isNameable then
        match refusal with
        | none =>
          ({ t with group := none, wired := true, state := .running }, [.spawn t.id g topology],
            some (.ok ()))
        | some reason =>
          ({ t with group := none }, [.log (.spawnRefused t.groupName reason)],
            some (.error (.file (.other reason))))
      else ({ t with group := none }, [.panic], none)

/-- Asks for the end of the thread. -/
def close : Thread × List Effect :=
  match t.state with
  | .running =>
    ({ t with state := .closing }, if t.wired then [.tell t.id .close none] else [])
  | .created | .attached =>
    ({ t with state := .closing },
      [if t.attached then .post (.threadClosed t.id) else .log (.closedUnattached t.id)])
  | .closing | .closed => (t, [])

/-- Writes a message to the thread; the event is logged if nobody reads it. -/
def deliver (extension : String) (m : Msg) (unheard : Option LogEvent) : List Effect :=
  if t.wired then [.tell t.id (.deliver extension m) unheard]
  else match unheard with
    | some e => [.log e]
    | none => []

/-- Waits for the end of the thread. -/
def join : Thread × List Effect :=
  ({ t with wired := false, state := .closed }, if t.wired then [.reap t.id t.groupName] else [])

/-- A description for people. -/
def describe : String :=
  "ExtensionThread \x7b id: ExtensionThreadId(" ++ toString t.id.number ++ "), state: " ++
    t.state.name ++ ", group: " ++ quoted t.groupName ++ " \x7d"

/-- Everything that a start can lead to. -/
inductive StartsAs (refusal : Option String) (topology : Topology) (t : Thread) :
    Thread × List Effect × Option (Except Error Unit) → Prop
  /-- The handle is not attached, or has no group any more. -/
  | unfit (e : Error) (h : t.state = .attached → t.group = none) :
      StartsAs refusal topology t (t, [], some (.error e))
  /-- The group moves to its thread. -/
  | spawned {g : Group} (hs : t.state = .attached) (hg : t.group = some g)
      (hn : t.isNameable = true) (hr : refusal = none) :
      StartsAs refusal topology t
        ({ t with group := none, wired := true, state := .running }, [.spawn t.id g topology],
          some (.ok ()))
  /-- There is no thread to be had. -/
  | refused {g : Group} {reason : String} (hs : t.state = .attached) (hg : t.group = some g)
      (hn : t.isNameable = true) (hr : refusal = some reason) :
      StartsAs refusal topology t
        ({ t with group := none }, [.log (.spawnRefused t.groupName reason)],
          some (.error (.file (.other reason))))
  /-- No thread can have the name of the group. -/
  | panics {g : Group} (hs : t.state = .attached) (hg : t.group = some g)
      (hn : t.isNameable = false) :
      StartsAs refusal topology t ({ t with group := none }, [.panic], none)

/-- A start is one of the four cases. -/
theorem startsAs_start (refusal : Option String) (topology : Topology) :
    t.StartsAs refusal topology (t.start refusal topology) := by
  unfold start
  split
  · next hs => exact .unfit _ fun h => absurd h hs
  · next hs =>
    have hattached : t.state = .attached := Decidable.not_not.1 hs
    split
    · next hg => exact .unfit _ fun _ => hg
    · next g hg =>
      split
      · next hn =>
        cases refusal with
        | none => exact .spawned hattached hg hn rfl
        | some reason => exact .refused hattached hg hn rfl
      · next hn => exact .panics hattached hg (by simpa using hn)

/-- Closing a handle does not change its number. -/
@[simp] theorem close_fst_id : t.close.1.id = t.id := by
  unfold close
  split <;> rfl

end Thread

end ExtensionGraph
