import ExtensionGraph.Extension.Env

/-!
# Extensions

An extension is called when it is initialised, started, given a message, stopped and taken
down. What it does during a call is a script: a tree of instructions that branches on the
results of what was sent. Between two calls it keeps a memory, which the script of a call
replaces when it ends.

## Main definitions

* `ExtensionGraph.Callback` — what an extension is called for.
* `ExtensionGraph.Event`, `ExtensionGraph.Note` — what happens on a thread, and what of it an
  extension decides on.
* `ExtensionGraph.Script` — what it does during a call.
* `ExtensionGraph.Extension` — how it answers any call.

## Main results

* `ExtensionGraph.Script.follows_wellFounded` — every script ends, however its sends turn out.
-/

namespace ExtensionGraph

/-- What an extension is called for. -/
inductive Callback where
  | hook (hook : Hook)
  | message (msg : Msg)
deriving Inhabited

/-- What happens on a thread, as far as somebody looking on can tell. -/
inductive Event where
  /-- An extension is called. -/
  | called (extension : String) (callback : Callback)
  | log (event : LogEvent)
  /-- An extension notes something of its own. -/
  | note (entry : Json.Value)
  /-- The thread went down with an extension. -/
  | crashed
  /-- A ticker went down, and nothing else with it. -/
  | tickerCrashed
deriving Inhabited

/-- What an extension writes down by itself. That it was called, or has taken its thread down, is
not for it to tell. -/
inductive Note where
  | log (event : LogEvent)
  | note (entry : Json.Value)
deriving Inhabited

/-- A note as it appears among what happens on a thread. -/
def Note.event : Note → Event
  | .log e => .log e
  | .note v => .note v

/-- Something that is sent again and again until it is refused. A period of zero makes the
ticker crash before it sends anything. -/
structure Ticker where
  /-- The period in milliseconds. -/
  period : Nat
  /-- The message of a beat; beats are counted from one. -/
  message : Nat → Msg
  /-- What is logged when a message is refused. -/
  refused : Error → LogEvent

/-- What an extension remembers between two calls. -/
abbrev Memory := Json.Value

/-- What an extension does during a call. -/
inductive Script where
  /-- The call returns. -/
  | done (result : Except Error Unit) (memory : Memory)
  /-- The call takes its thread down. -/
  | crash
  /-- The call never returns. -/
  | hang
  | emit (note : Note) (next : Script)
  | send (mode : SendMode) (msg : Msg) (next : Except Error Unit → Script)
  | closeGraph (next : Except Error Unit → Script)
  /-- Starts a ticker. -/
  | every (ticker : Ticker) (next : Script)
  /-- Stops the tickers that the extension has started. -/
  | cancel (next : Script)
deriving Inhabited

namespace Script

/-- What may be left of a script after one of its instructions; `none` is a call that has
ended. -/
inductive Follows : Option Script → Option Script → Prop
  | ended (s : Script) : Follows none (some s)
  | emit (note : Note) (next : Script) : Follows (some next) (some (.emit note next))
  | send (mode : SendMode) (msg : Msg) (next : Except Error Unit → Script)
      (r : Except Error Unit) : Follows (some (next r)) (some (.send mode msg next))
  | closeGraph (next : Except Error Unit → Script) (r : Except Error Unit) :
      Follows (some (next r)) (some (.closeGraph next))
  | every (ticker : Ticker) (next : Script) : Follows (some next) (some (.every ticker next))
  | cancel (next : Script) : Follows (some next) (some (.cancel next))

/-- Nothing comes after the end of a script. -/
theorem acc_none : Acc Follows none := ⟨_, fun _ h => nomatch h⟩

/-- What is left of a script becomes less with every action.

**Proof sketch.** By induction on the script. After the last action, and after one that takes the
thread down or never returns, only the end can follow. After any other action the end or what is
left of the script follows; where this depends on an answer, the hypothesis holds for every
answer. -/
theorem acc_some (s : Script) : Acc Follows (some s) := by
  induction s with
  | done | crash | hang =>
    refine ⟨_, fun _ h => ?_⟩
    cases h with
    | ended => exact acc_none
  | emit _ _ ih =>
    refine ⟨_, fun _ h => ?_⟩
    cases h with
    | ended => exact acc_none
    | emit => exact ih
  | send _ _ _ ih =>
    refine ⟨_, fun _ h => ?_⟩
    cases h with
    | ended => exact acc_none
    | send _ _ _ r => exact ih r
  | closeGraph _ ih =>
    refine ⟨_, fun _ h => ?_⟩
    cases h with
    | ended => exact acc_none
    | closeGraph _ r => exact ih r
  | every _ _ ih =>
    refine ⟨_, fun _ h => ?_⟩
    cases h with
    | ended => exact acc_none
    | every => exact ih
  | cancel _ ih =>
    refine ⟨_, fun _ h => ?_⟩
    cases h with
    | ended => exact acc_none
    | cancel => exact ih

/-- **Scripts are finite**: nobody can go on for ever with what is left of a script, whatever
answers the actions get. So a proof about a thread may go by induction on what its call still has to
do. -/
theorem follows_wellFounded : WellFounded Follows :=
  ⟨fun s => by cases s with
    | none => exact acc_none
    | some s => exact acc_some s⟩

end Script

/-- An extension: its memory and its answer to any call. -/
structure Extension where
  memory : Memory
  script : Memory → Env → Callback → Script
deriving Inhabited

namespace Extension

/-- The extension that never does anything. -/
def idle : Extension := ⟨.null, fun m _ _ => .done (.ok ()) m⟩

end Extension

end ExtensionGraph
