import Mathlib.Tactic.Common
import ExtensionGraph.Proofs.EngineRun
import ExtensionGraph.Proofs.StartedGroups

/-!
# The order in which messages are taken

Whatever is posted to an engine, by itself, by its threads or from outside, is put behind what waits
already. So messages are taken in the order in which they were posted, and none is lost as long as
the engine listens.

## Main definitions

* `ExtensionGraph.EngineMsg.routed?` — a message to extensions among those to the engine.

## Main results

* `ExtensionGraph.Engine.prefix_of_play` — what waits is taken, or goes on waiting, as long as the
  engine listens.
* `ExtensionGraph.Engine.taken_in_order` — messages are taken in the order in which they wait.
* `ExtensionGraph.Engine.next_of_play` — when a message has its turn.
-/

namespace ExtensionGraph

/-- The message to extensions that an engine is asked to bring to its destinations. -/
def EngineMsg.routed? : EngineMsg → Option Msg
  | .route m => some m
  | _ => none

/-- What a message brings for extensions is the message that it routes. -/
lemma EngineMsg.routed?_eq_some_iff {x : EngineMsg} {m : Msg} :
    x.routed? = some m ↔ x = .route m := by
  cases x with
  | route m' => exact ⟨fun h => congrArg EngineMsg.route (Option.some.inj h),
      fun h => congrArg some (EngineMsg.route.inj h)⟩
  | created | threadClosed | close => exact ⟨nofun, nofun⟩

namespace Engine

variable {e e' : Engine}

/-! ## Taking -/

/-- Whatever goes on beside the engine posts messages at most. -/
lemma extends_of_move {m : Move} (hm : e.move? m = some e') (hh : m ≠ .handle) :
    e.host.mailbox.Extends e'.host.mailbox := by
  cases moves_of_move? hm with
  | handles => exact absurd rfl hh
  | completes | sends | closes => exact .post _ _
  | works hw hs => exact (Worker.steps_of_step? hs).extends
  | @beats place ticker w hw hk =>
    obtain ⟨-, ms, -, hmail⟩ := Worker.onCourse_beat w e.host.mailbox ticker
    exact ⟨ms, hmail⟩
  | aborts hw hs =>
    obtain ⟨-, rfl, -⟩ := Worker.abort?_eq hs
    exact .post _ _
  | refuses => exact .refl _

/-- A move takes a message from the front at most, and whatever is posted comes behind the others.
Only together with its reader a mailbox loses messages. -/
lemma mailbox_of_move {m : Move} (hm : e.move? m = some e') :
    ∃ mailbox : Mailbox EngineMsg,
      e.host.mailbox.messages = (e.taken? m).toList ++ mailbox.messages ∧
        mailbox.listening = e.host.mailbox.listening ∧ mailbox.Follows e'.host.mailbox := by
  by_cases hh : m = .handle
  · subst hh
    cases moves_of_move? hm with
    | @handles m mailbox hopen htake =>
      obtain ⟨hmessages, hlistening⟩ := Mailbox.take?_eq_some htake
      rw [taken?_handle htake]
      exact ⟨mailbox, hmessages, hlistening,
        handle_follows ({ e with host := { e.host with mailbox } } : Engine) m⟩
  · rw [taken?_eq_none hh]
    exact ⟨e.host.mailbox, rfl, rfl, .inl (extends_of_move hm hh)⟩

/-- An engine that listens after a move has listened before, and what has not been taken goes on
waiting. -/
lemma prefix_of_move {m : Move} (hm : e.move? m = some e')
    (hl : e'.host.mailbox.listening = true) :
    e.host.mailbox.listening = true ∧
      e.host.mailbox.messages <+: (e.taken? m).toList ++ e'.host.mailbox.messages := by
  obtain ⟨mailbox, hmessages, hlistening, hfollows⟩ := mailbox_of_move hm
  rw [hmessages]
  exact ⟨hlistening.symm.trans (hfollows.listening hl),
    (List.prefix_append_right_inj _).2 (hfollows.extends_of_listening hl).messages⟩

/-- An engine that listens in the end of a run has listened all the time. -/
lemma listening_of_play {moves : List Move} {taken : List EngineMsg}
    (hp : e.play moves = some (taken, e')) (hl : e'.host.mailbox.listening = true) :
    e.host.mailbox.listening = true := by
  induction moves generalizing e taken with
  | nil =>
    cases hp
    exact hl
  | cons m moves ih =>
    obtain ⟨e₁, taken₁, hm, hrest, rfl⟩ := play_cons.1 hp
    exact (prefix_of_move hm (ih hrest)).1

/-- From a mailbox without a reader nothing is taken any more. -/
lemma taken_of_deaf {moves : List Move} {taken : List EngineMsg}
    (hp : e.play moves = some (taken, e')) (hd : e.host.mailbox = ⟨false, []⟩) : taken = [] := by
  induction moves generalizing e taken with
  | nil =>
    cases hp
    rfl
  | cons m moves ih =>
    obtain ⟨e₁, taken₁, hm, hrest, rfl⟩ := play_cons.1 hp
    obtain ⟨⟨listening, messages⟩, hmessages, rfl, hfollows⟩ := mailbox_of_move hm
    rw [hd] at hmessages hfollows
    obtain ⟨hnone, rfl⟩ := List.append_eq_nil_iff.1 hmessages.symm
    rw [hnone, ih hrest (Mailbox.Follows.eq_hangUp (m := ⟨false, []⟩) hfollows), List.nil_append]

/-- **What waits is taken in its order, or goes on waiting**, as long as the engine listens. -/
theorem prefix_of_play {moves : List Move} {taken : List EngineMsg}
    (hp : e.play moves = some (taken, e')) (hl : e'.host.mailbox.listening = true) :
    e.host.mailbox.messages <+: taken ++ e'.host.mailbox.messages := by
  induction moves generalizing e taken with
  | nil =>
    cases hp
    exact List.prefix_rfl
  | cons m moves ih =>
    obtain ⟨e₁, taken₁, hm, hrest, rfl⟩ := play_cons.1 hp
    have hstep := (prefix_of_move hm (listening_of_play hrest hl)).2
    rw [List.append_assoc]
    exact hstep.trans ((List.prefix_append_right_inj _).2 (ih hrest))

/-- **Messages are taken in the order in which they wait.** Either only such have been taken that
waited before, or all of those have been taken or go on waiting.

**Proof sketch.** Induction on the run. A move takes the first message or none, and posts at the end
or hangs the mailbox up; in the second case nothing is taken any more. -/
theorem taken_in_order {moves : List Move} {taken : List EngineMsg}
    (hp : e.play moves = some (taken, e')) :
    taken <+: e.host.mailbox.messages ∨
      e.host.mailbox.messages <+: taken ++ e'.host.mailbox.messages := by
  induction moves generalizing e taken with
  | nil =>
    cases hp
    exact .inl (List.nil_prefix)
  | cons m moves ih =>
    obtain ⟨e₁, taken₁, hm, hrest, rfl⟩ := play_cons.1 hp
    obtain ⟨mailbox, hmessages, -, hx | hgone⟩ := mailbox_of_move hm
    · have hstep : e.host.mailbox.messages <+: (e.taken? m).toList ++ e₁.host.mailbox.messages := by
        rw [hmessages]
        exact (List.prefix_append_right_inj _).2 hx.messages
      rw [List.append_assoc]
      rcases ih hrest with htaken | hwaiting
      · rcases List.prefix_or_prefix_of_prefix hstep
          ((List.prefix_append_right_inj _).2 htaken) with h | h
        · exact .inr (h.trans ((List.prefix_append_right_inj _).2 (List.prefix_append _ _)))
        · exact .inl h
      · exact .inr (hstep.trans ((List.prefix_append_right_inj _).2 hwaiting))
    · -- The engine has stopped listening with this message, and no other is taken.
      left
      rw [taken_of_deaf hrest hgone, hmessages, List.append_nil]
      exact List.prefix_append _ _

/-- As long as the graph is not closed, the message that waits first may be handled. -/
lemma move?_handle (hopen : e.context.phase ≠ .closed) {m : EngineMsg}
    {mailbox : Mailbox EngineMsg} (htake : e.host.mailbox.take? = some (m, mailbox)) :
    e.move? .handle = some (({ e with host := { e.host with mailbox } } : Engine).handle m) := by
  show (if e.context.isClosed then none else _) = _
  rw [Context.isClosed_eq_false hopen, htake]
  rfl

/-- When all messages before it have been taken, a message has its turn. -/
lemma next_of_play {moves : List Move} {taken before : List EngineMsg} {x : EngineMsg}
    (hp : e.play moves = some (taken, e')) (hl : e'.host.mailbox.listening = true)
    (hx : e.host.mailbox.messages = before ++ [x]) (hn : taken.length = before.length) :
    taken = before ∧ ∃ mailbox, e'.host.mailbox.take? = some (x, mailbox) := by
  obtain ⟨posted, hposted⟩ := prefix_of_play hp hl
  rw [hx, List.append_assoc, List.singleton_append] at hposted
  obtain ⟨rfl, hmessages⟩ := List.append_inj hposted hn.symm
  refine ⟨rfl, ⟨e'.host.mailbox.listening, posted⟩, ?_⟩
  unfold Mailbox.take?
  rw [← hmessages]

end Engine

end ExtensionGraph
