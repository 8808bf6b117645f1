import ExtensionGraph.Proofs.Evolution

/-!
# The groups whose threads are started

A worker belongs to one group as long as it exists, and a host never drops a worker. So the groups
of its workers tell which threads have been started. They become more by the messages that an engine
takes only, and not any more once its graph has begun to close, or its topology has become known.

## Main definitions

* `ExtensionGraph.Worker.label` — the number and the group of a worker.
* `ExtensionGraph.Engine.startedGroups` — the groups whose threads have been started.
* `ExtensionGraph.Context.IsSettled`, `ExtensionGraph.Engine.IsSettled` — contexts and engines that
  start no thread any more.

## Main results

* `ExtensionGraph.Host.perform_startedGroups`, `ExtensionGraph.Engine.handle_startedGroups` — which
  threads are started by an effect, and by a message.
* `ExtensionGraph.Engine.move_labels`, `ExtensionGraph.Engine.move_frame` — no other move starts a
  thread.
* `ExtensionGraph.Context.IsSettled.handle`, `ExtensionGraph.Engine.Sound.move_of_settled` — what is
  settled remains settled.
* `ExtensionGraph.Engine.Sound.not_isDown_of_working` — an engine goes down while it starts its
  threads, or not at all.
-/

namespace ExtensionGraph

/-! ## The groups of workers -/

namespace Worker

variable {w w' : Worker} {engine engine' : Mailbox EngineMsg}

/-- Beginning a call does not change the group. -/
lemma call_group (w : Worker) (place : Nat) (cb : Callback) :
    (w.call place cb).group = w.group := by
  unfold call
  split <;> rfl

/-- Going on with a call does not change the group. -/
lemma execute?_group {c : Call} (h : w.execute? engine c = some (engine', w')) :
    w'.group = w.group := by
  cases executes_of_execute? h with
  | returns =>
    unfold finish
    split <;> rfl
  | panics | notes | wishes | ticks | cancels => rfl

/-- A worker always belongs to the same group.

**Proof sketch.** By the ways in which a worker may go on; a message that is taken up begins a call
at most. -/
lemma step?_group (h : w.step? engine = some (engine', w')) : w'.group = w.group := by
  unfold step? at h
  split at h
  · exact execute?_group h
  · cases h
    exact call_group _ _ _
  · unfold advance? at h
    split at h
    · cases h
      rfl
    · cases h
    · cases h
      rfl
    · obtain ⟨v, hv, he⟩ := Option.map_eq_some_iff.1 h
      cases he
      unfold serve? at hv
      split at hv
      · cases hv
        unfold receive
        split
        · exact call_group _ _ _
        · rfl
      · cases hv
        rfl
      · split at hv
        · cases hv
          rfl
        · cases hv
    · cases h
      rfl
    · cases h
      rfl
    · cases h
    · cases h

/-- A worker without a runtime keeps its group. -/
lemma abort?_group {reason : String} (h : w.abort? reason engine = some (engine', w')) :
    w'.group = w.group := by
  unfold abort? at h
  split at h
  · cases h
    rfl
  · cases h

/-- A turn of a ticker does not change the group. -/
lemma beat_group (w : Worker) (engine : Mailbox EngineMsg) (k : Nat) :
    (w.beat engine k).2.group = w.group := by
  unfold beat
  split <;> rfl

/-- A worker that runs until it rests keeps its group. -/
lemma run_group (engine : Mailbox EngineMsg) (w : Worker) : (w.run engine).2.group = w.group :=
  run_induction (P := fun _ w' => w'.group = w.group) (fun h hs => (step?_group hs).trans h) rfl

/-- The number and the group of a worker. -/
def label (w : Worker) : ThreadId × String := (w.id, w.group)

end Worker

namespace Host

variable (h : Host)

/-- The groups whose threads have been started, in the order of their start. -/
def startedGroups : List String := h.workers.map (·.group)

/-- Changing a worker without its group keeps the started groups. -/
lemma modify_startedGroups (place : Nat) {f : Worker → Worker} (hf : ∀ w, (f w).group = w.group) :
    (h.modify place f).startedGroups = h.startedGroups := by
  refine List.ext_getElem? fun k => ?_
  simp only [startedGroups, modify, List.getElem?_map, List.getElem?_modify]
  split
  · cases h.workers[k]? with
    | none => rfl
    | some w => exact congrArg some (hf w)
  · cases h.workers[k]? <;> rfl

/-- Running a worker keeps the started groups. -/
lemma runWorker_startedGroups (place : Nat) :
    (h.runWorker place).startedGroups = h.startedGroups := by
  unfold runWorker
  split
  · rfl
  · next w hw => exact map_key_set hw (Worker.run_group h.mailbox w)

/-- An effect adds the group of the worker that it starts.

**Proof sketch.** By cases on the effect. Only a start adds a worker, at the end; all others change
workers at most, and not their groups. -/
lemma perform_startedGroups (link : Link) (x : Effect) :
    (h.perform link x).startedGroups =
      h.startedGroups ++ x.launch?.toList.map (·.group.name) := by
  cases x with
  | log | await | post | announce => exact (List.append_nil _).symm
  | panic =>
    refine Eq.trans ?_ (List.append_nil _).symm
    exact List.map_map
  | spawn id g t =>
    show (h.spawn (Worker.create link id g t)).startedGroups = _
    unfold spawn
    split
    · next place _ =>
      have hmod := h.modify_startedGroups place (f := fun w => { w with hungUp := true })
        fun _ => rfl
      show ((h.modify place _).workers ++ [_]).map Worker.group = _
      rw [List.map_append]
      exact congrArg (· ++ [g.name]) hmod
    · exact List.map_append
  | tell id m unheard =>
    refine Eq.trans ?_ (List.append_nil _).symm
    show (h.tell id m unheard).startedGroups = _
    unfold tell
    split
    · exact h.modify_startedGroups _ fun _ => rfl
    · split <;> rfl
  | reap id group =>
    refine Eq.trans ?_ (List.append_nil _).symm
    show (h.reap id group).startedGroups = _
    unfold reap
    split
    · rfl
    · next place _ =>
      have hrun := ((h.modify place fun w => { w with hungUp := true }).runWorker_startedGroups
        place).trans (h.modify_startedGroups place fun _ => rfl)
      dsimp only
      split
      · split
        · exact hrun
        · exact hrun
      · exact hrun

end Host

/-! ## Contexts that start no thread any more -/

namespace Context

variable {c : Context}

/-- The graph closes or has closed, or its topology is known. -/
def IsSettled (c : Context) : Prop := c.IsOpen → c.topology.isSome

/-- A graph that has been closed is settled. -/
lemma settled_close (c : Context) : c.close.1.IsSettled := by
  intro ho
  by_cases ho' : c.IsOpen
  · exact absurd ho (Engine.close_not_open ho')
  · rw [c.close_eq_self ho'] at ho
    exact absurd ho ho'

/-- Closing starts no thread. -/
lemma launches_close (c : Context) : c.close.2.filterMap Effect.launch? = [] :=
  Effect.launches_of_mild c.close_mild

/-- Whoever asks for the end makes the graph close, and starts no thread. -/
lemma handle_of_asksForEnd (c : Context) {m : EngineMsg} (hm : m.AsksForEnd) :
    (c.handle m).1.IsSettled ∧ (c.handle m).2.filterMap Effect.launch? = [] := by
  cases m with
  | created result =>
    cases result with
    | ok g => exact hm.elim
    | error err => exact ⟨c.settled_close, c.launches_close⟩
  | threadClosed id => exact hm.elim
  | route m => exact hm.elim
  | close => exact ⟨c.settled_close, c.launches_close⟩

/-- A group that comes to a settled graph starts no thread, and the graph is still settled. -/
lemma IsSettled.groupCreated (h : c.IsSettled) (g : Group) :
    (c.groupCreated g).1.IsSettled ∧ (c.groupCreated g).2.filterMap Effect.launch? = [] := by
  have hr := c.receives g
  generalize c.groupCreated g = r at hr ⊢
  cases hr with
  | late | closing | early | twice => exact ⟨h, rfl⟩
  | ready ho _ ht =>
    have hknown := h ho
    rw [ht] at hknown
    cases hknown
  | strange ho _ ht =>
    have hknown := h ho
    rw [ht] at hknown
    cases hknown

/-- The last step of a shutdown does not make a graph come up again. -/
lemma settled_conclude {c : Context} (h : c.IsSettled) : c.conclude.1.IsSettled := by
  by_cases hn : c.threads = []
  · rw [c.conclude_eq hn]
    exact fun ho => absurd rfl ho.2
  · rw [c.conclude_eq_panic hn]
    exact h

/-- A report to a settled graph starts no thread, and the graph is still settled.

**Proof sketch.** A report takes a handle off the list and may conclude a graph that closes. Neither
starts a thread. -/
lemma IsSettled.threadClosed (h : c.IsSettled) (id : ThreadId) :
    (c.handle (.threadClosed id)).1.IsSettled ∧
      (c.handle (.threadClosed id)).2.filterMap Effect.launch? = [] := by
  cases hf : c.handle? id with
  | none =>
    rw [c.threadClosed_eq_of_unlisted hf]
    exact ⟨h, rfl⟩
  | some t =>
    obtain rfl : t.id = id := key_of_atKey? hf
    refine ⟨?_, Engine.launches_threadClosed c t.id⟩
    rw [c.threadClosed_eq_of_listed hf]
    split
    · split
      · exact settled_conclude h
      · exact h
    · exact h

/-- **What is settled remains settled**, and no thread is started any more. -/
theorem IsSettled.handle (h : c.IsSettled) (m : EngineMsg) :
    (c.handle m).1.IsSettled ∧ (c.handle m).2.filterMap Effect.launch? = [] := by
  cases m with
  | created result =>
    cases result with
    | ok g => exact h.groupCreated g
    | error err => exact c.handle_of_asksForEnd trivial
  | threadClosed id => exact h.threadClosed id
  | route m => exact ⟨h, Effect.launches_of_mild fun x hx => (c.dispatch_mild m x hx).1⟩
  | close => exact c.handle_of_asksForEnd trivial

end Context

namespace Engine

variable {e e' : Engine}

/-! ## Threads that are started by an engine -/

/-- The groups whose threads have been started. -/
def startedGroups (e : Engine) : List String := e.host.startedGroups

/-- Doing what was decided on adds the groups of the threads that are started.

**Proof sketch.** By induction over the effects. A worker keeps its group, and a new one is started
for the group of its launch. -/
lemma carryOut_startedGroups (e : Engine) (r : Context × List Effect) :
    (e.carryOut r).startedGroups =
      e.startedGroups ++ (r.2.filterMap Effect.launch?).map (·.group.name) := by
  have hall (effects : List Effect) (e : Engine) :
      (effects.foldl perform e).startedGroups =
        e.startedGroups ++ (effects.filterMap Effect.launch?).map (·.group.name) := by
    induction effects generalizing e with
    | nil => exact (List.append_nil _).symm
    | cons x effects ih =>
      have hone : (e.perform x).startedGroups =
          e.startedGroups ++ x.launch?.toList.map (·.group.name) := by
        rw [startedGroups, Host.startedGroups, perform_workers]
        exact e.host.perform_startedGroups _ x
      rw [List.foldl_cons, ih, hone, List.append_assoc, ← List.map_append, List.filterMap_cons]
      cases x.launch? <;> rfl
  exact hall r.2 { e with context := r.1 }

/-- Retiring keeps the started groups. -/
@[simp] lemma retire_startedGroups (e : Engine) : e.retire.startedGroups = e.startedGroups := by
  rw [startedGroups, Host.startedGroups, retire_workers]
  rfl

/-- Handling a message adds the groups of the threads that are started on its account. -/
lemma handle_startedGroups (e : Engine) (m : EngineMsg) :
    (e.handle m).startedGroups =
      e.startedGroups ++ ((e.context.handle m).2.filterMap Effect.launch?).map (·.group.name) := by
  rw [handle, retire_startedGroups, carryOut_startedGroups]

/-- Only the engine itself starts threads, and no thread changes its group. -/
lemma move_labels {m : Move} (hm : e.move? m = some e') (hh : m ≠ .handle) :
    e'.host.workers.map Worker.label = e.host.workers.map Worker.label := by
  cases moves_of_move? hm with
  | handles => exact absurd rfl hh
  | works hw hs =>
    exact map_key_set hw (Prod.ext (Worker.steps_of_step? hs).frame.1 (Worker.step?_group hs))
  | beats hw =>
    exact map_key_set hw (Prod.ext (Worker.onCourse_beat _ _ _).1.id (Worker.beat_group _ _ _))
  | aborts hw hs =>
    obtain ⟨-, -, -, -, hid, -⟩ := Worker.abort?_eq hs
    exact map_key_set hw (Prod.ext hid (Worker.abort?_group hs))
  | completes | sends | refuses | closes => rfl

/-- Only the engine itself changes the context and starts threads. -/
lemma move_frame {m : Move} (hm : e.move? m = some e') (hh : m ≠ .handle) :
    e'.context = e.context ∧ e'.startedGroups = e.startedGroups := by
  constructor
  · cases moves_of_move? hm with
    | handles => exact absurd rfl hh
    | works | beats | aborts | completes | sends | refuses | closes => rfl
  · have hlabels := congrArg (List.map Prod.snd) (move_labels hm hh)
    rw [List.map_map, List.map_map] at hlabels
    exact hlabels

/-- The engine starts no thread any more, and it has not gone down. -/
def IsSettled (e : Engine) : Prop := ¬ e.IsDown ∧ e.context.IsSettled

variable {heard : List EngineMsg}

/-- An engine that starts no thread any more does not go down with a message. -/
lemma Sound.handle_of_settled (h : e.Sound heard) (hs : e.IsSettled) {m : EngineMsg}
    {mailbox : Mailbox EngineMsg} (htake : e.host.mailbox.take? = some (m, mailbox)) :
    (({ e with host := { e.host with mailbox } } : Engine).handle m).IsSettled := by
  have hl : mailbox.listening = true :=
    (Mailbox.take?_eq_some htake).2.trans (h.listening_of_take? htake)
  refine ⟨handle_not_isDown hl fun hx => ?_, ?_⟩
  · obtain ⟨ho, hnone, -⟩ := h.steady.context.panics_handle hx
    have hknown := hs.2 ho
    rw [hnone] at hknown
    cases hknown
  · rw [handle_context]
    exact (hs.2.handle m).1

/-- Whatever goes on beside the engine does not bring it down. -/
lemma isDown_of_move {m : Move} (hm : e.move? m = some e') (hh : m ≠ .handle) :
    e'.IsDown ↔ e.IsDown := by
  obtain ⟨hl, hc⟩ := (moves_of_move? hm).listening hh
  unfold IsDown
  rw [hl, hc]

/-- **What is settled remains settled**, whatever happens. -/
theorem Sound.move_of_settled (h : e.Sound heard) (hs : e.IsSettled) {m : Move}
    (hm : e.move? m = some e') : e'.IsSettled := by
  by_cases hh : m = .handle
  · subst hh
    cases moves_of_move? hm with
    | handles _ htake => exact h.handle_of_settled hs htake
  · refine ⟨mt (isDown_of_move hm hh).1 hs.1, ?_⟩
    rw [(move_frame hm hh).1]
    exact hs.2

/-- **Once a thread is at work, the engine does not go down any more.** -/
theorem Sound.not_isDown_of_working (h : e.Sound heard) (hup : ¬ e.IsDown) {w : Worker}
    (hw : w ∈ e.host.workers) (hended : w.stage ≠ .ended) {moves : List Move}
    {taken : List EngineMsg} (hp : e.play moves = some (taken, e')) : ¬ e'.IsDown := by
  have hsettled : e.context.IsSettled := by
    intro ho
    by_contra hnone
    exact hended (h.ended_of_unready hup ho (by simpa using hnone) hw)
  exact (play_induction (P := fun heard e => e.Sound heard ∧ e.IsSettled)
    (fun ⟨h, hs⟩ hm => ⟨h.move hm, h.move_of_settled hs hm⟩) ⟨h, hup, hsettled⟩ hp).2.1

/-- No thread is started together with the graph. -/
lemma start_startedGroups (link : Link) : (start link).1.startedGroups = [] := by
  have hbegun : (begun link).startedGroups = [] := List.map_eq_nil_iff.2 (begun_host link).1
  rw [start_eq]
  split
  · rw [retire_startedGroups]
    exact hbegun
  · rw [retire_startedGroups, carryOut_startedGroups, hbegun, Context.launches_close]
    rfl

end Engine

end ExtensionGraph
