import ExtensionGraph.Proofs.Ledger
import ExtensionGraph.Proofs.ShutdownCount

/-!
# Engines in order

An engine is in order if its context and every worker are, if the ledger of the threads balances,
and if nobody has asked a thread to end while the graph is open. What a context decides on is done
effect by effect; when all of it is done, the engine is in order again.

## Main definitions

* `ExtensionGraph.Engine.Tracks`, `ExtensionGraph.Engine.Sound` — engines in order, in the middle
  of a move and between two moves.
* `ExtensionGraph.Engine.Busy` — engines that have not done yet what was decided on.
* `ExtensionGraph.Engine.IsDown`, `ExtensionGraph.Engine.Fallen` — engines that have gone down with
  a panic, and those that have just done so.

## Main results

* `ExtensionGraph.Engine.Busy.close`, `ExtensionGraph.Engine.Busy.groupCreated`,
  `ExtensionGraph.Engine.Busy.threadClosed` — what is done after each decision.
* `ExtensionGraph.Engine.Sound.handle` — taking a message keeps an engine in order.
-/

namespace ExtensionGraph

namespace Engine

/-- The engine has gone down with a panic: nobody reads its mailbox, though its graph has not been
closed. -/
def IsDown (e : Engine) : Prop := e.host.mailbox.listening = false ∧ e.context.phase ≠ .closed

/-- What is kept up also in the middle of a move. `heard` are the messages that the engine has taken
so far. -/
structure Tracks (heard : List EngineMsg) (e : Engine) : Prop where
  workers : ∀ w ∈ e.host.workers, w.Sound
  idsNodup : (e.host.workers.map (·.id)).Nodup
  ledger : Ledger e.context heard e.host.mailbox.messages e.host.workers
  peace : e.context.IsOpen → AtPeace e.host.workers

/-- An engine that has just gone down. It was about to start its threads, and nobody can write to
those that it has started. -/
structure Fallen (e : Engine) : Prop where
  workers : ∀ w ∈ e.host.workers, w.Sound ∧ w.hungUp = true
  idsNodup : (e.host.workers.map (·.id)).Nodup
  mailbox : e.host.mailbox = ⟨false, []⟩
  phase : e.context.phase = .running

/-- An engine in order between two moves. With an engine that has gone down its account of the
threads is lost. -/
structure Sound (heard : List EngineMsg) (e : Engine) : Prop where
  workers : ∀ w ∈ e.host.workers, w.Sound
  idsNodup : (e.host.workers.map (·.id)).Nodup
  peace : e.context.IsOpen → AtPeace e.host.workers
  steady : e.Steady
  ledger : ¬ e.IsDown → Ledger e.context heard e.host.mailbox.messages e.host.workers
  retired : e.context.phase = .closed → e.host.mailbox.listening = false
  emptied : e.host.mailbox.listening = false → e.host.mailbox.messages = []
  down : e.IsDown → e.context.phase = .running ∧ ∀ w ∈ e.host.workers, w.hungUp = true

variable {e : Engine} {heard : List EngineMsg}

/-- An engine that listens has not gone down. -/
lemma not_isDown_of_listening (hl : e.host.mailbox.listening = true) : ¬ e.IsDown := by
  intro hd
  rw [hd.1] at hl
  cases hl

/-- An engine that has closed its graph has not gone down. -/
lemma not_isDown_of_closed (hc : e.context.phase = .closed) : ¬ e.IsDown := fun hd => hd.2 hc

/-- An engine that has not gone down listens until its graph is closed. -/
lemma listening_of_not_isDown (hd : ¬ e.IsDown) (hopen : e.context.phase ≠ .closed) :
    e.host.mailbox.listening = true := by
  by_contra hl
  exact hd ⟨by simpa using hl, hopen⟩

/-- A graph that is closed has no report to wait for, so nothing is lost with its mailbox.

**Proof sketch.** If the graph is not closed nothing happens, and the engine listens. If it is
closed there are no handles any more, so that every worker that there is has ended and has reported,
and the account of its report is settled without the mailbox. -/
lemma Tracks.retire (h : e.Tracks heard) (hs : e.Steady) (hl : e.host.mailbox.listening = true) :
    e.retire.Sound heard := by
  by_cases hc : e.context.phase = .closed
  · have hclosed : e.context.isClosed = true := by simp [Context.isClosed, hc]
    have hmail : e.retire.host.mailbox = ⟨false, []⟩ := by
      rw [retire_mailbox, if_pos ⟨hclosed, hl⟩]
      rfl
    have hthreads : e.context.threads = [] := hs.context.threads_eq_nil hc
    have hup : ¬ e.retire.IsDown := not_isDown_of_closed (by rw [retire_context]; exact hc)
    refine
      { steady := hs.retire
        workers := ?_
        idsNodup := ?_
        peace := ?_
        ledger := fun _ => ?_
        retired := fun _ => by rw [hmail]
        emptied := fun _ => by rw [hmail]
        down := fun hd => absurd hd hup }
    · rw [retire_workers]
      exact h.workers
    · rw [retire_workers]
      exact h.idsNodup
    · rw [retire_context, retire_workers]
      exact h.peace
    · rw [retire_workers, retire_context, hmail]
      -- No handle is left, so each worker has ended and its report has been heard.
      intro id
      have hacc := h.ledger id
      have hnone : e.context.handle? id = none := by
        rw [Context.handle?, hthreads, atKey?_nil]
      rw [hnone] at hacc ⊢
      cases hw : atKey? Worker.id e.host.workers id with
      | none =>
        rw [hw] at hacc
        exact ⟨rfl, hacc.2⟩
      | some w =>
        rw [hw] at hacc
        obtain ⟨hlt, hended, hhung, hheard, -⟩ := hacc
        exact ⟨hlt, hended, hhung, hheard, rfl⟩
  · have hopen : e.context.isClosed = false := Context.isClosed_eq_false hc
    have hsame : e.retire = e := by
      unfold Engine.retire
      rw [hopen]
      simp
    rw [hsame]
    exact
      { steady := hs
        workers := h.workers
        idsNodup := h.idsNodup
        ledger := fun _ => h.ledger
        peace := h.peace
        retired := fun hp => absurd hp hc
        emptied := fun hd => by rw [hl] at hd; cases hd
        down := fun hd => absurd hd (not_isDown_of_listening hl) }

/-- An engine that has gone down does not retire any more, and what is left of it is in order.

**Proof sketch.** An engine retires only while it listens, which one that has gone down does not. So
it stays as it is, and most of what has to be in order concerns engines that are up. -/
lemma Fallen.retire (h : e.Fallen) (hs : e.Steady) : e.retire.Sound heard := by
  have hdeaf : e.host.mailbox.listening = false := by rw [h.mailbox]
  have hsame : e.retire = e := by
    unfold Engine.retire
    rw [hdeaf]
    simp
  have hopen : e.context.phase ≠ .closed := by rw [h.phase]; simp
  rw [hsame]
  exact
    { steady := hs
      workers := fun w hw => (h.workers w hw).1
      idsNodup := h.idsNodup
      ledger := fun hup => absurd ⟨hdeaf, hopen⟩ hup
      peace := fun _ w hw hh => by rw [(h.workers w hw).2] at hh; cases hh
      retired := fun hp => absurd hp hopen
      emptied := fun _ => by rw [h.mailbox]
      down := fun _ => ⟨h.phase, fun w hw => (h.workers w hw).2⟩ }

/-! ## Decisions of the context -/

/-- The effect is a line in the log. -/
def IsLog (x : Effect) : Prop := ∃ event, x = .log event

/-- Logging is mild, posts nothing and asks nobody to end. -/
lemma IsLog.isMild {x : Effect} (h : IsLog x) :
    x.IsMild ∧ x.posted? = none ∧ x.disturbs = false := by
  obtain ⟨event, rfl⟩ := h
  exact ⟨⟨trivial, rfl⟩, rfl, rfl⟩

/-- An engine in the middle of a move: its workers are in order and its mailbox is open. What its
context has decided on is still to be done. -/
structure Busy (e : Engine) : Prop where
  workers : ∀ w ∈ e.host.workers, w.Sound
  idsNodup : (e.host.workers.map (·.id)).Nodup
  listening : e.host.mailbox.listening = true

/-- Tame effects leave the workers in order, and those that they start are.

**Proof sketch.** Tame effects change the inboxes of the workers that there are, and add those that
are started. Neither the order within a worker nor its number depends on its inbox, and a new worker
is in order from the start. -/
lemma Busy.foldl_perform (h : e.Busy) (c : Context) {effects : List Effect}
    (ht : ∀ x ∈ effects, x.IsTame)
    (hnd : (e.host.workers.map (·.id) ++ (effects.filterMap Effect.launch?).map (·.id)).Nodup) :
    (∀ w ∈ (effects.foldl perform { e with context := c }).host.workers, w.Sound) ∧
      ((effects.foldl perform { e with context := c }).host.workers.map (·.id)).Nodup := by
  obtain ⟨-, hquiet, -⟩ := foldl_perform_of_tame { e with context := c } ht hnd
  have hq : (effects.foldl perform { e with context := c }).host.workers.map Worker.quiet =
      (e.host.workers ++ (effects.filterMap Effect.launch?).map (Launch.worker c.link)).map
        Worker.quiet := by
    rw [List.map_append, List.map_map]
    exact hquiet
  refine ⟨fun w hw => ?_, ?_⟩
  · have hmem := List.mem_map_of_mem (f := Worker.quiet) hw
    rw [hq] at hmem
    obtain ⟨v, hv, hvw⟩ := List.mem_map.1 hmem
    rw [← Worker.sound_quiet_iff, ← hvw, Worker.sound_quiet_iff]
    rcases List.mem_append.1 hv with hv | hv
    · exact h.workers v hv
    · obtain ⟨l, -, rfl⟩ := List.mem_map.1 hv
      exact Worker.sound_create _ _ _ _
  · rw [ids_eq_of_quiet hq, List.map_append, List.map_map]
    exact hnd

/-- Doing what was decided on, if nobody is waited for.

**Proof sketch.** The mailbox has got what the decision posts, and the workers are those that there
were with those that are started, but for their inboxes; this is what the ledger of the new context
is about. In a graph that stays open, nobody is asked to end. -/
lemma Busy.carryOut (h : e.Busy) {r : Context × List Effect} (ht : ∀ x ∈ r.2, x.IsTame)
    (hnd : (e.host.workers.map (·.id) ++ (r.2.filterMap Effect.launch?).map (·.id)).Nodup)
    (hledger : Ledger r.1 heard (e.host.mailbox.messages ++ r.2.filterMap Effect.posted?)
      (e.host.workers ++ (r.2.filterMap Effect.launch?).map (Launch.worker r.1.link)))
    (hpeace : r.1.IsOpen → (∀ x ∈ r.2, x.disturbs = false) ∧ AtPeace e.host.workers) :
    (e.carryOut r).Tracks heard ∧ (e.carryOut r).host.mailbox.listening = true := by
  obtain ⟨hsound, hids⟩ := h.foldl_perform r.1 ht hnd
  obtain ⟨hmail, hquiet, hkeep⟩ := foldl_perform_of_tame { e with context := r.1 } ht hnd
  have hm : (e.carryOut r).host.mailbox =
      e.host.mailbox.postAll (r.2.filterMap Effect.posted?) := hmail
  have hq : (e.carryOut r).host.workers.map Worker.quiet =
      (e.host.workers ++ (r.2.filterMap Effect.launch?).map (Launch.worker r.1.link)).map
        Worker.quiet := by
    rw [List.map_append, List.map_map]
    exact hquiet
  refine ⟨⟨hsound, hids, ?_, ?_⟩, ?_⟩
  · rw [carryOut_context, hm, Mailbox.postAll_messages, h.listening]
    exact hledger.of_quiet hq
  · rw [carryOut_context]
    intro ho
    obtain ⟨hd, hp⟩ := hpeace ho
    exact hkeep hd hp
  · rw [hm, Mailbox.postAll_listening]
    exact h.listening

/-- Doing what was decided on, if no worker is started either. -/
lemma Busy.carryOut_of_mild (h : e.Busy) {r : Context × List Effect} (hm : ∀ x ∈ r.2, x.IsMild)
    (hledger : Ledger r.1 heard (e.host.mailbox.messages ++ r.2.filterMap Effect.posted?)
      e.host.workers)
    (hpeace : r.1.IsOpen → (∀ x ∈ r.2, x.disturbs = false) ∧ AtPeace e.host.workers) :
    (e.carryOut r).Tracks heard ∧ (e.carryOut r).host.mailbox.listening = true := by
  have hl := Effect.launches_of_mild hm
  refine h.carryOut (fun x hx => (hm x hx).1) ?_ ?_ hpeace
  · rw [hl, List.map_nil, List.append_nil]
    exact h.idsNodup
  · rw [hl, List.map_nil, List.append_nil]
    exact hledger

/-- Doing what was decided on, if that is only to log something. -/
lemma Busy.carryOut_of_logs (h : e.Busy) {r : Context × List Effect} (hx : ∀ x ∈ r.2, IsLog x)
    (hledger : Ledger r.1 heard e.host.mailbox.messages e.host.workers)
    (hpeace : r.1.IsOpen → AtPeace e.host.workers) :
    (e.carryOut r).Tracks heard ∧ (e.carryOut r).host.mailbox.listening = true := by
  have hp : r.2.filterMap Effect.posted? = [] :=
    List.filterMap_eq_nil_iff.2 fun x hm => (hx x hm).isMild.2.1
  refine h.carryOut_of_mild (fun x hm => (hx x hm).isMild.1) ?_ fun ho => ⟨?_, hpeace ho⟩
  · rw [hp, List.append_nil]
    exact hledger
  · exact fun x hm => (hx x hm).isMild.2.2

/-- A graph that has begun to close is not open. -/
lemma close_not_open {c : Context} (ho : c.IsOpen) : ¬ c.close.1.IsOpen := by
  intro h
  have hp := c.close_phase ho
  split at hp
  · exact h.2 hp
  · exact h.1 hp

/-- Closing an open graph. -/
lemma Busy.close (h : e.Busy) {c : Context} (ht : c.Tidy) (ho : c.IsOpen)
    (hledger : Ledger c heard e.host.mailbox.messages e.host.workers) (logs : List Effect)
    (hx : ∀ x ∈ logs, IsLog x) :
    (e.carryOut (c.close.1, logs ++ c.close.2)).Tracks heard ∧
      (e.carryOut (c.close.1, logs ++ c.close.2)).host.mailbox.listening = true := by
  have hp : logs.filterMap Effect.posted? = [] :=
    List.filterMap_eq_nil_iff.2 fun x hm => (hx x hm).isMild.2.1
  refine h.carryOut_of_mild (fun x hm => ?_) ?_ fun ho' => absurd ho' (close_not_open ho)
  · rcases List.mem_append.1 hm with hm | hm
    · exact (hx x hm).isMild.1
    · exact c.close_mild x hm
  · rw [List.filterMap_append, hp, List.nil_append]
    exact hledger.close ht ho

/-- A request to close, to a graph in any phase. -/
lemma Busy.requestClose (h : e.Busy) (hc : e.context.Sound)
    (hledger : Ledger e.context heard e.host.mailbox.messages e.host.workers)
    (hpeace : e.context.IsOpen → AtPeace e.host.workers) (logs : List Effect)
    (hx : ∀ x ∈ logs, IsLog x) :
    (e.carryOut (e.context.close.1, logs ++ e.context.close.2)).Tracks heard ∧
      (e.carryOut (e.context.close.1, logs ++ e.context.close.2)).host.mailbox.listening =
        true := by
  by_cases ho : e.context.IsOpen
  · exact h.close hc.toTidy ho hledger logs hx
  · rw [e.context.close_eq_self ho, List.append_nil]
    exact h.carryOut_of_logs hx hledger hpeace

/-- Handles that wait have no worker yet. -/
lemma Busy.disjoint_of_waiting (h : e.Busy) {c : Context} (ht : c.Tidy)
    (hwaiting : ∀ t ∈ c.threads, t.Waiting)
    (hledger : Ledger c heard e.host.mailbox.messages e.host.workers) :
    ∀ a ∈ e.host.workers.map (·.id), ∀ b ∈ c.threads.map (·.id), a ≠ b := by
  intro a ha b hb hab
  obtain ⟨w, hw, rfl⟩ := List.mem_map.1 ha
  obtain ⟨t, hm, rfl⟩ := List.mem_map.1 hb
  have hacc := hledger w.id
  rw [atKey?_of_mem h.idsNodup hw, hab, ht.handle?_eq_some_iff.2 ⟨hm, rfl⟩] at hacc
  have hwd := hacc.1
  rw [(hwaiting t hm).wired] at hwd
  cases hwd

/-- Effects that do nothing but start threads and log, with what is known of the lines that were
logged before. -/
lemma starting_append {logs effects : List Effect} (hx : ∀ x ∈ logs, IsLog x)
    (hs : Context.Starting effects) :
    Context.Starting (logs ++ effects) ∧
      (logs ++ effects).filterMap Effect.posted? = [] ∧
      (logs ++ effects).filterMap Effect.launch? = effects.filterMap Effect.launch? := by
  have hall : Context.Starting (logs ++ effects) := by
    intro x hm
    rcases List.mem_append.1 hm with hm | hm
    · obtain ⟨event, rfl⟩ := hx x hm
      exact ⟨trivial, rfl, rfl, rfl⟩
    · exact hs x hm
  refine ⟨hall, List.filterMap_eq_nil_iff.2 fun x hm => (hall x hm).2.1, ?_⟩
  rw [List.filterMap_append, Effect.launches_of_mild fun x hm => (hx x hm).isMild.1,
    List.nil_append]

/-- Starting the threads of a context in which all handles wait, if none of the starts panics.

**Proof sketch.** The numbers of the handles that wait have no workers, since the ledger has no
account for them; so every thread that is started is new. With the threads the accounts of the
handles change from waiting to running, and nobody has been asked to end. -/
lemma Busy.startThreads (h : e.Busy) {c : Context} (ht : c.Tidy)
    (hwaiting : ∀ t ∈ c.threads, t.Waiting)
    (hledger : Ledger c heard e.host.mailbox.messages e.host.workers)
    (hpeace : AtPeace e.host.workers) (logs : List Effect) (hx : ∀ x ∈ logs, IsLog x)
    (heffects : Context.Starting c.starting) :
    (e.carryOut (c.startThreads.1, logs ++ c.starting)).Tracks heard ∧
      (e.carryOut (c.startThreads.1, logs ++ c.starting)).host.mailbox.listening = true := by
  obtain ⟨hall, hposted, hlaunch⟩ := starting_append hx heffects
  have hids := c.starting_launch_ids hwaiting
  have hsub := c.starting_launch_ids_sublist hwaiting
  rw [hids] at hsub
  refine h.carryOut (fun x hm => (hall x hm).1) ?_ ?_
    fun _ => ⟨fun x hm => (hall x hm).2.2.1, hpeace⟩
  · rw [hlaunch, hids, List.nodup_append]
    exact ⟨h.idsNodup, ht.idsNodup.sublist hsub, fun a ha b hb =>
      h.disjoint_of_waiting ht hwaiting hledger a ha b (hsub.subset hb)⟩
  · rw [hposted, hlaunch, List.append_nil]
    refine hledger.startThreads (fun t hm => ?_) ht.idsNodup c.startThreads_ids ?_ rfl ?_ ?_
    · exact ⟨(hwaiting t hm).wired, by rw [(hwaiting t hm).state]; simp⟩
    · intro u hu
      simp only [Context.startThreads, List.map_map] at hu
      obtain ⟨t, hm, rfl⟩ := List.mem_map.1 hu
      rcases (hwaiting t hm).startThread c (c.topology.getD .empty) with hs | hs
      · rw [Function.comp_apply, hs.state]
        simp
      · rw [Function.comp_apply, hs.state]
        simp
    · rw [List.map_map, ← hids]
      rfl
    · intro w hw
      obtain ⟨l, -, rfl⟩ := List.mem_map.1 hw
      exact ⟨Worker.create_stage_ne _ _ _ _ rfl, rfl⟩

/-- If one of the starts panics, the engine goes down with it.

**Proof sketch.** What is carried out before the panic only starts threads and logs, as a start
without a panic does; then all workers lose their inboxes and the engine its mailbox. So the workers
are in order, and nobody can write to them. -/
lemma Busy.startThreads_panic (h : e.Busy) {c : Context} (ht : c.Tidy)
    (hwaiting : ∀ t ∈ c.threads, t.Waiting)
    (hledger : Ledger c heard e.host.mailbox.messages e.host.workers)
    (logs : List Effect) (hx : ∀ x ∈ logs, IsLog x) {before : List Effect}
    (heq : c.startThreads.2 = before ++ [.panic]) (hpre : before <+: c.starting)
    (hbefore : Context.Starting before) :
    (e.carryOut (c.startThreads.1, logs ++ c.startThreads.2)).Fallen := by
  obtain ⟨hall, -, hlaunch⟩ := starting_append hx hbefore
  have hsub := ((hpre.sublist.filterMap Effect.launch?).map (·.id)).trans
    (c.starting_launch_ids_sublist hwaiting)
  have hnd : (e.host.workers.map (·.id) ++
      ((logs ++ before).filterMap Effect.launch?).map (·.id)).Nodup := by
    rw [hlaunch, List.nodup_append]
    exact ⟨h.idsNodup, ht.idsNodup.sublist hsub, fun a ha b hb =>
      h.disjoint_of_waiting ht hwaiting hledger a ha b (hsub.subset hb)⟩
  obtain ⟨hsound, hids⟩ := h.foldl_perform c.startThreads.1 (fun x hm => (hall x hm).1) hnd
  generalize hbusy : (logs ++ before).foldl perform { e with context := c.startThreads.1 } = e₁
    at hsound hids
  have hsplit : e.carryOut (c.startThreads.1, logs ++ c.startThreads.2) =
      { e₁ with host := e₁.host.collapse } := by
    rw [heq, ← List.append_assoc, ← hbusy]
    exact foldl_perform_panic _ _
  rw [hsplit]
  refine ⟨fun w hw => ?_, ?_, rfl, ?_⟩
  · obtain ⟨v, hv, rfl⟩ := List.mem_map.1 hw
    exact ⟨(hsound v hv).hangUp true, rfl⟩
  · show ((e₁.host.workers.map _).map _).Nodup
    rw [List.map_map]
    exact hids
  · show e₁.context.phase = .running
    rw [← hbusy, foldl_perform_context]
    rfl

/-- A group that has been built, to a graph in any phase.

**Proof sketch.** A new handle enters the ledger with a number that is not known yet. While the
graph closes it comes with its report, and otherwise it waits. With the last group all handles that
wait get their workers, as far as there are threads to be had, or are closed again; and the engine
goes down if no thread can have the name of a group. -/
lemma Busy.groupCreated (h : e.Busy) (hc : e.context.Sound)
    (hledger : Ledger e.context heard e.host.mailbox.messages e.host.workers)
    (hpeace : e.context.IsOpen → AtPeace e.host.workers) (g : Group) :
    ((e.carryOut (e.context.groupCreated g)).Tracks heard ∧
        (e.carryOut (e.context.groupCreated g)).host.mailbox.listening = true) ∨
      (e.carryOut (e.context.groupCreated g)).Fallen := by
  have hlog {event : LogEvent} {xs : List Effect} (hx : ∀ x ∈ xs, IsLog x) :
      ∀ x ∈ Effect.log event :: xs, IsLog x := by
    intro x hm
    rcases List.mem_cons.1 hm with rfl | hm
    · exact ⟨event, rfl⟩
    · exact hx x hm
  -- In an open graph the group gets a handle first, under a number that is not known yet.
  have hopened : Ledger (e.context.opened g) heard e.host.mailbox.messages e.host.workers := by
    have hwith : Ledger (e.context.opened g) heard (e.host.mailbox.messages ++ [])
        e.host.workers :=
      hledger.withThread (t := e.context.handleFor g) hc.toTidy rfl rfl rfl rfl (if_neg nofun).symm
    rwa [List.append_nil] at hwith
  -- Telling the groups what is declared changes nothing that the ledger looks at.
  have htold : Ledger (e.context.opened g).told heard e.host.mailbox.messages e.host.workers := by
    refine hopened.map (fun t => ?_) rfl rfl
    obtain ⟨group, he, -⟩ := Thread.inform_getD (e.context.opened g).link.command.topology
      (e.context.opened g).link.app.uri t
    rw [he]
    exact ⟨rfl, rfl, rfl⟩
  have hr := e.context.receives g
  generalize e.context.groupCreated g = r at hr ⊢
  cases hr with
  | late => exact .inl (h.carryOut_of_logs (hlog (by simp)) hledger hpeace)
  | closing hp =>
    have hwait : (e.context.handleFor g).Waiting := Context.waiting_handleFor g
    have hclose := hwait.close
    refine .inl (h.carryOut_of_mild (fun x hx => ?_) ?_ fun ho => absurd hp ho.1)
    · obtain rfl := List.mem_singleton.1 hx
      exact ⟨trivial, rfl⟩
    · refine hledger.withThread (t := (e.context.handleFor g).close.1) hc.toTidy ?_ ?_ rfl rfl ?_
      · exact Thread.close_fst_id _
      · rw [hclose]
        exact hwait.wired
      · rw [hclose]
        rfl
  | early ho => exact .inl (h.carryOut_of_logs (hlog (by simp)) hopened hpeace)
  | twice ho => exact .inl (h.carryOut_of_logs (hlog (hlog (by simp))) hopened hpeace)
  | ready ho hl ht hs =>
    have hphase := (hc.waiting ho ht).1
    have hwaiting := ((hc.opened ho g).waiting ho ht).2
    have htoldWaiting : ∀ t ∈ (e.context.opened g).told.threads, t.Waiting := by
      intro t hm
      obtain ⟨u, hu, rfl⟩ := List.mem_map.1 hm
      exact (hwaiting u hu).inform _ _
    have htidy := (hc.opened ho g).toTidy.told hphase
    rcases Context.startThreads_of_waiting _ htoldWaiting with
      ⟨-, heq, heffects⟩ | ⟨-, before, heq, hpre, hbefore⟩
    · rw [heq]
      exact .inl (h.startThreads htidy htoldWaiting htold (hpeace ho) [e.context.arrival g]
        (hlog (by simp)) heffects)
    · exact .inr (h.startThreads_panic htidy htoldWaiting htold [e.context.arrival g]
        (hlog (by simp)) heq hpre hbefore)
  | strange ho hl ht hs =>
    have hphase := (hc.waiting ho ht).1
    exact .inl (h.close ((hc.opened ho g).toTidy.told hphase) ho htold
      [e.context.arrival g, .log _] (hlog (hlog (by simp))))

/-- The report of a listed thread takes it off the list; whatever else is done is mild.

**Proof sketch.** By cases on the phase, and on whether this is the last report. In an open graph
the handle is taken off the list, and in one that closes the report is counted besides; with the
last one the shutdown is concluded. -/
lemma threadClosed_shape {c : Context} (hc : c.Sound) {t : Thread}
    (hth : c.handle? t.id = some t) :
    ∃ c' extra, c.handle (.threadClosed t.id) = (c', Context.releasing t ++ extra) ∧
      c'.threads = (c.release t.id).threads ∧ c'.nextThread = c.nextThread ∧
      (c'.IsOpen → c.IsOpen) ∧
      ∀ x ∈ extra, x.IsMild ∧ x.posted? = none ∧ x.disturbs = false := by
  have hlog (event : LogEvent) : ∀ x ∈ [Effect.log event],
      x.IsMild ∧ x.posted? = none ∧ x.disturbs = false := by
    intro x hx
    obtain rfl := List.mem_singleton.1 hx
    exact ⟨⟨trivial, rfl⟩, rfl, rfl⟩
  rw [hc.threadClosed_eq hth]
  by_cases hp : c.phase = .closing
  · rw [if_pos hp]
    by_cases hlast : c.closed + 1 = c.total
    · rw [if_pos hlast]
      exact ⟨_, _, rfl, rfl, rfl, fun ho => absurd rfl ho.2, Context.concluded_mild _⟩
    · rw [if_neg hlast]
      exact ⟨_, _, rfl, rfl, rfl, fun ho => absurd hp ho.1, hlog _⟩
  · rw [if_neg hp]
    exact ⟨_, _, rfl, rfl, rfl, id, hlog _⟩

/-- No thread is started when one has reported. -/
lemma launches_threadClosed (c : Context) (id : ThreadId) :
    (c.handle (.threadClosed id)).2.filterMap Effect.launch? = [] := by
  refine List.filterMap_eq_nil_iff.2 fun x hx => ?_
  rcases c.threadClosed_effects id x hx with ⟨group, rfl⟩ | rfl | ⟨event, rfl⟩ | rfl
  · rfl
  · rfl
  · rfl
  · rfl

/-- An engine has as much to do as before when it has taken an inbox away. -/
lemma Busy.hangUpAt (h : e.Busy) {place : Nat} {w : Worker}
    (hw : e.host.workers[place]? = some w) :
    ({ e with host := { e.host with
      workers := e.host.workers.set place { w with hungUp := true } } } : Engine).Busy := by
  refine ⟨fun v hv => ?_, ?_, h.listening⟩
  · rcases List.mem_or_eq_of_mem_set hv with hv | rfl
    · exact h.workers v hv
    · exact (h.workers w (List.mem_of_getElem? hw)).hangUp true
  · have hids : (e.host.workers.set place { w with hungUp := true }).map (·.id) =
        e.host.workers.map (·.id) := map_key_set hw rfl
    show ((e.host.workers.set place { w with hungUp := true }).map (·.id)).Nodup
    rw [hids]
    exact h.idsNodup

/-- Waiting for a thread that has ended takes its inbox away, and does nothing else. -/
lemma Busy.reap_of_ended (h : e.Busy) {w : Worker} (hw : w ∈ e.host.workers)
    (hended : w.stage = .ended) (group : String) :
    ∃ place, e.host.workers[place]? = some w ∧
      e.host.reap w.id group =
        { e.host with workers := e.host.workers.set place { w with hungUp := true } } := by
  have hgone : ({ w with hungUp := true } : Worker).isGone = true := by
    simp [Worker.isGone, hended]
  have hstill := ((h.workers w hw).hangUp true).step?_of_gone hgone e.host.mailbox
  exact e.host.reap_of_still h.idsNodup hw hstill (by rw [hended]; simp) group

/-- A listed thread that has reported has ended, so that waiting for it takes its inbox away, and
does nothing else.

**Proof sketch.** While the report waits in the mailbox, the ledger says that the worker has ended:
otherwise no report of it would be due. A worker that has ended makes no step, so that nothing
happens while it is waited for. -/
lemma Busy.reap_of_reported (h : e.Busy) {c : Context} {t : Thread} {waiting : List EngineMsg}
    (hledger : Ledger c heard (.threadClosed t.id :: waiting) e.host.workers)
    (hth : c.handle? t.id = some t) (hwired : t.wired = true) :
    ∃ place w, e.host.workers[place]? = some w ∧ w.id = t.id ∧
      e.host.reap t.id t.groupName =
        { e.host with workers := e.host.workers.set place { w with hungUp := true } } := by
  have hacc := hledger t.id
  rw [hth, reportsOf_cons, reportsOf_threadClosed, if_pos rfl] at hacc
  obtain ⟨w, hwk, -, -, hwait⟩ := hacc.of_wired hwired
  have hended : w.stage = .ended := by
    by_contra hne
    rw [if_neg hne] at hwait
    omega
  have hwid : w.id = t.id := key_of_atKey? hwk
  obtain ⟨place, hplace, hreap⟩ := h.reap_of_ended (mem_of_atKey? hwk) hended t.groupName
  refine ⟨place, w, hplace, hwid, ?_⟩
  rw [← hwid]
  exact hreap

/-- **What the report of a listed thread does**: its worker, if there is one, loses its inbox, a
line is logged, and whatever else is done is mild and posts nothing.

**Proof sketch.** The ledger shows that the thread is listed. If its handle cannot write to it there
is nothing to wait for; otherwise its worker has ended and only loses its inbox. The rest of the
decision is mild. -/
lemma Busy.carryOut_threadClosed (h : e.Busy) (hc : e.context.Sound) {id : ThreadId}
    (hledger : Ledger e.context heard (.threadClosed id :: e.host.mailbox.messages)
      e.host.workers) :
    ∃ c' host event extra,
      e.carryOut (e.context.handle (.threadClosed id)) =
        (Effect.log event :: extra).foldl perform { e with context := c', host } ∧
      (∀ x ∈ extra, x ∈ (e.context.handle (.threadClosed id)).2 ∧ x.IsMild ∧ x.posted? = none) ∧
      (host = e.host ∨ ∃ place w, e.host.workers[place]? = some w ∧
        host = { e.host with workers := e.host.workers.set place { w with hungUp := true } }) := by
  obtain ⟨t, hth⟩ := hledger.listed
  obtain rfl : t.id = id := key_of_atKey? hth
  obtain ⟨c', extra, heq, -, -, -, hextra⟩ := threadClosed_shape hc hth
  have hmild : ∀ x ∈ extra,
      x ∈ (e.context.handle (.threadClosed t.id)).2 ∧ x.IsMild ∧ x.posted? = none := by
    intro x hx
    rw [heq]
    exact ⟨List.mem_append_right _ hx, (hextra x hx).1, (hextra x hx).2.1⟩
  rw [heq] at hmild ⊢
  cases hwired : t.wired with
  | false =>
    refine ⟨c', e.host, .threadJoined t.id t.groupName, extra, ?_, hmild, .inl rfl⟩
    rw [Context.releasing_of_unwired hwired]
    rfl
  | true =>
    obtain ⟨place, w, hplace, -, hreap⟩ := h.reap_of_reported hledger hth hwired
    refine ⟨c', _, .threadJoined t.id t.groupName, extra, ?_, hmild, .inr ⟨place, w, hplace, rfl⟩⟩
    rw [Context.releasing_of_wired hwired, ← hreap]
    rfl

/-- The report of a thread.

**Proof sketch.** By the ledger the thread is listed. If it was never started, its handle is taken
off the list. Otherwise it has ended, so that waiting for it takes its inbox away and does nothing
else. -/
lemma Busy.threadClosed (h : e.Busy) (hc : e.context.Sound) {id : ThreadId}
    (hledger : Ledger e.context heard (.threadClosed id :: e.host.mailbox.messages) e.host.workers)
    (hpeace : e.context.IsOpen → AtPeace e.host.workers) :
    (e.carryOut (e.context.handle (.threadClosed id))).Tracks (heard ++ [.threadClosed id]) ∧
      (e.carryOut (e.context.handle (.threadClosed id))).host.mailbox.listening = true := by
  obtain ⟨t, hth⟩ := hledger.listed
  have hid : t.id = id := key_of_atKey? hth
  subst hid
  obtain ⟨c', extra, heq, hthreads, hnext, hopen, hextra⟩ := threadClosed_shape hc hth
  have hposted : extra.filterMap Effect.posted? = [] :=
    List.filterMap_eq_nil_iff.2 fun x hx => (hextra x hx).2.1
  -- What is done after the thread has been waited for, by an engine in which it has been.
  have hrest (e' : Engine) (h' : e'.Busy) (event : LogEvent)
      (hl : Ledger c' (heard ++ [.threadClosed t.id]) e'.host.mailbox.messages e'.host.workers)
      (hp : c'.IsOpen → AtPeace e'.host.workers) :
      (e'.carryOut (c', .log event :: extra)).Tracks (heard ++ [.threadClosed t.id]) ∧
        (e'.carryOut (c', .log event :: extra)).host.mailbox.listening = true := by
    refine h'.carryOut_of_mild (fun x hx => ?_) ?_ fun ho => ⟨fun x hx => ?_, hp ho⟩
    · rcases List.mem_cons.1 hx with rfl | hx
      · exact ⟨trivial, rfl⟩
      · exact (hextra x hx).1
    · show Ledger c' _ (e'.host.mailbox.messages ++ extra.filterMap Effect.posted?) _
      rw [hposted, List.append_nil]
      exact hl
    · rcases List.mem_cons.1 hx with rfl | hx
      · rfl
      · exact (hextra x hx).2.2
  rw [heq]
  cases hwired : t.wired with
  | false =>
    rw [Context.releasing_of_unwired hwired]
    have hunlisted := hledger.unlist hc.toTidy hth hwired hthreads hnext
    exact hrest e h _ hunlisted fun ho => hpeace (hopen ho)
  | true =>
    obtain ⟨place, w, hplace, hwid, hjoined⟩ := h.reap_of_reported hledger hth hwired
    have hstep : e.carryOut (c', Context.releasing t ++ extra) =
        ({ e with host := e.host.reap t.id t.groupName } : Engine).carryOut
          (c', .log (.threadJoined t.id t.groupName) :: extra) := by
      rw [Context.releasing_of_wired hwired]
      rfl
    rw [hstep, hjoined]
    refine hrest _ (h.hangUpAt hplace) _ ?_ fun ho => (hpeace (hopen ho)).hangUpAt place w
    exact hledger.unlist_joined hc.toTidy hth h.idsNodup hplace hwid hthreads hnext

/-- An engine that has a message to take listens. -/
lemma Sound.listening_of_take? (h : e.Sound heard) {m : EngineMsg} {mailbox : Mailbox EngineMsg}
    (hm : e.host.mailbox.take? = some (m, mailbox)) : e.host.mailbox.listening = true := by
  by_contra hl
  have hempty := h.emptied (by simpa using hl)
  rw [(Mailbox.take?_eq_some hm).1] at hempty
  cases hempty

/-- An engine that handles a message does not go down without a panic. -/
lemma handle_not_isDown (hl : e.host.mailbox.listening = true) {m : EngineMsg}
    (hx : .panic ∉ (e.context.handle m).2) : ¬ (e.handle m).IsDown := by
  rintro ⟨hdeaf, hopen⟩
  have hkept : (e.carryOut (e.context.handle m)).host.mailbox.listening = true :=
    (foldl_perform_listening { e with context := (e.context.handle m).1 } hx).trans hl
  rw [handle, retire_context] at hopen
  rw [handle, retire_mailbox, if_neg, hkept] at hdeaf
  · cases hdeaf
  · rintro ⟨hclosed, -⟩
    exact hopen (by simpa [Context.isClosed] using hclosed)

/-- An engine that panics goes down. -/
lemma handle_isDown {m : EngineMsg} {before : List Effect}
    (hx : (e.context.handle m).2 = before ++ [.panic])
    (hopen : (e.context.handle m).1.phase ≠ .closed) : (e.handle m).IsDown := by
  refine ⟨?_, by rw [handle_context]; exact hopen⟩
  have hgone : (e.carryOut (e.context.handle m)).host.mailbox.listening = false := by
    show ((e.context.handle m).2.foldl perform _).host.mailbox.listening = false
    rw [hx, foldl_perform_panic]
    rfl
  rw [handle, retire_mailbox, if_neg]
  · exact hgone
  · rintro ⟨-, hl⟩
    rw [hgone] at hl
    cases hl

/-- **Taking a message keeps an engine in order**, also if it goes down by that.

**Proof sketch.** By cases on the message. The ledger with this message at the front of the mailbox
becomes the one with it among those that have been taken, and each case knows how its decision
changes the accounts. Last, the engine may stop listening, or it has gone down. -/
theorem Sound.handle (h : e.Sound heard) {m : EngineMsg}
    {mailbox : Mailbox EngineMsg} (hm : e.host.mailbox.take? = some (m, mailbox)) :
    (({ e with host := { e.host with mailbox } } : Engine).handle m).Sound (heard ++ [m]) := by
  have hlistening := h.listening_of_take? hm
  have hsplit : e.host.mailbox.messages = m :: mailbox.messages ∧ mailbox.listening = true := by
    obtain ⟨hmessages, hsame⟩ := Mailbox.take?_eq_some hm
    exact ⟨hmessages, hsame.trans hlistening⟩
  have hledger := h.ledger (not_isDown_of_listening hlistening)
  rw [hsplit.1] at hledger
  -- The engine that has taken the message and has not done anything about it yet.
  generalize he₁ : ({ e with host := { e.host with mailbox } } : Engine) = e₁
  have hsteady : e₁.Steady := by
    rw [← he₁]
    exact ⟨h.steady.context, h.steady.announced⟩
  have hbusy : e₁.Busy := by
    rw [← he₁]
    exact ⟨h.workers, h.idsNodup, hsplit.2⟩
  have hpeace : e₁.context.IsOpen → AtPeace e₁.host.workers := by
    rw [← he₁]
    exact h.peace
  have hledger₁ : Ledger e₁.context heard (m :: e₁.host.mailbox.messages) e₁.host.workers := by
    rw [← he₁]
    exact hledger
  have hdone : ((e₁.carryOut (e₁.context.handle m)).Tracks (heard ++ [m]) ∧
        (e₁.carryOut (e₁.context.handle m)).host.mailbox.listening = true) ∨
      (e₁.carryOut (e₁.context.handle m)).Fallen := by
    cases m with
    | created result =>
      have hheard := hledger₁.hear rfl
      cases result with
      | ok g => exact hbusy.groupCreated hsteady.context hheard hpeace g
      | error err =>
        refine .inl (hbusy.requestClose hsteady.context hheard hpeace [.log _] ?_)
        intro x hx
        obtain rfl := List.mem_singleton.1 hx
        exact ⟨_, rfl⟩
    | threadClosed id => exact .inl (hbusy.threadClosed hsteady.context hledger₁ hpeace)
    | route msg =>
      have hposted : (e₁.context.dispatch msg).filterMap Effect.posted? = [] :=
        List.filterMap_eq_nil_iff.2 fun x hx => (e₁.context.dispatch_mild msg x hx).2.2.1
      refine .inl (hbusy.carryOut_of_mild (r := (e₁.context, e₁.context.dispatch msg))
        (fun x hx => (e₁.context.dispatch_mild msg x hx).1) ?_
        fun ho => ⟨fun x hx => ?_, hpeace ho⟩)
      · rw [hposted, List.append_nil]
        exact hledger₁.hear rfl
      · exact (e₁.context.dispatch_mild msg x hx).2.2.2
    | close =>
      exact .inl (hbusy.requestClose hsteady.context (hledger₁.hear rfl) hpeace [] (by simp))
  rcases hdone with ⟨htracks, hlistening⟩ | hfallen
  · exact htracks.retire (hsteady.carryOut m) hlistening
  · exact hfallen.retire (hsteady.carryOut m)

end Engine

end ExtensionGraph
