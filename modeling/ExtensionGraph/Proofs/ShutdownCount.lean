import ExtensionGraph.Proofs.ContextEffects

/-!
# Counting the threads that have ended

A graph that closes has noted how many of its threads have to report and counts the reports. Groups
may still arrive, and threads may report twice or never have existed. The count is exact in spite
of that: what has been counted and what is still listed always make up the total, and the graph is
closed for good at the moment at which nothing is listed any more, once.

## Main definitions

* `ExtensionGraph.Engine.handleAll` — an engine that handles any messages, one after the other.
* `ExtensionGraph.EngineMsg.AsksForEnd` — messages that make an engine close its graph.

## Main results

* `ExtensionGraph.Context.Sound.closed_handle_iff` — which messages close a graph for good.
* `ExtensionGraph.Engine.shutdown_count_exact` — the count in any run of an engine.
-/

namespace ExtensionGraph

/-- The message makes an engine close its graph: it asks for that, or a group that the graph needs
could not be built. -/
def EngineMsg.AsksForEnd : EngineMsg → Prop
  | .close => True
  | .created (.error _) => True
  | _ => False

instance (m : EngineMsg) : Decidable m.AsksForEnd :=
  match m with
  | .close => .isTrue trivial
  | .created (.error _) => .isTrue trivial
  | .created (.ok _) => .isFalse id
  | .threadClosed _ => .isFalse id
  | .route _ => .isFalse id

namespace Context

variable {c : Context}

/-- Closing right after a group has come leaves a closing graph, since there is a handle. -/
lemma told_close_phase (ho : c.IsOpen) (g : Group) :
    (c.opened g).told.close.1.phase = .closing := by
  have hn : (c.opened g).told.threads ≠ [] := by
    simp [Context.told, Context.opened, Context.withThread]
  rw [close_phase _ (by exact ho), if_neg hn]

/-- Closing a graph closes it for good at once if it was open and has no threads. -/
lemma close_closed_iff (hc : c.phase ≠ .closed) :
    c.close.1.phase = .closed ↔ c.IsOpen ∧ c.threads = [] := by
  by_cases ho : c.IsOpen
  · rw [c.close_phase ho]
    by_cases hn : c.threads = []
    · simp [ho, hn]
    · simp [ho, hn]
  · rw [c.close_eq_self ho]
    simp [ho, hc]

/-- A group that has been built never closes a graph for good. -/
lemma groupCreated_not_closed (hc : c.phase ≠ .closed) (g : Group) :
    (c.groupCreated g).1.phase ≠ .closed := by
  have hr := c.receives g
  generalize c.groupCreated g = r at hr ⊢
  cases hr with
  | late hl => exact absurd hl hc
  | closing hp => exact hc
  | early ho => exact hc
  | twice ho => exact hc
  | ready ho => simp [startThreads]
  | strange ho => simp [told_close_phase ho g]

/-- The report that completes the count is the one of the only thread that is listed. -/
lemma Sound.last_iff (h : c.Sound) (hp : c.phase = .closing) {t : Thread} (ht : t ∈ c.threads) :
    c.closed + 1 = c.total ↔ c.threads = [t] := by
  obtain ⟨hsum, -⟩ := h.counted hp
  constructor
  · intro hl
    obtain ⟨u, hu⟩ := List.length_eq_one_iff.1 (show c.threads.length = 1 by omega)
    rw [hu, List.mem_singleton] at ht
    rw [hu, ht]
  · intro hl
    rw [hl, List.length_singleton] at hsum
    exact hsum

/-- A report closes a graph for good if it is the last one that the graph waits for.

**Proof sketch.** A report of a listed thread counts during a shutdown only, and the count is
complete exactly when the thread is the only one on the list. -/
lemma Sound.threadClosed_closed_iff (h : c.Sound) (hc : c.phase ≠ .closed) (id : ThreadId) :
    (c.handle (.threadClosed id)).1.phase = .closed ↔
      ∃ t, id = t.id ∧ c.phase = .closing ∧ c.threads = [t] := by
  cases hf : c.handle? id with
  | none =>
    rw [c.threadClosed_eq_of_unlisted hf]
    have hnone := atKey?_eq_none_iff.1 hf
    refine iff_of_false hc ?_
    rintro ⟨t, rfl, -, ht⟩
    exact absurd rfl (hnone t (by simp [ht]))
  | some t =>
    obtain ⟨ht, rfl⟩ := h.handle?_eq_some_iff.1 hf
    rw [h.threadClosed_eq hf]
    by_cases hp : c.phase = .closing
    · rw [if_pos hp]
      by_cases hl : c.closed + 1 = c.total
      · rw [if_pos hl]
        exact iff_of_true rfl ⟨t, rfl, hp, (h.last_iff hp ht).1 hl⟩
      · rw [if_neg hl]
        refine iff_of_false hc ?_
        rintro ⟨u, -, -, hu⟩
        have hut : t = u := by simpa [hu] using ht
        exact hl ((h.last_iff hp ht).2 (hut ▸ hu))
    · rw [if_neg hp]
      refine iff_of_false hc ?_
      rintro ⟨u, -, hp', -⟩
      exact hp hp'

/-- What is told to an open or closing graph closes it for good in two cases only: it is asked to
close and has no threads, or it closes already and its last thread has reported.

**Proof sketch.** By the message. A failed group and a close ask for the end, which closes for good
where there are no threads; a report closes where it is the last; a group that comes has a handle,
so that it cannot. -/
lemma Sound.closed_handle_iff (h : c.Sound) (hc : c.phase ≠ .closed) (m : EngineMsg) :
    (c.handle m).1.phase = .closed ↔
      (c.IsOpen ∧ c.threads = [] ∧ m.AsksForEnd) ∨
        ∃ t, m = .threadClosed t.id ∧ c.phase = .closing ∧ c.threads = [t] := by
  cases m with
  | created result =>
    cases result with
    | ok g =>
      have hphase := groupCreated_not_closed hc g
      simp [Context.handle, hphase, EngineMsg.AsksForEnd]
    | error err =>
      show c.close.1.phase = .closed ↔ _
      rw [close_closed_iff hc]
      simp [EngineMsg.AsksForEnd]
  | threadClosed id =>
    rw [h.threadClosed_closed_iff hc]
    simp [EngineMsg.AsksForEnd]
  | route m =>
    simp [Context.handle, hc, EngineMsg.AsksForEnd]
  | close =>
    show c.close.1.phase = .closed ↔ _
    rw [close_closed_iff hc]
    simp [EngineMsg.AsksForEnd]

/-- Nothing changes a graph that is closed. -/
lemma Sound.handle_of_closed (h : c.Sound) (hc : c.phase = .closed) (m : EngineMsg) :
    (c.handle m).1 = c := by
  have ho : ¬ c.IsOpen := fun ho => ho.2 hc
  cases m with
  | created result =>
    cases result with
    | ok g => simp [Context.handle, Context.groupCreated, hc]
    | error err => simp [Context.handle, c.close_eq_self ho]
  | threadClosed id =>
    have hf : c.handle? id = none := by
      rw [handle?, h.threads_eq_nil hc, atKey?_nil]
    rw [c.threadClosed_eq_of_unlisted hf]
  | route m => rfl
  | close => simp [Context.handle, c.close_eq_self ho]

/-! ## Numbers are not used again -/

/-- The thread with a number has been taken off the list. -/
def Left (c : Context) (id : ThreadId) : Prop :=
  id.number < c.nextThread ∧ id ∉ c.threads.map (·.id)

/-- A thread that has left does not come back with new threads. -/
lemma left_of_ids {c c' : Context} {id : ThreadId} (h : c.Left id)
    (hn : c.nextThread ≤ c'.nextThread)
    (hids : ∀ i ∈ c'.threads.map (·.id), i ∈ c.threads.map (·.id) ∨ i = ⟨c.nextThread⟩) :
    c'.Left id := by
  refine ⟨Nat.lt_of_lt_of_le h.1 hn, fun hm => ?_⟩
  rcases hids id hm with hm | rfl
  · exact h.2 hm
  · exact Nat.lt_irrefl _ h.1

/-- A group that has come gets the next number. -/
lemma ids_opened (g : Group) :
    (c.opened g).threads.map (·.id) = c.threads.map (·.id) ++ [⟨c.nextThread⟩] :=
  List.map_append

/-- A thread that has left never comes back.

**Proof sketch.** By the message. New handles get the next number, which is larger than that of any
thread that has left; everything else keeps the list or takes from it. -/
lemma Left.handle {id : ThreadId} (h : c.Left id) (m : EngineMsg) : (c.handle m).1.Left id := by
  have hclose : c.close.1.Left id :=
    left_of_ids h (Nat.le_of_eq c.close_nextThread.symm) fun i hi => .inl (by rwa [close_ids] at hi)
  cases m with
  | created result =>
    cases result with
    | ok g =>
      have hopened : (c.opened g).Left id := by
        refine left_of_ids h (Nat.le_succ _) fun i hi => ?_
        rw [ids_opened] at hi
        simpa using hi
      show (c.groupCreated g).1.Left id
      have hr := c.receives g
      generalize c.groupCreated g = r at hr ⊢
      cases hr with
      | late => exact h
      | closing hp =>
        have hid : (c.handleFor g).id = ⟨c.nextThread⟩ := rfl
        refine left_of_ids h (Nat.le_succ _) fun i hi => ?_
        simpa [withThread, hid] using hi
      | early => exact hopened
      | twice => exact hopened
      | ready =>
        refine left_of_ids hopened (Nat.le_refl _) fun i hi => .inl ?_
        rwa [startThreads_ids, told_ids] at hi
      | strange =>
        have hnext : (c.opened g).nextThread = (c.opened g).told.close.1.nextThread :=
          (c.opened g).told.close_nextThread.symm
        refine left_of_ids hopened (Nat.le_of_eq hnext) fun i hi => .inl ?_
        rwa [close_ids, told_ids] at hi
    | error err => exact hclose
  | threadClosed i =>
    cases hf : c.handle? i with
    | none =>
      rw [c.threadClosed_eq_of_unlisted hf]
      exact h
    | some t =>
      have hid : t.id = i := key_of_atKey? hf
      subst hid
      -- Taking a handle off the list brings nobody back.
      have hsub : (c.release t.id).Left id :=
        left_of_ids h (Nat.le_refl _) fun i hi =>
          .inl ((List.Sublist.map _ List.eraseP_sublist).subset hi)
      rw [c.threadClosed_eq_of_listed hf]
      split
      · split
        · refine ⟨?_, ?_⟩
          · rw [conclude_nextThread]
            exact hsub.1
          · rw [conclude_threads]
            exact hsub.2
        · exact hsub
      · exact hsub
  | route m => exact h
  | close => exact hclose

/-- A thread that has reported has left. -/
lemma Sound.left_threadClosed (h : c.Sound) {id : ThreadId}
    (hid : id ∈ c.threads.map (·.id)) : (c.handle (.threadClosed id)).1.Left id := by
  obtain ⟨t, ht, rfl⟩ := List.mem_map.1 hid
  have hleft : (c.release t.id).Left t.id := by
    refine ⟨h.idsBelow t ht, fun hm => ?_⟩
    obtain ⟨u, hu, hut⟩ := List.mem_map.1 hm
    exact (h.mem_release.1 hu).2 hut
  rw [h.threadClosed_eq (h.handle?_eq_some_iff.2 ⟨ht, rfl⟩)]
  split
  · split
    · exact hleft
    · exact hleft
  · exact hleft

end Context

namespace Engine

/-- Handles messages one after the other, whatever they are. -/
def handleAll (e : Engine) (ms : List EngineMsg) : Engine := ms.foldl handle e

/-- An engine whose context is in order and whose end has been announced if it has come. -/
structure Steady (e : Engine) : Prop where
  context : e.context.Sound
  announced : e.host.announced = e.context.ended

variable {e : Engine}

/-- Retiring keeps the announcements in step. -/
lemma Steady.retire (h : e.Steady) : e.retire.Steady := by
  constructor
  · rw [retire_context]
    exact h.context
  · rw [retire_announced, retire_context]
    exact h.announced

/-- What a context decides on a message keeps the engine steady. -/
lemma Steady.carryOut (h : e.Steady) (m : EngineMsg) :
    (e.carryOut (e.context.handle m)).Steady := by
  constructor
  · rw [carryOut_context]
    exact h.context.handle m
  · rw [carryOut_announced, carryOut_context, h.announced]
    exact h.context.announcements_handle m

/-- Handling a message keeps the announcements in step. -/
lemma Steady.handle (h : e.Steady) (m : EngineMsg) : (e.handle m).Steady := (h.carryOut m).retire

/-- Handling messages keeps the announcements in step. -/
lemma Steady.handleAll (h : e.Steady) (ms : List EngineMsg) : (e.handleAll ms).Steady := by
  induction ms generalizing e with
  | nil => exact h
  | cons m ms ih => exact ih (h.handle m)

/-- An engine before its graph is started. -/
def idle (link : Link) : Engine := ⟨.create link true, .create⟩

/-- An engine that has asked for the groups of its graph. -/
def begun (link : Link) : Engine :=
  (idle link).carryOut ((Context.create link true).start.1, (Context.create link true).start.2.1)

/-- A start that fails closes the engine, and both retire it. -/
lemma start_eq (link : Link) :
    start link =
      match (Context.create link true).start.2.2 with
      | .ok () => ((begun link).retire, .ok ())
      | .error err => (((begun link).carryOut (begun link).context.close).retire, .error err) :=
  rfl

/-- An engine that has begun has decided on its start. -/
lemma begun_context (link : Link) :
    (begun link).context = (Context.create link true).start.1 :=
  carryOut_context _ _

/-- No thread is started and nothing is posted while the groups are asked for. -/
lemma begun_host (link : Link) :
    (begun link).host.workers = [] ∧ (begun link).host.mailbox = .empty := by
  obtain ⟨-, -, hmild⟩ := Context.start_mild link
  have hl := Effect.launches_of_mild fun x hx => (hmild x hx).1
  have hp : (Context.create link true).start.2.1.filterMap Effect.posted? = [] :=
    List.filterMap_eq_nil_iff.2 fun x hx => (hmild x hx).2.2
  obtain ⟨hmail, hquiet, -⟩ := foldl_perform_of_tame
    { idle link with context := (Context.create link true).start.1 }
    (fun x hx => (hmild x hx).1.1) (by rw [hl]; simp [idle, Host.create])
  rw [hp] at hmail
  rw [hl] at hquiet
  exact ⟨List.map_eq_nil_iff.1 hquiet, hmail⟩

/-- An engine that has begun is steady, and its graph is open. -/
lemma begun_steady (link : Link) : (begun link).Steady ∧ (begun link).context.IsOpen := by
  obtain ⟨hopen, -, hmild⟩ := Context.start_mild link
  have hz : (Context.create link true).start.2.1.countP Effect.announces = 0 := by
    rw [List.countP_eq_zero]
    intro x hx
    simp [(hmild x hx).2.1]
  refine ⟨⟨?_, ?_⟩, ?_⟩
  · rw [begun_context]
    exact Context.sound_start link
  · rw [begun_context, begun, carryOut_announced, hz, Context.ended_of_open hopen.2]
    rfl
  · rw [begun_context]
    exact hopen

/-- After a start the announcements are in step. -/
lemma start_steady (link : Link) : (start link).1.Steady := by
  obtain ⟨hs, -⟩ := begun_steady link
  rw [start_eq]
  split
  · exact hs.retire
  · exact (hs.carryOut .close).retire

/-- A graph whose start has failed is closed at once: it has no thread yet. -/
lemma start_closed_iff (link : Link) :
    (start link).1.context.phase = .closed ↔ ∃ err, (start link).2 = .error err := by
  have ho := (begun_steady link).2
  rw [start_eq]
  split
  · rw [retire_context]
    simp [ho.2]
  · next err _ =>
    have hn : (begun link).context.threads = [] := by
      rw [begun_context]
      exact (Context.start_mild link).2.1
    rw [retire_context, carryOut_context, (begun link).context.close_phase ho, if_pos hn]
    simp

/-- What the count of a shutdown promises of an engine. -/
structure CountsExactly (e : Engine) : Prop where
  /-- While the graph closes, the threads that have been counted and those that are listed make up
  the total, and there is one to wait for. -/
  balance : e.context.phase = .closing →
    e.context.closed + e.context.threads.length = e.context.total ∧ e.context.threads ≠ []
  /-- The end has been announced once if the graph is closed, and not at all otherwise. -/
  announced : e.host.announced = if e.context.phase = .closed then 1 else 0
  /-- Whoever asks whether the graph is closed is told the truth. -/
  envClosed : e.context.envClosed = true ↔ e.context.phase = .closed
  /-- The graph is closed for good by a request to close while no thread is listed, or by the report
  of the only listed thread while it closes. -/
  closes_iff : ∀ m, e.context.phase ≠ .closed →
    ((e.handle m).context.phase = .closed ↔
      (e.context.IsOpen ∧ e.context.threads = [] ∧ m.AsksForEnd) ∨
        ∃ t, m = .threadClosed t.id ∧ e.context.phase = .closing ∧ e.context.threads = [t])
  /-- Nothing changes a closed graph. -/
  final : ∀ m, e.context.phase = .closed →
    (e.handle m).context = e.context ∧ (e.handle m).host.announced = e.host.announced
  /-- The report of a thread that is not listed changes nothing. -/
  unlisted : ∀ id, id ∉ e.context.threads.map (·.id) →
    (e.handle (.threadClosed id)).context = e.context ∧
      (e.handle (.threadClosed id)).host.announced = e.host.announced
  /-- Neither does a request to close a graph that closes or has closed. -/
  again : ∀ m, ¬ e.context.IsOpen → m.AsksForEnd →
    (e.handle m).context = e.context ∧ (e.handle m).host.announced = e.host.announced
  /-- The report of a listed thread counts one. -/
  report : ∀ id, e.context.phase = .closing → id ∈ e.context.threads.map (·.id) →
    (e.handle (.threadClosed id)).context.closed = e.context.closed + 1 ∧
      (e.handle (.threadClosed id)).context.total = e.context.total ∧
      (e.handle (.threadClosed id)).context.threads.length + 1 = e.context.threads.length
  /-- A group that arrives while the graph closes counts one more to wait for. -/
  late : ∀ g, e.context.phase = .closing →
    (e.handle (.created (.ok g))).context.phase = .closing ∧
      (e.handle (.created (.ok g))).context.closed = e.context.closed ∧
      (e.handle (.created (.ok g))).context.total = e.context.total + 1 ∧
      (e.handle (.created (.ok g))).context.threads.length = e.context.threads.length + 1

/-- A message that leaves the context of a steady engine alone announces nothing. -/
lemma Steady.announced_of_unchanged (h : e.Steady) {m : EngineMsg}
    (hc : (e.context.handle m).1 = e.context) :
    (e.handle m).context = e.context ∧ (e.handle m).host.announced = e.host.announced := by
  have hm := h.handle m
  have hctx : (e.handle m).context = e.context := (handle_context e m).trans hc
  refine ⟨hctx, ?_⟩
  rw [hm.announced, hctx, h.announced]

/-- An engine in step counts exactly.

**Proof sketch.** The invariant says how the counters and the list belong together. Each clause is
then about one message: it is unfolded for the kind of message that the clause is about, and it
changes nothing where it comes too late. -/
lemma Steady.countsExactly (h : e.Steady) : e.CountsExactly where
  balance := h.context.counted
  announced := by
    rw [h.announced]
    simp [Context.ended, Context.isClosed]
  envClosed := by
    rw [h.context.envClosed]
    simp [Context.isClosed]
  closes_iff m hc := by
    rw [handle_context]
    exact h.context.closed_handle_iff hc m
  final m hc := h.announced_of_unchanged (h.context.handle_of_closed hc m)
  unlisted id hid := by
    have hf : e.context.handle? id = none := by
      rw [Context.handle?, atKey?_eq_none_iff]
      intro t ht hti
      exact hid (List.mem_map.2 ⟨t, ht, hti⟩)
    refine h.announced_of_unchanged ?_
    rw [e.context.threadClosed_eq_of_unlisted hf]
  again m ho hm := by
    refine h.announced_of_unchanged ?_
    have hclose : e.context.close.1 = e.context := by rw [e.context.close_eq_self ho]
    cases m with
    | created result =>
      cases result with
      | ok g => exact hm.elim
      | error err => exact hclose
    | threadClosed id => exact hm.elim
    | route m => exact hm.elim
    | close => exact hclose
  report id hp hid := by
    obtain ⟨t, ht, rfl⟩ := List.mem_map.1 hid
    have hlen := Context.length_release ht
    have hf := h.context.handle?_eq_some_iff.2 ⟨ht, rfl⟩
    rw [handle_context, h.context.threadClosed_eq hf, if_pos hp]
    split
    · exact ⟨rfl, rfl, hlen⟩
    · exact ⟨rfl, rfl, hlen⟩
  late g hp := by
    rw [handle_context]
    show (e.context.groupCreated g).1.phase = .closing ∧
      (e.context.groupCreated g).1.closed = e.context.closed ∧
      (e.context.groupCreated g).1.total = e.context.total + 1 ∧
      (e.context.groupCreated g).1.threads.length = e.context.threads.length + 1
    have hr := e.context.receives g
    generalize e.context.groupCreated g = r at hr ⊢
    cases hr with
    | late hl => simp [hp] at hl
    | closing _ =>
      refine ⟨hp, rfl, rfl, ?_⟩
      simp [Context.withThread]
    | early ho => exact absurd hp ho.1
    | twice ho => exact absurd hp ho.1
    | ready ho => exact absurd hp ho.1
    | strange ho => exact absurd hp ho.1

/-- Messages are handled part by part. -/
lemma handleAll_append (e : Engine) (ms ms' : List EngineMsg) :
    e.handleAll (ms ++ ms') = (e.handleAll ms).handleAll ms' :=
  List.foldl_append

/-- A thread that has left never comes back in a whole run. -/
lemma left_handleAll {id : ThreadId} (h : e.context.Left id) (ms : List EngineMsg) :
    (e.handleAll ms).context.Left id := by
  induction ms generalizing e with
  | nil => exact h
  | cons m ms ih =>
    refine ih ?_
    rw [handle_context]
    exact h.handle m

/-- **The count of a shutdown is exact.** In any run of an engine, that is after its start and any
messages, the count keeps its promises; a failed start closes the graph for good, and a successful
one does not; and a thread that was listed when it reported is never listed again, so that it
cannot be counted twice.

**Proof sketch.** An engine is steady after its start, and every message keeps it so. A number that
has left the list was given before, and never comes back. -/
theorem shutdown_count_exact (link : Link) (ms : List EngineMsg) :
    ((start link).1.handleAll ms).CountsExactly ∧
    ((start link).1.context.phase = .closed ↔ ∃ err, (start link).2 = .error err) ∧
    ∀ before id after, ms = before ++ .threadClosed id :: after →
      id ∈ ((start link).1.handleAll before).context.threads.map (·.id) →
        id ∉ ((start link).1.handleAll ms).context.threads.map (·.id) := by
  have hs := start_steady link
  refine ⟨(hs.handleAll ms).countsExactly, start_closed_iff link, ?_⟩
  intro before id after hms hid
  subst hms
  have hbefore := (hs.handleAll before).context
  have hleft : (((start link).1.handleAll before).handle (.threadClosed id)).context.Left id := by
    rw [handle_context]
    exact hbefore.left_threadClosed hid
  rw [handleAll_append]
  exact (left_handleAll hleft after).2

end Engine

end ExtensionGraph
