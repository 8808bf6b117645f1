import Mathlib.Tactic.Common
import ExtensionGraph.Engine.Context
import ExtensionGraph.Proofs.Keyed

/-!
# What the steps of a context do

Each operation of a context is described once, case by case, as the new context together with
the effects that it decides on. Everything that is proved about runs of a graph goes back to
these descriptions and does not open the operations again.

## Main definitions

* `ExtensionGraph.Context.Starts` — what the start of a handle leads to, case by case.
* `ExtensionGraph.Context.IsOpen` — no shutdown has begun.
* `ExtensionGraph.Context.handle?` — the handle with a number.
* `ExtensionGraph.Context.withThread` — a context with one more thread.
* `ExtensionGraph.Context.Receives` — what a group that has been built leads to, case by case.

## Main results

* `ExtensionGraph.Effect.untilPanic_eq_self`, `ExtensionGraph.Effect.untilPanic_of_mem` — effects
  without a panic, and with one.
* `ExtensionGraph.Context.starts_startThread` — everything that the start of a handle can lead to.
* `ExtensionGraph.Context.close_eq_of_nonempty`, `ExtensionGraph.Context.close_eq_concluded` — the
  beginning of a shutdown.
* `ExtensionGraph.Context.threadClosed_eq_of_listed` — the report of a thread that is listed.
* `ExtensionGraph.Context.receives` — everything that a group that has been built can lead to.
-/

namespace ExtensionGraph

/-! ## Panics -/

namespace Effect

/-- Effects are carried out from the first one on. -/
lemma untilPanic_prefix (xs : List Effect) : untilPanic xs <+: xs := by
  induction xs with
  | nil => exact List.prefix_rfl
  | cons x xs ih =>
    cases x with
    | panic => exact List.singleton_append ▸ List.prefix_append [Effect.panic] xs
    | _ => exact (List.cons_prefix_cons).2 ⟨rfl, ih⟩

/-- **Without a panic among them, all effects are carried out.** -/
theorem untilPanic_eq_self {xs : List Effect} (h : .panic ∉ xs) : untilPanic xs = xs := by
  induction xs with
  | nil => rfl
  | cons x xs ih =>
    have hrest := ih fun hm => h (List.mem_cons_of_mem _ hm)
    cases x with
    | panic => exact absurd List.mem_cons_self h
    | _ => exact congrArg (List.cons _) hrest

/-- **With a panic among them, it is the last effect that is carried out.**

**Proof sketch.** By induction over the effects, up to the first panic. -/
theorem untilPanic_of_mem {xs : List Effect} (h : .panic ∈ xs) :
    ∃ before, untilPanic xs = before ++ [.panic] ∧ .panic ∉ before := by
  induction xs with
  | nil => exact absurd h List.not_mem_nil
  | cons x xs ih =>
    by_cases hx : x = .panic
    · subst hx
      exact ⟨[], rfl, List.not_mem_nil⟩
    · obtain ⟨before, heq, hno⟩ := ih ((List.mem_cons.1 h).resolve_left (Ne.symm hx))
      refine ⟨x :: before, ?_, ?_⟩
      · rw [List.cons_append, ← heq]
        cases x with
        | panic => exact absurd rfl hx
        | _ => rfl
      · intro hm
        exact (List.mem_cons.1 hm).elim (fun he => hx he.symm) hno

end Effect

namespace Context

variable (c : Context)

/-- The graph has not begun to close. -/
def IsOpen : Prop := c.phase ≠ .closing ∧ c.phase ≠ .closed

/-- The handle with a number. -/
def handle? (id : ThreadId) : Option Thread := atKey? Thread.id c.threads id

/-- The handle that a group gets in a context. -/
def handleFor (g : Group) : Thread := (Thread.create ⟨c.nextThread⟩).attach (c.adopt g)

/-- A context in which one more handle was made. -/
def withThread (t : Thread) : Context :=
  { c with nextThread := c.nextThread + 1, threads := c.threads ++ [t] }

/-- A group that is taken into a graph keeps its name. -/
@[simp] lemma adopt_name (g : Group) : (c.adopt g).name = g.name := by
  unfold adopt
  dsimp only
  split <;> rfl

/-- The handle of a group has the group's name. -/
@[simp] lemma handleFor_groupName (g : Group) : (c.handleFor g).groupName = g.name :=
  c.adopt_name g

/-! ## Coming up -/

/-- A graph whose app hosts none of its groups is started at once. -/
lemma start_eq_of_no_groups (hg : c.localGroups = []) (ht : c.topology = none) :
    c.start =
      (({ c with phase := .starting, topology := some c.link.command.topology } :
          Context).startThreads.1,
        .log (.noLocalGroups c.link.graph) ::
          ({ c with phase := .starting, topology := some c.link.command.topology } :
            Context).startThreads.2,
        .ok ()) := by
  have hi : ({ c with phase := .starting } : Context).localGroups = [] := hg
  unfold start
  dsimp only
  rw [hi]
  simp [install, ht]

/-- Otherwise its groups are asked for. -/
lemma start_eq_request (hg : c.localGroups ≠ []) :
    c.start =
      ({ c with phase := .starting }, (request c.link c.localGroups).1,
        (request c.link c.localGroups).2) := by
  have hi : ({ c with phase := .starting } : Context).localGroups = c.localGroups := rfl
  unfold start
  dsimp only
  rw [hi]
  simp [hg]

/-- Everything that the start of a handle can lead to. -/
inductive Starts (c : Context) (topology : Topology) (t : Thread) : Thread × List Effect → Prop
  /-- The handle cannot be started. -/
  | unfit (h : t.state = .attached → t.group = none) (event : LogEvent) :
      Starts c topology t (t, [.log event])
  /-- The group moves to its thread. -/
  | spawned {g : Group} (hs : t.state = .attached) (hg : t.group = some g)
      (hn : t.isNameable = true) (hr : c.link.refusal? t.id = none) :
      Starts c topology t
        ({ t with group := none, wired := true, state := .running }, [.spawn t.id g topology])
  /-- There is no thread to be had, and the group is lost. -/
  | refused {g : Group} {reason : String} (hs : t.state = .attached) (hg : t.group = some g)
      (hn : t.isNameable = true) (hr : c.link.refusal? t.id = some reason) :
      Starts c topology t
        ({ t with group := none },
          [.log (.spawnRefused t.groupName reason),
            .log (.threadRefused t.groupName (.file (.other reason)))])
  /-- No thread can have the name of the group. -/
  | panics {g : Group} (hs : t.state = .attached) (hg : t.group = some g)
      (hn : t.isNameable = false) : Starts c topology t ({ t with group := none }, [.panic])

/-- **The start of a handle is one of the four cases.** -/
theorem starts_startThread (topology : Topology) (t : Thread) :
    c.Starts topology t (c.startThread topology t) := by
  have h := t.startsAs_start (c.link.refusal? t.id) topology
  unfold startThread
  generalize t.start (c.link.refusal? t.id) topology = r at h ⊢
  cases h with
  | unfit e h => exact .unfit h _
  | spawned hs hg hn hr => exact .spawned hs hg hn hr
  | refused hs hg hn hr => exact .refused hs hg hn hr
  | panics hs hg hn => exact .panics hs hg hn

/-- Starting a handle does not change its number. -/
@[simp] lemma startThread_id (topology : Topology) (t : Thread) :
    (c.startThread topology t).1.id = t.id := by
  have h := c.starts_startThread topology t
  generalize c.startThread topology t = r at h ⊢
  cases h with
  | unfit | spawned | refused | panics => rfl

/-- So the numbers are the same after all threads have been started. -/
@[simp] lemma startThreads_ids : c.startThreads.1.threads.map (·.id) = c.threads.map (·.id) := by
  simp [startThreads, List.map_map, Function.comp_def]

/-- Asking for groups only starts to wait for them. -/
lemma request_effects (link : Link) (gs : List GroupInfo) :
    ∀ x ∈ (request link gs).1, (∃ creation, x = .await creation) ∨ ∃ event, x = .log event := by
  induction gs with
  | nil => simp [request]
  | cons g gs ih =>
    intro x hx
    unfold request at hx
    split at hx
    · next creation _ =>
      rcases List.mem_cons.1 hx with rfl | hx
      · exact .inl ⟨creation, rfl⟩
      · exact ih x hx
    · obtain rfl := List.mem_singleton.1 hx
      exact .inr ⟨_, rfl⟩

/-! ## Closing -/

/-- A context whose threads are all gone, closed for good. -/
def concluded : Context × List Effect :=
  ({ c with envClosed := true, phase := .closed, watched := false },
    [.log (.contextClosed c.link.graph)] ++ (if c.watched then [.announce] else []))

/-- When all threads are gone, the last step of a shutdown closes the graph for good. -/
lemma conclude_eq (hn : c.threads = []) : c.conclude = c.concluded := by
  rw [conclude, if_pos (by simp [hn])]
  rfl

/-- Before that it panics. -/
lemma conclude_eq_panic (hn : c.threads ≠ []) : c.conclude = (c, [.panic]) := by
  rw [conclude, if_neg (by simpa using hn)]

/-- The last step of a shutdown changes the phase, and who may know of the end. -/
lemma conclude_fst :
    ∃ envClosed phase watched, c.conclude.1 = { c with envClosed, phase, watched } := by
  by_cases hn : c.threads = []
  · rw [c.conclude_eq hn]
    exact ⟨_, _, _, rfl⟩
  · rw [c.conclude_eq_panic hn]
    exact ⟨_, _, _, rfl⟩

/-- The last step of a shutdown does not change what the graph knows about itself. -/
@[simp] lemma conclude_link : c.conclude.1.link = c.link := by
  obtain ⟨_, _, _, he⟩ := c.conclude_fst
  rw [he]

/-- It does not change the list of the handles either. -/
@[simp] lemma conclude_threads : c.conclude.1.threads = c.threads := by
  obtain ⟨_, _, _, he⟩ := c.conclude_fst
  rw [he]

/-- And no number is given away in it. -/
@[simp] lemma conclude_nextThread : c.conclude.1.nextThread = c.nextThread := by
  obtain ⟨_, _, _, he⟩ := c.conclude_fst
  rw [he]

/-- Closing a graph that closes or has closed does nothing. -/
lemma close_eq_self (h : ¬ c.IsOpen) : c.close = (c, []) := by
  have hp : c.phase = .closing ∨ c.phase = .closed := by
    unfold IsOpen at h
    tauto
  rw [close, if_pos hp]

/-- An open graph without threads is closed for good at once. -/
lemma close_eq_concluded (ho : c.IsOpen) (hn : c.threads = []) :
    c.close = { c with phase := .closing }.concluded := by
  have hp : ¬ (c.phase = .closing ∨ c.phase = .closed) := by
    rintro (h | h)
    · exact ho.1 h
    · exact ho.2 h
  rw [close, if_neg hp]
  simp [hn, conclude_eq]

/-- An open graph with threads begins to close: the threads are counted and all of them are asked
to end. -/
lemma close_eq_of_nonempty (ho : c.IsOpen) (hn : c.threads ≠ []) :
    c.close =
      ({ c with
          phase := .closing, total := c.threads.length, closed := 0
          threads := c.threads.map fun t => t.close.1 },
        .log (.closing c.link.graph c.threads.length) ::
          c.threads.flatMap fun t => t.close.2) := by
  have hp : ¬ (c.phase = .closing ∨ c.phase = .closed) := by
    rintro (h | h)
    · exact ho.1 h
    · exact ho.2 h
  rw [close, if_neg hp]
  simp [hn, List.map_map, Function.comp_def, List.flatMap_map]

/-- To begin a shutdown does not change what the graph knows about itself. -/
@[simp] lemma close_link : c.close.1.link = c.link := by
  by_cases ho : c.IsOpen
  · by_cases hn : c.threads = []
    · rw [c.close_eq_concluded ho hn]
      rfl
    · rw [c.close_eq_of_nonempty ho hn]
  · rw [c.close_eq_self ho]

/-- It gives no number away. -/
@[simp] lemma close_nextThread : c.close.1.nextThread = c.nextThread := by
  by_cases ho : c.IsOpen
  · by_cases hn : c.threads = []
    · rw [c.close_eq_concluded ho hn]
      rfl
    · rw [c.close_eq_of_nonempty ho hn]
  · rw [c.close_eq_self ho]

/-- It closes the handles and keeps their numbers. -/
@[simp] lemma close_ids : c.close.1.threads.map (·.id) = c.threads.map (·.id) := by
  by_cases ho : c.IsOpen
  · by_cases hn : c.threads = []
    · rw [c.close_eq_concluded ho hn]
      rfl
    · rw [c.close_eq_of_nonempty ho hn]
      simp [List.map_map, Function.comp_def]
  · rw [c.close_eq_self ho]

/-- An open graph that is closed waits for its threads if there are any. -/
lemma close_phase (ho : c.IsOpen) :
    c.close.1.phase = if c.threads = [] then .closed else .closing := by
  by_cases hn : c.threads = []
  · rw [c.close_eq_concluded ho hn, if_pos hn]
    rfl
  · rw [c.close_eq_of_nonempty ho hn, if_neg hn]

/-! ## Threads that report their end -/

/-- A report of a thread that is not listed is only logged. -/
lemma threadClosed_eq_of_unlisted {id : ThreadId} (h : c.handle? id = none) :
    c.handle (.threadClosed id) = (c, [.log (.unknownThreadClosed id)]) := by
  have hf : c.threads.find? (·.id = id) = none := h
  simp only [handle, threadClosed, hf]

/-- What is left of a context when a listed thread has been taken off its list. -/
def release (id : ThreadId) : Context :=
  { c with threads := c.threads.eraseP (·.id = id) }

/-- The effects of taking a thread off the list. -/
def releasing (t : Thread) : List Effect := t.join.2 ++ [.log (.threadJoined t.id t.groupName)]

/-- For a handle without a thread there is nobody to wait for. -/
lemma releasing_of_unwired {t : Thread} (hw : t.wired = false) :
    releasing t = [.log (.threadJoined t.id t.groupName)] := by
  simp [releasing, Thread.join, hw]

/-- A thread that has been started is waited for. -/
lemma releasing_of_wired {t : Thread} (hw : t.wired = true) :
    releasing t = [.reap t.id t.groupName, .log (.threadJoined t.id t.groupName)] := by
  simp [releasing, Thread.join, hw]

/-- A listed thread has reported: it is taken off the list and waited for. If the graph closes, it
is counted, and with the last one the graph is closed for good. -/
lemma threadClosed_eq_of_listed {t : Thread} (ht : c.handle? t.id = some t) :
    c.handle (.threadClosed t.id) =
      if c.phase = .closing then
        if c.closed + 1 = c.total then
          (({ c.release t.id with closed := c.closed + 1 }.conclude).1,
            releasing t ++ ({ c.release t.id with closed := c.closed + 1 }.conclude).2)
        else
          ({ c.release t.id with closed := c.closed + 1 },
            releasing t ++ [.log (.waiting c.link.graph (c.closed + 1) c.total)])
      else (c.release t.id, releasing t ++ [.log (.threadLeft c.link.graph t.groupName)]) := by
  have hname : t.join.1.groupName = t.groupName := rfl
  have hf : c.threads.find? (·.id = t.id) = some t := ht
  simp only [handle, threadClosed, hf]
  by_cases hp : c.phase = .closing
  · by_cases hc : c.closed + 1 = c.total
    · simp [finishClosing, hp, hc, releasing, release, hname]
    · simp [finishClosing, hp, hc, releasing, release, hname]
  · simp [hp, releasing, release, hname]

/-! ## Groups that have been built -/

/-- An open context in which a group has got its thread. -/
def opened (g : Group) : Context := { c.withThread (c.handleFor g) with ready := c.ready + 1 }

/-- A context in which the topology has become known and the groups have been told about it. -/
def told : Context :=
  { c with
    topology := some c.link.command.topology
    threads := c.threads.map fun t =>
      (inform c.link.command.topology c.link.app.uri t).getD t }

/-- What a group is told does not change the number of its handle. -/
@[simp] lemma inform_id (topology : Topology) (app : String) (t : Thread) :
    ((inform topology app t).getD t).id = t.id := by
  unfold inform
  split <;> rfl

/-- So the numbers are the same when all groups have been told. -/
@[simp] lemma told_ids : c.told.threads.map (·.id) = c.threads.map (·.id) := by
  simp [told, List.map_map, Function.comp_def]

/-- The names of the groups that the declared topology does not know. -/
def strangers : List String := undeclared (c.informed c.link.command.topology)

/-- The event of a new thread. -/
def arrival (g : Group) : Effect := .log (.threadCreated c.link.graph ⟨c.nextThread⟩ g.name)

/-- Everything that a group that has been built can lead to. -/
inductive Receives (c : Context) (g : Group) : Context × List Effect → Prop
  /-- The graph is closed: the group is dropped. -/
  | late (h : c.phase = .closed) : Receives c g (c, [.log (.groupTooLate g.name)])
  /-- The graph closes: the thread is closed right away, and counted. -/
  | closing (h : c.phase = .closing) :
      Receives c g
        ({ c.withThread (c.handleFor g).close.1 with total := c.total + 1 },
          [.post (.threadClosed ⟨c.nextThread⟩)])
  /-- There are groups to come. -/
  | early (ho : c.IsOpen) (hl : (c.opened g).threads.length ≠ c.localGroups.length) :
      Receives c g (c.opened g, [c.arrival g])
  /-- The topology is known already. -/
  | twice (ho : c.IsOpen) (hl : (c.opened g).threads.length = c.localGroups.length)
      (ht : c.topology.isSome) :
      Receives c g
        (c.opened g, [c.arrival g, .log (.readyTwice c.link.graph .topologyAlreadyInstalled)])
  /-- All groups are there, and all are declared. -/
  | ready (ho : c.IsOpen) (hl : (c.opened g).threads.length = c.localGroups.length)
      (ht : c.topology = none) (hs : (c.opened g).strangers = []) :
      Receives c g
        ((c.opened g).told.startThreads.1, c.arrival g :: (c.opened g).told.startThreads.2)
  /-- All groups are there, but some are not declared. -/
  | strange (ho : c.IsOpen) (hl : (c.opened g).threads.length = c.localGroups.length)
      (ht : c.topology = none) (hs : (c.opened g).strangers ≠ []) :
      Receives c g
        ((c.opened g).told.close.1,
          c.arrival g :: .log (.groupsUndeclared c.link.graph (c.opened g).strangers) ::
            (c.opened g).told.close.2)

/-- Making the topology known and telling the groups, as it is done step by step, is one change of
the context. -/
lemma withInformed_eq_told :
    ({ c with topology := some c.link.command.topology } : Context).withInformed
      (c.informed c.link.command.topology) = c.told := by
  simp [withInformed, informed, told, List.map_map, Function.comp_def]

/-- What happens once all groups are there. -/
lemma allReady_eq :
    c.allReady =
      if c.topology.isSome then
        (c, [.log (.readyTwice c.link.graph .topologyAlreadyInstalled)])
      else if c.strangers = [] then c.told.startThreads
      else
        (c.told.close.1, .log (.groupsUndeclared c.link.graph c.strangers) :: c.told.close.2) := by
  cases ht : c.topology with
  | some t => simp [allReady, install, ht]
  | none =>
    have hi : ({ c with topology := some c.link.command.topology } : Context).informed
        c.link.command.topology = c.informed c.link.command.topology := rfl
    simp only [allReady, install, ht, Option.getD_some, hi, withInformed_eq_told,
      List.isEmpty_iff, close_link]
    rfl

/-- In an open context a group gets its thread, and perhaps it was the last one.

**Proof sketch.** The definition tells three phases apart, and an open context is in neither of the
two others. The log names the group as the new handle does. -/
lemma groupCreated_eq_of_isOpen (ho : c.IsOpen) (g : Group) :
    c.groupCreated g =
      if (c.opened g).threads.length = c.localGroups.length then
        ((c.opened g).allReady.1, c.arrival g :: (c.opened g).allReady.2)
      else (c.opened g, [c.arrival g]) := by
  have hn : (c.handleFor g).groupName = g.name := c.handleFor_groupName g
  have hd : c.groupCreated g =
      if (c.opened g).threads.length = c.localGroups.length then
        ((c.opened g).allReady.1,
          .log (.threadCreated c.link.graph ⟨c.nextThread⟩ (c.handleFor g).groupName) ::
            (c.opened g).allReady.2)
      else (c.opened g,
        [.log (.threadCreated c.link.graph ⟨c.nextThread⟩ (c.handleFor g).groupName)]) := by
    unfold groupCreated
    split
    · next h => exact absurd h ho.2
    · next h => exact absurd h ho.1
    · rfl
  rw [hd, hn]
  rfl

/-- **Whatever a group that has been built leads to is one of the cases.**

**Proof sketch.** The phase is looked at first: a closed graph drops the group, and one that closes
closes its handle at once. An open graph counts its handles. If they are complete, the topology must
not be known yet, and then all groups must be declared. -/
lemma receives (g : Group) : c.Receives g (c.groupCreated g) := by
  by_cases hc : c.phase = .closed
  · have he : c.groupCreated g = (c, [.log (.groupTooLate (c.adopt g).name)]) := by
      simp [groupCreated, hc]
    rw [he, adopt_name]
    exact .late hc
  by_cases hg : c.phase = .closing
  · have he : c.groupCreated g =
        ({ c.withThread (c.handleFor g).close.1 with total := c.total + 1 },
          [.post (.threadClosed ⟨c.nextThread⟩)]) := by
      simp only [groupCreated, hg]
      rfl
    rw [he]
    exact .closing hg
  have ho : c.IsOpen := ⟨hg, hc⟩
  rw [groupCreated_eq_of_isOpen c ho, allReady_eq]
  have htop : (c.opened g).topology = c.topology := rfl
  have hlink : (c.opened g).link = c.link := rfl
  by_cases hl : (c.opened g).threads.length = c.localGroups.length
  · rw [if_pos hl, htop, hlink]
    by_cases ht : c.topology.isSome
    · rw [if_pos ht]
      exact .twice ho hl ht
    · rw [if_neg ht]
      have hnone : c.topology = none := by simpa using ht
      by_cases hs : (c.opened g).strangers = []
      · rw [if_pos hs]
        exact .ready ho hl hnone hs
      · rw [if_neg hs]
        exact .strange ho hl hnone hs
  · rw [if_neg hl]
    exact .early ho hl

/-! ## The link -/

/-- No message changes what a graph knows about itself.

**Proof sketch.** By cases on the message; everything that is done keeps it, the beginning and the
last step of a shutdown included. -/
lemma handle_link (m : EngineMsg) : (c.handle m).1.link = c.link := by
  cases m with
  | created result =>
    cases result with
    | ok g =>
      show (c.groupCreated g).1.link = c.link
      have hr := c.receives g
      generalize c.groupCreated g = r at hr ⊢
      cases hr with
      | late | closing | early | twice | ready => rfl
      | strange => exact (c.opened g).told.close_link
    | error err => exact c.close_link
  | threadClosed id =>
    cases hf : c.handle? id with
    | none => rw [c.threadClosed_eq_of_unlisted hf]
    | some t =>
      have hid : t.id = id := key_of_atKey? hf
      subst hid
      rw [c.threadClosed_eq_of_listed hf]
      split
      · split
        · exact conclude_link _
        · rfl
      · rfl
  | route m => rfl
  | close => exact c.close_link

end Context

end ExtensionGraph
