import Mathlib.Tactic.Common
import ExtensionGraph.Proofs.ClosingThreads
import ExtensionGraph.Proofs.GroupOutcomes

/-!
# Where the groups of threads come from

A group that has been built is bound to the graph, gets its members unless its addon has fixed them,
and moves from its handle to its thread when that is started. On this way it changes in nothing but
what it is told about itself. So the group of every handle and of every worker is one that the
engine has taken, with the members that it had, or with those that the graph declares for it.

## Main definitions

* `ExtensionGraph.Group.membersIn` — the members of a group in a graph.
* `ExtensionGraph.Group.BoundAs` — a group that has been built, and what has become of it.
* `ExtensionGraph.Engine.Origins` — every handle and every worker has a group that has been built.

## Main results

* `ExtensionGraph.Context.handle_holds`, `ExtensionGraph.Context.handle_launches_from` — what a
  message does to the groups of handles, and which groups it starts threads for.
* `ExtensionGraph.Engine.origins_of_play` — where the groups come from, at any time of any run.
-/

namespace ExtensionGraph

/-! ## Groups on their way -/

/-- The members of a group in a graph: those that its addon has fixed, or else those that the graph
declares. -/
def Group.membersIn (link : Link) (g : Group) : List Member :=
  if g.fixed then g.members else link.command.members link.app.uri link.graph g.name

/-- What has become of a group after it was built. What it has been told about itself is left
open. -/
structure Group.BoundAs (link : Link) (built g : Group) : Prop where
  name : g.name = built.name
  addon : g.addon = built.addon
  app : g.app = some link.app.uri
  graph : g.graph = some link.graph
  fixed : g.fixed = built.fixed
  members : g.members = built.membersIn link

/-- Belonging to the graph, a group has its members. -/
lemma Context.boundAs_adopt (c : Context) (g : Group) : g.BoundAs c.link (c.adopt g) := by
  unfold Context.adopt
  cases hf : g.fixed with
  | true =>
    have hd : (g.bind c.link.app.uri c.link.graph).isGraphDriven = false := by
      simp [Group.isGraphDriven, Group.bind, hf]
    simp only [hd, Bool.false_eq_true, if_false]
    exact ⟨rfl, rfl, rfl, rfl, rfl, by rw [Group.membersIn, if_pos hf]; rfl⟩
  | false =>
    have hd : (g.bind c.link.app.uri c.link.graph).isGraphDriven = true := by
      simp [Group.isGraphDriven, Group.bind, hf]
    simp only [hd, if_true]
    exact ⟨rfl, rfl, rfl, rfl, rfl, by rw [Group.membersIn, if_neg (by simp [hf])]; rfl⟩

/-- What belongs to a group does not depend on what is declared about the group itself. -/
lemma Group.BoundAs.setInfo {link : Link} {built g : Group} (h : built.BoundAs link g)
    (info : GroupInfo) : built.BoundAs link (g.setInfo info) :=
  ⟨h.name, h.addon, h.app, h.graph, h.fixed, h.members⟩

/-! ## The groups of handles -/

/-- The group that the handle has, if it has one, is one of the given ones. -/
def Thread.Holds (link : Link) (built : List Group) (t : Thread) : Prop :=
  ∀ g, t.group = some g → ∃ b ∈ built, b.BoundAs link g ∧ t.groupName = b.name

namespace Thread

variable {link : Link} {built built' : List Group} {t : Thread}

/-- A handle goes on holding what it holds when more groups come. -/
lemma Holds.mono (h : t.Holds link built) (hb : built ⊆ built') : t.Holds link built' := by
  intro g hg
  obtain ⟨b, hmem, hbound⟩ := h g hg
  exact ⟨b, hb hmem, hbound⟩

/-- Closing a handle changes its state only. -/
lemma close_fst (t : Thread) : ∃ state, t.close.1 = { t with state } := by
  unfold close
  split
  · exact ⟨_, rfl⟩
  · exact ⟨_, rfl⟩
  · exact ⟨_, rfl⟩
  · exact ⟨t.state, rfl⟩
  · exact ⟨t.state, rfl⟩

/-- A handle keeps its group when it is closed. -/
lemma Holds.close (h : t.Holds link built) : t.close.1.Holds link built := by
  obtain ⟨state, he⟩ := t.close_fst
  rw [he]
  exact h

/-- The group is told what is declared about it, and changes in nothing else. -/
lemma Holds.inform (h : t.Holds link built) (topology : Topology) (app : String) :
    ((Context.inform topology app t).getD t).Holds link built := by
  unfold Context.inform
  split
  · next info g hi hg =>
    intro g' hg'
    cases hg'
    obtain ⟨b, hmem, hbound, hname⟩ := h g hg
    exact ⟨b, hmem, hbound.setInfo info, hname⟩
  · exact h

/-- A handle gives its group to its thread, loses it, or keeps it. -/
lemma Holds.startThread (h : t.Holds link built) (c : Context) (topology : Topology) :
    (c.startThread topology t).1.Holds link built := by
  have hr := c.starts_startThread topology t
  generalize c.startThread topology t = r at hr ⊢
  cases hr with
  | unfit => exact h
  | spawned | refused | panics =>
    intro g hg
    cases hg

end Thread

namespace Context

variable {c : Context} {built : List Group} {m : EngineMsg}

/-- A thread is started with the group of its handle. -/
lemma startThread_launch {topology : Topology} {t : Thread} {l : Launch}
    (hl : l ∈ (c.startThread topology t).2.filterMap Effect.launch?) :
    t.group = some l.group ∧ l.topology = topology := by
  have hr := c.starts_startThread topology t
  generalize c.startThread topology t = r at hr hl
  cases hr with
  | spawned hs hg =>
    obtain rfl : l = ⟨t.id, _, topology⟩ := List.mem_singleton.1 hl
    exact ⟨hg, rfl⟩
  | unfit | refused | panics => cases hl

/-- Threads are started for the groups of the handles, with the topology of the graph. -/
lemma startThreads_launch {l : Launch}
    (hl : l ∈ c.startThreads.2.filterMap Effect.launch?) :
    (∃ t ∈ c.threads, t.group = some l.group) ∧ l.topology = c.topology.getD .empty := by
  rw [startThreads_snd] at hl
  have hstarting := ((Effect.untilPanic_prefix c.starting).filterMap Effect.launch?).subset hl
  rw [starting_launches, List.filterMap_flatMap, List.mem_flatMap] at hstarting
  obtain ⟨started, hstarted, hlaunch⟩ := hstarting
  obtain ⟨t, ht, rfl⟩ := List.mem_map.1 hstarted
  obtain ⟨hg, htop⟩ := startThread_launch hlaunch
  exact ⟨⟨t, ht, hg⟩, htop⟩

/-- Closing keeps the handles to what they hold. -/
lemma holds_close (h : ∀ t ∈ c.threads, t.Holds c.link built) :
    ∀ t ∈ c.close.1.threads, t.Holds c.link built := by
  by_cases ho : c.IsOpen
  · by_cases hn : c.threads = []
    · rw [c.close_eq_concluded ho hn]
      exact h
    · rw [c.close_eq_of_nonempty ho hn]
      intro t ht
      obtain ⟨u, hu, rfl⟩ := List.mem_map.1 ht
      exact (h u hu).close
  · rw [c.close_eq_self ho]
    exact h

/-- A thread that reports its end takes its handle away, if anything. -/
lemma threadClosed_threads_sublist (c : Context) (id : ThreadId) :
    (c.handle (.threadClosed id)).1.threads.Sublist c.threads := by
  cases hf : c.handle? id with
  | none =>
    rw [c.threadClosed_eq_of_unlisted hf]
  | some t =>
    obtain rfl : t.id = id := key_of_atKey? hf
    rw [c.threadClosed_eq_of_listed hf]
    split
    · split
      · rw [conclude_threads]
        exact List.eraseP_sublist
      · exact List.eraseP_sublist
    · exact List.eraseP_sublist

/-- A new handle has the group that has come. -/
lemma holds_handleFor (g : Group) (hg : g ∈ built) : (c.handleFor g).Holds c.link built := by
  intro g' hg'
  cases hg'
  exact ⟨g, hg, c.boundAs_adopt g, c.adopt_name g⟩

/-- The handle for a group that has come holds this group; the others hold what they did. -/
lemma holds_opened (h : ∀ t ∈ c.threads, t.Holds c.link built) (g : Group) :
    ∀ t ∈ (c.opened g).threads, t.Holds c.link (built ++ [g]) := by
  intro t ht
  rcases List.mem_append.1 ht with ht | ht
  · exact (h t ht).mono (List.subset_append_left _ _)
  · obtain rfl := List.mem_singleton.1 ht
    exact holds_handleFor g (List.mem_append_right _ (List.mem_singleton_self g))

/-- Telling the handles the topology changes nothing that they hold. -/
lemma holds_told (h : ∀ t ∈ c.threads, t.Holds c.link built) :
    ∀ t ∈ c.told.threads, t.Holds c.link built := by
  intro t ht
  obtain ⟨u, hu, rfl⟩ := List.mem_map.1 ht
  exact (h u hu).inform _ _

/-- After a group has come, all handles hold groups that have come.

**Proof sketch.** By the ways in which a group is received. There is a handle for it, opened or
closed at once, except where it comes too late; starting and closing threads keeps what the handles
hold. -/
lemma holds_groupCreated (h : ∀ t ∈ c.threads, t.Holds c.link built) (g : Group) :
    ∀ t ∈ (c.groupCreated g).1.threads, t.Holds c.link (built ++ [g]) := by
  have hopened := holds_opened h g
  have htold : ∀ t ∈ (c.opened g).told.threads, t.Holds c.link (built ++ [g]) :=
    holds_told (c := c.opened g) hopened
  have hr := c.receives g
  generalize c.groupCreated g = r at hr ⊢
  cases hr with
  | late => exact fun t ht => (h t ht).mono (List.subset_append_left _ _)
  | closing =>
    intro t ht
    rcases List.mem_append.1 ht with ht | ht
    · exact (h t ht).mono (List.subset_append_left _ _)
    · obtain rfl := List.mem_singleton.1 ht
      exact (holds_handleFor g (List.mem_append_right _ (List.mem_singleton_self g))).close
  | early | twice => exact hopened
  | ready =>
    intro t ht
    simp only [startThreads, List.map_map] at ht
    obtain ⟨u, hu, rfl⟩ := List.mem_map.1 ht
    exact (htold u hu).startThread _ _
  | strange => exact holds_close (c := (c.opened g).told) htold

/-- **A message leaves the groups of handles as they are**, and adds the one that it brings. -/
theorem handle_holds (h : ∀ t ∈ c.threads, t.Holds c.link built) (m : EngineMsg) :
    ∀ t ∈ (c.handle m).1.threads, t.Holds c.link (built ++ m.group?.toList) := by
  have hmore {ts : List Thread} (hts : ∀ t ∈ ts, t.Holds c.link built) :
      ∀ t ∈ ts, t.Holds c.link (built ++ m.group?.toList) :=
    fun t ht => (hts t ht).mono (List.subset_append_left _ _)
  cases m with
  | created result =>
    cases result with
    | ok g => exact holds_groupCreated h g
    | error err => exact hmore (holds_close h)
  | threadClosed id => exact hmore fun t ht => h t ((c.threadClosed_threads_sublist id).subset ht)
  | route m => exact hmore h
  | close => exact hmore (holds_close h)

/-- **The threads that a message starts** have groups that have come, and the declared topology.

**Proof sketch.** Only a group that completes the set starts threads, those of the handles at that
time, each of which holds a group that has come. -/
theorem handle_launches_from (h : ∀ t ∈ c.threads, t.Holds c.link built) {l : Launch}
    (hl : l ∈ (c.handle m).2.filterMap Effect.launch?) :
    (∃ b ∈ built ++ m.group?.toList, b.BoundAs c.link l.group) ∧
      l.topology = c.link.command.topology := by
  have hnone (hno : (c.handle m).2.filterMap Effect.launch? = []) {p : Prop} : p := by
    rw [hno] at hl
    cases hl
  cases m with
  | created result =>
    cases result with
    | ok g =>
      change l ∈ (c.groupCreated g).2.filterMap Effect.launch? at hl
      have hopened := holds_opened h g
      have htold : ∀ t ∈ (c.opened g).told.threads, t.Holds c.link (built ++ [g]) :=
        holds_told (c := c.opened g) hopened
      have hr := c.receives g
      generalize c.groupCreated g = r at hr hl
      cases hr with
      | late | closing | early | twice => cases hl
      | ready =>
        rw [arrival, List.filterMap_cons_none rfl] at hl
        obtain ⟨⟨t, ht, hg⟩, htop⟩ := startThreads_launch hl
        obtain ⟨b, hb, hbound, -⟩ := htold t ht l.group hg
        exact ⟨⟨b, hb, hbound⟩, htop⟩
      | strange =>
        rw [arrival, List.filterMap_cons_none rfl, List.filterMap_cons_none rfl,
          Effect.launches_of_mild (close_mild _)] at hl
        cases hl
    | error err =>
      refine hnone ?_
      show List.filterMap _ (Effect.log _ :: c.close.2) = []
      rw [List.filterMap_cons_none rfl, Effect.launches_of_mild c.close_mild]
  | threadClosed id => exact hnone (Engine.launches_threadClosed c id)
  | route m => exact hnone (Effect.launches_of_mild fun x hx => (c.dispatch_mild m x hx).1)
  | close => exact hnone (Effect.launches_of_mild c.close_mild)

end Context

/-! ## The groups of workers -/

/-- Having been touched is one way to evolve. -/
lemma Worker.Touched.evolves {aborts : Prop} {w w' : Worker} (h : w.Touched w') :
    Worker.Evolves aborts w w' := by
  obtain ⟨extra, hungUp, rfl, hh⟩ := h
  refine (Worker.Evolves.single (.written (w.inbox ++ extra))).trans ?_
  cases hungUp with
  | true => exact .single .hungUp
  | false =>
    have hsame : ({ w with inbox := w.inbox ++ extra, hungUp := false } : Worker) =
        { w with inbox := w.inbox ++ extra } := by
      rw [← hh rfl]
    rw [hsame]
    exact .refl _

namespace Engine

variable {e e' : Engine} {heard : List EngineMsg} {link : Link}

/-- Every handle has a group that has come, and every worker was created for one. -/
structure Origins (link : Link) (heard : List EngineMsg) (e : Engine) : Prop where
  linked : e.context.link = link
  handles : ∀ t ∈ e.context.threads, t.Holds link (groupsIn heard)
  workers : ∀ w ∈ e.host.workers, ∃ b ∈ groupsIn heard, ∃ id g, b.BoundAs link g ∧
    Worker.Evolves True (Worker.create link id g link.command.topology) w

/-- Taking a message up keeps every handle and every thread to a group that has come.

**Proof sketch.** For handles this is `Context.handle_holds`. A thread is either one of the former,
which evolves as it is touched, or it is launched by this message for a group that has come. -/
lemma Origins.handle (h : e.Origins link heard) (hsound : e.Sound heard) {m : EngineMsg}
    {mailbox : Mailbox EngineMsg}
    (htake : e.host.mailbox.take? = some (m, mailbox)) :
    (({ e with host := { e.host with mailbox } } : Engine).handle m).Origins link
      (heard ++ [m]) := by
  obtain ⟨rfl, hhandles, hworkers⟩ := h
  have hlink : (e.context.handle m).1.link = e.context.link := e.context.handle_link m
  refine ⟨?_, ?_, ?_⟩
  · rw [handle_context]
    exact hlink
  · rw [handle_context, groupsIn_concat]
    exact Context.handle_holds hhandles m
  · intro w' hw'
    obtain ⟨w, hw, htouched⟩ := (hsound.handle_touched htake).exists_of_mem hw'
    rw [groupsIn_concat]
    rcases List.mem_append.1 hw with hw | hw
    · obtain ⟨b, hb, id, g, hbound, hev⟩ := hworkers w hw
      exact ⟨b, List.mem_append_left _ hb, id, g, hbound, hev.trans htouched.evolves⟩
    · obtain ⟨l, hl, rfl⟩ := List.mem_map.1 hw
      obtain ⟨⟨b, hb, hbound⟩, htop⟩ := Context.handle_launches_from hhandles hl
      refine ⟨b, hb, l.id, l.group, hbound, ?_⟩
      rw [← htop, ← hlink]
      exact htouched.evolves

/-- A worker that changes keeps its origin. -/
lemma Origins.setWorker (h : e.Origins link heard) {place : Nat} {w w' : Worker}
    (hw : e.host.workers[place]? = some w) (hev : Worker.Evolves True w w')
    (mailbox : Mailbox EngineMsg) :
    ({ e with host := { e.host with mailbox, workers := e.host.workers.set place w' } } :
      Engine).Origins link heard := by
  refine ⟨h.linked, h.handles, fun v hv => ?_⟩
  rcases List.mem_or_eq_of_mem_set hv with hv | rfl
  · exact h.workers v hv
  · obtain ⟨b, hb, id, g, hbound, hev'⟩ := h.workers w (List.mem_of_getElem? hw)
    exact ⟨b, hb, id, g, hbound, hev'.trans hev⟩

/-- Every move keeps the origins of handles and workers.

**Proof sketch.** One case for each kind of move. Only messages make handles and workers; in the
other moves at most one worker goes on, and it keeps its group. -/
theorem Origins.move (h : e.Origins link heard) (hsound : e.Sound heard) {m : Move}
    (hm : e.move? m = some e') : e'.Origins link (heard ++ (e.taken? m).toList) := by
  have hsame {e'' : Engine} (hh : m ≠ .handle) (ho : e''.Origins link heard) :
      e''.Origins link (heard ++ (e.taken? m).toList) := by
    rw [append_taken? hh]
    exact ho
  cases moves_of_move? hm with
  | handles _ htake =>
    rw [taken?_handle htake]
    exact h.handle hsound htake
  | works hw hs => exact hsame (by simp) (h.setWorker hw (.single (.steps hs)) _)
  | beats hw => exact hsame (by simp) (h.setWorker hw (.single (.beats _ _)) _)
  | aborts hw hs => exact hsame (by simp) (h.setWorker hw (.single (.aborted trivial hs)) _)
  | completes => exact hsame (by simp) ⟨h.linked, h.handles, h.workers⟩
  | sends => exact hsame (by simp) ⟨h.linked, h.handles, h.workers⟩
  | refuses => exact hsame (by simp) h
  | closes => exact hsame (by simp) ⟨h.linked, h.handles, h.workers⟩

/-- A graph that has just been started has no handles, whether its start has failed or not. -/
lemma start_frame (link : Link) :
    (start link).1.context.link = link ∧ (start link).1.context.threads = [] := by
  obtain ⟨hopen, hthreads, -⟩ := Context.start_mild link
  have hlink : (Context.create link true).start.1.link = link := by
    by_cases hg : (Context.create link true).localGroups = []
    · rw [Context.start_eq_of_no_groups _ hg rfl]
      rfl
    · rw [Context.start_eq_request _ hg]
      rfl
  rw [start_eq]
  split
  · rw [retire_context, begun_context]
    exact ⟨hlink, hthreads⟩
  · rw [retire_context, carryOut_context, begun_context,
      Context.close_eq_concluded _ hopen hthreads]
    exact ⟨hlink, hthreads⟩

/-- To begin with there are neither handles nor threads. -/
lemma origins_start (link : Link) : (start link).1.Origins link [] := by
  obtain ⟨hlink, hthreads⟩ := start_frame link
  refine ⟨hlink, ?_, ?_⟩
  · rw [hthreads]
    simp
  · rw [start_workers]
    simp

/-- **Every handle and every worker has a group that has come**, at any time of any run. -/
theorem origins_of_play {moves : List Move} {taken : List EngineMsg}
    (hp : (start link).1.play moves = some (taken, e)) : e.Origins link taken :=
  (play_induction (P := fun heard e => e.Sound heard ∧ e.Origins link heard)
    (fun ⟨hsound, h⟩ hm => ⟨hsound.move hm, h.move hsound hm⟩)
    ⟨sound_start link, origins_start link⟩ hp).2

end Engine

end ExtensionGraph
