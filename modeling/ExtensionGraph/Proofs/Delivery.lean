import Mathlib.Tactic.Common
import ExtensionGraph.Proofs.AllOrNothing
import ExtensionGraph.Proofs.GroupOrigins
import ExtensionGraph.Proofs.InboxWrites
import ExtensionGraph.Proofs.StartInterleaving

/-!
# Messages reach the threads of their destinations

Once all groups of a graph have come, its topology is known for good, and every handle on the list
has a thread. So a message is brought to each of its destinations that is a declared extension of
the app: it is written to the thread of the extension's group, once for each time that it is named.
As long as groups are missing, the topology is not known, and all destinations are given up.

## Main definitions

* `ExtensionGraph.Link.Accepts` — the link of a graph that its app accepts.
* `ExtensionGraph.Thread.label` — the number and the group of a handle.
* `ExtensionGraph.Engine.Manned` — the topology is known, and every handle has its thread or has
  been refused one.
* `ExtensionGraph.Engine.Complete` — the same of an engine that has gone down: all threads that it
  has started have their handles.
* `ExtensionGraph.Engine.Staffed` — what both come to, as far as messages are concerned.
* `ExtensionGraph.Engine.Delivers` — a message is brought to all destinations that are declared.

## Main results

* `ExtensionGraph.Engine.manned_of_play`, `ExtensionGraph.Engine.staffed_of_play` — once all groups
  have come in time, the graph is manned, or its engine has gone down.
* `ExtensionGraph.Engine.open_of_quiet` — a graph stays open until somebody asks for its end.
* `ExtensionGraph.Engine.Staffed.route_workers` — what a message does to the threads, exactly.
* `ExtensionGraph.Engine.delivers_of_play` — messages are brought to all declared destinations.
* `ExtensionGraph.Engine.handle_route_of_unready` — a message that comes before the last group.
-/

namespace ExtensionGraph

/-! ## Accepted graphs -/

/-- The link is that of a graph that its app accepts. -/
structure Link.Accepts (link : Link) (g : GraphDefinition) : Prop where
  fault : g.fault? link.app.uri = none
  topology : link.command.topology = g.topology link.app.uri link.graph

namespace Link

variable {link : Link} {g : GraphDefinition}

/-- What an app tells the engine of a graph that it has accepted is about this graph. -/
lemma accepts_ofStart (app : AppInfo) {graph : String} {s : StartGraph}
    (hs : StartGraph.ofDefinition g app.uri graph = .ok s) (name : String) (registry : Registry)
    (spawner : Spawner) : (Link.ofStart app registry spawner (s.withName name)).Accepts g := by
  obtain ⟨hf, rfl⟩ := StartGraph.ofDefinition_eq_ok hs
  exact ⟨hf, rfl⟩

/-- The declared groups have keys of their own. -/
lemma Accepts.keys (h : link.Accepts g) :
    (link.command.topology.groups.map GroupInfo.key).Nodup := by
  rw [h.topology]
  exact GraphDefinition.groupInfos_nodup h.fault

/-- Every declared extension of the app has a group that the app hosts. -/
lemma Accepts.groupName_mem (h : link.Accepts g) {n : ExtensionNode}
    (hn : n ∈ g.extensionsOn link.app.uri) :
    n.groupName ∈ (link.command.groupsOf link.app.uri).map (·.name) := by
  have hs : StartGraph.ofDefinition g link.app.uri link.graph =
      .ok ⟨.ofGraph link.app.uri link.graph, none, g.topology link.app.uri link.graph⟩ := by
    unfold StartGraph.ofDefinition GraphDefinition.validateFor
    rw [h.fault]
    rfl
  have hmem := StartGraph.groupName_mem hs hn
  rwa [StartGraph.groupsOf, ← h.topology] at hmem

end Link

/-! ## Handles and their threads -/

/-- The number and the group of a handle. -/
def Thread.label (t : Thread) : ThreadId × String := (t.id, t.groupName)

/-- The label of a handle, and whether there is a thread to write to. -/
def Thread.outline (t : Thread) : (ThreadId × String) × Bool := (t.label, t.wired)

namespace Context

variable {c : Context} {m : EngineMsg}

/-- Closing a graph changes neither what is known of the topology nor whom the handles are for. -/
lemma close_frame (c : Context) :
    c.close.1.topology = c.topology ∧
      c.close.1.threads.map Thread.outline = c.threads.map Thread.outline := by
  by_cases ho : c.IsOpen
  · by_cases hn : c.threads = []
    · rw [c.close_eq_concluded ho hn]
      exact ⟨rfl, rfl⟩
    · rw [c.close_eq_of_nonempty ho hn]
      refine ⟨rfl, ?_⟩
      rw [List.map_map]
      refine List.map_congr_left fun t _ => ?_
      obtain ⟨state, he⟩ := t.close_fst
      rw [Function.comp_apply, he]
      rfl
  · rw [c.close_eq_self ho]
    exact ⟨rfl, rfl⟩

/-- The report of a thread does not change what is known about the graph. -/
lemma threadClosed_topology (c : Context) (id : ThreadId) :
    (c.handle (.threadClosed id)).1.topology = c.topology := by
  cases hf : c.handle? id with
  | none => rw [c.threadClosed_eq_of_unlisted hf]
  | some t =>
    obtain rfl : t.id = id := key_of_atKey? hf
    rw [c.threadClosed_eq_of_listed hf]
    split
    · split
      · obtain ⟨_, _, _, he⟩ := ({ c.release t.id with closed := c.closed + 1 } :
          Context).conclude_fst
        dsimp only
        rw [he]
        rfl
      · rfl
    · rfl

/-- **A topology that is known remains known**, and is never replaced.

**Proof sketch.** The topology is set in one place, when the last group comes, and only if there is
none yet. Closing a graph and releasing a thread keep it. -/
lemma handle_topology {topology : Topology} (ht : c.topology = some topology) (m : EngineMsg) :
    (c.handle m).1.topology = some topology := by
  cases m with
  | created result =>
    cases result with
    | ok g =>
      show (c.groupCreated g).1.topology = some topology
      have hr := c.receives g
      generalize c.groupCreated g = r at hr ⊢
      cases hr with
      | late | closing | early | twice => exact ht
      | ready _ _ hnone | strange _ _ hnone =>
        rw [hnone] at ht
        cases ht
    | error err => exact c.close_frame.1.trans ht
  | threadClosed id => exact (c.threadClosed_topology id).trans ht
  | route m => exact ht
  | close => exact c.close_frame.1.trans ht

/-- A message that brings no group makes no handle, and starts none. -/
lemma handle_outlines (c : Context) (hm : m.group? = none) :
    ((c.handle m).1.threads.map Thread.outline).Sublist (c.threads.map Thread.outline) := by
  have hclose : (c.close.1.threads.map Thread.outline).Sublist (c.threads.map Thread.outline) := by
    rw [c.close_frame.2]
  cases m with
  | created result =>
    cases result with
    | ok g => cases hm
    | error err => exact hclose
  | threadClosed id => exact (c.threadClosed_threads_sublist id).map _
  | route m => exact List.Sublist.refl _
  | close => exact hclose

/-- An open graph whose topology is known stays open until somebody asks for its end.

**Proof sketch.** By cases on the message. With the topology known, another group changes nothing,
and neither does a message to extensions or the report of a thread as long as the graph is open. All
others ask for the end. -/
lemma IsOpen.handle (ho : c.IsOpen) (ht : c.topology.isSome) (hm : ¬ m.AsksForEnd) :
    (c.handle m).1.IsOpen := by
  cases m with
  | created result =>
    cases result with
    | ok g =>
      show (c.groupCreated g).1.IsOpen
      have hr := c.receives g
      generalize c.groupCreated g = r at hr ⊢
      cases hr with
      | late hp => exact absurd hp ho.2
      | closing hp => exact absurd hp ho.1
      | early | twice => exact ho
      | ready _ _ hnone | strange _ _ hnone =>
        rw [hnone] at ht
        cases ht
    | error err => exact absurd trivial hm
  | threadClosed id =>
    cases hf : c.handle? id with
    | none =>
      rw [c.threadClosed_eq_of_unlisted hf]
      exact ho
    | some t =>
      obtain rfl : t.id = id := key_of_atKey? hf
      rw [c.threadClosed_eq_of_listed hf, if_neg ho.1]
      exact ho
  | route m => exact ho
  | close => exact absurd trivial hm

end Context

namespace Engine

variable {e e' : Engine} {heard : List EngineMsg} {link : Link}

/-- The topology is known, every handle on the list that is not without a thread has one that has
been started for the same group, and no two handles are for the same group. -/
structure Manned (link : Link) (e : Engine) : Prop where
  topology : e.context.topology = some link.command.topology
  handles : ∀ t ∈ e.context.threads, t.wired = true → t.label ∈ e.host.workers.map Worker.label
  names : (e.context.threads.map (·.groupName)).Nodup

/-- Writing to workers leaves them their numbers and groups. -/
lemma labels_of_touched {ws ws' : List Worker} (h : AllTouched ws ws') :
    ws'.map Worker.label = ws.map Worker.label := by
  refine h.map_eq fun w _ w' hw => ?_
  obtain ⟨extra, hungUp, rfl, -⟩ := hw
  rfl

/-- A message adds the threads that it starts. -/
lemma Sound.handle_worker_labels (h : e.Sound heard) {m : EngineMsg}
    {mailbox : Mailbox EngineMsg}
    (htake : e.host.mailbox.take? = some (m, mailbox)) :
    (({ e with host := { e.host with mailbox } } : Engine).handle m).host.workers.map
        Worker.label =
      e.host.workers.map Worker.label ++
        ((e.context.handle m).2.filterMap Effect.launch?).map
          fun l => (l.id, l.group.name) := by
  rw [labels_of_touched (h.handle_touched htake), List.map_append, List.map_map]
  rfl

/-- Whether a graph is manned depends on its context, and on the numbers and groups of its
workers. -/
lemma Manned.congr (h : e.Manned link) (hc : e'.context = e.context)
    (hw : e'.host.workers.map Worker.label = e.host.workers.map Worker.label) :
    e'.Manned link := by
  refine ⟨hc ▸ h.topology, fun t ht => ?_, hc ▸ h.names⟩
  rw [hw]
  exact h.handles t (hc ▸ ht)

/-- A message that brings no group leaves every handle with its thread.

**Proof sketch.** A message without a group adds no handle: the handles afterwards are handles from
before, for the same groups and with the same numbers. Workers are never taken away. -/
lemma Manned.handle (h : e.Manned link) (hsound : e.Sound heard) {m : EngineMsg}
    {mailbox : Mailbox EngineMsg} (htake : e.host.mailbox.take? = some (m, mailbox))
    (hm : m.group? = none) :
    (({ e with host := { e.host with mailbox } } : Engine).handle m).Manned link := by
  have hsub := e.context.handle_outlines hm
  refine ⟨?_, fun t ht hwired => ?_, ?_⟩
  · rw [handle_context]
    exact Context.handle_topology h.topology m
  · rw [handle_context] at ht
    rw [hsound.handle_worker_labels htake]
    obtain ⟨u, hu, hut⟩ := List.mem_map.1 (hsub.subset (List.mem_map_of_mem ht))
    obtain ⟨hlabel, hwired'⟩ : u.label = t.label ∧ u.wired = t.wired := Prod.mk.inj hut
    rw [← hlabel]
    exact List.mem_append_left _ (h.handles u hu (hwired'.trans hwired))
  · rw [handle_context]
    have hnames := hsub.map fun x => x.1.2
    rw [List.map_map, List.map_map] at hnames
    exact h.names.sublist hnames

/-- When the last group has come, every handle has a thread for which one can be made, unless the
engine has gone down.

**Proof sketch.** With the last group either the handles and the threads are made, each handle that
can write to a thread with the thread of its number; or the engine goes down over a start that
panics. -/
lemma Course.manned_of_last (hk : (link.command.topology.groups.map GroupInfo.key).Nodup)
    (hsound : e.Sound heard) (howes : e.Owes (requested link) heard)
    (hc : e.context = .pending link (groupsIn heard)) {g : Group} {mailbox : Mailbox EngineMsg}
    (htake : e.host.mailbox.take? = some (.created (.ok g), mailbox))
    (hlast : (groupsIn heard).length + 1 = link.command.groupCount link.app.uri)
    (hup : ¬ (({ e with host := { e.host with mailbox } } : Engine).handle
      (.created (.ok g))).IsDown) :
    (({ e with host := { e.host with mailbox } } : Engine).handle
      (.created (.ok g))).Manned link := by
  have hgroups : groupsIn (heard ++ [.created (.ok g)]) = groupsIn heard ++ [g] :=
    groupsIn_concat _ _
  have howes' := howes.handle htake
  have hdeclared := howes'.declared hk
  have hnd := (howes'.names_perm (by rw [hgroups]; simpa using hlast)).nodup_iff.2
    (StartGraph.names_nodup hk link.app.uri)
  rw [hgroups] at hdeclared hnd
  have hstep : e.context.handle (.created (.ok g)) =
      (Context.pending link (groupsIn heard)).groupCreated g := by
    rw [hc]
    rfl
  have hlabels := hsound.handle_worker_labels htake
  rw [hstep] at hlabels
  obtain ⟨hcontext, ⟨-, -, hlaunch⟩ | ⟨-, ⟨before, heq⟩, -⟩⟩ :=
    Context.pending_last hlast hdeclared
  · rw [hlaunch] at hlabels
    have hall : (({ e with host := { e.host with mailbox } } : Engine).handle
        (.created (.ok g))).context = Context.up link (groupsIn heard ++ [g]) := by
      rw [handle_context, hstep, hcontext]
    refine ⟨by rw [hall]; rfl, fun t ht hwired => ?_, ?_⟩
    · rw [hall] at ht
      rw [hlabels]
      obtain ⟨x, hx, rfl⟩ := List.mem_map.1 ht
      -- A handle can write only if its thread was granted, and then it was started now.
      have hgrants : link.grants x.1.name x.2 = true := by
        by_contra hno
        rw [Context.startedAt, if_neg hno] at hwired
        cases hwired
      refine List.mem_append_right _ (List.mem_map.2 ⟨Context.launchAt link x.1 x.2, ?_, ?_⟩)
      · exact List.mem_map_of_mem (List.mem_filter.2 ⟨hx, hgrants⟩)
      · exact Prod.ext (Context.startedAt_id x.2).symm
          (Context.briefed_name.trans (Context.startedAt_groupName x.2).symm)
    · rw [hall, Context.up_names]
      exact hnd
  · refine absurd (handle_isDown (hstep ▸ heq) ?_) hup
    show (e.context.handle (.created (.ok g))).1.phase ≠ .closed
    rw [hstep, hcontext]
    simp [Context.up]

/-- Once all groups have come in time, every message leaves every handle with its thread.

**Proof sketch.** Either all groups had come before, and the message brings none. Or the graph was
waiting for one group only, and the message brings it. -/
lemma Course.manned_handle (h : e.Course link heard)
    (hk : (link.command.topology.groups.map GroupInfo.key).Nodup) (hsound : e.Sound heard)
    (howes : e.Owes (requested link) heard)
    (hman : CameInTime (link.command.groupCount link.app.uri) heard → e.Manned link)
    (hopen : e.context.phase ≠ .closed) {m : EngineMsg} {mailbox : Mailbox EngineMsg}
    (htake : e.host.mailbox.take? = some (m, mailbox))
    (hup : ¬ (({ e with host := { e.host with mailbox } } : Engine).handle m).IsDown)
    (hin : CameInTime (link.command.groupCount link.app.uri) (heard ++ [m])) :
    (({ e with host := { e.host with mailbox } } : Engine).handle m).Manned link := by
  by_cases hbefore : CameInTime (link.command.groupCount link.app.uri) heard
  · exact (hman hbefore).handle hsound htake ((howes.handle htake).group?_eq_none hbefore)
  · cases h with
    | empty hz => exact absurd ⟨[], heard, rfl, hz.symm, by simp⟩ hbefore
    | refused _ _ hp => exact absurd hp hopen
    | ended hh hn hm =>
      rw [hh, List.append_assoc] at hin
      exact absurd hin (not_cameInTime_of_ended hn hm)
    | up _ hin' => exact absurd hin' hbefore
    | down _ hin' => exact absurd hin' hbefore
    | waits _ hn hc =>
      have hle := hin.le
      rw [groupsIn_concat, List.length_append] at hle
      cases hgroup : m.group? with
      | none =>
        rw [hgroup, Option.toList_none, List.length_nil] at hle
        omega
      | some g =>
        obtain rfl : m = .created (.ok g) := EngineMsg.group?_eq_some hgroup
        have hone : (EngineMsg.created (.ok g)).group?.toList.length = 1 := rfl
        exact manned_of_last hk hsound howes hc htake (by omega) hup

/-- **Once all groups have come in time, the graph is manned**, at any time of any run, unless the
engine has gone down.

**Proof sketch.** By induction on the run. In the beginning no group has come, so that the graph has
none, and its empty list of handles is manned. A message that the engine takes either brings the
last group, or leaves the manned graph as it is; and whatever goes on beside the engine touches
neither handles nor numbers. -/
theorem manned_of_play (hk : (link.command.topology.groups.map GroupInfo.key).Nodup)
    (hok : (start link).2 = .ok ()) {moves : List Move} {taken : List EngineMsg}
    (hp : (start link).1.play moves = some (taken, e)) (hup : ¬ e.IsDown)
    (hin : CameInTime (link.command.groupCount link.app.uri) taken) : e.Manned link := by
  refine induction_of_play (P := fun heard e => ¬ e.IsDown →
    CameInTime (link.command.groupCount link.app.uri) heard → e.Manned link) ?_ ?_ hp hup hin
  · -- Nothing has come yet, so there is no group to come.
    rintro - ⟨before, after, hsplit, hn, -⟩
    obtain ⟨rfl, -⟩ := List.append_eq_nil_iff.1 hsplit.symm
    have hz : link.command.groupsOf link.app.uri = [] := List.length_eq_zero_iff.1 hn.symm
    have hcontext := start_context_of_ok hok
    rw [start_up hz] at hcontext
    refine ⟨by rw [hcontext]; rfl, fun t ht => ?_, ?_⟩
    · rw [hcontext] at ht
      cases ht
    · rw [hcontext]
      exact .nil
  · intro moves taken e e' m hp hman hm hup' hin'
    have hbefore := hman ((sound_of_play hp).not_isDown_of_move hm hup')
    by_cases hh : m = .handle
    · subst hh
      cases moves_of_move? hm with
      | handles hopen htake =>
        rw [taken?_handle htake] at hin'
        exact (course_of_play hk hp).1.manned_handle hk (sound_of_play hp)
          ((owes_start hok).play hp) hbefore hopen htake hup' hin'
    · rw [append_taken? hh] at hin'
      exact (hbefore hin').congr (move_frame hm hh).1 (move_labels hm hh)

/-- The topology is known, no two handles are for the same group, and every thread that takes
messages has a handle on the list that can write to it. -/
structure Staffed (link : Link) (e : Engine) : Prop where
  topology : e.context.topology = some link.command.topology
  names : (e.context.threads.map (·.groupName)).Nodup
  staff : ∀ w ∈ e.host.workers, w.isReceiving = true →
    ∃ t ∈ e.context.threads, t.id = w.id ∧ t.groupName = w.group ∧ t.wired = true

/-- Every handle that has a thread has a worker of its number and its group. -/
lemma Manned.exists_worker (h : e.Manned link) {t : Thread} (ht : t ∈ e.context.threads)
    (hwired : t.wired = true) : ∃ w ∈ e.host.workers, w.id = t.id ∧ w.group = t.groupName := by
  obtain ⟨w, hw, hlabel⟩ := List.mem_map.1 (h.handles t ht hwired)
  obtain ⟨hid, hgroup⟩ : w.id = t.id ∧ w.group = t.groupName := Prod.mk.inj hlabel
  exact ⟨w, hw, hid, hgroup⟩

/-- A thread that takes messages has not ended, so it is listed. -/
lemma Manned.staffed (h : e.Manned link) (hsound : e.Sound heard) (hup : ¬ e.IsDown) :
    e.Staffed link := by
  refine ⟨h.topology, h.names, fun w hw hr => ?_⟩
  obtain ⟨t, hlisted⟩ := hsound.exists_listed hup hw (Worker.not_ended_of_receiving hr)
  obtain ⟨ht, hid⟩ := hsound.steady.context.handle?_eq_some_iff.1 hlisted
  have hwired := (hsound.wired_of_listed hup hw hlisted).1
  obtain ⟨v, hv, hvid, hgroup⟩ := h.exists_worker ht hwired
  obtain rfl : v = w := List.inj_on_of_nodup_map hsound.idsNodup hv hw (hvid.trans hid)
  exact ⟨t, ht, hid, hgroup.symm, hwired⟩

/-- The topology is known, no two handles are for the same group, and all threads have their handles
on the list. -/
structure Complete (link : Link) (e : Engine) : Prop where
  topology : e.context.topology = some link.command.topology
  names : (e.context.threads.map (·.groupName)).Nodup
  workers : ∀ x ∈ e.host.workers.map Worker.label,
    ∃ t ∈ e.context.threads, t.label = x ∧ t.wired = true

/-- Whether every thread has its handle depends on the context, and on the numbers and groups of the
workers. -/
lemma Complete.congr (h : e.Complete link) (hc : e'.context = e.context)
    (hw : e'.host.workers.map Worker.label = e.host.workers.map Worker.label) :
    e'.Complete link :=
  ⟨hc ▸ h.topology, hc ▸ h.names, by rw [hc, hw]; exact h.workers⟩

/-- If every thread has its handle, messages find the threads. -/
lemma Complete.staffed (h : e.Complete link) : e.Staffed link := by
  refine ⟨h.topology, h.names, fun w hw _ => ?_⟩
  obtain ⟨t, ht, hlabel, hwired⟩ := h.workers w.label (List.mem_map_of_mem hw)
  obtain ⟨hid, hgroup⟩ : t.id = w.id ∧ t.groupName = w.group := Prod.mk.inj hlabel
  exact ⟨t, ht, hid, hgroup, hwired⟩

/-- When an engine goes down, all threads that it has started have their handles on the list.

**Proof sketch.** The engine goes down over the last group. Its context is that of a graph that has
come up, and the threads that it has started are the first of those that were to be started; for
each of these the handle has been told that it runs. -/
lemma Course.complete_of_panic (h : e.Course link heard)
    (hk : (link.command.topology.groups.map GroupInfo.key).Nodup) (hsound : e.Sound heard)
    (howes : e.Owes (requested link) heard) {m : EngineMsg} {mailbox : Mailbox EngineMsg}
    (htake : e.host.mailbox.take? = some (m, mailbox)) (hx : .panic ∈ (e.context.handle m).2) :
    (({ e with host := { e.host with mailbox } } : Engine).handle m).Complete link := by
  obtain ⟨-, -, hg⟩ := h.waits_of_panic hsound htake hx
  obtain ⟨g, hnames, -, hup, hsub⟩ := h.last_of_panic hk hsound howes htake hx
  have hcontext : (({ e with host := { e.host with mailbox } } : Engine).handle m).context =
      .up link (groupsIn heard ++ [g]) := by
    rw [handle_context]
    exact hup
  refine ⟨by rw [hcontext]; rfl, ?_, fun label hlabel => ?_⟩
  · rw [hcontext, Context.up_names]
    exact hnames.nodup_iff.2 (StartGraph.names_nodup hk link.app.uri)
  · rw [hsound.handle_worker_labels htake, show e.host.workers = [] from List.map_eq_nil_iff.1 hg,
      List.map_nil, List.nil_append] at hlabel
    obtain ⟨l, hl, rfl⟩ := List.mem_map.1 hlabel
    obtain ⟨x, hxs, rfl⟩ := List.mem_map.1 (hsub.subset hl)
    obtain ⟨hmem, hgrants⟩ := List.mem_filter.1 hxs
    refine ⟨Context.startedAt link x.1 x.2, ?_, ?_, ?_⟩
    · rw [hcontext]
      exact List.mem_map_of_mem hmem
    · exact Prod.ext (Context.startedAt_id x.2)
        ((Context.startedAt_groupName x.2).trans Context.briefed_name.symm)
    · rw [Context.startedAt, if_pos hgrants]

/-- An engine that has gone down keeps its handles and its threads.

**Proof sketch.** By induction over the run. An engine goes down over a message, which was the last
group, and then the handles of all groups are there. After that nothing changes them. -/
lemma complete_of_down (hk : (link.command.topology.groups.map GroupInfo.key).Nodup)
    {moves : List Move} {taken : List EngineMsg}
    (hp : (start link).1.play moves = some (taken, e)) (hd : e.IsDown) : e.Complete link := by
  refine induction_of_play (P := fun _ e => e.IsDown → e.Complete link) ?_ ?_ hp hd
  · exact fun hd => absurd hd (not_isDown_start link)
  · intro moves taken e e' m hp ih hm hd'
    by_cases hh : m = .handle
    · subst hh
      cases moves_of_move? hm with
      | handles hopen htake =>
        have hsound := sound_of_play hp
        exact (course_of_play hk hp).1.complete_of_panic hk hsound
          ((owes_start (start_ok_of_open hp hopen)).play hp) htake
          ((hsound.isDown_handle_iff htake).1 hd')
    · exact (ih ((isDown_of_move hm hh).1 hd')).congr (move_frame hm hh).1 (move_labels hm hh)

/-- **Once all groups have come in time, the graph is staffed**, at any time of any run. -/
theorem staffed_of_play (hk : (link.command.topology.groups.map GroupInfo.key).Nodup)
    (hok : (start link).2 = .ok ()) {moves : List Move} {taken : List EngineMsg}
    (hp : (start link).1.play moves = some (taken, e))
    (hin : CameInTime (link.command.groupCount link.app.uri) taken) : e.Staffed link := by
  by_cases hd : e.IsDown
  · exact (complete_of_down hk hp hd).staffed
  · exact (manned_of_play hk hok hp hd hin).staffed (sound_of_play hp) hd

/-- If a thread has been started, the start of the graph has succeeded, and all groups have come in
time.

**Proof sketch.** A failed start has closed the graph, and then no worker is ever started. In a
successful one, the course of the engine knows of started groups only after all groups have come in
time. -/
lemma cameInTime_of_workers (hk : (link.command.topology.groups.map GroupInfo.key).Nodup)
    {moves : List Move} {taken : List EngineMsg}
    (hp : (start link).1.play moves = some (taken, e)) (hw : e.host.workers ≠ []) :
    (start link).2 = .ok () ∧ CameInTime (link.command.groupCount link.app.uri) taken := by
  constructor
  · cases hr : (start link).2 with
    | ok u => rfl
    | error err =>
      obtain ⟨-, hworkers, -⟩ :=
        (sound_start link).final ((start_closed_iff link).2 ⟨err, hr⟩) hp
      rw [hworkers, start_workers] at hw
      exact absurd rfl hw
  · have hnone (hg : e.startedGroups = []) {p : Prop} : p := absurd (List.map_eq_nil_iff.1 hg) hw
    cases (course_of_play hk hp).1 with
    | empty _ _ hg | refused _ _ _ hg | waits _ _ _ hg | ended _ _ _ _ hg => exact hnone hg
    | up _ hin | down _ hin => exact hin

/-! ## Graphs that stay open -/

/-- While groups are missing, the graph stays open until somebody asks for its end.

**Proof sketch.** By cases on the message. A group is one more that has come, or the last one; in
either case the graph is open, since all groups are declared. No thread has been started, so that
none can report. -/
lemma Course.open_of_waits (hk : (link.command.topology.groups.map GroupInfo.key).Nodup)
    (hsound : e.Sound heard) (howes : e.Owes (requested link) heard)
    (hn : (groupsIn heard).length < link.command.groupCount link.app.uri)
    (hc : e.context = .pending link (groupsIn heard)) (hg : e.startedGroups = []) {m : EngineMsg}
    {mailbox : Mailbox EngineMsg} (htake : e.host.mailbox.take? = some (m, mailbox))
    (hm : ¬ m.AsksForEnd) : (e.context.handle m).1.IsOpen := by
  cases m with
  | created result =>
    cases result with
    | error err => exact absurd trivial hm
    | ok g =>
      have hdeclared := (howes.handle htake).declared hk
      rw [groupsIn_concat] at hdeclared
      rw [hc]
      show ((Context.pending link (groupsIn heard)).groupCreated g).1.IsOpen
      by_cases hlast : (groupsIn heard).length + 1 = link.command.groupCount link.app.uri
      · rw [(Context.pending_last hlast hdeclared).1]
        simp [Context.IsOpen, Context.up]
      · rw [Context.pending_groupCreated link (groupsIn heard) g (by omega)]
        exact Context.pending_isOpen
  | threadClosed id =>
    exact (hsound.no_report_of_pending hc hg (Mailbox.take?_eq_some htake).1).elim
  | route msg =>
    rw [hc]
    exact Context.pending_isOpen
  | close => exact absurd trivial hm

/-- While nobody asks for the end, an open graph stays open.

**Proof sketch.** By cases on the way in which the run has gone so far. Where the topology is known,
an open graph stays open; where groups are awaited, it does so too; the other cases are those of a
graph that has been closed, or was asked to. -/
lemma Course.open_move (h : e.Course link heard)
    (hk : (link.command.topology.groups.map GroupInfo.key).Nodup) (hsound : e.Sound heard)
    (howes : e.Owes (requested link) heard) {m : Move} (hm : e.move? m = some e')
    (ho : e.context.IsOpen) (hq : ∀ x ∈ heard ++ (e.taken? m).toList, ¬ x.AsksForEnd) :
    e'.context.IsOpen := by
  by_cases hh : m = .handle
  · subst hh
    cases moves_of_move? hm with
    | @handles m mailbox hopen htake =>
      rw [taken?_handle htake] at hq
      have hmsg := hq m (List.mem_append_right _ (List.mem_singleton_self m))
      rw [handle_context]
      show (e.context.handle m).1.IsOpen
      cases h with
      | empty _ hs | up _ _ _ hs => exact ho.handle (hs.2 ho) hmsg
      | refused _ _ hp => exact absurd hp hopen
      | ended hh _ hend => exact absurd hend (hq _ (List.mem_append_left _ (by rw [hh]; simp)))
      | waits _ hn hc hg => exact open_of_waits hk hsound howes hn hc hg htake hmsg
      | down _ _ _ hd =>
        exact absurd hd (not_isDown_of_listening (hsound.listening_of_take? htake))
  · rw [(move_frame hm hh).1]
    exact ho

/-- **A graph stays open until somebody asks for its end**, if its start has succeeded. -/
theorem open_of_quiet (hk : (link.command.topology.groups.map GroupInfo.key).Nodup)
    (hok : (start link).2 = .ok ()) {moves : List Move} {taken : List EngineMsg}
    (hp : (start link).1.play moves = some (taken, e)) (hq : ∀ m ∈ taken, ¬ m.AsksForEnd) :
    e.context.IsOpen := by
  have hopen : (start link).1.context.IsOpen := by
    rw [start_context_of_ok hok]
    exact (Context.start_mild link).1
  refine induction_of_play (P := fun heard e => (∀ m ∈ heard, ¬ m.AsksForEnd) → e.context.IsOpen)
    (fun _ => hopen) (fun hp ho hm hq' => ?_) hp hq
  exact (course_of_play hk hp).1.open_move hk (sound_of_play hp) ((owes_start hok).play hp) hm
    (ho fun x hx => hq' x (List.mem_append_left _ hx)) hq'

/-! ## Messages to extensions -/

section Route

variable {g : GraphDefinition} {m : Msg} {mailbox : Mailbox EngineMsg}

/-- **What a message does to the threads**: each thread that takes messages gets an entry for each
destination that is one of its declared extensions.

**Proof sketch.** A thread that takes messages has a handle, which is the only one for its group. So
the destinations that belong to the group are written to it. -/
theorem Staffed.route_workers (h : e.Staffed link) (hg : link.Accepts g)
    (hlink : e.context.link = link) (hsound : e.Sound heard) :
    (({ e with host := { e.host with mailbox } } : Engine).handle (.route m)).host.workers =
      e.host.workers.map fun w =>
        w.write (m.deliveries (g.addresses link.app.uri link.graph w.group)) := by
  obtain rfl := hlink
  have hinj : ∀ t ∈ e.context.threads, ∀ u ∈ e.context.threads,
      t.groupName = u.groupName → t = u :=
    fun t ht u hu hname => List.inj_on_of_nodup_map h.names ht hu hname
  have htop : e.context.topology =
      some (g.topology e.context.link.app.uri e.context.link.graph) := by
    rw [h.topology, hg.topology]
  have hmild : ∀ x ∈ (e.context.handle (.route m)).2, x.IsMild := Context.quiet_dispatch _ m
  rw [handle_workers_of_mild ({ e with host := { e.host with mailbox } } : Engine) hmild
    hsound.idsNodup]
  refine List.map_congr_left fun w hw => ?_
  cases hr : w.isReceiving with
  | false => rw [w.write_of_not_receiving _ hr, w.write_of_not_receiving _ hr]
  | true =>
    obtain ⟨t, ht, hid, hgroup, hwired⟩ := h.staff w hw hr
    rw [← hgroup, ← hid, ← Context.writtenTo_dispatch hg.fault htop hsound.steady.context.idsNodup
      hinj ht hwired m]
    rfl

/-- A message is brought to all destinations that are declared, but for those in groups that have
been refused their threads: the topology is known, the thread of every other declared group has been
started, and each thread gets an entry for each destination that is one of its declared extensions,
as long as the graph is open and no thread is gone. -/
structure Delivers (link : Link) (g : GraphDefinition) (refused : List String) (m : Msg)
    (e e' : Engine) : Prop where
  topology : e.context.topology = some link.command.topology
  started : e.startedGroups.Perm
    (((link.command.groupsOf link.app.uri).map (·.name)).filter (· ∉ refused))
  /-- Every declared extension has exactly one thread. -/
  housed : ∀ n ∈ g.extensionsOn link.app.uri, n.groupName ∉ refused →
    e.startedGroups.count n.groupName = 1
  delivered : e.context.IsOpen → (∀ w ∈ e.host.workers, w.isGone = false) →
    e'.host.workers = e.host.workers.map fun w =>
      { w with inbox := w.inbox ++ m.deliveries (g.addresses link.app.uri link.graph w.group) }

/-- A worker of an open graph that is not gone takes messages. -/
lemma Sound.receiving (h : e.Sound heard) (hup : ¬ e.IsDown) (ho : e.context.IsOpen) {w : Worker}
    (hw : w ∈ e.host.workers) (hg : w.isGone = false) : w.isReceiving = true := by
  by_contra hr
  rw [Bool.not_eq_true] at hr
  obtain ⟨t, ht⟩ := h.exists_listed hup hw (Worker.not_ended_of_not_gone hg)
  have hu := h.peace ho w hw (h.wired_of_listed hup hw ht).2
  rw [hu.isGone hr] at hg
  cases hg

/-- **Messages are brought to all declared destinations** once all groups have come in time, but for
those in groups for which no thread can be made.

**Proof sketch.** The course of the engine says which groups got threads: all but those that are
refused. The messages go by the handles, which are staffed, and a worker that still receives takes
what is written to it. -/
theorem delivers_of_play (hg : link.Accepts g) (hok : (start link).2 = .ok ())
    {moves : List Move} {taken : List EngineMsg}
    (hp : (start link).1.play moves = some (taken, e)) (hup : ¬ e.IsDown)
    (hin : CameInTime (link.command.groupCount link.app.uri) taken) :
    e.Delivers link g (link.threadless (groupsIn taken)) m
      (({ e with host := { e.host with mailbox } } : Engine).handle (.route m)) := by
  have hsound := sound_of_play hp
  have hcourse := (course_of_play hg.keys hp).1
  have hperm := hcourse.perm_of_cameInTime hup hg.keys hin
  have hnd := hcourse.startedGroups_nodup hg.keys
  have hstaffed := staffed_of_play hg.keys hok hp hin
  refine ⟨hstaffed.topology, hperm, fun n hn hkept => ?_, fun ho hgone => ?_⟩
  · refine List.count_eq_one_of_mem hnd (hperm.mem_iff.2 (List.mem_filter.2 ⟨?_, ?_⟩))
    · exact hg.groupName_mem hn
    · exact decide_eq_true hkept
  · rw [hstaffed.route_workers hg (origins_of_play hp).linked hsound]
    refine List.map_congr_left fun w hw => ?_
    exact w.write_of_receiving _ (hsound.receiving hup ho hw (hgone w hw))

end Route

end Engine

/-! ## Messages that come too early -/

/-- The complaint about a destination that is given up because the topology is not known. -/
def Context.givenUp (c : Context) (m : Msg) (dest : Loc) : LogEvent :=
  if dest.extension = none then .noExtensionAddressed m.name dest
  else if dest.app ≠ c.link.app.uri then .remoteDestination m.name dest
  else .unknownDestination m.name dest

/-- Without a topology, all destinations are given up.

**Proof sketch.** Destination by destination. Without a topology no group is found for an extension,
and what names another app or no extension is given up earlier. -/
lemma Context.dispatch_of_unready {c : Context} (ht : c.topology = none) (m : Msg) :
    c.dispatch m = m.dest.map fun d => .log (c.givenUp m d) := by
  rw [dispatch, List.map_eq_flatMap]
  refine List.flatMap_congr fun d _ => ?_
  unfold dispatchTo givenUp
  cases hx : d.extension with
  | none => rfl
  | some extension =>
    have hsome : ¬ some extension = none := by simp
    dsimp only
    rw [if_neg hsome]
    by_cases happ : d.app ≠ c.link.app.uri
    · rw [if_pos happ, if_pos happ]
    · rw [if_neg happ, if_neg happ, Context.groupOf?, ht]
      rfl

namespace Engine

variable {e : Engine} {link : Link}

/-- Logging several things adds them to the log and changes nothing else. -/
lemma foldl_perform_log (e : Engine) (events : List LogEvent) :
    (events.map Effect.log).foldl perform e =
      { e with host := { e.host with log := e.host.log ++ events } } := by
  induction events generalizing e with
  | nil =>
    rw [List.append_nil]
    rfl
  | cons event events ih =>
    rw [List.map_cons, List.foldl_cons, ih]
    show _ = ({ e with host := { e.host with log := e.host.log ++ ([event] ++ events) } } : Engine)
    rw [← List.append_assoc]
    rfl

/-- **A message that comes before the topology is known is lost**: all that happens is that each of
its destinations is complained about. -/
theorem handle_route_of_unready (e : Engine) (hc : e.context.phase ≠ .closed)
    (ht : e.context.topology = none) (m : Msg) :
    e.handle (.route m) =
      { e with host := { e.host with log := e.host.log ++ m.dest.map (e.context.givenUp m) } } := by
  have hlogs : e.context.dispatch m = (m.dest.map (e.context.givenUp m)).map Effect.log := by
    rw [Context.dispatch_of_unready ht, List.map_map]
    rfl
  have hdone : e.carryOut (e.context.handle (.route m)) =
      { e with host := { e.host with log := e.host.log ++ m.dest.map (e.context.givenUp m) } } := by
    show (e.context.dispatch m).foldl perform e = _
    rw [hlogs, foldl_perform_log]
  rw [handle, hdone, retire, if_neg]
  rintro ⟨hclosed, -⟩
  exact hc (by simpa [Context.isClosed] using hclosed)

end Engine

end ExtensionGraph
