import ExtensionGraph.Proofs.ClosingThreads
import ExtensionGraph.Proofs.GroupOutcomes
import ExtensionGraph.Proofs.Quiescence
import ExtensionGraph.Proofs.ReadinessBarrier
import ExtensionGraph.Proofs.StartedGroups

/-!
# A graph starts all of its threads or none

While a graph waits for its groups, the engine may be asked to close it, and groups may fail. Either
ends the wait before any thread has been started, and what comes later starts no thread any more. So
there is one way only to start a thread: all groups come in time, and then all threads are started
by one and the same message.

## Main definitions

* `ExtensionGraph.Engine.Course` — what a run has come to, and by which messages.
* `ExtensionGraph.Engine.NothingStarted`, `ExtensionGraph.Engine.AllStarted` — the two things that a
  run can come to, as far as threads are concerned.
* `ExtensionGraph.Engine.CameInTime` — all groups came before anything went wrong.
* `ExtensionGraph.Engine.reluctant`, `ExtensionGraph.Engine.unnameable` — a spawner that makes one
  thread only, and a graph with a group whose name no thread can have.

## Main results

* `ExtensionGraph.Engine.Course.move`, `ExtensionGraph.Engine.course_of_play` — a run stays on its
  course.
* `ExtensionGraph.Engine.Course.exists_unnameable` — an engine goes down over the name of a group
  only.
* `ExtensionGraph.Engine.all_or_nothing` — what this means for the threads, at any time of any run.
-/

namespace ExtensionGraph

namespace Engine

variable {e e' : Engine} {heard : List EngineMsg} {link : Link}

/-! ## Groups in time -/

/-- As many groups have come before the engine was first asked for the end of the graph, and before
the first failure of a group. -/
def CameInTime (n : Nat) (heard : List EngineMsg) : Prop :=
  ∃ before after, heard = before ++ after ∧ (groupsIn before).length = n ∧
    ∀ m ∈ before, ¬ m.AsksForEnd

/-- Groups that have come in time have done so, whatever is taken afterwards. -/
lemma CameInTime.append {n : Nat} {heard : List EngineMsg} (h : CameInTime n heard)
    (ms : List EngineMsg) : CameInTime n (heard ++ ms) := by
  obtain ⟨before, after, rfl, hn, hq⟩ := h
  exact ⟨before, after ++ ms, List.append_assoc _ _ _, hn, hq⟩

/-- As long as nobody asks for the end, all groups that come do so in time. -/
lemma cameInTime_of_quiet {n : Nat} {heard : List EngineMsg} (hn : (groupsIn heard).length = n)
    (hq : ∀ m ∈ heard, ¬ m.AsksForEnd) : CameInTime n heard :=
  ⟨heard, [], (List.append_nil _).symm, hn, hq⟩

/-- With more messages there can only be more groups among them. -/
lemma groupsIn_mono {ms ms' : List EngineMsg} (h : ms <+: ms') :
    (groupsIn ms).length ≤ (groupsIn ms').length :=
  (h.sublist.filterMap _).length_le

/-- Groups that have come in time have come. -/
lemma CameInTime.le {n : Nat} {heard : List EngineMsg} (h : CameInTime n heard) :
    n ≤ (groupsIn heard).length := by
  obtain ⟨before, after, rfl, rfl, -⟩ := h
  exact groupsIn_mono (List.prefix_append before after)

/-- If the end is asked for while groups are missing, they do not come in time.

**Proof sketch.** If the groups had come in time, then the part up to the last of them would be free
of requests to end, so it would stop before `m` and contain too few groups. -/
lemma not_cameInTime_of_ended {before after : List EngineMsg} {m : EngineMsg} {n : Nat}
    (hn : (groupsIn before).length < n) (hm : m.AsksForEnd) :
    ¬ CameInTime n (before ++ m :: after) := by
  rintro ⟨before', after', hh, hn', hq⟩
  -- The end is not asked for in `before'`, so this is a part of `before`.
  have hpre : before' <+: before := by
    rcases List.append_eq_append_iff.1 hh with ⟨mid, hb, hrest⟩ | ⟨mid, hb, -⟩
    · cases mid with
      | nil =>
        rw [List.append_nil] at hb
        exact hb ▸ List.prefix_rfl
      | cons m' mid =>
        obtain ⟨rfl, -⟩ := List.cons_eq_cons.1 hrest
        exact absurd hm (hq m (by rw [hb]; simp))
    · exact ⟨mid, hb.symm⟩
  have hle := groupsIn_mono hpre
  omega

/-! ## The course of a run -/

/-- The names of the groups that the app of a graph hosts. -/
abbrev hostedNames (link : Link) : List String :=
  (link.command.groupsOf link.app.uri).map (·.name)

/-- What a run has come to, and by which messages. -/
inductive Course (link : Link) (heard : List EngineMsg) (e : Engine) : Prop
  /-- The app hosts no group of the graph. -/
  | empty (hz : link.command.groupCount link.app.uri = 0) (hs : e.IsSettled)
      (hg : e.startedGroups = [])
  /-- Some group cannot be asked for: the graph has been closed at once. -/
  | refused (hpos : 0 < link.command.groupCount link.app.uri) (hh : heard = [])
      (hc : e.context.phase = .closed) (hg : e.startedGroups = [])
  /-- There are groups to come. -/
  | waits (hq : ∀ m ∈ heard, ¬ m.AsksForEnd)
      (hn : (groupsIn heard).length < link.command.groupCount link.app.uri)
      (hc : e.context = .pending link (groupsIn heard)) (hg : e.startedGroups = [])
  /-- The wait has been ended while there were groups to come. -/
  | ended {before after : List EngineMsg} {m : EngineMsg} (hh : heard = before ++ m :: after)
      (hn : (groupsIn before).length < link.command.groupCount link.app.uri)
      (hm : m.AsksForEnd) (hs : e.IsSettled) (hg : e.startedGroups = [])
  /-- All groups have come in time, and all threads have been started that can be made. -/
  | up (hpos : 0 < link.command.groupCount link.app.uri)
      (hin : CameInTime (link.command.groupCount link.app.uri) heard)
      (hnames : ((groupsIn heard).map (·.name)).Perm (hostedNames link)) (hs : e.IsSettled)
      (hg : e.startedGroups = (Context.launched link (groupsIn heard)).map (·.group.name))
  /-- All groups have come in time, but no thread can have the name of one of them, so that the
  engine has gone down. -/
  | down (hpos : 0 < link.command.groupCount link.app.uri)
      (hin : CameInTime (link.command.groupCount link.app.uri) heard)
      (hnames : ((groupsIn heard).map (·.name)).Perm (hostedNames link)) (hd : e.IsDown)
      (hbad : ∃ name ∈ hostedNames link, isThreadName name = false)
      (hg : e.startedGroups.Sublist
        ((Context.launched link (groupsIn heard)).map (·.group.name)))

/-- A run stays on its course while the context stays the same and no thread is started. -/
lemma Course.congr (h : e.Course link heard) (hc : e'.context = e.context)
    (hd : e'.IsDown ↔ e.IsDown) (hg : e'.startedGroups = e.startedGroups) :
    e'.Course link heard := by
  have hsettled (hs : e.IsSettled) : e'.IsSettled := ⟨mt hd.1 hs.1, hc ▸ hs.2⟩
  cases h with
  | empty hz hs hg' => exact .empty hz (hsettled hs) (hg.trans hg')
  | refused hpos hh hp hg' => exact .refused hpos hh (hc ▸ hp) (hg.trans hg')
  | waits hq hn hp hg' => exact .waits hq hn (hc.trans hp) (hg.trans hg')
  | ended hh hn hm hs hg' => exact .ended hh hn hm (hsettled hs) (hg.trans hg')
  | up hpos hin hnames hs hg' => exact .up hpos hin hnames (hsettled hs) (hg.trans hg')
  | down hpos hin hnames hd' hbad hg' =>
    exact .down hpos hin hnames (hd.2 hd') hbad (hg ▸ hg')

/-! ## Groups that come -/

/-- The groups that have come have names of declared groups, and no name comes twice. -/
lemma Owes.names (h : e.Owes (requested link) heard) :
    ((groupsIn heard).map (·.name)).Subperm (hostedNames link) := by
  have hheard : (outcomesIn heard).Subperm (requested link) := by
    refine List.Subperm.trans (List.Sublist.subperm ?_) h
    rw [List.append_assoc]
    exact List.sublist_append_left _ _
  obtain ⟨l, hperm, hsub⟩ := hheard
  rw [names_groupsIn]
  exact (show ((outcomesIn heard).filterMap builtName?).Subperm _ from
    ⟨_, hperm.filterMap builtName?, hsub.filterMap builtName?⟩).trans
      (requested_names link).2.subperm

/-- When as many groups have come as are declared, they are the declared ones. -/
lemma Owes.names_perm (h : e.Owes (requested link) heard)
    (hn : (groupsIn heard).length = link.command.groupCount link.app.uri) :
    ((groupsIn heard).map (·.name)).Perm (hostedNames link) := by
  refine h.names.perm_of_length_le ?_
  rw [List.length_map, List.length_map, hn]
  exact Nat.le_refl _

/-- The groups that have come are declared. -/
lemma Owes.declared (hk : (link.command.topology.groups.map GroupInfo.key).Nodup)
    (h : e.Owes (requested link) heard) :
    ∀ g ∈ groupsIn heard, (link.command.topology.group? link.app.uri g.name).isSome := by
  intro g hg
  obtain ⟨info, hi, hname⟩ := List.mem_map.1 (h.names.subset (List.mem_map_of_mem hg))
  rw [← hname, StartGraph.group?_of_mem hk hi]
  rfl

/-- No more outcomes come than groups are declared. -/
lemma Owes.count (h : e.Owes (requested link) heard) :
    (outcomesIn heard).length ≤ link.command.groupCount link.app.uri := by
  have hlen := h.length_le
  have hcount := (requested_names link).1
  rw [List.length_append, List.length_append] at hlen
  omega

/-- Once all groups have come, nothing more comes of any group.

**Proof sketch.** What is owed and what has come add up to what was asked for. As many outcomes as
groups have been asked for have come before this message, so that none is left for it. -/
lemma Owes.outcome?_eq_none {m : EngineMsg} (h : e.Owes (requested link) (heard ++ [m]))
    (hin : CameInTime (link.command.groupCount link.app.uri) heard) : m.outcome? = none := by
  have hle : (groupsIn heard).length ≤ (outcomesIn heard).length := by
    have hlen := congrArg List.length (names_groupsIn heard)
    rw [List.length_map] at hlen
    rw [hlen]
    exact List.length_filterMap_le _ _
  have hcount := h.count
  have hmany := hin.le
  rw [outcomesIn_append, List.length_append] at hcount
  cases ho : m.outcome? with
  | none => rfl
  | some result =>
    have hone : (outcomesIn [m]).length = 1 := by
      rw [outcomesIn, List.filterMap_cons_some ho]
      rfl
    omega

/-- In particular, no message brings another group. -/
lemma Owes.group?_eq_none {m : EngineMsg} (h : e.Owes (requested link) (heard ++ [m]))
    (hin : CameInTime (link.command.groupCount link.app.uri) heard) : m.group? = none := by
  have hnone := h.outcome?_eq_none hin
  cases m with
  | created => cases hnone
  | threadClosed | route | close => rfl

/-- Nobody reports the end of a thread that has not been started, while nobody asks for the end.

**Proof sketch.** While groups are awaited, no worker exists, and every handle is one that waits for
its start. But a report that waits in the mailbox belongs to a worker or to a handle that has been
closed at once: the ledger of the engine has no account for it. -/
lemma Sound.no_report_of_pending (h : e.Sound heard) {gs : List Group} {id : ThreadId}
    {rest : List EngineMsg} (hc : e.context = .pending link gs) (hg : e.startedGroups = [])
    (hm : e.host.mailbox.messages = .threadClosed id :: rest) : False := by
  have hworkers : e.host.workers = [] := List.map_eq_nil_iff.1 hg
  have hup : ¬ e.IsDown := by
    intro hd
    have hphase := (h.down hd).1
    rw [hc] at hphase
    cases hphase
  have hledger := h.ledger hup
  rw [hm] at hledger
  obtain ⟨t, ht⟩ := hledger.listed
  have hstate : t.state = .attached := by
    have hmem := mem_of_atKey? ht
    rw [hc] at hmem
    obtain ⟨x, -, rfl⟩ := List.mem_map.1 hmem
    rfl
  have hacc := hledger id
  rw [ht, hworkers, atKey?_nil, reportsOf_cons, reportsOf_threadClosed, if_pos rfl] at hacc
  obtain ⟨-, -, hwait⟩ := hacc
  rw [if_neg (by rw [hstate]; simp)] at hwait
  omega

/-! ## The messages of a run -/

/-- Nobody has asked for the end if nobody has asked before, and the new message does not either. -/
lemma quiet_concat {m : EngineMsg} (hq : ∀ m' ∈ heard, ¬ m'.AsksForEnd) (hm : ¬ m.AsksForEnd) :
    ∀ m' ∈ heard ++ [m], ¬ m'.AsksForEnd := by
  intro m' hm'
  rcases List.mem_append.1 hm' with hm' | hm'
  · exact hq m' hm'
  · obtain rfl := List.mem_singleton.1 hm'
    exact hm

/-- Whoever asks for the end while groups are missing ends the wait, and no thread is started any
more. -/
lemma Course.end_of_pending (hl : e.host.mailbox.listening = true) (hg : e.startedGroups = [])
    {m : EngineMsg} (hm : m.AsksForEnd)
    (hn : (groupsIn heard).length < link.command.groupCount link.app.uri) :
    (e.handle m).Course link (heard ++ [m]) := by
  obtain ⟨hs, hlaunch⟩ := e.context.handle_of_asksForEnd hm
  refine .ended rfl hn hm ⟨handle_not_isDown hl fun hx => ?_, ?_⟩ ?_
  · exact ((e.context.effects_of_asksForEnd hm).1 _ hx).1.elim
  · rw [handle_context]
    exact hs
  · rw [handle_startedGroups, hg, hlaunch]
    rfl

/-- Another group comes, and it is not the last one.

**Proof sketch.** A group that is not the last one only adds a handle to the context and has no
thread started, so that the engine waits as before. -/
lemma Course.next_of_pending (hc : e.context = .pending link (groupsIn heard))
    (hg : e.startedGroups = []) (hq : ∀ m ∈ heard, ¬ m.AsksForEnd) (g : Group)
    (hn : (groupsIn heard).length + 1 < link.command.groupCount link.app.uri) :
    (e.handle (.created (.ok g))).Course link (heard ++ [.created (.ok g)]) := by
  have hstep := Context.pending_groupCreated link (groupsIn heard) g hn
  have hgroups : groupsIn (heard ++ [.created (.ok g)]) = groupsIn heard ++ [g] :=
    groupsIn_concat _ _
  refine .waits (quiet_concat hq id) ?_ ?_ ?_
  · rw [hgroups, List.length_append, List.length_singleton]
    exact hn
  · rw [handle_context, hc, hgroups]
    exact congrArg Prod.fst hstep
  · rw [handle_startedGroups, hg, hc]
    show (((Context.pending link (groupsIn heard)).groupCreated g).2.filterMap
      Effect.launch?).map (·.group.name) = []
    rw [hstep]
    rfl

/-- The last group comes. Then all threads are started that can be made; but if no thread can have
the name of one of the groups, the engine goes down.

**Proof sketch.** The last group finds all others on the list. By `Owes.names_perm` the groups on
the list are the declared ones, so that nobody is turned away. -/
lemma Course.last_of_pending (hk : (link.command.topology.groups.map GroupInfo.key).Nodup)
    (hc : e.context = .pending link (groupsIn heard)) (hl : e.host.mailbox.listening = true)
    (hg : e.startedGroups = []) (hq : ∀ m ∈ heard, ¬ m.AsksForEnd) {g : Group}
    (howes : (e.handle (.created (.ok g))).Owes (requested link) (heard ++ [.created (.ok g)]))
    (hlast : (groupsIn heard).length + 1 = link.command.groupCount link.app.uri) :
    (e.handle (.created (.ok g))).Course link (heard ++ [.created (.ok g)]) := by
  have hgroups : groupsIn (heard ++ [.created (.ok g)]) = groupsIn heard ++ [g] :=
    groupsIn_concat _ _
  have hdeclared := howes.declared hk
  rw [hgroups] at hdeclared
  have hlen : (groupsIn (heard ++ [.created (.ok g)])).length =
      link.command.groupCount link.app.uri := by
    rw [hgroups, List.length_append, List.length_singleton]
    exact hlast
  have hnames := howes.names_perm hlen
  have hin := cameInTime_of_quiet hlen (quiet_concat hq (m := .created (.ok g)) id)
  have hpos : 0 < link.command.groupCount link.app.uri := by omega
  have hstep : e.context.handle (.created (.ok g)) =
      (Context.pending link (groupsIn heard)).groupCreated g := by
    rw [hc]
    rfl
  have hstarted := handle_startedGroups e (.created (.ok g))
  rw [hg, List.nil_append, hstep] at hstarted
  obtain ⟨hup, ⟨-, htame, hlaunch⟩ | ⟨⟨g', hg', hbad⟩, ⟨before, heq⟩, hsub⟩⟩ :=
    Context.pending_last hlast hdeclared
  · refine .up hpos hin hnames ⟨handle_not_isDown hl fun hx => ?_, ?_⟩ ?_
    · rw [hstep] at hx
      exact htame _ hx
    · rw [handle_context, hstep, hup]
      exact fun _ => rfl
    · rw [hstarted, hlaunch, hgroups]
  · refine .down hpos hin hnames (handle_isDown (hstep ▸ heq) ?_) ?_ ?_
    · rw [hstep, hup]
      simp [Context.up]
    · rw [← hgroups] at hg'
      exact ⟨g'.name, hnames.subset (List.mem_map_of_mem hg'), hbad⟩
    · rw [hstarted, hgroups]
      exact hsub.map _

/-- While groups are missing, a message brings one, ends the wait, or changes nothing.

**Proof sketch.** Whoever asks for the end finds no thread at work. A report cannot come yet, and a
message to extensions finds nobody. A group is the last one or not. -/
lemma Course.handle_of_waits (hk : (link.command.topology.groups.map GroupInfo.key).Nodup)
    (hsound : e.Sound heard) (howes : e.Owes (requested link) heard) {m : EngineMsg}
    {mailbox : Mailbox EngineMsg} (htake : e.host.mailbox.take? = some (m, mailbox))
    (hq : ∀ m ∈ heard, ¬ m.AsksForEnd)
    (hn : (groupsIn heard).length < link.command.groupCount link.app.uri)
    (hc : e.context = .pending link (groupsIn heard)) (hg : e.startedGroups = []) :
    (({ e with host := { e.host with mailbox } } : Engine).handle m).Course link
      (heard ++ [m]) := by
  have howes' := howes.handle htake
  have hl : mailbox.listening = true :=
    (Mailbox.take?_eq_some htake).2.trans (hsound.listening_of_take? htake)
  -- The message has left the mailbox, and nothing else has changed yet.
  generalize he' : ({ e with host := { e.host with mailbox } } : Engine) = e' at howes' ⊢
  have hc' : e'.context = .pending link (groupsIn heard) := by rw [← he', hc]
  have hl' : e'.host.mailbox.listening = true := by rw [← he', hl]
  have hg' : e'.startedGroups = [] := by
    rw [← he']
    exact hg
  cases m with
  | created result =>
    cases result with
    | error err => exact end_of_pending hl' hg' trivial hn
    | ok g =>
      by_cases hlast : (groupsIn heard).length + 1 = link.command.groupCount link.app.uri
      · exact last_of_pending hk hc' hl' hg' hq howes' hlast
      · exact next_of_pending hc' hg' hq g (by omega)
  | threadClosed id =>
    exact (hsound.no_report_of_pending hc hg (Mailbox.take?_eq_some htake).1).elim
  | route msg =>
    have hgroups : groupsIn (heard ++ [.route msg]) = groupsIn heard :=
      (groupsIn_concat _ _).trans (List.append_nil _)
    refine .waits (quiet_concat hq id) ?_ ?_ ?_
    · rw [hgroups]
      exact hn
    · rw [handle_context, hgroups]
      exact hc'
    · rw [handle_startedGroups, hg']
      show ((e'.context.dispatch msg).filterMap Effect.launch?).map _ = []
      rw [Effect.launches_of_mild (Context.quiet_dispatch _ msg)]
      rfl
  | close => exact end_of_pending hl' hg' trivial hn

/-- The engine takes a message.

**Proof sketch.** One case for each way in which the run may have gone so far. Where everything is
settled, the message starts no thread and no further group is due, so that the run has gone the same
way. Where groups are awaited, the message decides how it goes on. A closed graph takes no message,
and neither does an engine that has gone down. -/
lemma Course.handle (h : e.Course link heard)
    (hk : (link.command.topology.groups.map GroupInfo.key).Nodup) (hsound : e.Sound heard)
    (howes : e.Owes (requested link) heard) (hopen : e.context.phase ≠ .closed) {m : EngineMsg}
    {mailbox : Mailbox EngineMsg} (htake : e.host.mailbox.take? = some (m, mailbox)) :
    (({ e with host := { e.host with mailbox } } : Engine).handle m).Course link
      (heard ++ [m]) := by
  have hsettled (hs : e.IsSettled) :
      (({ e with host := { e.host with mailbox } } : Engine).handle m).startedGroups =
          e.startedGroups := by
    rw [handle_startedGroups]
    show e.startedGroups ++ ((e.context.handle m).2.filterMap Effect.launch?).map _ = _
    rw [(hs.2.handle m).2]
    exact List.append_nil _
  cases h with
  | empty hz hs hg =>
    exact .empty hz (hsound.handle_of_settled hs htake) ((hsettled hs).trans hg)
  | refused hpos hh hc hg => exact absurd hc hopen
  | waits hq hn hc hg => exact handle_of_waits hk hsound howes htake hq hn hc hg
  | ended hh hn hm hs hg =>
    exact .ended (by rw [hh, List.append_assoc]; rfl) hn hm (hsound.handle_of_settled hs htake)
      ((hsettled hs).trans hg)
  | up hpos hin hnames hs hg =>
    have hgroups : groupsIn (heard ++ [m]) = groupsIn heard := by
      rw [groupsIn_concat, (howes.handle htake).group?_eq_none hin]
      exact List.append_nil _
    exact .up hpos (hin.append [m]) (hgroups ▸ hnames) (hsound.handle_of_settled hs htake)
      (hgroups ▸ (hsettled hs).trans hg)
  | down hpos hin hnames hd =>
    exact absurd hd (not_isDown_of_listening (hsound.listening_of_take? htake))

/-- **A run stays on its course**, whatever happens. -/
theorem Course.move (h : e.Course link heard)
    (hk : (link.command.topology.groups.map GroupInfo.key).Nodup) (hsound : e.Sound heard)
    (howes : e.Owes (requested link) heard) {m : Move} (hm : e.move? m = some e') :
    e'.Course link (heard ++ (e.taken? m).toList) := by
  by_cases hh : m = .handle
  · subst hh
    cases moves_of_move? hm with
    | handles hopen htake =>
      rw [taken?_handle htake]
      exact h.handle hk hsound howes hopen htake
  · obtain ⟨hc, hg⟩ := move_frame hm hh
    rw [append_taken? hh]
    exact h.congr hc (isDown_of_move hm hh) hg

/-- So does every run from there: its moves are taken one after the other. -/
lemma Course.play (h : e.Course link heard)
    (hk : (link.command.topology.groups.map GroupInfo.key).Nodup) (hsound : e.Sound heard)
    (howes : e.Owes (requested link) heard) {moves : List Move} {taken : List EngineMsg}
    (hp : e.play moves = some (taken, e')) : e'.Course link (heard ++ taken) :=
  (play_induction (P := fun heard e => e.Sound heard ∧ e.Owes (requested link) heard ∧
    e.Course link heard) (fun ⟨hsound, howes, h⟩ hm =>
      ⟨hsound.move hm, howes.move hm, h.move hk hsound howes hm⟩) ⟨hsound, howes, h⟩ hp).2.2

/-- After a start that has succeeded the context is as it has decided to be. -/
lemma start_context_of_ok (hok : (start link).2 = .ok ()) :
    (start link).1.context = (Context.create link true).start.1 := by
  rw [start_eq_of_ok hok, retire_context, begun_context]

/-- The start of a graph that is not closed has succeeded. -/
lemma start_ok_of_open {moves : List Move} {taken : List EngineMsg}
    (hp : (start link).1.play moves = some (taken, e)) (hopen : e.context.phase ≠ .closed) :
    (start link).2 = .ok () := by
  cases hr : (start link).2 with
  | ok u => rfl
  | error err =>
    have hc := (start_closed_iff link).2 ⟨err, hr⟩
    rw [((sound_start link).final hc hp).1] at hopen
    exact absurd hc hopen

/-- No engine is down when its graph has just been started. -/
lemma not_isDown_start (link : Link) : ¬ (start link).1.IsDown := by
  rintro ⟨hdeaf, hopen⟩
  cases hr : (start link).2 with
  | ok u =>
    have hok : (start link).2 = .ok () := hr
    rw [start_eq_of_ok hok, retire_context] at hopen
    rw [start_eq_of_ok hok, retire_mailbox, if_neg, (begun_host link).2] at hdeaf
    · cases hdeaf
    · rintro ⟨hclosed, -⟩
      exact hopen (by simpa [Context.isClosed] using hclosed)
  | error err => exact hopen ((start_closed_iff link).2 ⟨err, hr⟩)

/-- The course of every run from the start of a graph on.

**Proof sketch.** By cases on the result of the start. If it has succeeded, the graph is up at once,
for want of groups, or groups are awaited; from there every move keeps the run on its course. If it
has failed, the graph is closed, and nothing happens in a closed graph. -/
theorem course_of_play {moves : List Move} {taken : List EngineMsg}
    (hk : (link.command.topology.groups.map GroupInfo.key).Nodup)
    (hp : (start link).1.play moves = some (taken, e)) :
    e.Course link taken ∧ (outcomesIn taken).length ≤ link.command.groupCount link.app.uri := by
  have hsound := sound_start link
  have hg := start_startedGroups link
  cases hr : (start link).2 with
  | ok u =>
    have hok : (start link).2 = .ok () := hr
    have howes := owes_start hok
    have hcontext := start_context_of_ok hok
    have hcourse : (start link).1.Course link [] := by
      by_cases hz : link.command.groupsOf link.app.uri = []
      · refine .empty (congrArg List.length hz) ⟨not_isDown_start link, ?_⟩ hg
        rw [hcontext, start_up hz]
        exact fun _ => rfl
      · refine .waits (by simp) (List.length_pos_iff.2 hz) ?_ hg
        rw [hcontext, start_pending hz]
        rfl
    exact ⟨hcourse.play hk hsound howes hp, (howes.play hp).count⟩
  | error err =>
    have hc : (start link).1.context.phase = .closed := (start_closed_iff link).2 ⟨err, hr⟩
    obtain ⟨hcontext, hworkers, rfl⟩ := hsound.final hc hp
    have hg' : e.startedGroups = [] := by
      rw [startedGroups, Host.startedGroups, hworkers]
      exact hg
    refine ⟨?_, Nat.zero_le _⟩
    rcases Nat.eq_zero_or_pos (link.command.groupCount link.app.uri) with hz | hpos
    · have hc' : e.context.phase = .closed := by rw [hcontext]; exact hc
      exact .empty hz ⟨not_isDown_of_closed hc', fun ho => absurd hc' ho.2⟩ hg'
    · exact .refused hpos rfl (by rw [hcontext]; exact hc) hg'

/-! ## All or nothing -/

/-- The calls of extensions that have been made. -/
def callsMade (e : Engine) : List (String × Callback) :=
  e.host.workers.flatMap fun w => w.trace.filterMap fun
    | .called name callback => some (name, callback)
    | _ => none

/-- No thread of the graph has been started, and no extension has been called. -/
def NothingStarted (e : Engine) : Prop := e.host.workers = [] ∧ e.callsMade = []

/-- There are groups with the given names, and a thread has been started for each of them. -/
def AllStarted (names : List String) (e : Engine) : Prop :=
  names ≠ [] ∧ e.startedGroups.Perm names

/-- Where no group has been started there is no worker, so nobody has been called. -/
lemma nothingStarted_of_no_groups (h : e.startedGroups = []) : e.NothingStarted := by
  have hw : e.host.workers = [] := List.map_eq_nil_iff.1 h
  refine ⟨hw, ?_⟩
  rw [callsMade, hw]
  rfl

/-- If all groups have come in time, the thread of each of them has been started that can be made,
unless the engine has gone down.

**Proof sketch.** Groups have come in time only where the graph has no groups or is up: in every
other case too few have come, or somebody has asked for the end before. When the graph has come up,
the threads have been started that can be made for the groups that came, and these are the groups
that the app hosts. -/
lemma Course.perm_of_cameInTime (h : e.Course link heard) (hup : ¬ e.IsDown)
    (hk : (link.command.topology.groups.map GroupInfo.key).Nodup)
    (hin : CameInTime (link.command.groupCount link.app.uri) heard) :
    e.startedGroups.Perm
      ((hostedNames link).filter (· ∉ link.threadless (groupsIn heard))) := by
  cases h with
  | empty hz hs hg =>
    have hnil : link.command.groupsOf link.app.uri = [] := List.length_eq_zero_iff.1 hz
    rw [hg, hostedNames, hnil]
    exact .nil
  | refused hpos hh =>
    have hle := hin.le
    rw [hh] at hle
    exact absurd hle (Nat.not_le.2 hpos)
  | waits hq hn => exact absurd hin.le (Nat.not_le.2 hn)
  | ended hh hn hm =>
    rw [hh] at hin
    exact absurd hin (not_cameInTime_of_ended hn hm)
  | up hpos hin hnames hs hg =>
    rw [hg, Context.launched_names (hnames.nodup_iff.2 (StartGraph.names_nodup hk link.app.uri))]
    exact hnames.filter _
  | down _ _ _ hd => exact absurd hd hup

/-- No two threads are started for groups of the same name.

**Proof sketch.** Threads are started in only one step of the course, for groups whose names are
those of different rows of the table. In all other states none has been started. -/
lemma Course.startedGroups_nodup (h : e.Course link heard)
    (hk : (link.command.topology.groups.map GroupInfo.key).Nodup) : e.startedGroups.Nodup := by
  have hlaunched (hnames : ((groupsIn heard).map (·.name)).Perm (hostedNames link)) :
      ((Context.launched link (groupsIn heard)).map (·.group.name)).Nodup := by
    have hnd := hnames.nodup_iff.2 (StartGraph.names_nodup hk link.app.uri)
    rw [Context.launched_names hnd]
    exact hnd.filter _
  cases h with
  | empty _ _ hg | refused _ _ _ hg | waits _ _ _ hg | ended _ _ _ _ hg =>
    rw [hg]
    exact .nil
  | up _ _ hnames _ hg =>
    rw [hg]
    exact hlaunched hnames
  | down _ _ hnames _ _ hg => exact (hlaunched hnames).sublist hg

/-- **An engine goes down only over a group whose name no thread can have.** -/
theorem Course.exists_unnameable (h : e.Course link heard) (hsound : e.Sound heard)
    (hd : e.IsDown) : ∃ name ∈ hostedNames link, isThreadName name = false := by
  cases h with
  | empty _ hs | ended _ _ _ hs | up _ _ _ hs => exact absurd hd hs.1
  | refused _ _ hc => exact absurd hd (not_isDown_of_closed hc)
  | waits _ _ hc =>
    have hphase := (hsound.down hd).1
    rw [hc] at hphase
    cases hphase
  | down _ _ _ _ hbad => exact hbad

/-- An engine panics only while its graph is waiting for groups.

**Proof sketch.** A context that panics is open and knows of no topology. In all states of the
course but the one that waits, it is settled, so it knows its topology as long as it is open, or it
is closed or down. -/
lemma Course.waits_of_panic (h : e.Course link heard) (hsound : e.Sound heard) {m : EngineMsg}
    {mailbox : Mailbox EngineMsg} (htake : e.host.mailbox.take? = some (m, mailbox))
    (hx : .panic ∈ (e.context.handle m).2) :
    (groupsIn heard).length < link.command.groupCount link.app.uri ∧
      e.context = .pending link (groupsIn heard) ∧ e.startedGroups = [] := by
  obtain ⟨ho, hnone, -⟩ := hsound.steady.context.panics_handle hx
  have hunsettled (hs : e.IsSettled) : False := by
    have hsome := hs.2 ho
    rw [hnone] at hsome
    cases hsome
  cases h with
  | empty _ hs | ended _ _ _ hs | up _ _ _ hs => exact (hunsettled hs).elim
  | refused _ _ hp => exact absurd hp ho.2
  | down _ _ _ hd => exact absurd hd (not_isDown_of_listening (hsound.listening_of_take? htake))
  | waits _ hn hc hg => exact ⟨hn, hc, hg⟩

/-- A message over which the engine panics brings the last group, and no thread can have the name of
one of the groups. By then all handles have been started, and some of the threads.

**Proof sketch.** An engine panics only over a group with which all are there, as it awaits groups.
Since all groups that have come are ones that were asked for, their names are those that the app
hosts. The decision is that of a graph that comes up, cut off before the first thread that cannot be
made. -/
lemma Course.last_of_panic (h : e.Course link heard)
    (hk : (link.command.topology.groups.map GroupInfo.key).Nodup) (hsound : e.Sound heard)
    (howes : e.Owes (requested link) heard) {m : EngineMsg} {mailbox : Mailbox EngineMsg}
    (htake : e.host.mailbox.take? = some (m, mailbox)) (hx : .panic ∈ (e.context.handle m).2) :
    ∃ g, ((groupsIn heard ++ [g]).map (·.name)).Perm (hostedNames link) ∧
      (∃ name ∈ hostedNames link, isThreadName name = false) ∧
      (e.context.handle m).1 = .up link (groupsIn heard ++ [g]) ∧
      ((e.context.handle m).2.filterMap Effect.launch?).Sublist
        (Context.launched link (groupsIn heard ++ [g])) := by
  obtain ⟨-, hc, -⟩ := h.waits_of_panic hsound htake hx
  obtain ⟨-, -, g, rfl, hlen, -⟩ := hsound.steady.context.panics_handle hx
  have howes' := howes.handle htake
  have hgroups : groupsIn (heard ++ [.created (.ok g)]) = groupsIn heard ++ [g] :=
    groupsIn_concat _ _
  have hlast : (groupsIn heard).length + 1 = link.command.groupCount link.app.uri := by
    rw [hc] at hlen
    simpa [Context.opened, Context.withThread, Context.pending, Context.localGroups,
      Context.create, StartGraph.groupCount] using hlen
  have hdeclared := howes'.declared hk
  have hnames := howes'.names_perm (by rw [hgroups, List.length_append]; exact hlast)
  rw [hgroups] at hdeclared hnames
  rw [hc] at hx ⊢
  obtain ⟨hup, ⟨-, htame, -⟩ | ⟨⟨g', hg', hbad⟩, -, hsub⟩⟩ := Context.pending_last hlast hdeclared
  · exact (htame _ hx).elim
  · exact ⟨g, hnames, ⟨g'.name, hnames.subset (List.mem_map_of_mem hg'), hbad⟩, hup, hsub⟩

/-- No two groups come under the same name. -/
lemma groupNames_nodup {moves : List Move} {taken : List EngineMsg}
    (hk : (link.command.topology.groups.map GroupInfo.key).Nodup)
    (hp : (start link).1.play moves = some (taken, e)) : ((groupsIn taken).map (·.name)).Nodup := by
  cases hr : (start link).2 with
  | ok u =>
    obtain ⟨l, hperm, hsub⟩ := ((owes_start hr).play hp).names
    exact hperm.nodup_iff.1 ((StartGraph.names_nodup hk link.app.uri).sublist hsub)
  | error err =>
    obtain ⟨-, -, rfl⟩ := (sound_start link).final ((start_closed_iff link).2 ⟨err, hr⟩) hp
    exact .nil

/-- **A graph starts all of its threads or none.** Let a graph be accepted by its app, let its
addons and extensions do whatever they want, and let all its threads be made that are asked for. At
any time of any run, either no thread of the graph has been started and no extension has been
called, or a thread has been started for each of the groups that the app hosts, of which there is
one at least. The latter is the case exactly if as many groups as the app hosts have come before the
end was asked for and before any group failed. More outcomes than that do not come.

**Proof sketch.** A run goes one of six ways. In four of them no thread has been started, and too
few groups have come, or the end was asked for before. When the graph is up, all groups have come in
time and the thread of each of them has been started. The last way is that the engine has gone down,
which it does not if all threads can be made. -/
theorem all_or_nothing {g : GraphDefinition} (app : AppInfo) {graph : String} {s : StartGraph}
    (hs : StartGraph.ofDefinition g app.uri graph = .ok s) (name : String) (registry : Registry)
    (spawner : Spawner) (hm : (Link.ofStart app registry spawner (s.withName name)).MakesThreads)
    {moves : List Move} {taken : List EngineMsg}
    (hp : (start (Link.ofStart app registry spawner (s.withName name))).1.play moves =
      some (taken, e)) :
    let names := (s.groupsOf app.uri).map (·.name)
    (e.NothingStarted ∨ e.AllStarted names) ∧
    (e.AllStarted names ↔ 0 < names.length ∧ CameInTime names.length taken) ∧
    (outcomesIn taken).length ≤ names.length := by
  intro names
  have hlen : names.length = s.groupCount app.uri := List.length_map _
  have hkeys := StartGraph.groupKeys_nodup hs
  have hk : ((Link.ofStart app registry spawner (s.withName name)).command.topology.groups.map
      GroupInfo.key).Nodup := hkeys
  obtain ⟨hcourse, hcount⟩ := course_of_play hk hp
  rw [hlen]
  -- Wherever no thread has been started, it is to be shown that the groups have not come in time.
  have hnone (hg : e.startedGroups = [])
      (hlate : ¬ (0 < s.groupCount app.uri ∧ CameInTime (s.groupCount app.uri) taken)) :
      (e.NothingStarted ∨ e.AllStarted names) ∧
        (e.AllStarted names ↔
          0 < s.groupCount app.uri ∧ CameInTime (s.groupCount app.uri) taken) := by
    refine ⟨.inl (nothingStarted_of_no_groups hg), iff_of_false (fun hall => ?_) hlate⟩
    obtain ⟨hne, hperm⟩ := hall
    rw [hg] at hperm
    exact hne hperm.nil_eq.symm
  have hstarted := fun hup => hcourse.perm_of_cameInTime hup hk
  rw [← and_assoc]
  refine ⟨?_, hcount⟩
  cases hcourse with
  | empty hz hset hg =>
    refine hnone hg fun hx => ?_
    exact absurd hz (Nat.ne_of_gt hx.1)
  | refused hpos hh hc hg =>
    refine hnone hg fun hx => ?_
    have hle := hx.2.le
    rw [hh] at hle
    exact absurd hle (Nat.not_le.2 hpos)
  | waits hq hn hc hg => exact hnone hg fun hx => absurd hx.2.le (Nat.not_le.2 hn)
  | ended hh hn hmsg hset hg =>
    refine hnone hg fun hx => ?_
    rw [hh] at hx
    exact not_cameInTime_of_ended hn hmsg hx.2
  | up hpos hin hnames hset hg =>
    have hperm : e.startedGroups.Perm names := by
      have hall := hstarted hset.1 hin
      rw [hm.threadless hnames.subset, List.filter_eq_self.2 (by simp)] at hall
      exact hall
    have hall : e.AllStarted names := by
      refine ⟨fun hnil => ?_, hperm⟩
      rw [hnil] at hlen
      exact absurd hlen (Nat.ne_of_lt hpos)
    exact ⟨.inr hall, iff_of_true hall ⟨hpos, hin⟩⟩
  | down _ _ _ _ hbad =>
    -- The engine has gone down over a name that no thread can have, and there is no such name.
    obtain ⟨name, hname, hbad⟩ := hbad
    obtain ⟨info, hi, rfl⟩ := List.mem_map.1 hname
    rw [hm.nameable info hi] at hbad
    cases hbad

/-- A spawner that makes one thread and no other. -/
def reluctant : Spawner := ⟨fun _ id => if id.number = 1 then none else some "no more threads"⟩

/-- A graph with a group whose name no thread can have. -/
def unnameable : GraphDefinition :=
  ⟨[.extension ⟨"caller\x00", "caller", none, none, none⟩,
    .extension ⟨"listener", "idle", none, none, none⟩], []⟩

/-- A graph with two groups. If both have come before it is closed, both threads have been started.
If it is closed in between, no thread is ever started, although the second group still comes. -/
theorem all_or_nothing_twoGroups :
    let s : StartGraph := ⟨.ofGraph "app" "1", none, twoGroups.topology "app" "1"⟩
    let run := (start (Link.ofStart ⟨"app", ""⟩ .withDefaults .willing (s.withName ""))).1.play
    StartGraph.ofDefinition twoGroups "app" "1" = .ok s ∧
    (∃ taken e,
      run [.complete 1, .complete 0, .handle, .handle, .close, .handle] = some (taken, e) ∧
        e.AllStarted ["first", "second"]) ∧
    ∃ taken e,
      run [.complete 0, .handle, .close, .complete 0, .handle, .handle] = some (taken, e) ∧
        e.NothingStarted := by
  intro s run
  have hs : StartGraph.ofDefinition twoGroups "app" "1" = .ok s := rfl
  have hnames : (s.groupsOf "app").map (·.name) = ["first", "second"] := by rfl
  have hmakes : (Link.ofStart ⟨"app", ""⟩ .withDefaults .willing (s.withName "")).MakesThreads :=
    ⟨fun _ => rfl, by decide⟩
  refine ⟨hs, ?_, ?_⟩
  · have hrun : (run [.complete 1, .complete 0, .handle, .handle, .close, .handle]).map (fun r =>
        ((groupsIn (r.1.take 2)).length, (r.1.take 2).all (·.group?.isSome))) =
        some (2, true) := by decide +kernel
    obtain ⟨⟨taken, e⟩, hp, hsum⟩ := Option.map_eq_some_iff.1 hrun
    simp only [Prod.mk.injEq, List.all_eq_true] at hsum
    obtain ⟨hlen, hgroups⟩ := hsum
    have hintime : CameInTime 2 taken := by
      refine ⟨taken.take 2, taken.drop 2, (List.take_append_drop 2 taken).symm, hlen, ?_⟩
      intro m hm hend
      have hsome := hgroups m hm
      cases m with
      | created result =>
        cases result with
        | ok g => exact hend
        | error err => cases hsome
      | threadClosed | route | close => cases hsome
    obtain ⟨-, hall, -⟩ := all_or_nothing ⟨"app", ""⟩ hs "" .withDefaults .willing hmakes hp
    rw [hnames] at hall
    exact ⟨taken, e, hp, hall.2 ⟨Nat.zero_lt_two, hintime⟩⟩
  · have hrun : (run [.complete 0, .handle, .close, .complete 0, .handle, .handle]).map
        (·.2.startedGroups) = some [] := by decide +kernel
    obtain ⟨⟨taken, e⟩, hp, hnone⟩ := Option.map_eq_some_iff.1 hrun
    obtain ⟨hcases, -⟩ := all_or_nothing ⟨"app", ""⟩ hs "" .withDefaults .willing hmakes hp
    refine ⟨taken, e, hp, hcases.resolve_right fun hall => ?_⟩
    have hperm := hall.2
    rw [show e.startedGroups = [] from hnone] at hperm
    exact hall.1 hperm.nil_eq.symm

end Engine

end ExtensionGraph
