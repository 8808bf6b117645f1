import ExtensionGraph.Proofs.AbortedStart
import ExtensionGraph.Proofs.AllOrNothing
import ExtensionGraph.Proofs.GraphIds
import ExtensionGraph.Proofs.MailboxOrder

/-!
# What is shown is what is started

`validate` shows the tables that a graph would be started with, under an id of its own. A run gives
the graph another id. Since the id decides nothing, the tables that were shown are those of the
graph that is started, and the number of its groups that is shown is the number of threads that it
gets: an engine makes one thread for each group that comes, and every group comes, unless the graph
is closed before.

## Main definitions

* `ExtensionGraph.Engine.threadsMade` — how many threads a graph has got so far.
* `ExtensionGraph.Engine.ThreadsFor` — how many these are, at any time of a run.

## Main results

* `ExtensionGraph.Context.handle_nextThread` — a thread is made for each group that comes.
* `ExtensionGraph.Engine.owed_of_play` — no group is lost before the graph is closed.
* `ExtensionGraph.Engine.threadsFor_of_play` — the threads of a graph whose groups can be built.
* `ExtensionGraph.App.preview_is_what_runs` — all of it, for what is shown and what is started.
-/

namespace ExtensionGraph

/-- As long as the graph is not closed, **a thread is made for each group that comes**, and for
nothing else.

**Proof sketch.** By cases on the message. Each group gets a handle with the next number, whether it
is opened or given up at once; closing and reports make no handles. -/
theorem Context.handle_nextThread (c : Context) (hopen : c.phase ≠ .closed) (m : EngineMsg) :
    (c.handle m).1.nextThread = c.nextThread + (groupsIn [m]).length := by
  cases m with
  | created result =>
    cases result with
    | ok g =>
      show (c.groupCreated g).1.nextThread = c.nextThread + 1
      have hr := c.receives g
      generalize c.groupCreated g = r at hr ⊢
      cases hr with
      | late h => exact absurd h hopen
      | closing | early | twice | ready => rfl
      | strange => exact (c.opened g).told.close_nextThread
    | error err => exact c.close_nextThread
  | threadClosed id =>
    cases hf : c.handle? id with
    | none =>
      rw [c.threadClosed_eq_of_unlisted hf]
      rfl
    | some t =>
      have hid : t.id = id := key_of_atKey? hf
      subst hid
      rw [c.threadClosed_eq_of_listed hf]
      split
      · split
        · exact Context.conclude_nextThread _
        · rfl
      · rfl
  | route m => rfl
  | close => exact c.close_nextThread

namespace Engine

variable {link : Link} {e e' : Engine} {moves : List Move} {taken : List EngineMsg}
  {built : List Group}

/-! ## Threads that are made -/

/-- How many threads have been made; they are numbered from one on. -/
def threadsMade (e : Engine) : Nat := e.context.nextThread - 1

/-- What the engine has taken is all that has changed its context. -/
lemma context_of_untaken (hp : e.play moves = some ([], e')) : e'.context = e.context := by
  refine induction_of_play (P := fun heard e₁ => heard = [] → e₁.context = e.context)
    (fun _ => rfl) (fun {moves taken e₁ e₂ m} _ h hm hnone => ?_) hp rfl
  obtain ⟨htaken, hm'⟩ := List.append_eq_nil_iff.1 hnone
  by_cases hh : m = .handle
  · subst hh
    cases moves_of_move? hm with
    | handles _ htake =>
      rw [taken?_handle htake] at hm'
      cases hm'
  · exact (move_frame hm hh).1.trans (h htaken)

/-- An engine makes a thread for each group that it takes.

**Proof sketch.** By induction over the run. Only taking a group gives a number, and it gives
one. -/
lemma nextThread_of_play (hok : (start link).2 = .ok ())
    (hp : (start link).1.play moves = some (taken, e)) :
    e.context.nextThread = (groupsIn taken).length + 1 := by
  have hstart : (start link).1.context.nextThread = (groupsIn []).length + 1 := by
    rw [start_context_of_ok hok]
    exact (Context.start_unnumbered link).1
  refine play_induction (P := fun heard e => e.context.nextThread = (groupsIn heard).length + 1)
    (fun {heard e e' m} h hm => ?_) hstart hp
  by_cases hh : m = .handle
  · subst hh
    cases moves_of_move? hm with
    | @handles m _ hopen htake =>
      have hgroups : groupsIn (heard ++ [m]) = groupsIn heard ++ groupsIn [m] :=
        List.filterMap_append
      rw [handle_context, Context.handle_nextThread _ hopen, h, taken?_handle htake,
        Option.toList_some, hgroups, List.length_append]
      omega
  · rw [(move_frame hm hh).1, append_taken? hh]
    exact h

/-! ## Groups that come -/

/-- **No group is lost as long as the engine listens**: what has come of it has been taken, or
waits, or is still to come.

**Proof sketch.** Every move keeps account of the outcomes unless the engine stops listening, and an
engine that listens has always listened. -/
theorem owed_of_play (hok : (start link).2 = .ok ())
    (hp : (start link).1.play moves = some (taken, e)) (hl : e.host.mailbox.listening = true) :
    (e.owed taken).Perm (requested link) := by
  refine induction_of_play
    (P := fun heard e => e.host.mailbox.listening = true → (e.owed heard).Perm (requested link))
    (fun hl => ?_) (fun {moves taken e₁ e₂ m} _ h hm hl => ?_) hp hl
  · rw [start_eq_of_ok hok] at hl ⊢
    unfold retire at hl ⊢
    split at hl
    · cases hl
    · next hopen =>
      rw [if_neg hopen, begun_owed]
  · exact ((owed_of_move hm taken).2 hl).trans (h (prefix_of_move hm hl).1)

/-- If nothing else comes than groups, then there are as many groups as there are outcomes. -/
lemma length_groupsIn {ms : List EngineMsg}
    (h : ∀ r ∈ outcomesIn ms, r ∈ built.map Except.ok) :
    (groupsIn ms).length = (outcomesIn ms).length := by
  induction ms with
  | nil => rfl
  | cons m ms ih =>
    have hrest : (groupsIn ms).length = (outcomesIn ms).length := by
      refine ih fun r hr => h r ?_
      exact ((List.sublist_cons_self m ms).filterMap _).subset hr
    cases m with
    | created result =>
      obtain ⟨g, -, rfl⟩ := List.mem_map.1 (h result List.mem_cons_self)
      exact congrArg (· + 1) hrest
    | threadClosed | route | close => exact hrest

section Built

variable (hb : List.Forall₂ link.registry.Builds (link.command.groupsOf link.app.uri) built)
include hb

/-- A start with addons that build all groups succeeds. -/
lemma start_ok_of_builds : (start link).2 = .ok () := congrArg Prod.snd (start_of_builds hb).1

/-- If all groups can be built, no failure is ever on its way. -/
lemma outcomes_of_builds (hp : (start link).1.play moves = some (taken, e)) :
    (∀ r ∈ outcomesIn taken, r ∈ built.map Except.ok) ∧
      ∀ r ∈ outcomesIn e.host.mailbox.messages, r ∈ built.map Except.ok := by
  have howes : (e.owed taken).Subperm (requested link) :=
    (owes_start (start_ok_of_builds hb)).play hp
  have hrequested : requested link = built.map Except.ok := (asked_of_builds hb).2
  rw [hrequested] at howes
  constructor
  · intro r hr
    exact howes.subset (List.mem_append_left _ (List.mem_append_left _ hr))
  · intro r hr
    exact howes.subset (List.mem_append_left _ (List.mem_append_right _ hr))

/-- The engine makes a thread for each group that it takes. -/
lemma threadsMade_of_play (hp : (start link).1.play moves = some (taken, e)) :
    e.threadsMade = (groupsIn taken).length := by
  rw [threadsMade, nextThread_of_play (start_ok_of_builds hb) hp, Nat.add_sub_cancel]

/-- As long as the engine listens, all groups have come when nothing is left to come.

**Proof sketch.** What is owed, what waits and what has been taken add up to what was asked for, and
nothing is owed or waits. All outcomes are groups, since all addons build theirs. -/
lemma threadsMade_of_rest (hp : (start link).1.play moves = some (taken, e))
    (hl : e.host.mailbox.listening = true) (hcreations : e.host.creations = [])
    (hnone : groupsIn e.host.mailbox.messages = []) :
    e.threadsMade = link.command.groupCount link.app.uri := by
  obtain ⟨htaken, hwaiting⟩ := outcomes_of_builds hb hp
  have hlen := (owed_of_play (start_ok_of_builds hb) hp hl).length_eq
  have hempty : (outcomesIn e.host.mailbox.messages).length = 0 := by
    rw [← length_groupsIn hwaiting, hnone]
    rfl
  have hrequested : (requested link).length = link.command.groupCount link.app.uri := by
    rw [show requested link = built.map Except.ok from (asked_of_builds hb).2, List.length_map]
    exact hb.length_eq.symm
  rw [hrequested, owed, hcreations, List.length_append, List.length_append, List.map_nil,
    List.length_nil, hempty] at hlen
  rw [threadsMade_of_play hb hp, length_groupsIn htaken]
  exact hlen

end Built

/-- How many threads a graph with some number of groups has got, at any time of its run. -/
structure ThreadsFor (link : Link) (groups : Nat) (taken : List EngineMsg) (e : Engine) : Prop where
  made : e.threadsMade = (groupsIn taken).length
  le : e.threadsMade ≤ groups
  /-- When no group is being built or waits any more, all threads have been made, unless the end of
  the graph was asked for before the last group came. -/
  complete : e.host.creations = [] → groupsIn e.host.mailbox.messages = [] →
    e.threadsMade = groups ∨
      ∃ before after, taken = before ++ .close :: after ∧ (groupsIn before).length < groups
  /-- When all groups have come before the end was asked for, all threads have been started but for
  those that were refused, unless no thread can have the name of one of the groups. -/
  started : CameInTime groups taken → e.threadsMade = groups ∧
    (¬ e.IsDown → e.host.workers.length + (link.threadless (groupsIn taken)).length = groups)
  /-- That is the only way to bring the engine down. -/
  down : e.IsDown → ∃ name ∈ hostedNames link, isThreadName name = false

/-- If all groups have come in time, each of them has its thread started or is without one.

**Proof sketch.** By how far the engine has come. Once it is up, its threads are those of the groups
that have come but for the threadless ones; before, there is a group missing or none is declared. -/
lemma Course.length_workers (h : e.Course link taken) (hup : ¬ e.IsDown)
    (hcount : (groupsIn taken).length ≤ link.command.groupCount link.app.uri)
    (hin : CameInTime (link.command.groupCount link.app.uri) taken) :
    e.host.workers.length + (link.threadless (groupsIn taken)).length =
      (groupsIn taken).length := by
  cases h with
  | empty hz hs hg =>
    have hworkers : e.host.workers = [] := List.map_eq_nil_iff.1 hg
    have hgroups : groupsIn taken = [] := List.length_eq_zero_iff.1 (by omega)
    rw [hworkers, hgroups]
    rfl
  | refused hpos hh =>
    have hle := hin.le
    rw [hh] at hle
    exact absurd hle (Nat.not_le.2 hpos)
  | waits _ hn => exact absurd hin.le (Nat.not_le.2 hn)
  | ended hh hn hm =>
    rw [hh] at hin
    exact absurd hin (not_cameInTime_of_ended hn hm)
  | up _ _ _ _ hg =>
    have hlen := congrArg List.length hg
    rw [startedGroups, Host.startedGroups, List.length_map, List.length_map] at hlen
    exact hlen ▸ Context.length_launched
  | down _ _ _ hd => exact absurd hd hup

/-- **A graph whose groups can be built gets a thread for each of them**, unless it is closed
before.

**Proof sketch.** Every group that comes gets the handle of a thread. As long as the engine listens,
no group is lost, so that all of them have come when nothing is left to come. An engine that does
not listen any more has been asked to end, or has gone down over the last group. -/
theorem threadsFor_of_play
    (hk : (link.command.topology.groups.map GroupInfo.key).Nodup)
    (hb : List.Forall₂ link.registry.Builds (link.command.groupsOf link.app.uri) built)
    (hp : (start link).1.play moves = some (taken, e)) :
    e.ThreadsFor link (link.command.groupCount link.app.uri) taken := by
  obtain ⟨hcourse, hcount⟩ := course_of_play hk hp
  obtain ⟨htaken, -⟩ := outcomes_of_builds hb hp
  have hmade := threadsMade_of_play hb hp
  have hle : e.threadsMade ≤ link.command.groupCount link.app.uri := by
    rw [hmade, length_groupsIn htaken]
    exact hcount
  have henough {before after : List EngineMsg} (hsplit : taken = before ++ after)
      (hn : (groupsIn before).length = link.command.groupCount link.app.uri) :
      e.threadsMade = link.command.groupCount link.app.uri := by
    refine Nat.le_antisymm hle ?_
    rw [hmade, ← hn, hsplit]
    exact groupsIn_mono (List.prefix_append before after)
  refine ⟨hmade, hle, fun hcreations hnone => ?_, fun hin => ⟨?_, fun hup => ?_⟩,
    hcourse.exists_unnameable (sound_of_play hp)⟩
  · cases hcourse with
    | empty hz => exact .inl (by omega)
    | refused _ hh hc =>
      -- Nothing has been taken, so the graph is as open as it was at its start.
      subst hh
      have hcontext :=
        (context_of_untaken hp).trans (start_context_of_ok (start_ok_of_builds hb))
      rw [hcontext] at hc
      exact absurd hc (Context.start_mild link).1.2
    | waits _ _ hc =>
      have hup : ¬ e.IsDown := by
        intro hd
        have hphase := ((sound_of_play hp).down hd).1
        rw [hc] at hphase
        cases hphase
      have hl := listening_of_not_isDown hup (hc ▸ Context.pending_isOpen.2)
      exact .inl (threadsMade_of_rest hb hp hl hcreations hnone)
    | @ended before after m hh hn hm =>
      refine .inr ⟨before, after, ?_, hn⟩
      have hmem : m ∈ taken := hh ▸ List.mem_append_right _ List.mem_cons_self
      cases m with
      | created result =>
        obtain ⟨g, -, rfl⟩ :=
          List.mem_map.1 (htaken result (List.mem_filterMap.2 ⟨_, hmem, rfl⟩))
        exact hm.elim
      | threadClosed | route => exact hm.elim
      | close => exact hh
    | up _ hin | down _ hin =>
      obtain ⟨before, after, hsplit, hn, -⟩ := hin
      exact .inl (henough hsplit hn)
  · obtain ⟨before, after, hsplit, hn, -⟩ := hin
    exact henough hsplit hn
  · obtain ⟨before, after, hsplit, hn, -⟩ := id hin
    exact (hcourse.length_workers hup (hmade ▸ hle) hin).trans
      (hmade.symm.trans (henough hsplit hn))

end Engine

/-! ## What is shown and what is started -/

/-- The registry looks at the addon and the name of a group, and at nothing else. -/
lemma Registry.builds_rename {r : Registry} {old new : String} {infos : List GroupInfo}
    {built : List Group} (h : List.Forall₂ r.Builds infos built) :
    List.Forall₂ r.Builds (infos.map (GroupInfo.rename old new)) built :=
  List.forall₂_map_left_iff.2 h

namespace App

/-- A graph whose engine starts is started. -/
lemma start_of_ok {a : App} {g : GraphDefinition} {graph name : String} {s : StartGraph}
    (hs : StartGraph.ofDefinition g a.info.uri graph = .ok s)
    (hok : (Engine.start (.ofStart a.info a.registry a.spawner (s.withName name))).2 = .ok ()) :
    (a.start graph name g).2 = .ok () ∧
      (a.start graph name g).1.engines = a.engines ++
        [(Engine.start (.ofStart a.info a.registry a.spawner (s.withName name))).1] := by
  unfold start
  rw [hs]
  dsimp only
  generalize Engine.start (.ofStart a.info a.registry a.spawner (s.withName name)) = started
    at hok ⊢
  obtain ⟨e, result⟩ := started
  cases hok
  exact ⟨rfl, rfl⟩

open CommandLine in
/-- **What is shown of a graph is what is started.** Let a graph be shown under one id and started
under another one. It is accepted under both, or refused under both for the same reason, and
`validate` says of it what follows from any id. If it is accepted, then the tables differ in nothing
but the id, so that messages go the same ways. What is printed are the groups of the graph that is
started, with their addons and members, the number of those that the app hosts, and the number of
routes. And when an app starts the graph with addons that can build its groups, then the start
succeeds, and the engine makes as many threads as it has been shown that the app hosts groups: never
more, and all of them unless somebody asks for the end before the last group has come.

**Proof sketch.** The tables depend on the id by renaming only (`ofDefinition_rename`), and nothing
that is printed shows the id (`summary_of_mirrors`). What is printed is read back by
`shows_summary`. The run is the one of `threadsFor_of_play`, with the groups that are built under
the other id. -/
theorem preview_is_what_runs (g : GraphDefinition) (host shown run : String) :
    StartGraph.ofDefinition g host run =
      (StartGraph.ofDefinition g host shown).map (StartGraph.rename shown run) ∧
    (∀ c path i, c.uri = host → GraphDefinition.ofFile i.graph = .ok g →
      validate c path i = ((StartGraph.ofDefinition g host run).mapError Report.ofError).map
        fun s' => (summary c s').pretty ++ "\n") ∧
    ∀ s s', StartGraph.ofDefinition g host shown = .ok s →
      StartGraph.ofDefinition g host run = .ok s' →
      s.Mirrors shown run s' ∧ (∀ c, summary c s' = summary c s) ∧
      (∀ c, c.uri = host → Shows (summary c s) host s') ∧
      ∀ (a : App) (name : String) (built : List Group), a.info.uri = host →
        List.Forall₂ a.registry.Builds (s.groupsOf host) built →
        let link := Link.ofStart a.info a.registry a.spawner (s'.withName name)
        (a.start run name g).2 = .ok () ∧
        (a.start run name g).1.engines = a.engines ++ [(Engine.start link).1] ∧
        ∀ moves taken e, (Engine.start link).1.play moves = some (taken, e) →
          e.ThreadsFor link (s.groupCount host) taken := by
  refine ⟨StartGraph.ofDefinition_rename g host shown run, ?_, ?_⟩
  · rintro c path i rfl hread
    exact validate_eq hread path run
  · intro s s' hs hs'
    have hmirrors := StartGraph.mirrors_of_ofDefinition hs hs'
    refine ⟨hmirrors, summary_of_mirrors hmirrors, ?_, ?_⟩
    · rintro c rfl
      rw [← summary_of_mirrors hmirrors c]
      exact shows_summary c s'
    rintro a name built rfl hbuilt
    -- The groups of the two commands differ in the id only, so that the same addons build them.
    have hgroups : s'.groupsOf a.info.uri =
        (s.groupsOf a.info.uri).map (GroupInfo.rename shown run) := by
      rw [StartGraph.ofDefinition_rename g _ shown run, hs] at hs'
      rw [← Except.ok.inj hs', StartGraph.groupsOf_rename]
    let link := Link.ofStart a.info a.registry a.spawner (s'.withName name)
    have hb : List.Forall₂ link.registry.Builds (link.command.groupsOf link.app.uri) built :=
      hgroups ▸ Registry.builds_rename hbuilt
    have hkeys := StartGraph.groupKeys_nodup hs'
    have hk : (link.command.topology.groups.map GroupInfo.key).Nodup := hkeys
    obtain ⟨hstarted, hengines⟩ := start_of_ok hs' (Engine.start_ok_of_builds hb)
    refine ⟨hstarted, hengines, fun moves taken e hp => ?_⟩
    rw [← hmirrors.groupCount]
    exact Engine.threadsFor_of_play hk hb hp

open Engine CommandLine in
/-- A graph with two groups that is started under the empty id. It gets the two threads that have
been shown, and they are those of the groups that have been printed. -/
theorem preview_is_what_runs_twoGroups :
    let s : StartGraph := ⟨.ofGraph "app" "validate", none, twoGroups.topology "app" "validate"⟩
    let s' : StartGraph := ⟨.ofGraph "app" "", none, twoGroups.topology "app" ""⟩
    let a : App := ⟨⟨"app", ""⟩, .withDefaults, .willing, none, [], [], []⟩
    let c : Config := { Config.default with uri := "app" }
    StartGraph.ofDefinition twoGroups "app" "validate" = .ok s ∧
    StartGraph.ofDefinition twoGroups "app" "" = .ok s' ∧
    s.Mirrors "validate" "" s' ∧ s.groupCount "app" = 2 ∧
    Shows (summary c s) "app" s' ∧
    listings (summary c s) =
      [⟨"app", "first", defaultGroupAddon, []⟩,
        ⟨"app", "second", defaultGroupAddon, [⟨"echo", "second"⟩]⟩] ∧
    ∃ e₀ taken e, (a.start "" "" twoGroups).1.engines = [e₀] ∧
      e₀.play [.complete 1, .complete 0, .handle, .handle] = some (taken, e) ∧
      e.threadsMade = 2 := by
  intro s s' a c
  have hs : StartGraph.ofDefinition twoGroups "app" "validate" = .ok s := rfl
  have hs' : StartGraph.ofDefinition twoGroups "app" "" = .ok s' := rfl
  have hb : List.Forall₂ a.registry.Builds (s.groupsOf "app")
      [Group.create "first" defaultGroupAddon, Group.create "second" defaultGroupAddon] :=
    .cons ⟨0, rfl⟩ (.cons ⟨0, rfl⟩ .nil)
  obtain ⟨-, -, hboth⟩ := preview_is_what_runs twoGroups "app" "validate" ""
  obtain ⟨hmirrors, -, hshows, hrun⟩ := hboth s s' hs hs'
  obtain ⟨-, hengines, hthreads⟩ := hrun a "" _ rfl hb
  let e₀ := (Engine.start (Link.ofStart a.info a.registry a.spawner (s'.withName ""))).1
  have hplay : (e₀.play [.complete 1, .complete 0, .handle, .handle]).map
      (fun r => (groupsIn r.1).length) = some 2 := by decide +kernel
  obtain ⟨⟨taken, e⟩, hp, hlen⟩ := Option.map_eq_some_iff.1 hplay
  have hprinted := hshows c rfl
  exact ⟨hs, hs', hmirrors, rfl, hprinted, hprinted.groups.trans rfl, e₀, taken, e, hengines, hp,
    (hthreads _ taken e hp).made.trans hlen⟩

end App

end ExtensionGraph
