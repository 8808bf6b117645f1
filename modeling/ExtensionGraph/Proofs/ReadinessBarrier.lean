import ExtensionGraph.Proofs.ComingUp
import ExtensionGraph.Proofs.GroupTable

/-!
# All threads are started together

A graph waits until every group that its app hosts has been built, and then starts all threads at
once. It only compares two numbers, but since no group is declared twice and every group that is
built carries a declared name, the numbers agree exactly when the groups do. The order in which the
groups come shows in the order and in the numbers of the threads, and nowhere else.

## Main definitions

* `ExtensionGraph.Engine.launches` — the threads that are started in a run.
* `ExtensionGraph.Engine.Awaits`, `ExtensionGraph.Engine.IsUp`, `ExtensionGraph.Engine.Alike` — what
  is promised before and after the last group, and of two orders.

## Main results

* `ExtensionGraph.Engine.readiness_barrier` — the promises are kept in every order.
-/

namespace ExtensionGraph

/-- A handle without its number. -/
def Thread.unnumbered (t : Thread) : Thread := { t with id := ⟨0⟩ }

/-- A worker without its number. -/
def Worker.unnumbered (w : Worker) : Worker := { w with id := ⟨0⟩ }

/-- The addons of extensions answer the same whatever thread asks them. -/
def Registry.IsSteady (r : Registry) : Prop :=
  ∀ addon name occasion occasion',
    r.createExtension occasion addon name = r.createExtension occasion' addon name

/-- With such addons, the number of a worker shows in nothing else.

**Proof sketch.** Such addons make the same of a member on every thread. So the two workers host the
same extensions and have lost the same ones, for the same reasons. -/
lemma Worker.unnumbered_create {link : Link} (hr : link.registry.IsSteady) (id id' : ThreadId)
    (g : Group) (t : Topology) :
    (Worker.create link id g t).unnumbered = (Worker.create link id' g t).unnumbered := by
  have hmaking : making link id = making link id' := funext fun m => hr m.addon m.name _ _
  have hlossOf : lossOf? link id = lossOf? link id' := by
    funext m
    rw [lossOf?, lossOf?, hmaking]
  have hhost : host? link id g t = host? link id' g t := by
    funext m
    rw [host?, host?, hmaking]
  have hrefusal : refusal? link id g = refusal? link id' g := by
    funext m
    rw [refusal?, refusal?, hmaking]
  have hloss : loss? link id g = loss? link id' g := by rw [loss?, loss?, hlossOf]
  have hhosted : hostAll link id g t = hostAll link id' g t := by
    rw [hostAll, hostAll, hloss, hhost]
  have hrefusals : refusals link id g = refusals link id' g := by
    rw [refusals, refusals, hlossOf, hrefusal]
  simp only [create, hloss, hhosted, hrefusals, unnumbered]

namespace Engine

/-- The threads that are started in a run, from the start of the graph on. -/
def launches (link : Link) (ms : List EngineMsg) : List Launch :=
  ((Context.create link true).start.2.1 ++
    ((Context.create link true).start.1.handleAll ms).2).filterMap Effect.launch?

/-- The engine waits for more groups than the given ones: it knows no topology and has started no
thread. -/
structure Awaits (e : Engine) (gs : List Group) : Prop where
  phase : e.context.phase = .starting
  topology : e.context.topology = none
  ready : e.context.ready = gs.length
  listed : e.context.threads.map (·.groupName) = gs.map (·.name)
  waiting : ∀ t ∈ e.context.threads, t.Waiting
  workers : e.host.workers = []

/-- The engine has got all groups and has started the given threads. -/
structure IsUp (e : Engine) (link : Link) (started : List Launch) : Prop where
  phase : e.context.phase = .running
  topology : e.context.topology = some link.command.topology
  ready : e.context.ready = link.command.groupCount link.app.uri
  /-- The threads and the groups that the app hosts correspond to each other by their names. -/
  names : (e.context.threads.map (·.groupName)).Perm
    ((link.command.groupsOf link.app.uri).map (·.name))
  namesNodup : (e.context.threads.map (·.groupName)).Nodup
  idsNodup : (e.context.threads.map (·.id)).Nodup
  working : ∀ t ∈ e.context.threads, t.Working
  /-- Each thread on the list has been started with its group, once, and no other has been. -/
  once : started.map (fun l => (l.id, l.group.name)) =
    e.context.threads.map (fun t => (t.id, t.groupName))
  topologies : ∀ l ∈ started, l.topology = link.command.topology
  /-- Each group has been told what is declared under its name. -/
  informed : ∀ l ∈ started, ∃ info ∈ link.command.groupsOf link.app.uri,
    info.name = l.group.name ∧ l.group.info = some info
  workers : e.host.workers.map Worker.quiet = started.map (Launch.worker link)

/-- Two engines differ in the order and in the numbers of their threads, in messages that are on
their way, and in what addons make of a different number, at most. -/
structure Alike (e e' : Engine) : Prop where
  context : e'.context = { e.context with threads := e'.context.threads }
  threads : (e.context.threads.map Thread.unnumbered).Perm
    (e'.context.threads.map Thread.unnumbered)
  workers : e.context.link.registry.IsSteady →
    (e.host.workers.map fun w => w.quiet.unnumbered).Perm
      (e'.host.workers.map fun w => w.quiet.unnumbered)

variable {e : Engine}

/-- An engine that handles messages decides on them as its context does. -/
lemma handleAll_context (e : Engine) (ms : List EngineMsg) :
    (e.handleAll ms).context = (e.context.handleAll ms).1 := by
  induction ms generalizing e with
  | nil => rfl
  | cons m ms ih =>
    show ((e.handle m).handleAll ms).context = _
    rw [ih, handle_context]
    rfl

/-- A run in which nobody is waited for adds the workers that it starts.

**Proof sketch.** Induction on the messages, with `foldl_perform_of_tame` for the effects of the
first. The numbers of all threads that are to be started are different, so each thread is new when
it is started. -/
lemma handleAll_workers (e : Engine) (ms : List EngineMsg)
    (ht : ∀ x ∈ (e.context.handleAll ms).2, x.IsTame)
    (hnd : (e.host.workers.map (·.id) ++
      ((e.context.handleAll ms).2.filterMap Effect.launch?).map (·.id)).Nodup) :
    (e.handleAll ms).host.workers.map Worker.quiet =
      e.host.workers.map Worker.quiet ++
        ((e.context.handleAll ms).2.filterMap Effect.launch?).map
          (Launch.worker e.context.link) := by
  induction ms generalizing e with
  | nil => exact (List.append_nil _).symm
  | cons m ms ih =>
    have hcons : (e.context.handleAll (m :: ms)).2 =
        (e.context.handle m).2 ++ ((e.handle m).context.handleAll ms).2 := by
      rw [handle_context]
      rfl
    rw [hcons] at ht hnd ⊢
    rw [List.filterMap_append, List.map_append, ← List.append_assoc] at hnd
    -- The first message adds its workers, so the numbers of the others are still new.
    have hstep : (e.handle m).host.workers.map Worker.quiet =
        e.host.workers.map Worker.quiet ++
          ((e.context.handle m).2.filterMap Effect.launch?).map
            (Launch.worker e.context.link) := by
      have htame := foldl_perform_of_tame { e with context := (e.context.handle m).1 }
        (fun x hx => ht x (List.mem_append_left _ hx)) (List.nodup_append.1 hnd).1
      rw [← e.context.handle_link m, handle, retire_workers]
      exact htame.2.1
    have hids : (e.handle m).host.workers.map (·.id) =
        e.host.workers.map (·.id) ++
          ((e.context.handle m).2.filterMap Effect.launch?).map (·.id) := by
      rw [← ids_of_quiet, hstep, List.map_append, ids_of_quiet, List.map_map]
      rfl
    have hrest := ih (e.handle m) (fun x hx => ht x (List.mem_append_right _ hx))
      (by rwa [hids])
    have hlink : (e.handle m).context.link = e.context.link := by
      rw [handle_context, Context.handle_link]
    rw [hlink] at hrest
    show ((e.handle m).handleAll ms).host.workers.map Worker.quiet = _
    rw [hrest, hstep, List.filterMap_append, List.map_append, List.append_assoc]

/-! ## The start -/

section Start

variable {link : Link} {built : List Group}

/-- Every group that the app hosts is asked for, once.

**Proof sketch.** By induction over the groups, each of which is built by its addon. -/
lemma request_of_builds {infos : List GroupInfo}
    (hb : List.Forall₂ link.registry.Builds infos built) :
    (Context.request link infos).2 = .ok () ∧
      ((Context.request link infos).1.filterMap Effect.creation?).map (·.result) =
        built.map Except.ok := by
  induction hb with
  | nil => exact ⟨rfl, rfl⟩
  | @cons info g infos gs hg _ ih =>
    obtain ⟨delay, hc⟩ := hg
    obtain ⟨hok, hres⟩ := ih
    unfold Context.request
    rw [hc]
    refine ⟨hok, ?_⟩
    show _ :: ((Context.request link infos).1.filterMap Effect.creation?).map (·.result) = _
    rw [hres]
    rfl

/-- What comes of groups that can all be built. -/
lemma asked_of_builds
    (hb : List.Forall₂ link.registry.Builds (link.command.groupsOf link.app.uri) built) :
    (Context.create link true).start.2.2 = .ok () ∧
      ((Context.create link true).start.2.1.filterMap Effect.creation?).map (·.result) =
        built.map Except.ok := by
  by_cases hg : (Context.create link true).localGroups = []
  · have hnil : link.command.groupsOf link.app.uri = [] := hg
    rw [hnil] at hb
    cases hb
    rw [Context.start_eq_of_no_groups _ hg rfl]
    exact ⟨rfl, rfl⟩
  · rw [Context.start_eq_request _ hg]
    exact request_of_builds hb

/-- A graph whose groups can all be built starts, and waits for each of them. -/
lemma start_of_builds
    (hb : List.Forall₂ link.registry.Builds (link.command.groupsOf link.app.uri) built) :
    start link = ((begun link).retire, .ok ()) ∧
      (start link).1.host.creations.map (·.result) = built.map Except.ok := by
  have hok := asked_of_builds hb
  have hstart : start link = ((begun link).retire, .ok ()) := by
    rw [start_eq, hok.1]
  have hretire : (begun link).retire.host.creations = (begun link).host.creations := by
    unfold retire
    split <;> rfl
  refine ⟨hstart, ?_⟩
  rw [hstart, hretire, ← hok.2]
  exact congrArg (List.map (·.result)) (foldl_perform_creations _ _)

/-- The threads that messages start are those that the context decides to start. -/
lemma launches_eq (link : Link) (ms : List EngineMsg) :
    launches link ms =
      ((Context.create link true).start.1.handleAll ms).2.filterMap Effect.launch? := by
  obtain ⟨-, -, hmild⟩ := Context.start_mild link
  have hl := Effect.launches_of_mild fun x hx => (hmild x hx).1
  rw [launches, List.filterMap_append, hl, List.nil_append]

/-- A graph whose app hosts groups waits for them. -/
lemma start_pending (hg : link.command.groupsOf link.app.uri ≠ []) :
    (Context.create link true).start.1 = Context.pending link [] := by
  have hl : (Context.create link true).localGroups ≠ [] := hg
  rw [Context.start_eq_request _ hl]
  rfl

/-- A graph whose app hosts no group has got them all. -/
lemma start_up (hg : link.command.groupsOf link.app.uri = []) :
    (Context.create link true).start.1 = Context.up link [] := by
  have hl : (Context.create link true).localGroups = [] := hg
  rw [Context.start_eq_of_no_groups _ hl rfl]
  rfl

end Start

/-! ## The barrier -/

section Barrier

variable {link : Link} {built : List Group}

/-- Every group that has been built was declared under its name. -/
lemma exists_info_of_built
    (hb : List.Forall₂ link.registry.Builds (link.command.groupsOf link.app.uri) built)
    {g : Group} (hg : g ∈ built) :
    ∃ info ∈ link.command.groupsOf link.app.uri, info.name = g.name := by
  have hname : g.name ∈ (link.command.groupsOf link.app.uri).map (·.name) := by
    rw [← Registry.built_names hb]
    exact List.mem_map_of_mem hg
  exact List.mem_map.1 hname

/-- Every group that has been built is found by its name, and what is found was declared. -/
lemma declared_of_built (hk : (link.command.topology.groups.map GroupInfo.key).Nodup)
    (hb : List.Forall₂ link.registry.Builds (link.command.groupsOf link.app.uri) built)
    {g : Group} (hg : g ∈ built) :
    ∃ info ∈ link.command.groupsOf link.app.uri, info.name = g.name ∧
      link.command.topology.group? link.app.uri g.name = some info := by
  obtain ⟨info, hi, hn⟩ := exists_info_of_built hb hg
  refine ⟨info, hi, hn, ?_⟩
  rw [← hn]
  exact StartGraph.group?_of_mem hk hi

/-- Every group that has been built is told what is declared under its name. -/
lemma briefed_of_built (hk : (link.command.topology.groups.map GroupInfo.key).Nodup)
    (hb : List.Forall₂ link.registry.Builds (link.command.groupsOf link.app.uri) built)
    {g : Group} (hg : g ∈ built) :
    ∃ info ∈ link.command.groupsOf link.app.uri, info.name = (Context.briefed link g).name ∧
      (Context.briefed link g).info = some info := by
  obtain ⟨info, hi, hn, hf⟩ := declared_of_built hk hb hg
  refine ⟨info, hi, ?_, ?_⟩
  · rw [Context.briefed_name, hn]
  · rw [Context.briefed, hf]
    rfl

/-- If all threads can be made, they can be made for the groups that have been built. -/
lemma nameable_of_built (hm : link.MakesThreads)
    (hb : List.Forall₂ link.registry.Builds (link.command.groupsOf link.app.uri) built)
    {g : Group} (hg : g ∈ built) : isThreadName g.name = true := by
  obtain ⟨info, hi, hn⟩ := exists_info_of_built hb hg
  rw [← hn]
  exact hm.nameable info hi

/-- If all threads are made, each group that was built gets one. -/
lemma grants_of_built (hm : link.MakesThreads)
    (hb : List.Forall₂ link.registry.Builds (link.command.groupsOf link.app.uri) built)
    {g : Group} (hg : g ∈ built) (k : Nat) : link.grants g.name k = true := by
  rw [Link.grants, nameable_of_built hm hb hg, hm.willing]
  rfl

/-- While groups are missing, the engine waits.

**Proof sketch.** The context is known, by `pending_handleAll`: a handle for each group, and mild
effects only. So no thread is started, and the handles are those of the groups that have come. -/
lemma awaits_of_few {ms : List EngineMsg}
    (hb : List.Forall₂ link.registry.Builds (link.command.groupsOf link.app.uri) built)
    (hp : ∀ m ∈ ms, m.IsPeaceful)
    (hn : (groupsIn ms).length < link.command.groupCount link.app.uri) :
    ((start link).1.handleAll ms).Awaits (groupsIn ms) ∧ launches link ms = [] := by
  have hg : link.command.groupsOf link.app.uri ≠ [] := by
    intro h
    have hz : link.command.groupCount link.app.uri = 0 := congrArg List.length h
    omega
  have hstart : (start link).1.context = Context.pending link [] := by
    rw [(start_of_builds hb).1, retire_context, begun_context, start_pending hg]
  obtain ⟨hc, hq⟩ := Context.pending_handleAll link [] hp
    (by rw [List.length_nil]; omega)
  have hl := Effect.launches_of_mild hq
  have hctx : ((start link).1.handleAll ms).context = Context.pending link (groupsIn ms) := by
    rw [handleAll_context, hstart, hc, List.nil_append]
  have hwork0 : (start link).1.host.workers = [] := by
    rw [(start_of_builds hb).1, retire_workers, (begun_host link).1]
  have hwork := handleAll_workers (start link).1 ms
    (by rw [hstart]; exact fun x hx => (hq x hx).1)
    (by rw [hstart, hl, hwork0]; simp)
  rw [hstart, hl, hwork0] at hwork
  constructor
  · refine ⟨?_, ?_, ?_, ?_, ?_, List.map_eq_nil_iff.1 hwork⟩
    · rw [hctx]
      rfl
    · rw [hctx]
      rfl
    · rw [hctx]
      rfl
    · rw [hctx, Context.pending, List.map_map, Function.comp_def]
      simp only [Context.handleAt_groupName]
      exact Context.map_zipIdx_fst (·.name) _
    · intro t ht
      rw [hctx] at ht
      obtain ⟨x, -, rfl⟩ := List.mem_map.1 ht
      exact ⟨⟨rfl, rfl, rfl⟩, _, rfl, rfl⟩
  · rw [launches_eq, start_pending hg, hl]

/-- After the last group, the context and the threads that were started are known.

**Proof sketch.** If the app hosts groups, the context waits for them and `pending_handleAll_up`
applies, since every group that comes was declared. Otherwise the start has led to the same form
already, and `up_handleAll` says that it stays. -/
lemma context_handleAll_up {ms : List EngineMsg}
    (hk : (link.command.topology.groups.map GroupInfo.key).Nodup)
    (hb : List.Forall₂ link.registry.Builds (link.command.groupsOf link.app.uri) built)
    (hm : link.MakesThreads) (hp : ∀ m ∈ ms, m.IsPeaceful) (hperm : (groupsIn ms).Perm built) :
    Context.ComesUp link (groupsIn ms) ((Context.create link true).start.1.handleAll ms) := by
  have hlen : (groupsIn ms).length = link.command.groupCount link.app.uri := by
    rw [hperm.length_eq, ← hb.length_eq]
    rfl
  by_cases hg : link.command.groupsOf link.app.uri = []
  · have hz : link.command.groupCount link.app.uri = 0 := congrArg List.length hg
    have hnil : groupsIn ms = [] := List.length_eq_zero_iff.1 (hlen.trans hz)
    obtain ⟨hc, hq⟩ := Context.up_handleAll link [] hp hnil
    rw [start_up hg, hnil]
    exact ⟨hc, fun x hx => (hq x hx).1, Effect.launches_of_mild hq⟩
  · have hpos : 0 < link.command.groupCount link.app.uri := List.length_pos_iff.2 hg
    have hd : ∀ g ∈ [] ++ groupsIn ms,
        (link.command.topology.group? link.app.uri g.name).isSome := by
      intro g hgm
      rw [List.nil_append] at hgm
      obtain ⟨info, -, -, hi⟩ := declared_of_built hk hb (hperm.mem_iff.1 hgm)
      rw [hi]
      rfl
    have hname : ∀ g ∈ [] ++ groupsIn ms, isThreadName g.name = true := by
      intro g hgm
      exact nameable_of_built hm hb (hperm.mem_iff.1 hgm)
    rw [start_pending hg]
    exact Context.pending_handleAll_up [] hp (by rw [List.length_nil]; omega) hpos hd hname

/-- Threads that are started together have different numbers. -/
lemma launched_ids (gs : List Group) :
    ((Context.launched link gs).map (·.id)).Nodup := by
  have hids : (gs.zipIdx.map fun x => Context.launchAt link x.1 x.2).map (·.id) =
      (List.range' 0 gs.length).map fun k => (⟨k + 1⟩ : ThreadId) := by
    rw [← List.zipIdx_map_snd, List.map_map, List.map_map]
    rfl
  have hall : ((gs.zipIdx.map fun x => Context.launchAt link x.1 x.2).map (·.id)).Nodup := by
    rw [hids]
    refine List.Nodup.map ?_ List.nodup_range'
    intro a b hab
    have hnum : a + 1 = b + 1 := congrArg ThreadId.number hab
    omega
  exact hall.sublist ((List.filter_sublist.map _).map _)

/-- After the last group, the context, the threads that were started and the workers are known.

**Proof sketch.** `context_handleAll_up` gives the context and the threads that it starts, and
`handleAll_workers` adds them to none. -/
lemma reached {ms : List EngineMsg}
    (hk : (link.command.topology.groups.map GroupInfo.key).Nodup)
    (hb : List.Forall₂ link.registry.Builds (link.command.groupsOf link.app.uri) built)
    (hm : link.MakesThreads) (hp : ∀ m ∈ ms, m.IsPeaceful) (hperm : (groupsIn ms).Perm built) :
    ((start link).1.handleAll ms).context = Context.up link (groupsIn ms) ∧
      launches link ms = Context.launched link (groupsIn ms) ∧
      ((start link).1.handleAll ms).host.workers.map Worker.quiet =
        (Context.launched link (groupsIn ms)).map (Launch.worker link) := by
  obtain ⟨hc, ht, hl⟩ := context_handleAll_up hk hb hm hp hperm
  have hstart : (start link).1.context = (Context.create link true).start.1 := by
    rw [(start_of_builds hb).1, retire_context, begun_context]
  have hwork0 : (start link).1.host.workers = [] := by
    rw [(start_of_builds hb).1, retire_workers, (begun_host link).1]
  have hlink : (start link).1.context.link = link := by
    by_cases hg : link.command.groupsOf link.app.uri = []
    · rw [hstart, start_up hg]
      rfl
    · rw [hstart, start_pending hg]
      rfl
  have hwork := handleAll_workers (start link).1 ms
    (by rw [hstart]; exact ht)
    (by rw [hstart, hl, hwork0]; exact launched_ids _)
  rw [hlink, hstart, hl, hwork0] at hwork
  refine ⟨?_, ?_, hwork⟩
  · rw [handleAll_context, hstart, hc]
  · rw [launches_eq, hl]

/-- Once all groups have come, the engine keeps what is promised of it.

**Proof sketch.** The context, the started threads and the workers are known by `reached`. Each
handle stands for a group that has come, numbered by its turn; the groups are the declared ones in
another order, so that their names are different and each has its declared info. -/
lemma isUp_of_all {ms : List EngineMsg}
    (hk : (link.command.topology.groups.map GroupInfo.key).Nodup)
    (hb : List.Forall₂ link.registry.Builds (link.command.groupsOf link.app.uri) built)
    (hm : link.MakesThreads) (hp : ∀ m ∈ ms, m.IsPeaceful) (hperm : (groupsIn ms).Perm built) :
    ((start link).1.handleAll ms).IsUp link (launches link ms) := by
  obtain ⟨hc, hl, hwork⟩ := reached hk hb hm hp hperm
  have hgrants : ∀ g ∈ groupsIn ms, ∀ k, link.grants g.name k = true :=
    fun g hg k => grants_of_built hm hb (hperm.mem_iff.1 hg) k
  have hlabels := Context.launched_labels hgrants
  have hdeclared : ((groupsIn ms).map (·.name)).Perm
      ((link.command.groupsOf link.app.uri).map (·.name)) := by
    rw [← Registry.built_names hb]
    exact hperm.map _
  rw [hl]
  refine
    { phase := by rw [hc]; rfl
      topology := by rw [hc]; rfl
      ready := ?_
      names := ?_
      namesNodup := ?_
      idsNodup := ?_
      working := ?_
      once := by rw [hc]; exact hlabels
      topologies := ?_
      informed := ?_
      workers := hwork }
  · have hlen : (groupsIn ms).length = link.command.groupCount link.app.uri := by
      rw [hperm.length_eq, ← hb.length_eq]
      rfl
    rw [hc]
    exact hlen
  · rw [hc, Context.up_names]
    exact hdeclared
  · rw [hc, Context.up_names, hdeclared.nodup_iff]
    exact StartGraph.names_nodup hk _
  · have hids := congrArg (List.map Prod.fst) hlabels
    rw [List.map_map, List.map_map] at hids
    rw [hc]
    exact hids ▸ launched_ids (groupsIn ms)
  · intro t ht
    rw [hc] at ht
    obtain ⟨x, hx, rfl⟩ := List.mem_map.1 ht
    rw [Context.startedAt, if_pos (hgrants x.1 (List.fst_mem_of_mem_zipIdx hx) x.2)]
    exact ⟨rfl, rfl⟩
  · intro l hlm
    obtain ⟨x, -, rfl⟩ := List.mem_map.1 hlm
    rfl
  · intro l hlm
    rw [Context.launched_of_grants hgrants] at hlm
    obtain ⟨x, hx, rfl⟩ := List.mem_map.1 hlm
    exact briefed_of_built hk hb (hperm.mem_iff.1 (List.fst_mem_of_mem_zipIdx hx))

/-- In two orders the same comes about.

**Proof sketch.** Both runs are known by `reached`. Without the numbers, a handle and a thread are
functions of their group alone, and the groups are the same in another order; a worker is one if the
addons do not change their minds. -/
lemma alike_of_orders {ms ms' : List EngineMsg}
    (hk : (link.command.topology.groups.map GroupInfo.key).Nodup)
    (hb : List.Forall₂ link.registry.Builds (link.command.groupsOf link.app.uri) built)
    (hm : link.MakesThreads) (hp : ∀ m ∈ ms, m.IsPeaceful) (hperm : (groupsIn ms).Perm built)
    (hp' : ∀ m ∈ ms', m.IsPeaceful) (hperm' : (groupsIn ms').Perm built) :
    ((start link).1.handleAll ms).Alike ((start link).1.handleAll ms') ∧
      ((launches link ms).map fun l => (l.group, l.topology)).Perm
        ((launches link ms').map fun l => (l.group, l.topology)) := by
  obtain ⟨hc, hl, hwork⟩ := reached hk hb hm hp hperm
  obtain ⟨hc', hl', hwork'⟩ := reached hk hb hm hp' hperm'
  have hgs : (groupsIn ms).Perm (groupsIn ms') := hperm.trans hperm'.symm
  have hgrants {gs : List Group} (hbuilt : gs.Perm built) :
      ∀ g ∈ gs, ∀ k, link.grants g.name k = true :=
    fun g hg k => grants_of_built hm hb (hbuilt.mem_iff.1 hg) k
  -- Without its number, a handle is a function of its group, and so are a launch and a worker.
  have hthread {gs : List Group} (hbuilt : gs.Perm built) :
      (Context.up link gs).threads.map Thread.unnumbered =
        gs.map fun g => (Context.startedAt link g 0).unnumbered := by
    rw [← Context.map_zipIdx_fst, Context.up, List.map_map]
    refine List.map_congr_left fun x hx => ?_
    have hall := hgrants hbuilt x.1 (List.fst_mem_of_mem_zipIdx hx)
    rw [Function.comp_apply, Context.startedAt, Context.startedAt, if_pos (hall _),
      if_pos (hall _)]
    rfl
  have hlaunch {gs : List Group} (hbuilt : gs.Perm built) :
      ((Context.launched link gs).map fun l => (l.group, l.topology)) =
        gs.map fun g => (Context.briefed link g, link.command.topology) := by
    rw [← Context.map_zipIdx_fst, Context.launched_of_grants (hgrants hbuilt), List.map_map]
    rfl
  have hworker (hr : link.registry.IsSteady) {e : Engine} {gs : List Group}
      (hbuilt : gs.Perm built) (hw : e.host.workers.map Worker.quiet =
        (Context.launched link gs).map (Launch.worker link)) :
      (e.host.workers.map fun w => w.quiet.unnumbered) =
        gs.map fun g => ((Context.launchAt link g 0).worker link).unnumbered := by
    have hmap := congrArg (List.map Worker.unnumbered) hw
    rw [List.map_map, Context.launched_of_grants (hgrants hbuilt), List.map_map,
      List.map_map] at hmap
    rw [← Context.map_zipIdx_fst]
    exact hmap.trans (List.map_congr_left fun x _ => Worker.unnumbered_create hr _ _ _ _)
  refine ⟨⟨?_, ?_, fun hr => ?_⟩, ?_⟩
  · rw [hc, hc', Context.up, Context.up, hgs.length_eq]
  · rw [hc, hc', hthread hperm, hthread hperm']
    exact hgs.map _
  · have hr' : link.registry.IsSteady := by
      rw [hc] at hr
      exact hr
    rw [hworker hr' hperm hwork, hworker hr' hperm' hwork']
    exact hgs.map _
  · rw [hl, hl', hlaunch hperm, hlaunch hperm']
    exact hgs.map _

/-- **All threads are started together, in whatever order the groups come.** Let a graph be accepted
by its app, let the addons build every group that the app hosts, and let all its threads be made.
Then the graph starts, and waits for each of these groups once. As long as groups are missing it
waits, whatever messages extensions and apps send, and no thread has been started. Once they have
all come it is up, without any group at once. The order in which they come shows in the order and in
the numbers of the threads only.

**Proof sketch.** The parts are `start_of_builds`, `awaits_of_few`, `isUp_of_all` (also for a graph
without groups, which is up after no message) and `alike_of_orders`. -/
theorem readiness_barrier {g : GraphDefinition} (app : AppInfo) {graph : String} {s : StartGraph}
    (hs : StartGraph.ofDefinition g app.uri graph = .ok s) (name : String) (registry : Registry)
    (spawner : Spawner) {built : List Group}
    (hb : List.Forall₂ registry.Builds (s.groupsOf app.uri) built)
    (hm : (Link.ofStart app registry spawner (s.withName name)).MakesThreads) :
    let link := Link.ofStart app registry spawner (s.withName name)
    let run := (start link).1.handleAll
    ((start link).2 = .ok () ∧
      (start link).1.host.creations.map (·.result) = built.map Except.ok) ∧
    (s.groupCount app.uri = 0 → (start link).1.IsUp link []) ∧
    (∀ ms, (∀ m ∈ ms, m.IsPeaceful) → (groupsIn ms).length < s.groupCount app.uri →
      (run ms).Awaits (groupsIn ms) ∧ launches link ms = []) ∧
    (∀ ms, (∀ m ∈ ms, m.IsPeaceful) → (groupsIn ms).Perm built →
      (run ms).IsUp link (launches link ms)) ∧
    ∀ ms ms', (∀ m ∈ ms, m.IsPeaceful) → (groupsIn ms).Perm built →
      (∀ m ∈ ms', m.IsPeaceful) → (groupsIn ms').Perm built →
        (run ms).Alike (run ms') ∧
          ((launches link ms).map fun l => (l.group, l.topology)).Perm
            ((launches link ms').map fun l => (l.group, l.topology)) := by
  intro link run
  have hkeys := StartGraph.groupKeys_nodup hs
  have hk : (link.command.topology.groups.map GroupInfo.key).Nodup := hkeys
  have hb' : List.Forall₂ link.registry.Builds (link.command.groupsOf link.app.uri) built := hb
  obtain ⟨hstart, hcreations⟩ := start_of_builds hb'
  refine ⟨⟨?_, hcreations⟩, ?_, ?_, ?_, ?_⟩
  · rw [hstart]
  · intro hz
    have hnil : built = [] := by
      have hlen := hb.length_eq
      rw [show (s.groupsOf app.uri).length = 0 from hz] at hlen
      exact List.length_eq_zero_iff.1 hlen.symm
    have hup : ((start link).1.handleAll []).IsUp link (launches link []) :=
      isUp_of_all hk hb' hm (by simp) (by rw [hnil]; exact .nil)
    have hl : launches link [] = [] := by rw [launches_eq]; rfl
    rwa [hl] at hup
  · intro ms hp hn
    exact awaits_of_few hb' hp hn
  · intro ms hp hperm
    exact isUp_of_all hk hb' hm hp hperm
  · intro ms ms' hp hperm hp' hperm'
    exact alike_of_orders hk hb' hm hp hperm hp' hperm'

/-- A graph that declares a group and implies another one. -/
def twoGroups : GraphDefinition :=
  ⟨[.group ⟨"first", defaultGroupAddon, none⟩, .extension ⟨"second", "echo", none, none, none⟩], []⟩

/-- The barrier of this graph, with the second group coming first. -/
theorem readiness_barrier_twoGroups :
    let first := Group.create "first" defaultGroupAddon
    let second := Group.create "second" defaultGroupAddon
    let s : StartGraph := ⟨.ofGraph "app" "1", none, twoGroups.topology "app" "1"⟩
    let link := Link.ofStart ⟨"app", ""⟩ .withDefaults .willing (s.withName "")
    let run := (start link).1.handleAll
    StartGraph.ofDefinition twoGroups "app" "1" = .ok s ∧
      (run [.created (.ok second)]).Awaits [second] ∧
      (run [.created (.ok second), .created (.ok first)]).IsUp link
        (launches link [.created (.ok second), .created (.ok first)]) := by
  intro first second s link run
  have hs : StartGraph.ofDefinition twoGroups "app" "1" = .ok s := rfl
  have hb : List.Forall₂ Registry.withDefaults.Builds (s.groupsOf "app") [first, second] :=
    .cons ⟨0, rfl⟩ (.cons ⟨0, rfl⟩ .nil)
  obtain ⟨-, -, hawaits, hup, -⟩ :=
    readiness_barrier ⟨"app", ""⟩ hs "" .withDefaults .willing hb ⟨fun _ => rfl, by decide⟩
  refine ⟨hs, ?_, ?_⟩
  · refine (hawaits [.created (.ok second)] ?_ ?_).1
    · intro m hm
      obtain rfl := List.mem_singleton.1 hm
      trivial
    · show 1 < 2
      omega
  · refine hup [.created (.ok second), .created (.ok first)] ?_ ?_
    · intro m hm
      rcases List.mem_cons.1 hm with rfl | hm
      · trivial
      · obtain rfl := List.mem_singleton.1 hm
        trivial
    · exact List.Perm.swap _ _ _

end Barrier

end Engine

end ExtensionGraph
