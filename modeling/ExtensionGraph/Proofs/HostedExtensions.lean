import ExtensionGraph.Proofs.Delivery

/-!
# What a graph declares is what gets hosted

The thread of a group creates the members of the group in their order and leaves out those whose
addon refuses. From then on the extensions stay the same but for what they remember. Since members
are declared extensions, and every declared extension of the app has one group, all threads together
host the declared extensions of the app, each of them once. A group whose members were fixed by its
addon has these members instead. A thread that cannot even begin hosts nothing.

## Main definitions

* `ExtensionGraph.Worker.crew` — the extensions of a worker, whatever they remember.
* `ExtensionGraph.Worker.neverBegan` — a thread that has never begun.
* `ExtensionGraph.Worker.Refused`, `ExtensionGraph.Worker.Lost` — the two reasons for it: there was
  no runtime, or an addon does not return.
* `ExtensionGraph.Member.hosted?`, `ExtensionGraph.ExtensionNode.hosted?` — a member, and a declared
  extension, as they stand on their thread.
* `ExtensionGraph.Worker.Hosts` — a thread that hosts some extensions, or has never begun.
* `ExtensionGraph.Engine.unbegun`, `ExtensionGraph.Engine.threadOf` — the groups whose threads have
  never begun, and the thread of a group.
* `ExtensionGraph.Engine.HostsDeclared` — what is promised of the extensions of a graph.

## Main results

* `ExtensionGraph.Worker.Evolves.continues_or_refused`,
  `ExtensionGraph.Worker.Evolves.lost_or_refused` — a worker keeps its crew.
* `ExtensionGraph.Worker.hostAll_eq` — the crew with which it begins.
* `ExtensionGraph.Engine.hosts_declared` — the promise is kept, at any time of any run.
* `ExtensionGraph.Engine.declared_not_hosted` — declared extensions that are hosted nowhere.
-/

namespace ExtensionGraph

/-- The extension without its memory, which is all that its calls change. -/
def Hosted.still (h : Hosted) : Hosted :=
  { h with extension := { h.extension with memory := .null } }

namespace Worker

/-- The extensions of a worker in their order, whatever they remember. -/
def crew (w : Worker) : List Hosted := w.hosted.map Hosted.still

/-- The thread has never said that it has been started. -/
def neverBegan (w : Worker) : Bool :=
  !w.trace.any fun
    | .log (.threadStarted _ _ _) => true
    | _ => false

/-! ## What steps keep -/

/-- The worker has the same extensions as before, and what has happened has happened. -/
structure Continues (w w' : Worker) : Prop where
  group : w'.group = w.group
  crew : w'.crew = w.crew
  trace : w.trace <+: w'.trace

variable {w w' : Worker} {engine engine' : Mailbox EngineMsg}

/-- A thread continues itself. -/
lemma Continues.refl (w : Worker) : w.Continues w := ⟨rfl, rfl, List.prefix_rfl⟩

/-- A thread that continues one that continues a third continues the third. -/
lemma Continues.trans {w'' : Worker} (h : w.Continues w') (h' : w'.Continues w'') :
    w.Continues w'' :=
  ⟨h'.group.trans h.group, h'.crew.trans h.crew, h.trace.trans h'.trace⟩

/-- Recording an event keeps the extensions. -/
lemma continues_record (w : Worker) (e : Event) : w.Continues (w.record e) :=
  ⟨rfl, rfl, List.prefix_append _ _⟩

/-- Beginning a call keeps the extensions. -/
lemma continues_call (w : Worker) (place : Nat) (cb : Callback) :
    w.Continues (w.call place cb) := by
  unfold call
  split
  · exact .refl w
  · exact ⟨rfl, rfl, List.prefix_append _ _⟩

/-- Ending a call changes what the extension remembers, and nothing else about it. -/
lemma continues_finish (w : Worker) (c : Call) (result : Except Error Unit) (memory : Memory) :
    w.Continues (w.finish c result memory) := by
  have hcrew : (w.hosted.modify c.place fun h =>
      { h with extension := { h.extension with memory } }).map Hosted.still =
        w.hosted.map Hosted.still := by
    refine List.ext_getElem? fun k => ?_
    simp only [List.getElem?_map, List.getElem?_modify]
    split
    · cases w.hosted[k]? <;> rfl
    · cases w.hosted[k]? <;> rfl
  unfold finish
  split
  · exact ⟨rfl, hcrew, List.prefix_rfl⟩
  · exact ⟨rfl, hcrew, List.prefix_append _ _⟩

/-- What a call does keeps the extensions of the thread; what becomes of the memory of one is not
compared. -/
lemma continues_execute? {c : Call} (h : w.execute? engine c = some (engine', w')) :
    w.Continues w' := by
  cases executes_of_execute? h with
  | returns => exact continues_finish w c _ _
  | panics | notes => exact ⟨rfl, rfl, List.prefix_append _ _⟩
  | wishes | ticks | cancels => exact ⟨rfl, rfl, List.prefix_rfl⟩

/-- Taking up a message keeps the extensions. -/
lemma continues_receive (w : Worker) (extension : String) (m : Msg) :
    w.Continues (w.receive extension m) := by
  unfold receive
  split
  · exact continues_call w _ _
  · exact continues_record w _

/-- A step keeps the extensions of a worker.

**Proof sketch.** A step begins a call, goes on with one, or changes the stage. The extensions are
touched only where a call ends, and there nothing but their memory changes. -/
lemma continues_step? (h : w.step? engine = some (engine', w')) : w.Continues w' := by
  have hquiet {v : Worker} (hv : v.group = w.group ∧ v.hosted = w.hosted ∧ v.trace = w.trace) :
      w.Continues v :=
    ⟨hv.1, congrArg (List.map Hosted.still) hv.2.1, hv.2.2 ▸ List.prefix_rfl⟩
  cases ha : w.active with
  | some c =>
    unfold step? at h
    rw [ha] at h
    exact continues_execute? h
  | none =>
    cases steps_of_step? h with
    | goesOn hactive =>
      rw [ha] at hactive
      cases hactive
    | goesDown => exact ⟨rfl, rfl, List.prefix_append _ _⟩
    | @calls place hook rest =>
      exact (hquiet (v := { w with agenda := rest }) ⟨rfl, rfl, rfl⟩).trans
        (continues_call _ place (.hook hook))
    | @receives extension m rest =>
      exact (hquiet (v := { w with inbox := rest }) ⟨rfl, rfl, rfl⟩).trans
        (continues_receive _ extension m)
    | opened | obeys | leaves | reports => exact hquiet ⟨rfl, rfl, rfl⟩
    | closed => exact (continues_record w _).trans ⟨rfl, rfl, List.prefix_rfl⟩

/-- A turn of a ticker keeps the extensions. -/
lemma continues_beat (w : Worker) (engine : Mailbox EngineMsg) (k : Nat) :
    w.Continues (w.beat engine k).2 := by
  unfold beat
  split
  · exact .refl w
  · exact ⟨rfl, rfl, List.prefix_append _ _⟩

/-- The thread of a worker had no runtime: it has ended, and it has no extensions. -/
structure Refused (w : Worker) : Prop where
  sound : w.Sound
  ended : w.stage = .ended
  hosted : w.hosted = []
  trace : ∃ reason, w.trace = [.log (.runtimeRefused w.id reason)]

/-- A thread that gets no runtime is refused. -/
lemma refused_of_abort? {reason : String} (h : w.abort? reason engine = some (engine', w')) :
    w'.Refused := by
  obtain ⟨-, -, hsound, hended, -⟩ := abort?_eq h
  unfold abort? at h
  split at h
  · cases h
    exact ⟨hsound, hended, rfl, reason, rfl⟩
  · cases h

/-- A thread without a runtime stays as it is.

**Proof sketch.** A refused thread has ended, with neither extensions nor tickers. So no step and no
turn is left for it; a message may be put into its inbox, which it never reads. -/
lemma Refused.changes {aborts : Prop} (h : w.Refused) (hc : Changes aborts w w') :
    w'.Refused := by
  have hgone : w.isGone = true := w.isGone_iff.2 (.inl h.ended)
  cases hc with
  | written =>
    exact ⟨⟨h.sound.course, h.sound.creating, h.sound.serving, h.sound.resting, h.sound.silent⟩,
      h.ended, h.hosted, h.trace⟩
  | hungUp => exact ⟨h.sound.hangUp true, h.ended, h.hosted, h.trace⟩
  | steps hs =>
    rw [h.sound.step?_of_gone hgone] at hs
    cases hs
  | beats engine ticker =>
    have hsame : (w.beat engine ticker).2 = w := by
      unfold beat
      rw [h.sound.silent hgone]
      rfl
    rw [hsame]
    exact h
  | aborted _ hs =>
    obtain ⟨hstage, -⟩ := abort?_eq hs
    rw [h.ended] at hstage
    cases hstage

/-- An addon has not returned when the thread of a worker asked it for an extension. So the thread
has no extensions and calls nobody, and if it has not crashed yet, it is still waiting. -/
structure Lost (w : Worker) : Prop where
  hosted : w.hosted = []
  agenda : w.agenda = []
  active : w.active = none
  tickers : w.tickers = []
  stage : w.stage = .crashed ∨ ∃ loss, w.stage = .creating loss
  neverBegan : w.neverBegan = true

/-- Before a thread begins, it complains about the members that it cannot have. -/
lemma create_trace_of_loss {link : Link} {id : ThreadId} {g : Group} (t : Topology) {loss : Loss}
    (hl : loss? link id g = some loss) :
    (create link id g t).trace = (refusals link id g).map Event.log := by
  simp only [create, hl, List.append_nil]

/-- When it begins, it says so. -/
lemma create_trace_of_no_loss {link : Link} {id : ThreadId} {g : Group} (t : Topology)
    (hl : loss? link id g = none) :
    (create link id g t).trace = (refusals link id g ++
      [LogEvent.threadStarted link.graph g.name (hostAll link id g t).length]).map Event.log := by
  simp only [create, hl]

/-- A thread whose addon does not return is lost from the beginning.

**Proof sketch.** The loss keeps the thread from hosting anything, and its trace holds the refusals
of addons before the one that does not return, but no beginning. -/
lemma lost_create {link : Link} {id : ThreadId} {g : Group} (t : Topology)
    (hl : (loss? link id g).isSome) : (create link id g t).Lost := by
  rcases create_stage link id g t with ⟨loss, hl, hstage, hnone⟩ | ⟨hnone, -⟩
  · have hevents : ∀ e ∈ refusals link id g, ∃ m, refusal? link id g m = some e := by
      intro e he
      obtain ⟨m, -, hm⟩ := List.mem_filterMap.1 he
      exact ⟨m, hm⟩
    refine ⟨hnone, ?_, rfl, rfl, .inr ⟨loss, hstage⟩, ?_⟩
    · show openingAgenda (create link id g t).hosted.length = []
      rw [hnone]
      rfl
    · simp only [Worker.neverBegan, create_trace_of_loss t hl, List.any_map, Bool.not_eq_true',
        List.any_eq_false]
      intro e he
      obtain ⟨m, hm⟩ := hevents e he
      unfold refusal? at hm
      split at hm
      · cases hm
        simp
      · cases hm
  · rw [hnone] at hl
    cases hl

/-- A thread that waits for an addon goes down with it at most, or turns out to have no runtime.

**Proof sketch.** The only step of such a thread is the one in which the addon panics, which takes
the thread down. It has no tickers, and a message in its inbox is never read. -/
lemma Lost.changes {aborts : Prop} (h : w.Lost) (hc : Changes aborts w w') :
    w'.Lost ∨ w'.Refused := by
  cases hc with
  | written | hungUp =>
    exact .inl ⟨h.hosted, h.agenda, h.active, h.tickers, h.stage, h.neverBegan⟩
  | @steps engine engine' _ hs =>
    unfold step? at hs
    rw [h.active, h.agenda] at hs
    dsimp only at hs
    unfold advance? at hs
    rcases h.stage with hstage | ⟨loss, hstage⟩
    · rw [hstage] at hs
      cases hs
    · rw [hstage] at hs
      cases loss with
      | hang => cases hs
      | crash =>
        cases hs
        refine .inl ⟨h.hosted, rfl, rfl, rfl, .inl rfl, ?_⟩
        have hbegan := h.neverBegan
        simp only [Worker.neverBegan, goDown, record, List.any_append] at hbegan ⊢
        simpa using hbegan
  | beats engine ticker =>
    have hsame : (w.beat engine ticker).2 = w := by
      unfold beat
      rw [h.tickers]
      rfl
    rw [hsame]
    exact .inl h
  | aborted _ hs => exact .inr (refused_of_abort? hs)

/-- A thread keeps its group as it evolves. -/
lemma Evolves.group {aborts : Prop} (h : Evolves aborts w w') : w'.group = w.group := by
  induction h with
  | refl => rfl
  | tail _ hc ih =>
    refine Eq.trans ?_ ih
    cases hc with
    | written | hungUp => rfl
    | steps hs => exact step?_group hs
    | beats engine ticker => exact beat_group _ engine ticker
    | aborted _ hs => exact abort?_group hs

/-- **A worker keeps its extensions**, unless its thread had no runtime. -/
theorem Evolves.continues_or_refused {aborts : Prop} (h : Evolves aborts w w') :
    w.Continues w' ∨ w'.Refused := by
  induction h with
  | refl => exact .inl (.refl w)
  | @tail v v' _ hc ih =>
    rcases ih with ih | ih
    · cases hc with
      | written | hungUp => exact .inl (ih.trans ⟨rfl, rfl, List.prefix_rfl⟩)
      | steps hs => exact .inl (ih.trans (continues_step? hs))
      | beats engine ticker => exact .inl (ih.trans (continues_beat v engine ticker))
      | aborted _ hs => exact .inr (refused_of_abort? hs)
    · exact .inr (ih.changes hc)

/-- A worker that waits for an addon never begins. -/
theorem Evolves.lost_or_refused {aborts : Prop} (h : Evolves aborts w w') (hl : w.Lost) :
    w'.Lost ∨ w'.Refused := by
  induction h with
  | refl => exact .inl hl
  | tail _ hc ih => exact ih.elim (fun hl => hl.changes hc) fun hr => .inr (hr.changes hc)

/-- A thread without a runtime never begins. -/
lemma Refused.neverBegan (h : w.Refused) : w.neverBegan = true := by
  obtain ⟨reason, htrace⟩ := h.trace
  rw [Worker.neverBegan, htrace]
  rfl

/-- Whoever has got all answers has begun, and has noted it. -/
lemma Continues.neverBegan_eq_false {link : Link} {id : ThreadId} {g : Group} {t : Topology}
    (h : (create link id g t).Continues w) (hl : loss? link id g = none) :
    w.neverBegan = false := by
  -- The creation of a worker notes that the thread has been started.
  have hstarted : Event.log (.threadStarted link.graph g.name (hostAll link id g t).length) ∈
      w.trace := by
    refine h.trace.subset ?_
    rw [create_trace_of_no_loss t hl]
    exact List.mem_map_of_mem (List.mem_append_right _ (List.mem_singleton_self _))
  rw [Worker.neverBegan, Bool.not_eq_false', List.any_eq_true]
  exact ⟨_, hstarted, rfl⟩

end Worker

/-! ## Members on their thread -/

/-- A member of a group as it stands on a thread, if its addon creates it. -/
def Member.hosted? (link : Link) (id : ThreadId) (group : String) (m : Member) : Option Hosted :=
  match link.registry.createExtension ⟨link.graph, id⟩ m.addon m.name with
  | .made x =>
    some ⟨m.name, .ofTopology (.ofExtension link.app.uri link.graph m.name) group
      link.command.topology, x⟩
  | _ => none

/-- A declared extension as it stands on a thread, if its addon creates it: with its address, its
group and its property. -/
def ExtensionNode.hosted? (link : Link) (id : ThreadId) (n : ExtensionNode) : Option Hosted :=
  match link.registry.createExtension ⟨link.graph, id⟩ n.addon n.name with
  | .made x =>
    some ⟨n.name, ⟨n.address link.app.uri link.graph, n.groupName, n.property.getD .null,
      link.command.topology⟩, x⟩
  | _ => none

/-- A declared extension is hosted under its name. -/
lemma ExtensionNode.name_of_hosted? {link : Link} {id : ThreadId} {n : ExtensionNode} {h : Hosted}
    (hh : n.hosted? link id = some h) : h.name = n.name := by
  unfold hosted? at hh
  split at hh
  · cases hh
    rfl
  · cases hh

/-- A thread begins with the members of its group whose addons create them, in their order. -/
theorem Worker.hostAll_eq {link : Link} {id : ThreadId} {built g : Group}
    (h : built.BoundAs link g) (hl : loss? link id g = none) :
    hostAll link id g link.command.topology =
      (built.membersIn link).filterMap (Member.hosted? link id built.name) := by
  rw [hostAll, hl, if_neg (by simp), h.members]
  refine List.filterMap_congr fun m _ => ?_
  unfold host? making Member.hosted?
  rw [h.name, h.app]
  rfl

/-- What a member stands for that is declared in the graph: the environment has the property that
the node declares.

**Proof sketch.** The two differ in the environment only, in which one looks up the row of the
extension and the other one takes it from the node. In an accepted graph these are the same row. -/
lemma GraphDefinition.member_hosted? {g : GraphDefinition} {link : Link} (id : ThreadId)
    (hf : g.fault? link.app.uri = none)
    (htop : link.command.topology = g.topology link.app.uri link.graph) {n : ExtensionNode}
    (hn : n ∈ g.extensionsOn link.app.uri) :
    n.member.hosted? link id n.groupName = n.hosted? link id := by
  have henv : Env.ofTopology (.ofExtension link.app.uri link.graph n.name) n.groupName
      link.command.topology =
        ⟨n.address link.app.uri link.graph, n.groupName, n.property.getD .null,
          link.command.topology⟩ := by
    have hfound : link.command.topology.extension? (some link.app.uri) (some link.graph)
        (some n.name) = some (n.info link.app.uri link.graph) := by
      rw [htop]
      exact extension?_of_mem hf hn
    show Env.mk _ _ (((link.command.topology.extension? (some link.app.uri) (some link.graph)
      (some n.name)).map (·.property)).getD .null) _ = _
    rw [hfound]
    rfl
  unfold Member.hosted? ExtensionNode.hosted?
  dsimp only [ExtensionNode.member]
  rw [henv]

/-- The worker hosts the given extensions, unless its thread has never begun; then it hosts none. -/
structure Worker.Hosts (w : Worker) (xs : List Hosted) : Prop where
  begun : w.neverBegan = false → w.crew = xs.map Hosted.still
  unbegun : w.neverBegan = true → w.crew = []

namespace Engine

variable {e : Engine} {heard : List EngineMsg} {link : Link} {g : GraphDefinition}

/-! ## What is hosted -/

/-- The groups of the threads that have never begun. -/
def unbegun (e : Engine) : List String := (e.host.workers.filter Worker.neverBegan).map (·.group)

/-- The number of the thread of a group. -/
def threadOf (e : Engine) (group : String) : ThreadId :=
  ((e.host.workers.find? (·.group = group)).map (·.id)).getD default

/-- What is promised of the extensions of a graph. -/
structure HostsDeclared (link : Link) (g : GraphDefinition) (heard : List EngineMsg) (e : Engine) :
    Prop where
  /-- The group that a handle still has is one that has come, with its members. -/
  handles : ∀ t ∈ e.context.threads, t.Holds link (groupsIn heard)
  /-- Every thread was started with a group that has come, with its members. -/
  started : ∀ w ∈ e.host.workers, ∃ b ∈ groupsIn heard, w.group = b.name ∧
    ∃ group, b.BoundAs link group ∧
      Worker.Evolves True (Worker.create link w.id group link.command.topology) w
  /-- The thread of a group whose members were fixed by its addon hosts these members. -/
  fixed : ∀ b ∈ groupsIn heard, b.fixed = true → ∀ w ∈ e.host.workers, w.group = b.name →
    w.Hosts (b.members.filterMap (Member.hosted? link w.id b.name))
  /-- The thread of any other group hosts the extensions that are declared for the group. -/
  driven : ∀ b ∈ groupsIn heard, b.fixed = false → ∀ w ∈ e.host.workers, w.group = b.name →
    w.Hosts ((g.extensionsOf link.app.uri b.name).filterMap (ExtensionNode.hosted? link w.id))
  /-- A thread begins, unless it has no runtime, or the addon of a member does not return. -/
  begins : ∀ w ∈ e.host.workers, w.neverBegan = true →
    (∃ reason, w.trace = [.log (.runtimeRefused w.id reason)]) ∨
      ∃ b ∈ groupsIn heard, w.group = b.name ∧
        ∃ m ∈ b.membersIn link, (Worker.lossOf? link w.id m).isSome
  /-- If no addon has fixed any members, and the engine has not gone down, all threads together host
  the declared extensions of the app, each of them once, but for those in groups that were refused
  their threads, or whose threads have never begun. -/
  total : ¬ e.IsDown → CameInTime (link.command.groupCount link.app.uri) heard →
    (∀ b ∈ groupsIn heard, b.fixed = false) →
    (e.host.workers.flatMap Worker.crew).Perm
      ((((g.extensionsOn link.app.uri).filter fun n =>
          n.groupName ∉ link.threadless (groupsIn heard) ∧ n.groupName ∉ e.unbegun).filterMap
        fun n => n.hosted? link (e.threadOf n.groupName)).map Hosted.still) ∧
    ((e.host.workers.flatMap Worker.crew).map (·.name)).Nodup

/-- The thread of a group is the one that hosts the group. -/
lemma threadOf_eq (hnd : (e.host.workers.map (·.group)).Nodup) {w : Worker}
    (hw : w ∈ e.host.workers) : e.threadOf w.group = w.id := by
  cases hf : e.host.workers.find? (·.group = w.group) with
  | none => simpa using List.find?_eq_none.1 hf w hw
  | some v =>
    have hgroup : v.group = w.group := by simpa using List.find?_some hf
    obtain rfl : v = w := List.inj_on_of_nodup_map hnd (List.mem_of_find?_eq_some hf) hw hgroup
    rw [threadOf, hf]
    rfl

/-- A worker that stems from a group has the group's name. -/
lemma group_of_evolves {built group : Group} (hb : built.BoundAs link group) {id : ThreadId}
    {w : Worker}
    (hev : Worker.Evolves True (Worker.create link id group link.command.topology) w) :
    w.group = built.name := hev.group.trans hb.name

/-- A worker that stems from a group hosts the members of the group, or has a reason not to begin.

**Proof sketch.** If the addons of all members return, the thread hosts what they make from its
creation on, and it keeps its extensions, unless it gets no runtime. Otherwise it is lost from its
creation on, and the member is named whose addon does not return. -/
lemma hosts_members {built group : Group} (hb : built.BoundAs link group) {w : Worker}
    (hev : Worker.Evolves True (Worker.create link w.id group link.command.topology) w) :
    w.Hosts ((built.membersIn link).filterMap (Member.hosted? link w.id built.name)) ∧
      (w.neverBegan = true → (∃ reason, w.trace = [.log (.runtimeRefused w.id reason)]) ∨
        ∃ m ∈ built.membersIn link, (Worker.lossOf? link w.id m).isSome) := by
  have hnever {xs : List Hosted} (hn : w.neverBegan = true) (hh : w.hosted = []) : w.Hosts xs := by
    refine ⟨fun h => ?_, fun _ => ?_⟩
    · rw [hn] at h
      cases h
    · rw [Worker.crew, hh]
      rfl
  cases hl : Worker.loss? link w.id group with
  | none =>
    rcases hev.continues_or_refused with hc | hr
    · have hbegan := hc.neverBegan_eq_false hl
      refine ⟨⟨fun _ => ?_, fun h => ?_⟩, fun h => ?_⟩
      · rw [hc.crew, ← Worker.hostAll_eq hb hl]
        rfl
      · rw [hbegan] at h
        cases h
      · rw [hbegan] at h
        cases h
    · exact ⟨hnever hr.neverBegan hr.hosted, fun _ => .inl hr.trace⟩
  | some loss =>
    obtain ⟨m, hm, hlost⟩ := List.exists_of_findSome?_eq_some hl
    rw [hb.members] at hm
    have hlossy : ∃ m ∈ built.membersIn link, (Worker.lossOf? link w.id m).isSome :=
      ⟨m, hm, by rw [hlost]; rfl⟩
    rcases hev.lost_or_refused (Worker.lost_create _ (by rw [hl]; rfl)) with h | hr
    · exact ⟨hnever h.neverBegan h.hosted, fun _ => .inr hlossy⟩
    · exact ⟨hnever hr.neverBegan hr.hosted, fun _ => .inl hr.trace⟩

/-- Every extension has the environment of its name and its group, whatever addon built the
group.

**Proof sketch.** The thread stems from a group that has come, and it hosts members of this group.
The environment is the one that a member is created with, and it is kept. -/
lemma env_of_hosted {moves : List Move} {taken : List EngineMsg}
    (hp : (start link).1.play moves = some (taken, e)) {w : Worker} (hw : w ∈ e.host.workers)
    {h : Hosted} (hh : h ∈ w.hosted) :
    h.env = .ofTopology (.ofExtension link.app.uri link.graph h.name) w.group
      link.command.topology := by
  obtain ⟨b, -, id, group, hbound, hev⟩ := (origins_of_play hp).workers w hw
  have hid : w.id = id := hev.id
  subst hid
  obtain ⟨⟨hbegun, hunbegun⟩, -⟩ := hosts_members hbound hev
  have hcrew : h.still ∈ w.crew := List.mem_map_of_mem hh
  cases hn : w.neverBegan with
  | true =>
    rw [hunbegun hn] at hcrew
    cases hcrew
  | false =>
    rw [hbegun hn] at hcrew
    obtain ⟨h', hh', hstill⟩ := List.mem_map.1 hcrew
    obtain ⟨m, -, hm⟩ := List.mem_filterMap.1 hh'
    -- Neither the name nor the environment ever changes.
    show h.still.env = .ofTopology (.ofExtension link.app.uri link.graph h.still.name) _ _
    rw [← hstill, group_of_evolves hbound hev]
    unfold Member.hosted? at hm
    split at hm
    · cases hm
      rfl
    · cases hm

/-- Every extension has the address of its name, whatever group it is in. -/
lemma loc_of_hosted {moves : List Move} {taken : List EngineMsg}
    (hp : (start link).1.play moves = some (taken, e)) {w : Worker} (hw : w ∈ e.host.workers)
    {h : Hosted} (hh : h ∈ w.hosted) :
    h.env.loc = .ofExtension link.app.uri link.graph h.name := by
  rw [env_of_hosted hp hw hh]
  rfl

/-- The members of a group that the graph decides on stand for the extensions that the graph
declares for the group.

**Proof sketch.** The command lists the members of the group in the order of their declarations, and
each of them is found in the table with the address, group and property of its declaration. -/
lemma membersIn_hosted? (app : AppInfo) {graph : String} {s : StartGraph}
    (hs : StartGraph.ofDefinition g app.uri graph = .ok s) (name : String) (registry : Registry)
    (spawner : Spawner) (id : ThreadId) {b : Group} (hb : b.fixed = false) :
    (b.membersIn (.ofStart app registry spawner (s.withName name))).filterMap
        (Member.hosted? (.ofStart app registry spawner (s.withName name)) id b.name) =
      (g.extensionsOf app.uri b.name).filterMap
        (ExtensionNode.hosted? (.ofStart app registry spawner (s.withName name)) id) := by
  have hg := Link.accepts_ofStart app hs name registry spawner
  have hgraph : s.graph = graph := by
    obtain ⟨-, rfl⟩ := StartGraph.ofDefinition_eq_ok hs
    rfl
  have hmembers : s.members app.uri s.graph b.name =
      (g.extensionsOf app.uri b.name).map ExtensionNode.member := by
    rw [hgraph]
    exact StartGraph.members_eq hs b.name
  rw [Group.membersIn, if_neg (by simp [hb])]
  refine (congrArg _ hmembers).trans ?_
  rw [List.filterMap_map]
  refine List.filterMap_congr fun n hn => ?_
  obtain ⟨hmem, hgroup⟩ := GraphDefinition.mem_extensionsOf.1 hn
  rw [Function.comp_apply, ← hgroup]
  exact GraphDefinition.member_hosted? id hg.fault hg.topology hmem

/-- Every thread of a run has been started for a group that the engine has taken, and has kept on
evolving from there. -/
lemma started_of_play {moves : List Move} {taken : List EngineMsg}
    (hp : (start link).1.play moves = some (taken, e)) {w : Worker} (hw : w ∈ e.host.workers) :
    ∃ b ∈ groupsIn taken, w.group = b.name ∧ ∃ group, b.BoundAs link group ∧
      Worker.Evolves True (Worker.create link w.id group link.command.topology) w := by
  obtain ⟨b, hb, id, group, hbound, hev⟩ := (origins_of_play hp).workers w hw
  have hid : w.id = id := hev.id
  subst hid
  exact ⟨b, hb, group_of_evolves hbound hev, group, hbound, hev⟩

/-- A thread hosts the members of the group that it has been started for. Groups have names of their
own, so that there is only one such group. -/
lemma hosts_of_play (hk : (link.command.topology.groups.map GroupInfo.key).Nodup)
    {moves : List Move} {taken : List EngineMsg}
    (hp : (start link).1.play moves = some (taken, e)) {w : Worker} (hw : w ∈ e.host.workers)
    {b : Group} (hb : b ∈ groupsIn taken) (hname : w.group = b.name) :
    w.Hosts ((b.membersIn link).filterMap (Member.hosted? link w.id b.name)) := by
  obtain ⟨b', hb', hgroup, group, hbound, hev⟩ := started_of_play hp hw
  obtain rfl : b' = b := List.inj_on_of_nodup_map (groupNames_nodup hk hp) hb' hb
    (hgroup.symm.trans hname)
  exact (hosts_members hbound hev).1

/-- What the thread of a group hosts, if no addon has fixed its members: the extensions that are
declared for the group, unless the thread has never begun.

**Proof sketch.** A thread that has never begun hosts nothing, and the names of the groups tell that
its group is left out. Otherwise the thread hosts the members of its group, none of which is left
out. -/
lemma crew_eq (hnd : (e.host.workers.map (·.group)).Nodup) {host : String} {w : Worker}
    (hw : w ∈ e.host.workers)
    (hosts : w.Hosts ((g.extensionsOf host w.group).filterMap (ExtensionNode.hosted? link w.id))) :
    w.crew = ((((g.extensionsOf host w.group).filter fun n => n.groupName ∉ e.unbegun).filterMap
      fun n => n.hosted? link (e.threadOf n.groupName)).map Hosted.still) := by
  cases hn : w.neverBegan with
  | true =>
    have hin : w.group ∈ e.unbegun := List.mem_map_of_mem (List.mem_filter.2 ⟨hw, hn⟩)
    have hnil : ((g.extensionsOf host w.group).filter fun n => n.groupName ∉ e.unbegun) = [] := by
      rw [List.filter_eq_nil_iff]
      intro n hmem
      rw [(GraphDefinition.mem_extensionsOf.1 hmem).2]
      simpa using hin
    rw [hosts.unbegun hn, hnil]
    rfl
  | false =>
    have hout : w.group ∉ e.unbegun := by
      intro hin
      obtain ⟨w', hw', hgroup⟩ := List.mem_map.1 hin
      obtain ⟨hmem, hn'⟩ := List.mem_filter.1 hw'
      obtain rfl : w' = w := List.inj_on_of_nodup_map hnd hmem hw hgroup
      rw [hn] at hn'
      cases hn'
    have hall : ((g.extensionsOf host w.group).filter fun n => n.groupName ∉ e.unbegun) =
        g.extensionsOf host w.group := by
      rw [List.filter_eq_self]
      intro n hmem
      rw [(GraphDefinition.mem_extensionsOf.1 hmem).2]
      simpa using hout
    rw [hosts.begun hn, hall]
    refine congrArg _ (List.filterMap_congr fun n hmem => ?_)
    rw [(GraphDefinition.mem_extensionsOf.1 hmem).2, threadOf_eq hnd hw]

/-- The declared extensions of some groups, group by group.

**Proof sketch.** Induction on the names. All extensions of a group name this group, so they are
kept or dropped together. -/
lemma flatMap_extensionsOf_filter (names refused : List String) (host : String) :
    (names.filter (· ∉ refused)).flatMap (g.extensionsOf host) =
      (names.flatMap (g.extensionsOf host)).filter fun n => n.groupName ∉ refused := by
  rw [List.filter_flatMap]
  induction names with
  | nil => rfl
  | cons name names ih =>
    have hgroup {n : ExtensionNode} (hn : n ∈ g.extensionsOf host name) : n.groupName = name :=
      (GraphDefinition.mem_extensionsOf.1 hn).2
    rw [List.flatMap_cons, ← ih]
    by_cases hname : name ∈ refused
    · have hnone : (g.extensionsOf host name).filter (fun n => n.groupName ∉ refused) = [] := by
        refine List.filter_eq_nil_iff.2 fun n hn => ?_
        rw [hgroup hn]
        simpa using hname
      rw [List.filter_cons_of_neg (by simpa using hname), hnone, List.nil_append]
    · have hall : (g.extensionsOf host name).filter (fun n => n.groupName ∉ refused) =
          g.extensionsOf host name := by
        refine List.filter_eq_self.2 fun n hn => ?_
        rw [hgroup hn]
        simpa using hname
      rw [List.filter_cons_of_pos (by simpa using hname), List.flatMap_cons, hall]

/-- All threads together, if none of them has fixed members: sorting the declared extensions by
their groups loses none of them.

**Proof sketch.** Each thread hosts the declared extensions of its group (`crew_eq`), and the groups
of the threads are those of the declaration without the refused ones. Putting the groups together is
a permutation of the declared extensions, before and after dropping some of them. -/
lemma crews_perm {s : StartGraph} {host graph : String} {refused : List String}
    (hs : StartGraph.ofDefinition g host graph = .ok s)
    (hnames : e.startedGroups.Perm (((s.groupsOf host).map (·.name)).filter (· ∉ refused)))
    (hosts : ∀ w ∈ e.host.workers,
      w.Hosts ((g.extensionsOf host w.group).filterMap (ExtensionNode.hosted? link w.id))) :
    (e.host.workers.flatMap Worker.crew).Perm
      ((((g.extensionsOn host).filter fun n =>
          n.groupName ∉ refused ∧ n.groupName ∉ e.unbegun).filterMap
        fun n => n.hosted? link (e.threadOf n.groupName)).map Hosted.still) := by
  have hnd : (e.host.workers.map (·.group)).Nodup :=
    hnames.nodup_iff.2
      ((StartGraph.names_nodup (StartGraph.groupKeys_nodup hs) host).filter _)
  have hflat : e.host.workers.flatMap Worker.crew = e.startedGroups.flatMap fun group =>
      ((((g.extensionsOf host group).filter fun n => n.groupName ∉ e.unbegun).filterMap
        fun n => n.hosted? link (e.threadOf n.groupName)).map Hosted.still) := by
    rw [startedGroups, Host.startedGroups, List.flatMap_map]
    exact List.flatMap_congr fun w hw => crew_eq hnd hw (hosts w hw)
  have hdeclared := ((StartGraph.flatMap_extensionsOf_perm hs).filter fun n =>
    n.groupName ∉ refused).filter fun n => n.groupName ∉ e.unbegun
  have hboth : ((g.extensionsOn host).filter fun n => n.groupName ∉ refused).filter
      (fun n => n.groupName ∉ e.unbegun) =
        (g.extensionsOn host).filter fun n => n.groupName ∉ refused ∧ n.groupName ∉ e.unbegun := by
    rw [List.filter_filter]
    exact List.filter_congr fun n _ => by
      rw [Bool.decide_and, Bool.and_comm]
  rw [← flatMap_extensionsOf_filter, hboth] at hdeclared
  rw [hflat]
  refine (hnames.flatMap_right _).trans ?_
  rw [← List.map_flatMap, ← List.filterMap_flatMap, ← List.filter_flatMap]
  exact (hdeclared.filterMap _).map _

/-- Extensions are hosted under the names under which they are declared.

**Proof sketch.** By induction over the nodes. One that can be created is hosted under its name, and
one that cannot is left out. -/
lemma hosted_names_sublist (thread : ExtensionNode → ThreadId) (ns : List ExtensionNode) :
    (((ns.filterMap fun n => n.hosted? link (thread n)).map Hosted.still).map (·.name)).Sublist
      (ns.map (·.name)) := by
  induction ns with
  | nil => exact .slnil
  | cons n ns ih =>
    cases hn : n.hosted? link (thread n) with
    | none =>
      rw [List.filterMap_cons_none (f := fun n : ExtensionNode => n.hosted? link (thread n)) hn]
      exact ih.cons _
    | some h =>
      have hname : h.name = n.name := ExtensionNode.name_of_hosted? hn
      rw [List.filterMap_cons_some (f := fun n : ExtensionNode => n.hosted? link (thread n)) hn,
        List.map_cons, List.map_cons, List.map_cons, ← hname]
      exact ih.cons_cons _

/-- **What a graph declares is what gets hosted.** Let a graph be accepted by its app. At any time
of any run, the group of every handle and of every thread is one that has come, with the members
that its addon has fixed or with those that the graph declares for it. A thread hosts those of them
whose addons create them, in their order; an extension of the graph has the declared address, group
and property. Threads host nothing if they have no runtime, or if an addon does not return. If all
groups have come in time, the engine has not gone down and no addon has fixed any members, all
threads together host the declared extensions of the app, each of them once, but for those in groups
whose threads have been refused or have never begun.

**Proof sketch.** A handle and a thread stem from a group that has come, by `origins_of_play`, and a
thread hosts the members of its group, by `hosts_members`. If all groups have come in time, the
engine has started the declared ones, each once; then `crews_perm` puts the threads together, and
the declared names are all different. -/
theorem hosts_declared (app : AppInfo) {graph : String} {s : StartGraph}
    (hs : StartGraph.ofDefinition g app.uri graph = .ok s) (name : String) (registry : Registry)
    (spawner : Spawner) {moves : List Move} {taken : List EngineMsg}
    (hp : (start (Link.ofStart app registry spawner (s.withName name))).1.play moves =
      some (taken, e)) :
    e.HostsDeclared (Link.ofStart app registry spawner (s.withName name)) g taken := by
  have hg := Link.accepts_ofStart app hs name registry spawner
  have hdriven (id : ThreadId) {b : Group} (hb : b.fixed = false) :=
    membersIn_hosted? app hs name registry spawner id hb
  set link := Link.ofStart app registry spawner (s.withName name) with hlink
  have hosts : ∀ b ∈ groupsIn taken, ∀ w ∈ e.host.workers, w.group = b.name →
      w.Hosts ((b.membersIn link).filterMap (Member.hosted? link w.id b.name)) :=
    fun b hb w hw hname => hosts_of_play hg.keys hp hw hb hname
  refine ⟨(origins_of_play hp).handles, fun w hw => started_of_play hp hw,
    fun b hb hf w hw hname => ?_,
    fun b hb hf w hw hname => ?_, fun w hw hn => ?_, fun hup hin hall => ?_⟩
  · have h := hosts b hb w hw hname
    rwa [Group.membersIn, if_pos hf] at h
  · have h := hosts b hb w hw hname
    rwa [hdriven w.id hf] at h
  · obtain ⟨b, hb, hgroup, group, hbound, hev⟩ := started_of_play hp hw
    exact ((hosts_members hbound hev).2 hn).imp_right fun hlossy => ⟨b, hb, hgroup, hlossy⟩
  · have hcrew (w : Worker) (hw : w ∈ e.host.workers) :
        w.Hosts ((g.extensionsOf app.uri w.group).filterMap (ExtensionNode.hosted? link w.id)) := by
      obtain ⟨b, hb, hgroup, -⟩ := started_of_play hp hw
      have h := hosts b hb w hw hgroup
      rwa [hdriven w.id (hall b hb), ← hgroup] at h
    have hperm := crews_perm hs
      ((course_of_play hg.keys hp).1.perm_of_cameInTime hup hg.keys hin) hcrew
    refine ⟨hperm, ?_⟩
    have hnames := GraphDefinition.names_nodup (StartGraph.ofDefinition_eq_ok hs).1
    rw [(hperm.map _).nodup_iff]
    exact (hnames.sublist (List.filter_sublist.map _)).sublist (hosted_names_sublist _ _)

/-- A graph with three extensions, two of them in one group; one of these two has an addon that
nobody has registered. -/
def trio : GraphDefinition :=
  ⟨[.extension ⟨"single", "addon", none, none, none⟩,
    .extension ⟨"first", "addon", some "pair", none, some (.bool true)⟩,
    .extension ⟨"second", "missing", some "pair", none, none⟩], []⟩

/-- What this graph hosts when its groups come in the opposite order. -/
theorem hosts_declared_trio :
    let s : StartGraph := ⟨.ofGraph "app" "1", none, trio.topology "app" "1"⟩
    let registry : Registry :=
      ⟨[("addon", fun _ _ => .made .idle)], [(defaultGroupAddon, Registry.defaultGroup)]⟩
    StartGraph.ofDefinition trio "app" "1" = .ok s ∧
    ∃ taken e, (start (Link.ofStart ⟨"app", ""⟩ registry .willing (s.withName ""))).1.play
        [.complete 1, .complete 0, .handle, .handle, .work 0] = some (taken, e) ∧
      ((e.host.workers.flatMap Worker.crew).map
        fun h => (h.env.loc, h.env.group, h.env.property)).Perm
          [(.ofExtension "app" "1" "single", "single", .null),
            (.ofExtension "app" "1" "first", "pair", .bool true)] := by
  intro s registry
  have hs : StartGraph.ofDefinition trio "app" "1" = .ok s := rfl
  have hrun : ((start (Link.ofStart ⟨"app", ""⟩ registry .willing (s.withName ""))).1.play
      [.complete 1, .complete 0, .handle, .handle, .work 0]).map (fun r =>
        ((groupsIn r.1).map (·.fixed), r.1.all (·.group?.isSome), r.2.unbegun,
          (r.2.host.mailbox.listening,
            (Link.ofStart ⟨"app", ""⟩ registry .willing (s.withName "")).threadless
              (groupsIn r.1)))) =
      some ([false, false], true, [], (true, [])) := by decide +kernel
  obtain ⟨⟨taken, e⟩, hp, hsum⟩ := Option.map_eq_some_iff.1 hrun
  simp only [Prod.mk.injEq, List.all_eq_true] at hsum
  obtain ⟨hfixed, hgroups, hbegun, hlistening, hmade⟩ := hsum
  have hin : CameInTime 2 taken := by
    refine ⟨taken, [], (List.append_nil _).symm, ?_, fun m hm hend => ?_⟩
    · have hlen := congrArg List.length hfixed
      rwa [List.length_map] at hlen
    · have hsome := hgroups m hm
      cases m with
      | created result =>
        cases result with
        | ok g => exact hend
        | error err => cases hsome
      | threadClosed | route | close => cases hsome
  have hdriven : ∀ b ∈ groupsIn taken, b.fixed = false := by
    intro b hb
    have hmem := List.mem_map_of_mem (f := Group.fixed) hb
    rw [hfixed] at hmem
    simpa using hmem
  have hperm := ((hosts_declared ⟨"app", ""⟩ hs "" registry .willing hp).total
    (not_isDown_of_listening hlistening) hin hdriven).1
  rw [hbegun, hmade] at hperm
  exact ⟨hs, taken, e, hp, hperm.map _⟩

/-- A declared extension whose addon would create it may be hosted nowhere, although the graph says
that it has been started: there was no thread to be had for its group. And if no thread can have the
name of its group, the engine goes down before the graph has been started. -/
theorem declared_not_hosted :
    let registry : Registry :=
      ⟨[("addon", fun _ _ => .made .idle), ("caller", fun _ _ => .made .idle),
        ("idle", fun _ _ => .made .idle)], [(defaultGroupAddon, Registry.defaultGroup)]⟩
    let run (g : GraphDefinition) (spawner : Spawner) :=
      let s : StartGraph := ⟨.ofGraph "app" "1", none, g.topology "app" "1"⟩
      (start (Link.ofStart ⟨"app", ""⟩ registry spawner (s.withName ""))).1.play
        [.complete 0, .complete 0, .handle, .handle]
    (∀ g ∈ [trio, unnameable], StartGraph.ofDefinition g "app" "1" =
      .ok ⟨.ofGraph "app" "1", none, g.topology "app" "1"⟩) ∧
    (∃ r, run trio reluctant = some r ∧ (∀ b ∈ groupsIn r.1, b.fixed = false) ∧
      r.2.context.phase = .running ∧
      r.2.host.log.getLast?.map (·.entry.message) = some "Graph started" ∧
      "first" ∈ (trio.extensionsOn "app").map (·.name) ∧
      r.2.host.workers.flatMap Worker.roster = ["single"]) ∧
    ∃ r, run unnameable .willing = some r ∧ (∀ b ∈ groupsIn r.1, b.fixed = false) ∧
      r.2.host.mailbox.listening = false ∧ r.2.context.phase = .running ∧
      (unnameable.extensionsOn "app").map (·.name) = ["caller\x00", "listener"] ∧
      r.2.host.workers.isEmpty := by
  intro registry run
  have hrefused : (run trio reluctant).any (fun r : List EngineMsg × Engine =>
      decide ((∀ b ∈ groupsIn r.1, b.fixed = false) ∧ r.2.context.phase = .running ∧
        r.2.host.log.getLast?.map (·.entry.message) = some "Graph started" ∧
        "first" ∈ (trio.extensionsOn "app").map (·.name) ∧
        r.2.host.workers.flatMap Worker.roster = ["single"])) = true := by decide +kernel
  have hdown : (run unnameable .willing).any (fun r : List EngineMsg × Engine =>
      decide ((∀ b ∈ groupsIn r.1, b.fixed = false) ∧
        r.2.host.mailbox.listening = false ∧ r.2.context.phase = .running ∧
        (unnameable.extensionsOn "app").map (·.name) = ["caller\x00", "listener"] ∧
        r.2.host.workers.isEmpty)) = true := by decide +kernel
  obtain ⟨r, hp, hsum⟩ := (Option.any_eq_true _ _).1 hrefused
  obtain ⟨r', hp', hsum'⟩ := (Option.any_eq_true _ _).1 hdown
  refine ⟨?_, ⟨r, hp, of_decide_eq_true hsum⟩, r', hp', of_decide_eq_true hsum'⟩
  simp only [List.forall_mem_cons, List.not_mem_nil, false_implies, implies_true, and_true]
  exact ⟨rfl, rfl⟩

end Engine

end ExtensionGraph
