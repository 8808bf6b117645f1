import ExtensionGraph.Proofs.ContextEffects
import ExtensionGraph.Proofs.ShutdownCount

/-!
# How a graph comes up

From the start of a graph on, messages do nothing to its context but bring groups to it, unless
something fails or is closed. So the context is a function of the groups that have come, in the
order in which they have come. This module writes the function down, and proves that the context
follows it.

## Main definitions

* `ExtensionGraph.EngineMsg.IsPeaceful` — the messages in question.
* `ExtensionGraph.Context.pending`, `ExtensionGraph.Context.up` — the context of a graph that waits
  for groups, and of one that has got them all.
* `ExtensionGraph.Link.grants`, `ExtensionGraph.Link.threadless` — which of the threads can be made,
  and which groups are left without one.
* `ExtensionGraph.Link.MakesThreads` — links for which all threads can be made.
* `ExtensionGraph.Context.launched` — the threads that are started in between.

## Main results

* `ExtensionGraph.Context.pending_handleAll`, `ExtensionGraph.Context.pending_handleAll_up` — what
  becomes of a context that waits.
* `ExtensionGraph.Context.up_handleAll` — what becomes of a context that has got all groups.
-/

namespace ExtensionGraph

namespace EngineMsg

/-- The group that a message brings. -/
def group? : EngineMsg → Option Group
  | .created (.ok g) => some g
  | _ => none

/-- The message brings a group, or it is one that apps and extensions send each other. -/
def IsPeaceful : EngineMsg → Prop
  | .created (.ok _) => True
  | .route _ => True
  | _ => False

end EngineMsg

/-- A group comes as the outcome of its creation, and not in any other way. -/
lemma EngineMsg.group?_eq_some {m : EngineMsg} {g : Group} (h : m.group? = some g) :
    m = .created (.ok g) := by
  cases m with
  | created result =>
    cases result with
    | ok g' =>
      cases h
      rfl
    | error err => cases h
  | threadClosed | route | close => cases h

/-- The groups that messages bring. -/
abbrev groupsIn (ms : List EngineMsg) : List Group := ms.filterMap EngineMsg.group?

namespace Link

variable (link : Link)

/-- Whether a thread can be made for the group of a name that has come after `k` others. -/
def grants (name : String) (k : Nat) : Bool :=
  isThreadName name && (link.refusal? ⟨k + 1⟩).isNone

/-- The names of those groups for which no thread can be made, of groups that come in an order. -/
def threadless (gs : List Group) : List String :=
  (gs.zipIdx.filter fun x => !link.grants x.1.name x.2).map (·.1.name)

/-- All threads can be made that the graph of a link needs: none is refused, and threads can have
the names of all its groups. -/
structure MakesThreads : Prop where
  willing : ∀ id, link.refusal? id = none
  nameable : ∀ info ∈ link.command.groupsOf link.app.uri, isThreadName info.name = true

variable {link}

/-- If all threads can be made, no declared group is without one. -/
lemma MakesThreads.threadless (h : link.MakesThreads) {gs : List Group}
    (hgs : gs.map (·.name) ⊆ (link.command.groupsOf link.app.uri).map (·.name)) :
    link.threadless gs = [] := by
  refine List.map_eq_nil_iff.2 (List.filter_eq_nil_iff.2 fun x hx => ?_)
  obtain ⟨info, hi, hname⟩ := List.mem_map.1
    (hgs (List.mem_map_of_mem (List.fst_mem_of_mem_zipIdx hx)))
  rw [grants, ← hname, h.nameable info hi, h.willing]
  simp

end Link

namespace Context

/-- Handles messages one after the other: the context in the end, and everything that was decided
on the way. -/
def handleAll (c : Context) : List EngineMsg → Context × List Effect
  | [] => (c, [])
  | m :: ms =>
    (((c.handle m).1.handleAll ms).1, (c.handle m).2 ++ ((c.handle m).1.handleAll ms).2)

section Closed

/-! ## Closed forms

After its start, nothing happens to a graph but that groups come. So its context is a function of
the groups that have come. -/

variable (link : Link)

/-- A group as it goes to its thread: bound to the graph, and told what is declared about it. -/
def briefed (g : Group) : Group :=
  match link.command.topology.group? link.app.uri g.name with
  | some info => ((create link true).adopt g).setInfo info
  | none => (create link true).adopt g

/-- The handle of the group that has come after `k` others. -/
def handleAt (g : Group) (k : Nat) : Thread :=
  (Thread.create ⟨k + 1⟩).attach ((create link true).adopt g)

/-- The same handle once its group has been told what is declared about it. -/
def briefedAt (g : Group) (k : Nat) : Thread :=
  { handleAt link g k with group := some (briefed link g) }

/-- The same handle when its thread was to be started: without its group, and with a thread if one
can be made. -/
def startedAt (g : Group) (k : Nat) : Thread :=
  if link.grants g.name k then
    { handleAt link g k with group := none, wired := true, state := .running }
  else { handleAt link g k with group := none }

/-- The start of this thread. -/
def launchAt (g : Group) (k : Nat) : Launch :=
  ⟨⟨k + 1⟩, briefed link g, link.command.topology⟩

/-- The threads that are started when all groups have come: those that can be made. -/
def launched (gs : List Group) : List Launch :=
  (gs.zipIdx.filter fun x => link.grants x.1.name x.2).map fun x => launchAt link x.1 x.2

/-- A context to which some groups have come, and which waits for more. -/
def pending (gs : List Group) : Context :=
  { create link true with
    phase := .starting
    threads := gs.zipIdx.map fun x => handleAt link x.1 x.2
    ready := gs.length
    nextThread := gs.length + 1 }

/-- A context to which all groups have come. -/
def up (gs : List Group) : Context :=
  { create link true with
    phase := .running
    topology := some link.command.topology
    threads := gs.zipIdx.map fun x => startedAt link x.1 x.2
    ready := gs.length
    nextThread := gs.length + 1 }

variable {link} {gs : List Group} {g : Group}

/-- What does not depend on the numbers depends on the groups only. -/
lemma map_zipIdx_fst {β : Type} (f : Group → β) (gs : List Group) :
    (gs.zipIdx.map fun x => f x.1) = gs.map f := by
  rw [← List.zipIdx_map_fst 0 gs, List.map_map]
  simp [Function.comp_def]

/-- The handle of a group has the group's name. -/
@[simp] lemma handleAt_groupName (k : Nat) : (handleAt link g k).groupName = g.name :=
  adopt_name _ g

/-- It has this name also when its thread has been started, or has been refused. -/
@[simp] lemma startedAt_groupName (k : Nat) : (startedAt link g k).groupName = g.name := by
  unfold startedAt
  split
  · exact adopt_name _ g
  · exact adopt_name _ g

/-- The handles are numbered in the order in which the groups come. -/
@[simp] lemma startedAt_id (k : Nat) : (startedAt link g k).id = ⟨k + 1⟩ := by
  unfold startedAt
  split <;> rfl

/-- A group keeps its name when it is told about itself. -/
@[simp] lemma briefed_name : (briefed link g).name = g.name := by
  unfold briefed
  split
  · exact adopt_name _ g
  · exact adopt_name _ g

/-- If all threads can be made, none is missing. -/
lemma launched_of_grants (hg : ∀ g ∈ gs, ∀ k, link.grants g.name k = true) :
    launched link gs = gs.zipIdx.map fun x => launchAt link x.1 x.2 := by
  rw [launched, List.filter_eq_self.2 fun x hx => hg x.1 (List.fst_mem_of_mem_zipIdx hx) x.2]

/-- The handles of a graph that has come up are those of the groups that have come. -/
lemma up_names (link : Link) (gs : List Group) :
    (up link gs).threads.map (·.groupName) = gs.map (·.name) := by
  rw [← map_zipIdx_fst, up, List.map_map]
  exact List.map_congr_left fun x _ => startedAt_groupName x.2

/-- If all threads can be made, each handle has had its own thread started, for its own group. -/
lemma launched_labels (hg : ∀ g ∈ gs, ∀ k, link.grants g.name k = true) :
    (launched link gs).map (fun l => (l.id, l.group.name)) =
      (up link gs).threads.map fun t => (t.id, t.groupName) := by
  rw [launched_of_grants hg, up, List.map_map, List.map_map]
  refine List.map_congr_left fun x _ => ?_
  show ((⟨x.2 + 1⟩ : ThreadId), (briefed link x.1).name) =
    ((startedAt link x.1 x.2).id, (startedAt link x.1 x.2).groupName)
  rw [briefed_name, startedAt_id, startedAt_groupName]

/-- Of the groups that have come, each has its thread started or is without one. -/
lemma length_launched : (launched link gs).length + (link.threadless gs).length = gs.length := by
  rw [launched, Link.threadless, List.length_map, List.length_map,
    ← List.length_eq_length_filter_add, List.length_zipIdx]

/-- The groups of the threads that are started are those that have come, but for the ones for which
no thread can be made.

**Proof sketch.** Names are different from each other, so a name belongs to one group, at one place
of the order; the thread for this place can be made exactly if the name is not among those that go
without a thread. -/
lemma launched_names (hnd : (gs.map (·.name)).Nodup) :
    (launched link gs).map (·.group.name) =
      (gs.map (·.name)).filter (· ∉ link.threadless gs) := by
  have hzip : gs.map (·.name) = gs.zipIdx.map fun x => x.1.name := (map_zipIdx_fst _ gs).symm
  have hgranted : ∀ x ∈ gs.zipIdx,
      link.grants x.1.name x.2 = decide (x.1.name ∉ link.threadless gs) := by
    intro x hx
    rw [Bool.eq_iff_iff, decide_eq_true_eq]
    constructor
    · intro hg hmem
      obtain ⟨y, hy, hname⟩ := List.mem_map.1 hmem
      obtain ⟨hyz, hyg⟩ := List.mem_filter.1 hy
      rw [hzip] at hnd
      obtain rfl := List.inj_on_of_nodup_map hnd hyz hx hname
      rw [hg] at hyg
      cases hyg
    · intro hmem
      by_contra hg
      exact hmem (List.mem_map.2 ⟨x, List.mem_filter.2 ⟨hx, by simpa using hg⟩, rfl⟩)
  have hnames : (launched link gs).map (·.group.name) =
      (gs.zipIdx.filter fun x => link.grants x.1.name x.2).map fun x => x.1.name := by
    rw [launched, List.map_map]
    exact List.map_congr_left fun x _ => briefed_name
  rw [hnames, List.filter_congr hgranted, hzip, List.filter_map]
  rfl

/-- While groups are awaited, the graph is open. -/
lemma pending_isOpen : (pending link gs).IsOpen := by
  simp [IsOpen, pending]

/-- Another group is put behind those that have come. -/
lemma opened_pending : (pending link gs).opened g = pending link (gs ++ [g]) := by
  have hthread : (pending link gs).handleFor g = handleAt link g gs.length := rfl
  have hzip : (gs ++ [g]).zipIdx = gs.zipIdx ++ [(g, gs.length)] := by
    rw [List.zipIdx_append]
    simp
  rw [opened, hthread]
  simp only [withThread, pending, hzip, List.map_append, List.map_cons, List.map_nil,
    List.length_append, List.length_cons, List.length_nil]

/-- With another group there is one more handle than groups have come before. -/
lemma pending_length : (pending link (gs ++ [g])).threads.length = gs.length + 1 := by
  simp only [pending, List.length_map, List.length_zipIdx, List.length_append, List.length_cons,
    List.length_nil]

/-- A group that is not the last one is put on the list. -/
lemma pending_groupCreated (link : Link) (gs : List Group) (g : Group)
    (hn : gs.length + 1 < link.command.groupCount link.app.uri) :
    (pending link gs).groupCreated g =
      (pending link (gs ++ [g]), [(pending link gs).arrival g]) := by
  have hlen : (pending link (gs ++ [g])).threads.length ≠
      (pending link gs).localGroups.length := by
    rw [pending_length]
    exact Nat.ne_of_lt hn
  rw [groupCreated_eq_of_isOpen _ pending_isOpen, opened_pending, if_neg hlen]

/-- A declared group is told what is declared about it. -/
lemma inform_handleAt {k : Nat}
    (hd : (link.command.topology.group? link.app.uri g.name).isSome) :
    inform link.command.topology link.app.uri (handleAt link g k) =
      some { handleAt link g k with group := some (briefed link g) } := by
  obtain ⟨info, hi⟩ := Option.isSome_iff_exists.1 hd
  have hfound : link.command.topology.group? link.app.uri (handleAt link g k).groupName =
      some info := by
    rw [handleAt_groupName]
    exact hi
  have hgroup : (handleAt link g k).group = some ((create link true).adopt g) := rfl
  have hb : briefed link g = ((create link true).adopt g).setInfo info := by
    rw [briefed, hi]
  rw [hb]
  unfold inform
  rw [hfound, hgroup]

/-- Once it has been told, its thread is started if it can be made.

**Proof sketch.** By cases on what the start comes to. The handle waits for its start, so that it
does not fail for its state; then the answer of the system and the name decide, as they do about
whether the thread can be made. -/
lemma startThread_briefedAt {c : Context} (hc : c.link = link) (k : Nat) :
    (c.startThread link.command.topology (briefedAt link g k)).1 = startedAt link g k ∧
      (c.startThread link.command.topology (briefedAt link g k)).2.filterMap Effect.launch? =
        if link.grants g.name k then [launchAt link g k] else [] := by
  have hname : (briefedAt link g k).isNameable = isThreadName g.name :=
    congrArg isThreadName (handleAt_groupName k)
  have hr := c.starts_startThread link.command.topology (briefedAt link g k)
  generalize c.startThread link.command.topology (briefedAt link g k) = r at hr ⊢
  cases hr with
  | unfit h => cases h rfl
  | spawned hs hg hn hr =>
    have hgrants : link.grants g.name k = true := by
      rw [Link.grants, ← hname, hn, ← hc, show (⟨k + 1⟩ : ThreadId) = (briefedAt link g k).id from
        rfl, hr]
      rfl
    cases hg
    rw [startedAt, if_pos hgrants, if_pos hgrants]
    exact ⟨rfl, rfl⟩
  | refused hs hg hn hr =>
    have hgrants : link.grants g.name k = false := by
      rw [Link.grants, ← hc, show (⟨k + 1⟩ : ThreadId) = (briefedAt link g k).id from rfl, hr]
      exact Bool.and_false _
    rw [startedAt, hgrants]
    exact ⟨rfl, rfl⟩
  | panics hs hg hn =>
    have hgrants : link.grants g.name k = false := by
      rw [Link.grants, ← hname, hn]
      rfl
    rw [startedAt, hgrants]
    exact ⟨rfl, rfl⟩

/-- A handle that has been told about its group waits for its start. -/
lemma waiting_briefedAt (k : Nat) : (briefedAt link g k).Waiting :=
  ⟨⟨rfl, rfl, rfl⟩, briefed link g, rfl, briefed_name.trans (handleAt_groupName k).symm⟩

/-- When all groups have come, and are declared, each of them is told. -/
lemma told_pending_threads
    (hd : ∀ g ∈ gs, (link.command.topology.group? link.app.uri g.name).isSome) :
    (pending link gs).told.threads = gs.zipIdx.map fun x => briefedAt link x.1 x.2 := by
  simp only [told, pending, List.map_map]
  refine List.map_congr_left fun x hx => ?_
  have hi := inform_handleAt (k := x.2) (hd x.1 (List.fst_mem_of_mem_zipIdx hx))
  show (inform link.command.topology link.app.uri (handleAt link x.1 x.2)).getD
    (handleAt link x.1 x.2) = _
  rw [hi]
  rfl

/-- If all groups are declared, nobody is found to be a stranger. -/
lemma strangers_pending
    (hd : ∀ g ∈ gs, (link.command.topology.group? link.app.uri g.name).isSome) :
    (pending link gs).strangers = [] := by
  unfold strangers undeclared
  rw [List.map_eq_nil_iff, List.filter_eq_nil_iff]
  intro x hx
  obtain ⟨t, ht, rfl⟩ := List.mem_map.1 hx
  obtain ⟨⟨g, k⟩, hg, rfl⟩ := List.mem_map.1 ht
  have hi := inform_handleAt (k := k) (hd g (List.fst_mem_of_mem_zipIdx hg))
  show ¬ (inform link.command.topology link.app.uri (handleAt link g k)).isNone = true
  rw [hi]
  simp

/-- The threads that can be made are started then.

**Proof sketch.** The handles are started one after the other, and for each of them it is known what
comes of it. So the list of the handles is mapped, and the list of the threads is filtered by
whether they can be made. -/
lemma startThreads_told_pending
    (hd : ∀ g ∈ gs, (link.command.topology.group? link.app.uri g.name).isSome) :
    (pending link gs).told.startThreads.1 = up link gs ∧
      (pending link gs).told.starting.filterMap Effect.launch? = launched link gs := by
  have hthreads := told_pending_threads hd
  have htop : (pending link gs).told.topology.getD .empty = link.command.topology := rfl
  have hlink : (pending link gs).told.link = link := rfl
  have hstart (x : Group × Nat) := startThread_briefedAt hlink (g := x.1) x.2
  constructor
  · have hstarted : (pending link gs).told.startThreads.1.threads =
        gs.zipIdx.map fun x => startedAt link x.1 x.2 := by
      show (((pending link gs).told.threads.map _).map Prod.fst) = _
      rw [hthreads, List.map_map, List.map_map]
      exact List.map_congr_left fun x _ => (hstart x).1
    have hrest : (pending link gs).told.startThreads.1 =
        { up link gs with threads := (pending link gs).told.startThreads.1.threads } := rfl
    rw [hrest, hstarted]
    rfl
  · rw [starting_launches, hthreads, htop, List.map_map, List.flatMap_map, List.filterMap_flatMap,
      launched]
    induction gs.zipIdx with
    | nil => rfl
    | cons x xs ih =>
      rw [List.flatMap_cons, ih, List.filter_cons, Function.comp_apply, (hstart x).2]
      split
      · rfl
      · rfl

/-- With the last group all threads that can be made are started. If one of the groups has a name
that no thread can have, the engine goes down in the middle of that.

**Proof sketch.** The last group makes all handles start. They wait for that, so that either all
threads have names that they can have and every start is carried out, or one of the starts panics
and cuts off the rest. What was started before is in either case a beginning of what was to be
started. -/
lemma pending_last (hn : gs.length + 1 = link.command.groupCount link.app.uri)
    (hd : ∀ g' ∈ gs ++ [g], (link.command.topology.group? link.app.uri g'.name).isSome) :
    ((pending link gs).groupCreated g).1 = up link (gs ++ [g]) ∧
      (((∀ g' ∈ gs ++ [g], isThreadName g'.name = true) ∧
          (∀ x ∈ ((pending link gs).groupCreated g).2, x.IsTame) ∧
          ((pending link gs).groupCreated g).2.filterMap Effect.launch? =
            launched link (gs ++ [g])) ∨
        ((∃ g' ∈ gs ++ [g], isThreadName g'.name = false) ∧
          (∃ before, ((pending link gs).groupCreated g).2 = before ++ [.panic]) ∧
          (((pending link gs).groupCreated g).2.filterMap Effect.launch?).Sublist
            (launched link (gs ++ [g])))) := by
  have hlen : (pending link (gs ++ [g])).threads.length =
      (pending link gs).localGroups.length := by
    rw [pending_length]
    exact hn
  have htop : ¬ (pending link (gs ++ [g])).topology.isSome = true := by simp [pending, create]
  obtain ⟨hup, hlaunch⟩ := startThreads_told_pending hd
  have hname (x : Group × Nat) : (briefedAt link x.1 x.2).isNameable = isThreadName x.1.name :=
    congrArg isThreadName (handleAt_groupName x.2)
  have hthreads := told_pending_threads hd
  -- All handles wait, so that only a name can keep one of them from its start.
  have hwaiting : ∀ t ∈ (pending link (gs ++ [g])).told.threads, t.Waiting := by
    rw [hthreads]
    intro t ht
    obtain ⟨x, -, rfl⟩ := List.mem_map.1 ht
    exact waiting_briefedAt x.2
  have harrival : ((pending link gs).arrival g).launch? = none := rfl
  rw [groupCreated_eq_of_isOpen _ pending_isOpen, opened_pending, if_pos hlen, allReady_eq,
    if_neg htop, if_pos (strangers_pending hd)]
  refine ⟨hup, ?_⟩
  rcases startThreads_of_waiting _ hwaiting with
    ⟨hnameable, heq, hstarting⟩ | ⟨⟨t, ht, hbad⟩, before, heq, hpre, -⟩
  · refine .inl ⟨fun g' hg' => ?_, fun x hx => ?_, ?_⟩
    · rw [← List.zipIdx_map_fst 0 (gs ++ [g])] at hg'
      obtain ⟨x, hx, rfl⟩ := List.mem_map.1 hg'
      rw [← hname x]
      refine hnameable _ ?_
      rw [hthreads]
      exact List.mem_map_of_mem hx
    · rw [heq] at hx
      rcases List.mem_cons.1 hx with rfl | hx
      · trivial
      · exact (hstarting x hx).1
    · rw [List.filterMap_cons_none harrival, heq]
      exact hlaunch
  · refine .inr ⟨?_, ⟨(pending link gs).arrival g :: before, by rw [heq]; rfl⟩, ?_⟩
    · rw [hthreads] at ht
      obtain ⟨x, hx, rfl⟩ := List.mem_map.1 ht
      exact ⟨x.1, List.fst_mem_of_mem_zipIdx hx, by rw [← hname x]; exact hbad⟩
    · rw [List.filterMap_cons_none harrival, heq, List.filterMap_append, ← hlaunch]
      show (before.filterMap Effect.launch? ++ []).Sublist _
      rw [List.append_nil]
      exact hpre.sublist.filterMap _

/-! ## Runs -/

/-- Everything that is decided on leaves the workers alone. -/
abbrev Quiet (effects : List Effect) : Prop := ∀ x ∈ effects, x.IsMild

/-- The arrival of a group is only logged. -/
lemma quiet_arrival (c : Context) (g : Group) : Quiet [c.arrival g] := by
  intro x hx
  obtain rfl := List.mem_singleton.1 hx
  exact ⟨trivial, rfl⟩

/-- Bringing messages to their destinations starts nothing and tells nobody to end. -/
lemma quiet_dispatch (c : Context) (m : Msg) : Quiet (c.dispatch m) :=
  fun x hx => (c.dispatch_mild m x hx).1

/-- Decisions that start nothing do so together as well. -/
lemma quiet_append {xs ys : List Effect} (hx : Quiet xs) (hy : Quiet ys) : Quiet (xs ++ ys) := by
  intro x hm
  rcases List.mem_append.1 hm with hm | hm
  · exact hx x hm
  · exact hy x hm

/-- While groups are missing, the context waits for them and nothing is started.

**Proof sketch.** By induction on the messages. A group is put behind those that have come, and
there are still some missing after it; a message to extensions changes nothing. Other messages are
not peaceful. -/
lemma pending_handleAll (link : Link) (gs : List Group) {ms : List EngineMsg}
    (hp : ∀ m ∈ ms, m.IsPeaceful)
    (hn : gs.length + (groupsIn ms).length < link.command.groupCount link.app.uri) :
    ((pending link gs).handleAll ms).1 = pending link (gs ++ groupsIn ms) ∧
      Quiet ((pending link gs).handleAll ms).2 := by
  induction ms generalizing gs with
  | nil => exact ⟨by simp [handleAll], by simp [handleAll, Quiet]⟩
  | cons m ms ih =>
    have hrest : ∀ m ∈ ms, m.IsPeaceful := fun m' hm' => hp m' (List.mem_cons_of_mem _ hm')
    cases m with
    | created result =>
      cases result with
      | ok g =>
        have hgs : groupsIn (.created (.ok g) :: ms) = g :: groupsIn ms := rfl
        rw [hgs, List.length_cons] at hn
        have hstep := pending_groupCreated link gs g (by omega)
        have hlt : (gs ++ [g]).length + (groupsIn ms).length <
            link.command.groupCount link.app.uri := by
          rw [List.length_append, List.length_singleton]
          omega
        obtain ⟨hc, hq⟩ := ih (gs ++ [g]) hrest hlt
        rw [handleAll, show (pending link gs).handle (.created (.ok g)) = _ from hstep, hgs]
        refine ⟨?_, quiet_append (quiet_arrival _ g) hq⟩
        rw [hc, List.append_assoc, List.singleton_append]
      | error err => exact (hp _ List.mem_cons_self).elim
    | route m =>
      obtain ⟨hc, hq⟩ := ih gs hrest hn
      exact ⟨hc, quiet_append (quiet_dispatch _ m) hq⟩
    | threadClosed id => exact (hp _ List.mem_cons_self).elim
    | close => exact (hp _ List.mem_cons_self).elim

/-- Messages do nothing to a context to which all groups have come.

**Proof sketch.** By induction over the messages. Groups, reports and requests to close are
excluded, so that only messages to route are left, and these keep the context. -/
lemma up_handleAll (link : Link) (gs : List Group) {ms : List EngineMsg}
    (hp : ∀ m ∈ ms, m.IsPeaceful) (hn : groupsIn ms = []) :
    ((up link gs).handleAll ms).1 = up link gs ∧ Quiet ((up link gs).handleAll ms).2 := by
  induction ms with
  | nil => exact ⟨rfl, by simp [handleAll, Quiet]⟩
  | cons m ms ih =>
    have hrest : ∀ m ∈ ms, m.IsPeaceful := fun m' hm' => hp m' (List.mem_cons_of_mem _ hm')
    cases m with
    | created result =>
      cases result with
      | ok g => simp [EngineMsg.group?] at hn
      | error err => exact (hp _ List.mem_cons_self).elim
    | route m =>
      obtain ⟨hc, hq⟩ := ih hrest hn
      exact ⟨hc, quiet_append (quiet_dispatch _ m) hq⟩
    | threadClosed id => exact (hp _ List.mem_cons_self).elim
    | close => exact (hp _ List.mem_cons_self).elim

/-- What messages come to by which all groups have come, if threads can have the names of all of
them: the context is up, nobody has been waited for, and the threads that can be made have been
started. -/
structure ComesUp (link : Link) (gs : List Group) (r : Context × List Effect) : Prop where
  context : r.1 = up link gs
  tame : ∀ x ∈ r.2, x.IsTame
  launches : r.2.filterMap Effect.launch? = launched link gs

/-- What is done quietly before does not matter. -/
lemma ComesUp.prepend {r : Context × List Effect} (h : ComesUp link gs r) {effects : List Effect}
    (hq : Quiet effects) : ComesUp link gs (r.1, effects ++ r.2) where
  context := h.context
  tame x hx := (List.mem_append.1 hx).elim (fun hx => (hq x hx).1) (h.tame x)
  launches := by
    rw [List.filterMap_append, Effect.launches_of_mild hq, List.nil_append]
    exact h.launches

/-- The last group comes, and after it messages that bring no group.

**Proof sketch.** The last group has all threads started, since all of them can be named. What is
taken afterwards leaves the context alone and starts nothing. -/
lemma comesUp_of_last (hlast : gs.length + 1 = link.command.groupCount link.app.uri)
    (hd : ∀ g' ∈ gs ++ [g], (link.command.topology.group? link.app.uri g'.name).isSome)
    (hname : ∀ g' ∈ gs ++ [g], isThreadName g'.name = true) {ms : List EngineMsg}
    (hp : ∀ m ∈ ms, m.IsPeaceful) (hnil : groupsIn ms = []) :
    ComesUp link (gs ++ [g]) ((pending link gs).handleAll (.created (.ok g) :: ms)) := by
  obtain ⟨hup, ⟨-, htame, hlaunch⟩ | ⟨⟨g', hg', hbad⟩, -⟩⟩ := pending_last hlast hd
  · obtain ⟨hc, hq⟩ := up_handleAll link (gs ++ [g]) hp hnil
    rw [← hup] at hc hq
    refine ⟨hc.trans hup, fun x hx => ?_, ?_⟩
    · exact (List.mem_append.1 hx).elim (htame x) fun hx => (hq x hx).1
    · show (((pending link gs).groupCreated g).2 ++
        (((pending link gs).groupCreated g).1.handleAll ms).2).filterMap Effect.launch? = _
      rw [List.filterMap_append, hlaunch, Effect.launches_of_mild hq, List.append_nil]
  · rw [hname g' hg'] at hbad
    cases hbad

/-- Once the last of them has come, all threads have been started that can be made, each of them
once.

**Proof sketch.** By induction on the messages, for any groups that have come before. Messages
between extensions and groups before the last one lead back to the same situation. The last group
starts the threads, and `up_handleAll` takes care of what follows it. -/
lemma pending_handleAll_up (gs : List Group) {ms : List EngineMsg}
    (hp : ∀ m ∈ ms, m.IsPeaceful)
    (hn : gs.length + (groupsIn ms).length = link.command.groupCount link.app.uri)
    (hlt : gs.length < link.command.groupCount link.app.uri)
    (hd : ∀ g ∈ gs ++ groupsIn ms, (link.command.topology.group? link.app.uri g.name).isSome)
    (hname : ∀ g ∈ gs ++ groupsIn ms, isThreadName g.name = true) :
    ComesUp link (gs ++ groupsIn ms) ((pending link gs).handleAll ms) := by
  induction ms generalizing gs with
  | nil =>
    have hz : gs.length + 0 = link.command.groupCount link.app.uri := hn
    omega
  | cons m ms ih =>
    have hrest : ∀ m ∈ ms, m.IsPeaceful := fun m' hm' => hp m' (List.mem_cons_of_mem _ hm')
    cases m with
    | created result =>
      cases result with
      | ok g =>
        have hgs : groupsIn (.created (.ok g) :: ms) = g :: groupsIn ms := rfl
        have happ : gs ++ g :: groupsIn ms = (gs ++ [g]) ++ groupsIn ms := by
          rw [List.append_assoc, List.singleton_append]
        have hlen : (gs ++ [g]).length = gs.length + 1 := by
          rw [List.length_append, List.length_singleton]
        rw [hgs, List.length_cons] at hn
        rw [hgs, happ] at hd hname ⊢
        by_cases hlast : gs.length + 1 = link.command.groupCount link.app.uri
        · have hnil : groupsIn ms = [] := List.length_eq_zero_iff.1 (by omega)
          rw [hnil, List.append_nil] at hd hname ⊢
          exact comesUp_of_last hlast hd hname hrest hnil
        · have hstep := pending_groupCreated link gs g (by omega)
          rw [handleAll, show (pending link gs).handle (.created (.ok g)) = _ from hstep]
          exact (ih (gs ++ [g]) hrest (by omega) (by omega) hd hname).prepend (quiet_arrival _ g)
      | error err => exact (hp _ List.mem_cons_self).elim
    | route m => exact (ih gs hrest hn hlt hd hname).prepend (quiet_dispatch _ m)
    | threadClosed id => exact (hp _ List.mem_cons_self).elim
    | close => exact (hp _ List.mem_cons_self).elim

end Closed

end Context

end ExtensionGraph
