import ExtensionGraph.Proofs.ContextInvariant
import ExtensionGraph.Proofs.HostSteps

/-!
# The effects of a message

What a message to an engine makes it do, sorted by kind. Almost every effect is mild. The end of a
graph is announced by the very message that closes it, and threads report through the engine only
if they were never started.

## Main definitions

* `ExtensionGraph.EngineMsg.Causes` — what a message can make an engine do, case by case.
* `ExtensionGraph.Context.starting`, `ExtensionGraph.Context.Starting` — what the starts of all
  handles come to, and effects of this kind.

## Main results

* `ExtensionGraph.Context.causes_of_handle` — whatever an engine does on account of a message is one
  of the cases.
* `ExtensionGraph.Context.Sound.announcements_handle` — the end is announced exactly when it comes.
* `ExtensionGraph.Context.close_mild`, `ExtensionGraph.Context.dispatch_mild` — closing and
  delivering are mild.
* `ExtensionGraph.Context.startThreads_of_waiting` — the threads of handles that wait for them.
* `ExtensionGraph.Context.Sound.panics_handle` — when an engine panics.
-/

namespace ExtensionGraph

namespace Thread

variable (t : Thread)

/-- Closing a handle writes to its thread, or reports in its place.

**Proof sketch.** By the state of the handle. Only running handles write to their threads, and those
without a thread report themselves. -/
lemma close_effects : ∀ x ∈ t.close.2,
    x = .tell t.id .close none ∨ x = .post (.threadClosed t.id) ∨ ∃ event, x = .log event := by
  intro x hx
  unfold close at hx
  split at hx
  · dsimp only at hx
    split at hx
    · exact .inl (List.mem_singleton.1 hx)
    · exact absurd hx List.not_mem_nil
  · obtain rfl := List.mem_singleton.1 hx
    split
    · exact .inr (.inl rfl)
    · exact .inr (.inr ⟨_, rfl⟩)
  · obtain rfl := List.mem_singleton.1 hx
    split
    · exact .inr (.inl rfl)
    · exact .inr (.inr ⟨_, rfl⟩)
  · exact absurd hx List.not_mem_nil
  · exact absurd hx List.not_mem_nil

/-- Handing a message to a thread writes to it, or complains that it does not run. -/
lemma deliver_effects (extension : String) (m : Msg) (unheard : Option LogEvent) :
    ∀ x ∈ t.deliver extension m unheard,
      x = .tell t.id (.deliver extension m) unheard ∨ ∃ event, x = .log event := by
  intro x hx
  unfold deliver at hx
  split at hx
  · exact .inl (List.mem_singleton.1 hx)
  · split at hx
    · exact .inr ⟨_, List.mem_singleton.1 hx⟩
    · exact absurd hx List.not_mem_nil

/-- Waiting for a thread is all that a handle does when it is let go of. -/
lemma join_effects : ∀ x ∈ t.join.2, x = .reap t.id t.groupName := by
  intro x hx
  unfold join at hx
  dsimp only at hx
  split at hx
  · exact List.mem_singleton.1 hx
  · exact absurd hx List.not_mem_nil

/-- Closing a handle starts nothing, takes nothing down and announces nothing. -/
lemma close_mild : ∀ x ∈ t.close.2, x.IsMild ∧ x.announces = false := by
  intro x hx
  rcases t.close_effects x hx with rfl | rfl | ⟨event, rfl⟩
  · exact ⟨⟨trivial, rfl⟩, rfl⟩
  · exact ⟨⟨trivial, rfl⟩, rfl⟩
  · exact ⟨⟨trivial, rfl⟩, rfl⟩

end Thread

namespace Context

variable (c : Context)

/-- The start of a handle starts its thread, logs what went wrong, or panics. -/
lemma startThread_effects (topology : Topology) (t : Thread) :
    ∀ x ∈ (c.startThread topology t).2,
      (∃ g, x = .spawn t.id g topology) ∨ (∃ event, x = .log event) ∨ x = .panic := by
  intro x hx
  have hr := c.starts_startThread topology t
  generalize c.startThread topology t = r at hr hx
  cases hr with
  | unfit => exact .inr (.inl ⟨_, List.mem_singleton.1 hx⟩)
  | spawned => exact .inl ⟨_, List.mem_singleton.1 hx⟩
  | refused =>
    rcases List.mem_cons.1 hx with rfl | hx
    · exact .inr (.inl ⟨_, rfl⟩)
    · exact .inr (.inl ⟨_, List.mem_singleton.1 hx⟩)
  | panics => exact .inr (.inr (List.mem_singleton.1 hx))

/-- What the starts of all handles come to, as if none of them panicked. -/
def starting : List Effect :=
  [.log (.graphResources c.resources)] ++
    (c.threads.map (c.startThread (c.topology.getD .empty))).flatMap (·.2) ++
    [.log (.graphStarted c.link.graph c.threads.length)]

/-- What is done when all threads are started: what the starts decide on, up to the first panic. -/
lemma startThreads_snd : c.startThreads.2 = Effect.untilPanic c.starting := rfl

/-- The starts decide to start threads, to log and to panic, and nothing else. -/
lemma starting_effects : ∀ x ∈ c.starting,
    (∃ id g topology, x = .spawn id g topology) ∨ (∃ event, x = .log event) ∨ x = .panic := by
  intro x hx
  simp only [starting, List.mem_append, List.mem_singleton, List.mem_flatMap, List.mem_map] at hx
  rcases hx with (rfl | ⟨started, ⟨t, -, rfl⟩, hx⟩) | rfl
  · exact .inr (.inl ⟨_, rfl⟩)
  · exact (c.startThread_effects _ t x hx).imp_left fun ⟨g, hg⟩ => ⟨t.id, g, _, hg⟩
  · exact .inr (.inl ⟨_, rfl⟩)

/-- Starting handles starts threads, logs what went wrong, and may panic. -/
lemma startThreads_effects : ∀ x ∈ c.startThreads.2,
    (∃ id g topology, x = .spawn id g topology) ∨ (∃ event, x = .log event) ∨ x = .panic :=
  fun x hx => c.starting_effects x ((Effect.untilPanic_prefix _).subset hx)

/-- The last step of a shutdown announces the end, unless it panics. -/
lemma concluded_effects : ∀ x ∈ c.concluded.2, x = .announce ∨ ∃ event, x = .log event := by
  intro x hx
  simp only [concluded, List.mem_append, List.mem_singleton] at hx
  rcases hx with rfl | hx
  · exact .inr ⟨_, rfl⟩
  · split at hx
    · exact .inl (List.mem_singleton.1 hx)
    · exact absurd hx List.not_mem_nil

/-- The last step of a shutdown announces the end and logs, or panics. -/
lemma conclude_effects : ∀ x ∈ c.conclude.2,
    x = .announce ∨ (∃ event, x = .log event) ∨ x = .panic := by
  intro x hx
  by_cases hn : c.threads = []
  · rw [c.conclude_eq hn] at hx
    exact (c.concluded_effects x hx).imp_right .inl
  · rw [c.conclude_eq_panic hn] at hx
    exact .inr (.inr (List.mem_singleton.1 hx))

/-- Closing a graph closes its handles, or concludes the shutdown. -/
lemma close_effects : ∀ x ∈ c.close.2,
    x = .announce ∨ (∃ event, x = .log event) ∨ ∃ t ∈ c.threads, x ∈ t.close.2 := by
  intro x hx
  by_cases ho : c.IsOpen
  · by_cases hn : c.threads = []
    · rw [c.close_eq_concluded ho hn] at hx
      exact (concluded_effects _ x hx).imp_right .inl
    · rw [c.close_eq_of_nonempty ho hn] at hx
      rcases List.mem_cons.1 hx with rfl | hx
      · exact .inr (.inl ⟨_, rfl⟩)
      · exact .inr (.inr (List.mem_flatMap.1 hx))
  · rw [c.close_eq_self ho] at hx
    exact absurd hx List.not_mem_nil

/-- Bringing a message to its destinations writes to threads. -/
lemma dispatch_effects (m : Msg) : ∀ x ∈ c.dispatch m,
    (∃ id extension m unheard, x = .tell id (.deliver extension m) unheard) ∨
      ∃ event, x = .log event := by
  intro x hx
  obtain ⟨dest, -, hx⟩ := List.mem_flatMap.1 hx
  unfold dispatchTo at hx
  split at hx
  · exact .inr ⟨_, List.mem_singleton.1 hx⟩
  · split at hx
    · exact .inr ⟨_, List.mem_singleton.1 hx⟩
    · split at hx
      · next t _ =>
        exact (t.deliver_effects _ m _ x hx).imp_left fun he => ⟨t.id, _, m, _, he⟩
      · exact .inr ⟨_, List.mem_singleton.1 hx⟩

/-- Letting go of a thread waits for it and logs. -/
lemma releasing_effects (t : Thread) : ∀ x ∈ releasing t,
    x = .reap t.id t.groupName ∨ ∃ event, x = .log event := by
  intro x hx
  rcases List.mem_append.1 hx with hx | hx
  · exact .inl (t.join_effects x hx)
  · exact .inr ⟨_, List.mem_singleton.1 hx⟩

/-- The report of a thread makes an engine wait for this thread, and perhaps conclude a shutdown.

**Proof sketch.** If the thread is not listed, that is logged. Otherwise it is let go of; in a graph
that closes, the last one also concludes the shutdown. -/
lemma threadClosed_effects (id : ThreadId) : ∀ x ∈ (c.handle (.threadClosed id)).2,
    (∃ group, x = .reap id group) ∨ x = .announce ∨ (∃ event, x = .log event) ∨ x = .panic := by
  intro x hx
  cases hf : c.handle? id with
  | none =>
    rw [c.threadClosed_eq_of_unlisted hf] at hx
    exact .inr (.inr (.inl ⟨_, List.mem_singleton.1 hx⟩))
  | some t =>
    obtain rfl : t.id = id := key_of_atKey? hf
    have hreleasing (hx : x ∈ releasing t) :
        (∃ group, x = .reap t.id group) ∨ x = .announce ∨ (∃ event, x = .log event) ∨
          x = .panic :=
      (releasing_effects t x hx).imp (fun he => ⟨_, he⟩) fun he => .inr (.inl he)
    rw [c.threadClosed_eq_of_listed hf] at hx
    split at hx
    · split at hx
      · exact (List.mem_append.1 hx).elim hreleasing fun hx => .inr (conclude_effects _ x hx)
      · exact (List.mem_append.1 hx).elim hreleasing fun hx =>
          .inr (.inr (.inl ⟨_, List.mem_singleton.1 hx⟩))
    · exact (List.mem_append.1 hx).elim hreleasing fun hx =>
        .inr (.inr (.inl ⟨_, List.mem_singleton.1 hx⟩))

end Context

/-- **Everything that a message can make an engine do.** -/
inductive EngineMsg.Causes (m : EngineMsg) : Effect → Prop
  | logs (event : LogEvent) : Causes m (.log event)
  | announces : Causes m .announce
  /-- A thread is written to. -/
  | tells (id : ThreadId) (request : ThreadMsg) (unheard : Option LogEvent) :
      Causes m (.tell id request unheard)
  /-- A handle reports in place of its thread. -/
  | posts (id : ThreadId) : Causes m (.post (.threadClosed id))
  /-- A thread is started. -/
  | spawns (id : ThreadId) (g : Group) (topology : Topology) : Causes m (.spawn id g topology)
  /-- A thread that has reported is waited for. -/
  | reaps {id : ThreadId} (group : String) (hm : m = .threadClosed id) : Causes m (.reap id group)
  /-- The engine goes down. -/
  | panics : Causes m .panic

namespace Context

variable (c : Context)

/-- Whatever a shutdown begins with is caused by any message that brings it about. -/
lemma causes_of_close (m : EngineMsg) : ∀ x ∈ c.close.2, m.Causes x := by
  intro x hx
  rcases c.close_effects x hx with rfl | ⟨event, rfl⟩ | ⟨t, -, hx⟩
  · exact .announces
  · exact .logs event
  · rcases t.close_effects x hx with rfl | rfl | ⟨event, rfl⟩
    · exact .tells _ _ _
    · exact .posts t.id
    · exact .logs event

/-- Whatever an engine does on account of a message is one of the cases.

**Proof sketch.** By cases on the message. A group is logged and dropped, or its handle is closed at
once, or all threads are started, or a shutdown begins. The report of a thread lets go of it, and a
message to extensions is handed over or complained about. -/
theorem causes_of_handle (m : EngineMsg) : ∀ x ∈ (c.handle m).2, m.Causes x := by
  have hcons {event : LogEvent} {xs : List Effect} (hx : ∀ x ∈ xs, m.Causes x) :
      ∀ x ∈ Effect.log event :: xs, m.Causes x := by
    intro x hx'
    rcases List.mem_cons.1 hx' with rfl | hx'
    · exact .logs event
    · exact hx x hx'
  have hnil : ∀ x ∈ ([] : List Effect), m.Causes x := fun x hx => absurd hx List.not_mem_nil
  cases m with
  | created result =>
    cases result with
    | ok g =>
      show ∀ x ∈ (c.groupCreated g).2, _
      have hr := c.receives g
      generalize c.groupCreated g = r at hr ⊢
      cases hr with
      | late | early => exact hcons hnil
      | closing =>
        intro x hx
        obtain rfl := List.mem_singleton.1 hx
        exact .posts _
      | twice => exact hcons (hcons hnil)
      | ready =>
        refine hcons fun x hx => ?_
        rcases startThreads_effects _ x hx with ⟨id, g, topology, rfl⟩ | ⟨event, rfl⟩ | rfl
        · exact .spawns id g topology
        · exact .logs event
        · exact .panics
      | strange => exact hcons (hcons (causes_of_close _ _))
    | error err => exact hcons (c.causes_of_close _)
  | threadClosed id =>
    intro x hx
    rcases c.threadClosed_effects id x hx with ⟨group, rfl⟩ | rfl | ⟨event, rfl⟩ | rfl
    · exact .reaps group rfl
    · exact .announces
    · exact .logs event
    · exact .panics
  | route m =>
    intro x hx
    rcases c.dispatch_effects m x hx with ⟨id, extension, m, unheard, rfl⟩ | ⟨event, rfl⟩
    · exact .tells _ _ _
    · exact .logs event
  | close => exact c.causes_of_close _

/-! ## Starting and closing -/

/-- The start of a handle that waits panics exactly if no thread can have the name of its group, and
it starts a thread exactly if the handle has one then. -/
lemma startThread_of_waiting {t : Thread} (h : t.Waiting) (topology : Topology) :
    (.panic ∈ (c.startThread topology t).2 ↔ t.isNameable = false) ∧
      ((c.startThread topology t).2.filterMap Effect.launch?).map (·.id) =
        if (c.startThread topology t).1.wired then [t.id] else [] := by
  have hr := c.starts_startThread topology t
  generalize c.startThread topology t = r at hr ⊢
  cases hr with
  | unfit hg =>
    obtain ⟨g, hsome, -⟩ := h.group
    rw [hg h.state] at hsome
    cases hsome
  | spawned _ _ hn => exact ⟨by simp [hn], rfl⟩
  | refused _ _ hn => exact ⟨by simp [hn], by simp [h.wired, Effect.launch?]⟩
  | panics _ _ hn => exact ⟨by simp [hn], by simp [h.wired, Effect.launch?]⟩

/-- The threads that are started are those of the handles that have one then. -/
lemma launch_ids {ts : List Thread} (h : ∀ t ∈ ts, t.Waiting) (topology : Topology) :
    (((ts.map (c.startThread topology)).flatMap (·.2)).filterMap Effect.launch?).map (·.id) =
      (((ts.map (c.startThread topology)).map (·.1)).filter (·.wired)).map (·.id) := by
  induction ts with
  | nil => rfl
  | cons t ts ih =>
    have hrest := ih fun u hu => h u (List.mem_cons_of_mem _ hu)
    obtain ⟨-, hl⟩ := c.startThread_of_waiting (h t List.mem_cons_self) topology
    rw [List.map_cons, List.flatMap_cons, List.filterMap_append, List.map_append, hrest, hl,
      List.map_cons, List.filter_cons]
    split
    · rw [List.map_cons, startThread_id]
      rfl
    · rfl

/-- The threads that are started are those of the single starts. -/
lemma starting_launches :
    c.starting.filterMap Effect.launch? =
      ((c.threads.map (c.startThread (c.topology.getD .empty))).flatMap (·.2)).filterMap
        Effect.launch? := by
  rw [starting, List.filterMap_append, List.filterMap_append]
  show [] ++ _ ++ [] = _
  rw [List.nil_append, List.append_nil]

/-- The threads that are started are those of the handles that can write to one afterwards. -/
lemma starting_launch_ids (h : ∀ t ∈ c.threads, t.Waiting) :
    (c.starting.filterMap Effect.launch?).map (·.id) =
      (c.startThreads.1.threads.filter (·.wired)).map (·.id) := by
  rw [starting_launches]
  exact c.launch_ids h _

/-- They are started in the order of the list of handles, perhaps with gaps. -/
lemma starting_launch_ids_sublist (h : ∀ t ∈ c.threads, t.Waiting) :
    ((c.starting.filterMap Effect.launch?).map (·.id)).Sublist (c.threads.map (·.id)) := by
  rw [c.starting_launch_ids h, ← c.startThreads_ids]
  exact List.filter_sublist.map _

/-- One of the starts panics exactly if some group has a name that no thread can have. -/
lemma panic_mem_starting (h : ∀ t ∈ c.threads, t.Waiting) :
    .panic ∈ c.starting ↔ ∃ t ∈ c.threads, t.isNameable = false := by
  constructor
  · intro hm
    simp only [starting, List.mem_append, List.mem_singleton, List.mem_flatMap, List.mem_map,
      reduceCtorEq, false_or, or_false] at hm
    obtain ⟨_, ⟨t, ht, rfl⟩, hm⟩ := hm
    exact ⟨t, ht, (c.startThread_of_waiting (h t ht) _).1.1 hm⟩
  · rintro ⟨t, ht, hn⟩
    refine List.mem_append_left _ (List.mem_append_right _ (List.mem_flatMap.2 ?_))
    exact ⟨_, List.mem_map_of_mem ht, (c.startThread_of_waiting (h t ht) _).1.2 hn⟩

/-- Effects that do nothing but start threads and log. -/
def Starting (effects : List Effect) : Prop :=
  ∀ x ∈ effects, x.IsTame ∧ x.posted? = none ∧ x.disturbs = false ∧ x.announces = false

/-- Apart from a panic, the starts of handles do nothing but start threads and log. -/
lemma starting_of_subset {effects : List Effect} (hs : effects ⊆ c.starting)
    (hp : .panic ∉ effects) : Starting effects := by
  intro x hx
  rcases c.starting_effects x (hs hx) with ⟨id, g, topology, rfl⟩ | ⟨event, rfl⟩ | rfl
  · exact ⟨trivial, rfl, rfl, rfl⟩
  · exact ⟨trivial, rfl, rfl, rfl⟩
  · exact absurd hx hp

/-- **What the starts of handles that all wait come to.** If threads can have the names of all
groups, everything is done that the starts decide on, which is to start threads and to log.
Otherwise one of them panics, and only what comes before that is done.

**Proof sketch.** Apart from a panic, a start has only two kinds of effects. Without a panic all of
them are carried out; with one, those before the first. -/
theorem startThreads_of_waiting (h : ∀ t ∈ c.threads, t.Waiting) :
    ((∀ t ∈ c.threads, t.isNameable = true) ∧ c.startThreads.2 = c.starting ∧
        Starting c.starting) ∨
      ((∃ t ∈ c.threads, t.isNameable = false) ∧ ∃ before,
        c.startThreads.2 = before ++ [.panic] ∧ before <+: c.starting ∧ Starting before) := by
  by_cases hp : .panic ∈ c.starting
  · obtain ⟨before, heq, hno⟩ := Effect.untilPanic_of_mem hp
    have hpre : before <+: c.starting :=
      (List.prefix_append before [.panic]).trans (heq ▸ Effect.untilPanic_prefix _)
    exact .inr ⟨(c.panic_mem_starting h).1 hp, before, heq, hpre,
      c.starting_of_subset hpre.subset hno⟩
  · refine .inl ⟨fun t ht => ?_, Effect.untilPanic_eq_self hp,
      c.starting_of_subset (List.Subset.refl _) hp⟩
    by_contra hn
    exact hp ((c.panic_mem_starting h).2 ⟨t, ht, by simpa using hn⟩)

/-- The last step of a shutdown is mild, posts nothing and asks nobody to end. -/
lemma concluded_mild : ∀ x ∈ c.concluded.2, x.IsMild ∧ x.posted? = none ∧ x.disturbs = false := by
  intro x hx
  rcases c.concluded_effects x hx with rfl | ⟨event, rfl⟩
  · exact ⟨⟨trivial, rfl⟩, rfl, rfl⟩
  · exact ⟨⟨trivial, rfl⟩, rfl, rfl⟩

/-- The last step of a shutdown announces the end once, if somebody waits for it. -/
lemma countP_announces_concluded :
    c.concluded.2.countP Effect.announces = if c.watched then 1 else 0 := by
  cases hw : c.watched with
  | false => simp [concluded, hw, Effect.announces]
  | true => simp [concluded, hw, Effect.announces]

/-- Closing a graph is mild. -/
lemma close_mild : ∀ x ∈ c.close.2, x.IsMild := by
  intro x hx
  rcases c.close_effects x hx with rfl | ⟨event, rfl⟩ | ⟨t, -, hx⟩
  · exact ⟨trivial, rfl⟩
  · exact ⟨trivial, rfl⟩
  · exact (t.close_mild x hx).1

/-- Bringing a message to its destinations is mild, nothing is posted to the engine
and nobody is asked to end. -/
lemma dispatch_mild (m : Msg) :
    ∀ x ∈ c.dispatch m,
      x.IsMild ∧ x.announces = false ∧ x.posted? = none ∧ x.disturbs = false := by
  intro x hx
  rcases c.dispatch_effects m x hx with ⟨id, extension, m, unheard, rfl⟩ | ⟨event, rfl⟩
  · exact ⟨⟨trivial, rfl⟩, rfl, rfl, rfl⟩
  · exact ⟨⟨trivial, rfl⟩, rfl, rfl, rfl⟩

/-- A graph that has just been started is open and has no thread, and starting it was mild.

**Proof sketch.** Without groups the graph is running at once, and what is done then is logged. With
groups it asks for each of them, and asking is mild. -/
lemma start_mild (link : Link) :
    (create link true).start.1.IsOpen ∧ (create link true).start.1.threads = [] ∧
      ∀ x ∈ (create link true).start.2.1, x.IsMild ∧ x.announces = false ∧ x.posted? = none := by
  by_cases hg : (create link true).localGroups = []
  · rw [start_eq_of_no_groups _ hg rfl]
    refine ⟨by simp [IsOpen, startThreads], by simp [startThreads, create], fun x hx => ?_⟩
    simp only [startThreads, create, Effect.untilPanic, List.map_nil, List.flatMap_nil,
      List.append_nil, List.cons_append, List.nil_append, List.mem_cons, List.not_mem_nil,
      or_false] at hx
    rcases hx with rfl | rfl | rfl
    · exact ⟨⟨trivial, rfl⟩, rfl, rfl⟩
    · exact ⟨⟨trivial, rfl⟩, rfl, rfl⟩
    · exact ⟨⟨trivial, rfl⟩, rfl, rfl⟩
  · rw [start_eq_request _ hg]
    refine ⟨by simp [IsOpen], rfl, fun x hx => ?_⟩
    rcases request_effects _ _ x hx with ⟨creation, rfl⟩ | ⟨event, rfl⟩
    · exact ⟨⟨trivial, rfl⟩, rfl, rfl⟩
    · exact ⟨⟨trivial, rfl⟩, rfl, rfl⟩

/-! ## Announcements -/

/-- How often the end of a graph has been announced, as far as one can tell from the context. -/
def ended : Nat := if c.isClosed then 1 else 0

variable {c}

/-- The end of a graph that has not been closed has not been announced. -/
lemma ended_of_open (hc : c.phase ≠ .closed) : c.ended = 0 := by
  unfold ended
  rw [isClosed_eq_false hc]
  rfl

/-- The last step of a shutdown announces the end. -/
lemma announcements_concluded (hw : c.watched = true) :
    c.concluded.2.countP Effect.announces = c.concluded.1.ended := by
  rw [countP_announces_concluded, hw]
  rfl

/-- Closing an open graph announces the end if there is no thread to wait for. -/
lemma Tidy.announcements_close (h : c.Tidy) (ho : c.IsOpen) :
    c.close.2.countP Effect.announces = c.close.1.ended := by
  by_cases hn : c.threads = []
  · have hw : c.watched = true := by rw [h.watched, isClosed_eq_false ho.2]; rfl
    rw [c.close_eq_concluded ho hn]
    exact announcements_concluded hw
  · rw [c.close_eq_of_nonempty ho hn, ended_of_open (by simp), List.countP_eq_zero]
    intro x hx
    rcases List.mem_cons.1 hx with rfl | hx
    · simp [Effect.announces]
    · obtain ⟨t, -, hx⟩ := List.mem_flatMap.1 hx
      simp [(t.close_mild x hx).2]

/-- Closing a graph once more announces nothing. -/
lemma Sound.announcements_close (h : c.Sound) :
    c.ended + c.close.2.countP Effect.announces = c.close.1.ended := by
  by_cases ho : c.IsOpen
  · rw [h.toTidy.announcements_close ho, ended_of_open ho.2, Nat.zero_add]
  · rw [c.close_eq_self ho]
    rfl

/-- Letting go of a thread announces nothing. -/
lemma countP_announces_releasing (t : Thread) :
    (releasing t).countP Effect.announces = 0 := by
  rw [List.countP_eq_zero]
  intro x hx
  rcases releasing_effects t x hx with rfl | ⟨event, rfl⟩
  · simp [Effect.announces]
  · simp [Effect.announces]

/-- The report of a thread announces the end exactly if it closes the graph.

**Proof sketch.** A listed thread shows that the graph has not closed, so that somebody waits for
its end. Only in a graph that closes, and only with the last report, the shutdown is concluded,
which announces the end once. -/
lemma Sound.announcements_threadClosed (h : c.Sound) (id : ThreadId) :
    c.ended + (c.handle (.threadClosed id)).2.countP Effect.announces =
      (c.handle (.threadClosed id)).1.ended := by
  cases hf : c.handle? id with
  | none =>
    rw [c.threadClosed_eq_of_unlisted hf]
    rfl
  | some t =>
    obtain ⟨ht, rfl⟩ := h.handle?_eq_some_iff.1 hf
    have hc : c.phase ≠ .closed := h.not_closed_of_mem ht
    have hw : c.watched = true := by rw [h.watched, isClosed_eq_false hc]; rfl
    rw [h.threadClosed_eq hf, ended_of_open hc, Nat.zero_add]
    by_cases hp : c.phase = .closing
    · rw [if_pos hp]
      by_cases hlast : c.closed + 1 = c.total
      · rw [if_pos hlast, List.countP_append, countP_announces_releasing, Nat.zero_add]
        exact announcements_concluded hw
      · rw [if_neg hlast, ended_of_open (by exact hc), List.countP_append,
          countP_announces_releasing]
        rfl
    · rw [if_neg hp, ended_of_open (by exact hc), List.countP_append, countP_announces_releasing]
      rfl

/-- A group that has been built announces the end exactly if it closes the graph: when it turns out
to be a stranger, and no thread is there to wait for.

**Proof sketch.** In most cases neither is anything announced nor does the graph close, and starting
threads announces nothing. A stranger makes the graph close, and there the shutdown counts its
announcements right. -/
lemma Sound.announcements_groupCreated (h : c.Sound) (g : Group) :
    c.ended + (c.groupCreated g).2.countP Effect.announces = (c.groupCreated g).1.ended := by
  have hr := c.receives g
  generalize c.groupCreated g = r at hr ⊢
  cases hr with
  | late => rfl
  | closing hp => rfl
  | early ho => rfl
  | twice ho => rfl
  | ready ho _ ht _ =>
    have hz : ((c.opened g).told.startThreads).2.countP Effect.announces = 0 := by
      rw [List.countP_eq_zero]
      intro x hx
      rcases startThreads_effects _ x hx with ⟨id, g, topology, rfl⟩ | ⟨event, rfl⟩ | rfl
      · simp [Effect.announces]
      · simp [Effect.announces]
      · simp [Effect.announces]
    rw [ended_of_open ho.2, ended_of_open (by simp [startThreads]), List.countP_cons, hz]
    rfl
  | strange ho _ ht _ =>
    have hs := h.opened ho g
    have hp : (c.opened g).phase = .starting := (h.waiting ho ht).1
    have hclose := (hs.toTidy.told hp).announcements_close ho
    rw [ended_of_open ho.2, ← hclose, List.countP_cons, List.countP_cons, Nat.zero_add]
    rfl

/-- The end is announced exactly when it comes: by the message that closes the graph, and by no
other.

**Proof sketch.** By the kind of the message. A group that is refused closes the graph; a message
that is routed announces nothing and closes nothing. -/
theorem Sound.announcements_handle (h : c.Sound) (m : EngineMsg) :
    c.ended + (c.handle m).2.countP Effect.announces = (c.handle m).1.ended := by
  cases m with
  | created result =>
    cases result with
    | ok g => exact h.announcements_groupCreated g
    | error err =>
      have hc := h.announcements_close
      simpa [Context.handle, List.countP_cons, Effect.announces] using hc
  | threadClosed id => exact h.announcements_threadClosed id
  | route m =>
    have hz : (c.dispatch m).countP Effect.announces = 0 := by
      rw [List.countP_eq_zero]
      intro x hx
      simp [(c.dispatch_mild m x hx).2.1]
    show c.ended + (c.dispatch m).countP Effect.announces = c.ended
    rw [hz]
    rfl
  | close => exact h.announcements_close

/-! ## Panics -/

/-- What is logged is no panic. -/
lemma panic_mem_log_cons {event : LogEvent} {effects : List Effect} :
    .panic ∈ .log event :: effects ↔ .panic ∈ effects := by simp

/-- Letting go of a handle takes nothing down. -/
lemma panic_not_mem_releasing (t : Thread) : .panic ∉ releasing t := by
  intro hm
  rcases releasing_effects t _ hm with he | ⟨event, he⟩
  · cases he
  · cases he

/-- **A group over which an engine panics** is the one with which all are there, and the panic comes
from the start of the threads. Nothing else that a group leads to can panic: neither what is logged
nor the closing of handles. -/
lemma panics_groupCreated {g : Group} (hx : .panic ∈ (c.groupCreated g).2) :
    (c.IsOpen ∧ c.topology = none ∧ (c.opened g).threads.length = c.localGroups.length) ∧
      c.groupCreated g =
        ((c.opened g).told.startThreads.1, c.arrival g :: (c.opened g).told.startThreads.2) ∧
      .panic ∈ (c.opened g).told.startThreads.2 := by
  have hr := c.receives g
  generalize c.groupCreated g = r at hr hx ⊢
  cases hr with
  | late | closing | early | twice => simp [arrival] at hx
  | ready ho hl ht => exact ⟨⟨ho, ht, hl⟩, rfl, panic_mem_log_cons.1 hx⟩
  | strange =>
    have hclose := panic_mem_log_cons.1 (panic_mem_log_cons.1 hx)
    exact (close_mild _ _ hclose).1.elim

/-- **An engine panics only when it starts its threads**, and only over a group whose name no thread
can have.

**Proof sketch.** Closing and delivering are mild. When the report of a thread closes the graph, no
thread is left, so that the assertion holds. What remains is the group with which all are there. -/
theorem Sound.panics_handle (h : c.Sound) {m : EngineMsg} (hx : .panic ∈ (c.handle m).2) :
    c.IsOpen ∧ c.topology = none ∧ ∃ g, m = .created (.ok g) ∧
      (c.opened g).threads.length = c.localGroups.length ∧
      ∃ t ∈ (c.opened g).threads, t.isNameable = false := by
  have hclose : .panic ∉ c.close.2 := fun hm => (c.close_mild _ hm).1
  cases m with
  | created result =>
    cases result with
    | ok g =>
      obtain ⟨⟨ho, ht, hl⟩, -, hpanic⟩ := c.panics_groupCreated hx
      have hwaiting : ∀ t ∈ (c.opened g).told.threads, t.Waiting := by
        intro t hm
        obtain ⟨u, hu, rfl⟩ := List.mem_map.1 hm
        exact (((h.opened ho g).waiting ho ht).2 u hu).inform _ _
      refine ⟨ho, ht, g, rfl, hl, ?_⟩
      obtain ⟨t, hm, hn⟩ := ((c.opened g).told.panic_mem_starting hwaiting).1
        ((Effect.untilPanic_prefix _).subset hpanic)
      obtain ⟨u, hu, rfl⟩ := List.mem_map.1 hm
      obtain ⟨group, he, -⟩ := Thread.inform_getD (c.opened g).link.command.topology
        (c.opened g).link.app.uri u
      rw [he] at hn
      exact ⟨u, hu, hn⟩
    | error err => exact absurd (panic_mem_log_cons.1 hx) hclose
  | threadClosed id =>
    -- The last report has the graph closed for good, but then the list is empty.
    exfalso
    cases hf : c.handle? id with
    | none =>
      rw [c.threadClosed_eq_of_unlisted hf] at hx
      simp at hx
    | some t =>
      obtain ⟨-, rfl⟩ := h.handle?_eq_some_iff.1 hf
      have hreleasing := panic_not_mem_releasing t
      rw [h.threadClosed_eq hf] at hx
      split at hx
      · split at hx
        · exact (List.mem_append.1 hx).elim hreleasing fun hm => (concluded_mild _ _ hm).1.1
        · exact (List.mem_append.1 hx).elim hreleasing (by simp)
      · exact (List.mem_append.1 hx).elim hreleasing (by simp)
  | route m => exact absurd hx fun hm => (c.dispatch_mild m _ hm).1.1
  | close => exact absurd hx hclose

end Context

end ExtensionGraph
