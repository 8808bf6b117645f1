import ExtensionGraph.Proofs.EngineRun

/-!
# The operations of a context in any order

An engine calls the operations of its context in a certain order, but the operations are open to
everybody. Called in any order, they keep much of what they promise: while the graph closes, what
has been counted and what is still listed make up the total, and the phases follow each other. Two
operations break the order, since they do not look at the phase. `finishClosing` compares two
counters that mean nothing before the shutdown has begun. So it gets to the last step of a shutdown
while threads are still listed, and panics, since this step asserts that they are gone. And `start`
leads back to the beginning from everywhere.

## Main definitions

* `ExtensionGraph.Phase.rank` — the order of the phases.
* `ExtensionGraph.Context.Operation`, `ExtensionGraph.Context.apply`,
  `ExtensionGraph.Context.applyAll` — the operations, one at a time and one after the other.
* `ExtensionGraph.Context.decided`, `ExtensionGraph.Context.Panics` — what an operation decides on,
  and whether it panics.
* `ExtensionGraph.Context.Regular` — what the operations keep up in any order.
* `ExtensionGraph.Context.Restarts` — the operation that leads back.

## Main results

* `ExtensionGraph.Context.Regular.apply` — every operation keeps it up.
* `ExtensionGraph.Context.Regular.apply_threads`,
  `ExtensionGraph.Context.Regular.exists_unnameable` — no operation closes a graph over its threads,
  and only one panics for that reason.
* `ExtensionGraph.Context.finishClosing_panics_iff` — when the assertion of the last step fails.
* `ExtensionGraph.Context.phase_goes_back_iff` — when a graph goes back to an earlier phase.

## Design

A panic is the end of whoever has called the operation, and of the context. What `apply` makes of
the context then is of no account. The results hold for it all the same, so that they need not say
that no operation has panicked before.
-/

namespace ExtensionGraph

/-- The place of a phase in the life of a graph. -/
def Phase.rank : Phase → Nat
  | .init => 0
  | .starting => 1
  | .running => 2
  | .closing => 3
  | .closed => 4

/-- No phase comes after the last one. -/
lemma Phase.rank_le_closed (p : Phase) : p.rank ≤ Phase.closed.rank := by
  cases p <;> decide

namespace Context

/-- What can be asked of a context. -/
inductive Operation where
  | start
  | groupCreated (g : Group)
  | install (t : Topology)
  | close
  | threadClosed (id : ThreadId)
  | finishClosing

/-- The context after an operation. One that is refused changes nothing. -/
def apply (c : Context) : Operation → Context
  | .start => c.start.1
  | .groupCreated g => (c.groupCreated g).1
  | .install t => (c.install t).toOption.getD c
  | .close => c.close.1
  | .threadClosed id => (c.threadClosed id).1
  | .finishClosing => c.finishClosing.1

/-- What a context decides on in an operation. -/
def decided (c : Context) : Operation → List Effect
  | .start => c.start.2.1
  | .groupCreated g => (c.groupCreated g).2
  | .install _ => []
  | .close => c.close.2
  | .threadClosed id => (c.threadClosed id).2.1
  | .finishClosing => c.finishClosing.2.1

/-- The operation panics. -/
def Panics (c : Context) (op : Operation) : Prop := .panic ∈ c.decided op

/-- The context after several operations. -/
def applyAll (c : Context) (ops : List Operation) : Context := ops.foldl apply c

variable {c : Context}

/-- Operations are called one after the other. -/
@[simp] lemma applyAll_cons (c : Context) (op : Operation) (ops : List Operation) :
    c.applyAll (op :: ops) = (c.apply op).applyAll ops :=
  rfl

/-- Operations are called part by part. -/
lemma applyAll_append (c : Context) (ops ops' : List Operation) :
    c.applyAll (ops ++ ops') = (c.applyAll ops).applyAll ops' :=
  List.foldl_append

/-! ## One operation after the other -/

/-- A graph without groups to host, whose topology is known already, cannot be started. -/
lemma start_eq_of_installed (hg : c.localGroups = []) (ht : c.topology.isSome) :
    c.start =
      ({ c with phase := .starting }, [.log (.noLocalGroups c.link.graph)],
        .error .topologyAlreadyInstalled) := by
  obtain ⟨t, ht⟩ := Option.isSome_iff_exists.1 ht
  have hi : ({ c with phase := .starting } : Context).localGroups = [] := hg
  unfold start
  dsimp only
  rw [hi]
  simp [install, ht]

/-- Starting a graph leads to one of two phases, whatever the phase was, and leaves the counters and
the end as they are. -/
lemma start_cases (c : Context) :
    c.start.1.closed = c.closed ∧ c.start.1.total = c.total ∧ c.start.1.envClosed = c.envClosed ∧
      (c.start.1.phase = .starting ∨
        (c.start.1.phase = .running ∧ c.topology = none ∧ c.start.1.topology.isSome)) := by
  by_cases hg : c.localGroups = []
  · cases ht : c.topology with
    | none =>
      rw [c.start_eq_of_no_groups hg ht]
      exact ⟨rfl, rfl, rfl, .inr ⟨rfl, rfl, rfl⟩⟩
    | some t =>
      rw [start_eq_of_installed hg (by rw [ht]; rfl)]
      exact ⟨rfl, rfl, rfl, .inl rfl⟩
  · rw [c.start_eq_request hg]
    exact ⟨rfl, rfl, rfl, .inl rfl⟩

/-- Making the topology known changes nothing else. -/
lemma install_cases (c : Context) (t : Topology) :
    ∃ topology, c.apply (.install t) = { c with topology } ∧
      (c.topology.isSome → topology.isSome) := by
  unfold apply install
  cases ht : c.topology with
  | none => exact ⟨some t, rfl, fun h => nomatch h⟩
  | some t' =>
    refine ⟨c.topology, rfl, fun _ => ?_⟩
    rw [ht]
    rfl

/-- The last step of a shutdown closes the graph for good, or leaves it as it is. -/
lemma conclude_cases (c : Context) :
    c.threads = [] ∧ c.conclude.1 = c.concluded.1 ∨ c.threads ≠ [] ∧ c.conclude.1 = c := by
  by_cases hn : c.threads = []
  · exact .inl ⟨hn, by rw [c.conclude_eq hn]⟩
  · exact .inr ⟨hn, by rw [c.conclude_eq_panic hn]⟩

/-- The end of a shutdown comes as soon as the counters are equal, unless the graph is closed
already. -/
lemma finishClosing_eq (c : Context) :
    c.finishClosing.1 =
      if c.phase ≠ .closed ∧ c.closed = c.total then c.conclude.1 else c := by
  unfold finishClosing
  by_cases hp : c.phase = .closed
  · rw [if_pos hp, if_neg fun h => h.1 hp]
  · rw [if_neg hp]
    by_cases hc : c.closed = c.total
    · rw [if_neg (not_not_intro hc), if_pos ⟨hp, hc⟩]
    · rw [if_pos hc, if_neg fun h => hc h.2]

/-- So it panics if the counters are equal and threads are listed.

**Proof sketch.** The step does nothing if the context is closed or the counters differ. Otherwise
it concludes, and that panics exactly if the list is not empty. -/
lemma finishClosing_panics (c : Context) :
    c.Panics .finishClosing ↔ c.phase ≠ .closed ∧ c.closed = c.total ∧ c.threads ≠ [] := by
  show .panic ∈ c.finishClosing.2.1 ↔ _
  unfold finishClosing
  by_cases hp : c.phase = .closed
  · rw [if_pos hp]
    simp [hp]
  · rw [if_neg hp]
    by_cases hc : c.closed = c.total
    · rw [if_neg (not_not_intro hc)]
      by_cases hn : c.threads = []
      · rw [c.conclude_eq hn]
        simp [concluded, hn]
      · rw [c.conclude_eq_panic hn]
        simp [hp, hc, hn]
    · rw [if_pos hc]
      simp [hc]

/-- The report of a thread leads to the same context as the message that brings it. -/
lemma apply_threadClosed (c : Context) (id : ThreadId) :
    c.apply (.threadClosed id) = (c.handle (.threadClosed id)).1 :=
  rfl

/-! ## What holds in any order -/

/-- What the operations keep up, in whatever order they are called. -/
structure Regular (c : Context) : Prop where
  counted : c.phase = .closing → c.closed + c.threads.length = c.total ∧ c.threads ≠ []
  known : c.phase = .running → c.topology.isSome
  told : c.phase = .closed → c.envClosed = true

/-- A new context is regular. -/
lemma regular_create (link : Link) (watched : Bool) : (create link watched).Regular :=
  ⟨by simp [create], by simp [create], by simp [create]⟩

/-- After the last step of a shutdown a context is regular. -/
lemma regular_concluded (c : Context) : c.concluded.1.Regular :=
  ⟨by simp [concluded], by simp [concluded], fun _ => rfl⟩

/-- Trying the last step of a shutdown keeps a context regular, whether it panics or not. -/
lemma Regular.conclude (h : c.Regular) : c.conclude.1.Regular := by
  rcases c.conclude_cases with ⟨-, he⟩ | ⟨-, he⟩
  · rw [he]
    exact regular_concluded c
  · rw [he]
    exact h

/-- Closing an open context makes it regular. -/
lemma regular_close_of_isOpen (ho : c.IsOpen) : c.close.1.Regular := by
  by_cases hn : c.threads = []
  · rw [c.close_eq_concluded ho hn]
    exact regular_concluded _
  · rw [c.close_eq_of_nonempty ho hn]
    refine ⟨fun _ => ⟨?_, ?_⟩, by simp, by simp⟩
    · simp
    · simpa using hn

/-- A group that comes keeps a context regular, at whatever time it comes.

**Proof sketch.** By what a group can lead to. In a closing context it adds one handle and one
thread to be counted; in an open one the counters do not matter yet. -/
lemma Regular.groupCreated (h : c.Regular) (g : Group) : (c.groupCreated g).1.Regular := by
  have hr := c.receives g
  generalize c.groupCreated g = r at hr ⊢
  cases hr with
  | late => exact h
  | closing hp =>
    obtain ⟨hsum, -⟩ := h.counted hp
    refine ⟨fun _ => ⟨?_, ?_⟩, h.known, h.told⟩
    · show c.closed + (c.threads ++ [_]).length = c.total + 1
      rw [List.length_append, List.length_singleton]
      omega
    · simp [withThread]
  | early ho => exact ⟨fun hp => absurd hp ho.1, h.known, h.told⟩
  | twice ho => exact ⟨fun hp => absurd hp ho.1, h.known, h.told⟩
  | ready => exact ⟨by simp [startThreads], fun _ => rfl, by simp [startThreads]⟩
  | strange ho => exact regular_close_of_isOpen ho

/-- With the last report that a graph waits for, there is no thread left on its list. -/
lemma Regular.release_threads (h : c.Regular) {t : Thread} (ht : c.handle? t.id = some t)
    (hp : c.phase = .closing) (hl : c.closed + 1 = c.total) : (c.release t.id).threads = [] := by
  obtain ⟨hsum, -⟩ := h.counted hp
  have hlen := length_release (mem_of_atKey? ht)
  exact List.length_eq_zero_iff.1 (by omega)

/-- A thread that reports its end keeps a context regular.

**Proof sketch.** A number that is not listed changes nothing. During a shutdown the count goes up
by one and the list gets shorter by one; the last step is taken when the count is complete, which is
when the list is empty. -/
lemma Regular.threadClosed (h : c.Regular) (id : ThreadId) :
    (c.handle (.threadClosed id)).1.Regular := by
  cases hf : c.handle? id with
  | none =>
    rw [c.threadClosed_eq_of_unlisted hf]
    exact h
  | some t =>
    obtain rfl : t.id = id := key_of_atKey? hf
    have hlen := length_release (mem_of_atKey? hf)
    rw [c.threadClosed_eq_of_listed hf]
    by_cases hp : c.phase = .closing
    · obtain ⟨hsum, -⟩ := h.counted hp
      rw [if_pos hp]
      by_cases hl : c.closed + 1 = c.total
      · rw [if_pos hl]
        rw [Context.conclude_eq { c.release t.id with closed := c.closed + 1 }
          (h.release_threads hf hp hl)]
        exact regular_concluded _
      · rw [if_neg hl]
        refine ⟨fun _ => ⟨?_, fun hnil => ?_⟩, h.known, h.told⟩
        · show c.closed + 1 + (c.release t.id).threads.length = c.total
          omega
        · have hz : (c.release t.id).threads.length = 0 := congrArg List.length hnil
          omega
    · rw [if_neg hp]
      exact ⟨fun hp' => absurd hp' hp, h.known, h.told⟩

/-- **Every operation keeps a context regular**, whenever it is called.

**Proof sketch.** By cases on the operation, with a lemma for each of those that matter. A start
leaves the counters alone, and it is the only operation by which a context may come back from the
last phase. -/
theorem Regular.apply (h : c.Regular) (op : Operation) : (c.apply op).Regular := by
  cases op with
  | start =>
    obtain ⟨-, -, -, hp | ⟨hp, -, ht⟩⟩ := c.start_cases
    · exact ⟨fun hc => by simp [Context.apply, hp] at hc,
        fun hr => by simp [Context.apply, hp] at hr, fun hc => by simp [Context.apply, hp] at hc⟩
    · exact ⟨fun hc => by simp [Context.apply, hp] at hc, fun _ => ht,
        fun hc => by simp [Context.apply, hp] at hc⟩
  | groupCreated g => exact h.groupCreated g
  | install t =>
    obtain ⟨topology, he, ht⟩ := c.install_cases t
    rw [he]
    exact ⟨h.counted, fun hp => ht (h.known hp), h.told⟩
  | close =>
    by_cases ho : c.IsOpen
    · exact regular_close_of_isOpen ho
    · show c.close.1.Regular
      rw [c.close_eq_self ho]
      exact h
  | threadClosed id => exact h.threadClosed id
  | finishClosing =>
    show c.finishClosing.1.Regular
    rw [c.finishClosing_eq]
    split
    · exact h.conclude
    · exact h

/-- Operations keep a context regular. -/
lemma Regular.applyAll (h : c.Regular) (ops : List Operation) : (c.applyAll ops).Regular := by
  induction ops generalizing c with
  | nil => exact h
  | cons op ops ih => exact ih (h.apply op)

/-! ## The assertion of the last step -/

/-- After a start the graph is not closed. -/
lemma start_not_closed (c : Context) : c.start.1.phase ≠ .closed := by
  obtain ⟨-, -, -, hp | ⟨hp, -⟩⟩ := c.start_cases
  · simp [hp]
  · simp [hp]

/-- Closing a graph closes it for good only if no thread is listed. -/
lemma close_threads_of_closed (hc : c.phase ≠ .closed) (h : c.close.1.phase = .closed) :
    c.close.1.threads = [] := by
  obtain ⟨ho, hn⟩ := (close_closed_iff hc).1 h
  rw [c.close_eq_concluded ho hn]
  exact hn

/-- The last report leaves no thread on the list.

**Proof sketch.** The phase becomes closed only with the last report, and then the list is empty by
the count. -/
lemma Regular.threadClosed_threads (h : c.Regular) (hc : c.phase ≠ .closed) (id : ThreadId)
    (hclosed : (c.handle (.threadClosed id)).1.phase = .closed) :
    (c.handle (.threadClosed id)).1.threads = [] := by
  cases hf : c.handle? id with
  | none =>
    rw [c.threadClosed_eq_of_unlisted hf] at hclosed
    exact absurd hclosed hc
  | some t =>
    obtain rfl : t.id = id := key_of_atKey? hf
    rw [c.threadClosed_eq_of_listed hf] at hclosed ⊢
    by_cases hp : c.phase = .closing
    · rw [if_pos hp] at hclosed ⊢
      by_cases hl : c.closed + 1 = c.total
      · rw [if_pos hl]
        exact (Context.conclude_threads _).trans (h.release_threads hf hp hl)
      · rw [if_neg hl] at hclosed
        exact absurd hclosed hc
    · rw [if_neg hp] at hclosed
      exact absurd hclosed hc

/-- **No operation closes a graph for good while threads are listed.**

**Proof sketch.** By cases on the operation. A close closes for good where there is no thread, a
report where it was the last one, and `finishClosing` where its assertion holds. -/
theorem Regular.apply_threads (h : c.Regular) (hc : c.phase ≠ .closed) (op : Operation)
    (hclosed : (c.apply op).phase = .closed) : (c.apply op).threads = [] := by
  cases op with
  | start => exact absurd hclosed c.start_not_closed
  | groupCreated g => exact absurd hclosed (groupCreated_not_closed hc g)
  | install t =>
    obtain ⟨topology, he, -⟩ := c.install_cases t
    rw [he] at hclosed
    exact absurd hclosed hc
  | close => exact close_threads_of_closed hc hclosed
  | threadClosed id => exact h.threadClosed_threads hc id hclosed
  | finishClosing =>
    change c.finishClosing.1.phase = .closed at hclosed
    show c.finishClosing.1.threads = []
    rw [c.finishClosing_eq] at hclosed ⊢
    split at hclosed
    · next hl =>
      rw [if_pos hl]
      rcases c.conclude_cases with ⟨hn, he⟩ | ⟨-, he⟩
      · rw [he]
        exact hn
      · rw [he] at hclosed
        exact absurd hclosed hc
    · exact absurd hclosed hc

/-- A start of threads that panics does so over a name that no thread can have.

**Proof sketch.** The panic is one of the effects of starting some handle, and starting panics in
one case only. -/
lemma exists_unnameable_of_startThreads (hx : .panic ∈ c.startThreads.2) :
    ∃ t ∈ c.startThreads.1.threads, isThreadName t.groupName = false := by
  have hmem : .panic ∈ [.log (.graphResources c.resources)] ++
      (c.threads.map (c.startThread (c.topology.getD .empty))).flatMap (·.2) ++
        [.log (.graphStarted c.link.graph c.threads.length)] :=
    (Effect.untilPanic_prefix _).subset hx
  simp only [List.mem_append, List.mem_singleton, reduceCtorEq, false_or, or_false,
    List.mem_flatMap, List.mem_map] at hmem
  obtain ⟨_, ⟨t, ht, rfl⟩, hpanic⟩ := hmem
  refine ⟨(c.startThread (c.topology.getD .empty) t).1,
    List.mem_map_of_mem (List.mem_map_of_mem ht), ?_⟩
  have hs := c.starts_startThread (c.topology.getD .empty) t
  generalize c.startThread (c.topology.getD .empty) t = r at hs hpanic ⊢
  cases hs with
  | panics _ _ hn => exact hn
  | unfit | spawned | refused => simp at hpanic

/-- **A panic of any other operation** comes from a start of threads, one of which cannot have its
name.

**Proof sketch.** By cases on the operation. Only those that start threads can panic there: a start
without groups, and the last group. The last step of a shutdown is otherwise reached with an empty
list, so that its assertion holds. -/
theorem Regular.exists_unnameable (h : c.Regular) {op : Operation} (hop : op ≠ .finishClosing)
    (hx : c.Panics op) : ∃ t ∈ (c.apply op).threads, isThreadName t.groupName = false := by
  have hclose (c : Context) : .panic ∉ c.close.2 := fun hm => (c.close_mild _ hm).1
  cases op with
  | start =>
    change .panic ∈ c.start.2.1 at hx
    show ∃ t ∈ c.start.1.threads, _
    by_cases hg : c.localGroups = []
    · cases ht : c.topology with
      | none =>
        rw [c.start_eq_of_no_groups hg ht] at hx ⊢
        exact exists_unnameable_of_startThreads (panic_mem_log_cons.1 hx)
      | some t =>
        rw [start_eq_of_installed hg (by rw [ht]; rfl)] at hx
        simp at hx
    · rw [c.start_eq_request hg] at hx
      rcases request_effects _ _ _ hx with ⟨creation, he⟩ | ⟨event, he⟩
      · cases he
      · cases he
  | groupCreated g =>
    change .panic ∈ (c.groupCreated g).2 at hx
    show ∃ t ∈ (c.groupCreated g).1.threads, _
    obtain ⟨-, heq, hpanic⟩ := c.panics_groupCreated hx
    rw [heq]
    exact exists_unnameable_of_startThreads hpanic
  | install t => cases hx
  | close => exact absurd hx (hclose c)
  | threadClosed id =>
    change .panic ∈ (c.handle (.threadClosed id)).2 at hx
    cases hf : c.handle? id with
    | none =>
      rw [c.threadClosed_eq_of_unlisted hf] at hx
      simp at hx
    | some t =>
      obtain rfl : t.id = id := key_of_atKey? hf
      have hreleasing := panic_not_mem_releasing t
      rw [c.threadClosed_eq_of_listed hf] at hx
      split at hx
      · next hp =>
        split at hx
        · next hl =>
          -- With the last report the list is empty, so that the assertion holds.
          rw [Context.conclude_eq { c.release t.id with closed := c.closed + 1 }
            (h.release_threads hf hp hl)] at hx
          have hm := (List.mem_append.1 hx).resolve_left hreleasing
          rcases concluded_effects _ _ hm with he | ⟨event, he⟩
          · cases he
          · cases he
        · simp [hreleasing] at hx
      · simp [hreleasing] at hx
  | finishClosing => exact absurd rfl hop

/-- In an open graph the counters of a shutdown are as they were in the beginning, if there has been
no shutdown.

**Proof sketch.** Induction on the operations. Each step of an open graph into an open graph keeps
the counters, since only a close sets them and only a report during a shutdown counts. -/
lemma counters_of_open {ops : List Operation} (hc : c.closed = 0 ∧ c.total = 0)
    (ho : ∀ before after, ops = before ++ after → (c.applyAll before).IsOpen) :
    (c.applyAll ops).closed = 0 ∧ (c.applyAll ops).total = 0 := by
  induction ops generalizing c with
  | nil => exact hc
  | cons op ops ih =>
    have ho₀ : c.IsOpen := ho [] _ rfl
    have ho₁ : (c.apply op).IsOpen := ho [op] ops rfl
    refine ih ?_ fun before after hops => ho (op :: before) after (by rw [hops]; rfl)
    -- Whatever touches the counters also closes the graph.
    cases op with
    | start =>
      obtain ⟨hclosed, htotal, -⟩ := c.start_cases
      exact ⟨hclosed.trans hc.1, htotal.trans hc.2⟩
    | groupCreated g =>
      have hr := c.receives g
      show (c.groupCreated g).1.closed = 0 ∧ (c.groupCreated g).1.total = 0
      change (c.groupCreated g).1.IsOpen at ho₁
      generalize c.groupCreated g = r at hr ho₁ ⊢
      cases hr with
      | late | early | twice | ready => exact hc
      | closing hp => exact absurd hp ho₀.1
      | strange => exact absurd (told_close_phase ho₀ g) ho₁.1
    | install t =>
      obtain ⟨topology, he, -⟩ := c.install_cases t
      rw [he]
      exact hc
    | close => exact absurd ho₁ (Engine.close_not_open ho₀)
    | threadClosed id =>
      rw [apply_threadClosed]
      cases hf : c.handle? id with
      | none =>
        rw [c.threadClosed_eq_of_unlisted hf]
        exact hc
      | some t =>
        obtain rfl : t.id = id := key_of_atKey? hf
        rw [c.threadClosed_eq_of_listed hf, if_neg ho₀.1]
        exact hc
    | finishClosing =>
      change c.finishClosing.1.IsOpen at ho₁
      show c.finishClosing.1.closed = 0 ∧ c.finishClosing.1.total = 0
      rw [c.finishClosing_eq] at ho₁ ⊢
      split at ho₁
      · next hl =>
        rw [if_pos hl]
        rcases c.conclude_cases with ⟨-, he⟩ | ⟨-, he⟩
        · rw [he] at ho₁
          exact absurd rfl ho₁.2
        · rw [he]
          exact hc
      · next hl =>
        rw [if_neg hl]
        exact hc

/-- **When the assertion of the last step fails.** After any operations in any order, none closes
the graph for good while threads are listed. `finishClosing` panics, since it gets to the last step
of a shutdown while threads are listed, exactly if it is called before a shutdown has begun and
finds its two counters equal, with threads on the list. It does find them equal, since they are
zero, as long as there has never been a shutdown. All other operations, and `finishClosing` during a
shutdown, get to the last step only with an empty list: if another one panics, it is because it
starts a thread under a name that no thread can have.

**Proof sketch.** All contexts that operations lead to are regular. During a shutdown what was
counted and what is listed make up the total, and something is listed; equal counters are then
impossible, and before a shutdown they are zero. -/
theorem finishClosing_panics_iff (link : Link) (watched : Bool) (ops : List Operation) :
    let c := (create link watched).applyAll ops
    (∀ op, c.phase ≠ .closed → (c.apply op).phase = .closed → (c.apply op).threads = []) ∧
    (c.Panics .finishClosing ↔ c.IsOpen ∧ c.closed = c.total ∧ c.threads ≠ []) ∧
    (∀ op, op ≠ .finishClosing → c.Panics op →
      ∃ t ∈ (c.apply op).threads, isThreadName t.groupName = false) ∧
    ((∀ before after, ops = before ++ after → ((create link watched).applyAll before).IsOpen) →
      c.closed = 0 ∧ c.total = 0) := by
  intro c
  have h : c.Regular := (regular_create link watched).applyAll ops
  refine ⟨fun op hc => h.apply_threads hc op, ?_, fun op hop => h.exists_unnameable hop,
    counters_of_open ⟨rfl, rfl⟩⟩
  rw [c.finishClosing_panics]
  constructor
  · rintro ⟨hc, hl, hn⟩
    refine ⟨⟨fun hp => ?_, hc⟩, hl, hn⟩
    -- While the graph closes, what is counted and what is listed make up the total.
    obtain ⟨hsum, hne⟩ := h.counted hp
    have hpos := List.length_pos_iff.2 hne
    omega
  · rintro ⟨ho, hl, hn⟩
    exact ⟨ho.2, hl, hn⟩

/-- The group of `Engine.oneExtension`, as its addon builds it. -/
def onlyGroup : Group := .create "only" defaultGroupAddon

/-- The graph of a single extension has been started and its thread is running. The operation that
is to finish a shutdown gets to the last step, and its assertion fails. -/
theorem finishClosing_over_running_thread :
    let c := (create (Engine.oneExtension .idle) true).applyAll [.start, .groupCreated onlyGroup]
    c.phase = .running ∧ c.threads.map (·.state) = [.running] ∧ c.Panics .finishClosing :=
  ⟨rfl, rfl, List.mem_singleton_self _⟩

/-! ## Going back -/

/-- The graph is started when it has got further than that. -/
def Restarts (c : Context) (op : Operation) : Prop :=
  op = .start ∧ Phase.starting.rank < c.phase.rank

/-- An open graph is in an earlier phase than a closing one. -/
lemma rank_of_open (ho : c.IsOpen) : c.phase.rank < Phase.closing.rank := by
  obtain ⟨hg, hc⟩ := ho
  cases hp : c.phase with
  | init | starting | running => decide
  | closing => exact absurd hp hg
  | closed => exact absurd hp hc

/-- The last step of a shutdown leads forward. -/
lemma rank_le_conclude (c : Context) : c.phase.rank ≤ c.conclude.1.phase.rank := by
  rcases c.conclude_cases with ⟨-, he⟩ | ⟨-, he⟩
  · rw [he]
    exact Phase.rank_le_closed _
  · exact Nat.le_of_eq (by rw [he])

/-- Closing leads forward. -/
lemma rank_le_close (c : Context) : c.phase.rank ≤ c.close.1.phase.rank := by
  by_cases ho : c.IsOpen
  · have hlt := rank_of_open ho
    rw [c.close_phase ho]
    split
    · exact Phase.rank_le_closed _
    · exact Nat.le_of_lt hlt
  · have he : c.close.1 = c := by rw [c.close_eq_self ho]
    exact Nat.le_of_eq (by rw [he])

/-- Every operation but one leads forward.

**Proof sketch.** By cases on the operation. A group can lead from a pending graph to a running one
or close it; all others close or leave the phase as it is. -/
lemma rank_le_apply (c : Context) {op : Operation} (hop : op ≠ .start) :
    c.phase.rank ≤ (c.apply op).phase.rank := by
  cases op with
  | start => exact absurd rfl hop
  | groupCreated g =>
    show c.phase.rank ≤ (c.groupCreated g).1.phase.rank
    have hr := c.receives g
    generalize c.groupCreated g = r at hr ⊢
    cases hr with
    | late | closing | early | twice => exact Nat.le_refl _
    | ready ho => exact Nat.lt_succ_iff.1 (rank_of_open ho)
    | strange ho =>
      rw [told_close_phase ho g]
      exact Nat.le_of_lt (rank_of_open ho)
  | install t =>
    obtain ⟨topology, he, -⟩ := c.install_cases t
    exact Nat.le_of_eq (by rw [he])
  | close => exact c.rank_le_close
  | threadClosed id =>
    rw [apply_threadClosed]
    cases hf : c.handle? id with
    | none =>
      exact Nat.le_of_eq (by rw [c.threadClosed_eq_of_unlisted hf])
    | some t =>
      obtain rfl : t.id = id := key_of_atKey? hf
      rw [c.threadClosed_eq_of_listed hf]
      split
      · split
        · exact rank_le_conclude { c.release t.id with closed := c.closed + 1 }
        · exact Nat.le_refl _
      · exact Nat.le_refl _
  | finishClosing =>
    show c.phase.rank ≤ c.finishClosing.1.phase.rank
    rw [c.finishClosing_eq]
    split
    · exact c.rank_le_conclude
    · exact Nat.le_refl _

/-- Starting leads back exactly from where the graph has got further than that. -/
lemma Regular.rank_start_lt_iff (h : c.Regular) :
    c.start.1.phase.rank < c.phase.rank ↔ Phase.starting.rank < c.phase.rank := by
  obtain ⟨-, -, -, hp | ⟨hp, htop, -⟩⟩ := c.start_cases
  · rw [hp]
  · rw [hp]
    cases hc : c.phase with
    | init | starting | closing | closed => decide
    | running =>
      have hknown := h.known hc
      rw [htop] at hknown
      cases hknown

/-- The end that everybody may know of is set by the last step of a shutdown only, and never taken
back.

**Proof sketch.** By cases on the operation: the end is set where `concluded` is reached, by a close
without threads, by the last report or by `finishClosing`. -/
lemma apply_envClosed (c : Context) (op : Operation) :
    (c.apply op).envClosed = c.envClosed ∨
      ((c.apply op).phase = .closed ∧ (c.apply op).envClosed = true) := by
  -- Only the last step of a shutdown sets it, which is reached in three ways.
  have hconclude (c : Context) : c.conclude.1.envClosed = c.envClosed ∨
      (c.conclude.1.phase = .closed ∧ c.conclude.1.envClosed = true) := by
    rcases c.conclude_cases with ⟨-, he⟩ | ⟨-, he⟩
    · rw [he]
      exact .inr ⟨rfl, rfl⟩
    · rw [he]
      exact .inl rfl
  have hclose (c : Context) : c.close.1.envClosed = c.envClosed ∨
      (c.close.1.phase = .closed ∧ c.close.1.envClosed = true) := by
    by_cases ho : c.IsOpen
    · by_cases hn : c.threads = []
      · rw [c.close_eq_concluded ho hn]
        exact .inr ⟨rfl, rfl⟩
      · rw [c.close_eq_of_nonempty ho hn]
        exact .inl rfl
    · rw [c.close_eq_self ho]
      exact .inl rfl
  cases op with
  | start => exact .inl c.start_cases.2.2.1
  | groupCreated g =>
    show (c.groupCreated g).1.envClosed = c.envClosed ∨
      ((c.groupCreated g).1.phase = .closed ∧ (c.groupCreated g).1.envClosed = true)
    have hr := c.receives g
    generalize c.groupCreated g = r at hr ⊢
    cases hr with
    | late | closing | early | twice | ready => exact .inl rfl
    | strange => exact hclose (c.opened g).told
  | install t =>
    obtain ⟨topology, he, -⟩ := c.install_cases t
    rw [he]
    exact .inl rfl
  | close => exact hclose c
  | threadClosed id =>
    rw [apply_threadClosed]
    cases hf : c.handle? id with
    | none =>
      rw [c.threadClosed_eq_of_unlisted hf]
      exact .inl rfl
    | some t =>
      obtain rfl : t.id = id := key_of_atKey? hf
      rw [c.threadClosed_eq_of_listed hf]
      split
      · split
        · exact hconclude { c.release t.id with closed := c.closed + 1 }
        · exact .inl rfl
      · exact .inl rfl
  | finishClosing =>
    show c.finishClosing.1.envClosed = c.envClosed ∨
      (c.finishClosing.1.phase = .closed ∧ c.finishClosing.1.envClosed = true)
    rw [c.finishClosing_eq]
    split
    · exact hconclude c
    · exact .inl rfl

/-- The end is set exactly if it was set before or the graph is closed for good now. -/
lemma Regular.envClosed_apply_iff (h : c.Regular) (op : Operation) :
    (c.apply op).envClosed = true ↔ c.envClosed = true ∨ (c.apply op).phase = .closed := by
  rcases c.apply_envClosed op with he | ⟨hc, ht⟩
  · constructor
    · exact fun hx => .inl (he.symm.trans hx)
    · rintro (hx | hx)
      · exact he.trans hx
      · exact (h.apply op).told hx
  · exact iff_of_true ht (.inr hc)

/-- Everybody may know of the end once the graph has been closed for good.

**Proof sketch.** Induction on the operations, where the first one is a beginning of the list by
itself. -/
lemma Regular.envClosed_applyAll_iff (h : c.Regular) (ops : List Operation) :
    (c.applyAll ops).envClosed = true ↔
      c.envClosed = true ∨
        ∃ before after, ops = before ++ after ∧ (c.applyAll before).phase = .closed := by
  induction ops generalizing c with
  | nil =>
    constructor
    · exact .inl
    · rintro (hx | ⟨before, after, hops, hx⟩)
      · exact hx
      · obtain ⟨rfl, -⟩ := List.append_eq_nil_iff.1 hops.symm
        exact h.told hx
  | cons op ops ih =>
    rw [applyAll_cons, ih (h.apply op), h.envClosed_apply_iff]
    constructor
    · rintro ((hx | hx) | ⟨before, after, rfl, hx⟩)
      · exact .inl hx
      · exact .inr ⟨[op], ops, rfl, hx⟩
      · exact .inr ⟨op :: before, after, rfl, hx⟩
    · rintro (hx | ⟨before, after, hops, hx⟩)
      · exact .inl (.inl hx)
      · rcases List.append_eq_cons_iff.1 hops.symm with ⟨rfl, -⟩ | ⟨before', rfl, hrest⟩
        · exact .inl (.inl (h.told hx))
        · exact .inr ⟨before', after, hrest, hx⟩

/-- Without a restart the phases follow each other in their order.

**Proof sketch.** By induction over the operations. A start moves back only if it is a restart, and
nothing else ever does. -/
lemma Regular.rank_le_applyAll (h : c.Regular) {ops : List Operation}
    (hno : ∀ before op after, ops = before ++ op :: after → ¬ (c.applyAll before).Restarts op) :
    c.phase.rank ≤ (c.applyAll ops).phase.rank := by
  induction ops generalizing c with
  | nil => exact Nat.le_refl _
  | cons op ops ih =>
    have hstep : c.phase.rank ≤ (c.apply op).phase.rank := by
      by_cases hop : op = .start
      · have hback := hno [] op ops rfl
        rw [hop] at hback ⊢
        exact Nat.not_lt.1 fun hlt => hback ⟨rfl, h.rank_start_lt_iff.1 hlt⟩
      · exact c.rank_le_apply hop
    have hrest := ih (h.apply op) fun before op' after hops =>
      hno (op :: before) op' after (by rw [hops]; rfl)
    exact Nat.le_trans hstep hrest

/-- **When a graph goes back to an earlier phase.** After any operations in any order, one more
leads back exactly if it is a start of a graph that has got further than its start. A graph that is
closed stays closed under all operations but this one. That the graph is closed is told, and remains
told, once it has been closed for good. So without a restart the phases follow each other in their
order, and whoever asks whether the graph is closed is told the truth.

**Proof sketch.** All operations but a start lead forward (`rank_le_apply`); a start leads back
exactly if the phase is past its own. The end is set where the graph is closed for good and never
taken back, so it tells of some earlier moment; without a restart the graph is still closed. -/
theorem phase_goes_back_iff (link : Link) (watched : Bool) (ops : List Operation) :
    let after := fun ops => (create link watched).applyAll ops
    let c := after ops
    (∀ op, (c.apply op).phase.rank < c.phase.rank ↔ c.Restarts op) ∧
    (c.phase = .closed → ∀ op, (c.apply op).phase = .closed ↔ op ≠ .start) ∧
    (c.envClosed = true ↔ ∃ before rest, ops = before ++ rest ∧ (after before).phase = .closed) ∧
    ((∀ before op rest, ops = before ++ op :: rest → ¬ (after before).Restarts op) →
      (∀ before rest, ops = before ++ rest → (after before).phase.rank ≤ c.phase.rank) ∧
      (c.envClosed = true ↔ c.phase = .closed)) := by
  intro after c
  have hcreate := regular_create link watched
  have hafter (ops : List Operation) : (after ops).Regular := hcreate.applyAll ops
  have h : c.Regular := hafter ops
  have henv : c.envClosed = true ↔
      ∃ before rest, ops = before ++ rest ∧ (after before).phase = .closed := by
    rw [show c = (create link watched).applyAll ops from rfl, hcreate.envClosed_applyAll_iff]
    simp [create, after]
  refine ⟨fun op => ?_, fun hc op => ?_, henv, fun hno => ?_⟩
  · by_cases hop : op = .start
    · subst hop
      rw [show c.apply .start = c.start.1 from rfl, h.rank_start_lt_iff]
      simp [Restarts]
    · exact iff_of_false (Nat.not_lt.2 (c.rank_le_apply hop)) fun hr => hop hr.1
  · constructor
    · rintro hclosed rfl
      exact c.start_not_closed hclosed
    · intro hop
      have hle := c.rank_le_apply hop
      rw [hc] at hle
      cases hp : (c.apply op).phase with
      | closed => rfl
      | init | starting | running | closing =>
        rw [hp] at hle
        exact absurd hle (by decide)
  -- Without a restart nothing leads back, and neither does any sequence of operations.
  · have hforward : ∀ before rest, ops = before ++ rest →
        (after before).phase.rank ≤ c.phase.rank := by
      rintro before rest rfl
      have hc : c = (after before).applyAll rest := applyAll_append _ _ _
      rw [hc]
      refine (hafter before).rank_le_applyAll fun before' op rest' hrest => ?_
      rw [← applyAll_append]
      exact hno (before ++ before') op rest' (by rw [hrest, List.append_assoc])
    refine ⟨hforward, fun he => ?_, h.told⟩
    obtain ⟨before, rest, hops, hclosed⟩ := henv.1 he
    have hle := hforward before rest hops
    rw [hclosed] at hle
    cases hp : c.phase with
    | closed => rfl
    | init | starting | running | closing =>
      rw [hp] at hle
      exact absurd hle (by decide)

/-- A graph that has been closed is started: it waits for groups again, while everybody may know
that it is closed. -/
theorem start_reopens_closed :
    let closed := (create (Engine.oneExtension .idle) true).applyAll [.close]
    closed.phase = .closed ∧ (closed.apply .start).phase = .starting ∧
      (closed.apply .start).envClosed = true :=
  ⟨rfl, rfl, rfl⟩

end Context

end ExtensionGraph
