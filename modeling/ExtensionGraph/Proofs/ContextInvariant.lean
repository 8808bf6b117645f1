import ExtensionGraph.Proofs.ContextSteps

/-!
# What holds of a context at any time

Between two messages a context is in order: its handles have numbers of their own and are in the
state that the phase of the graph asks for, the counters of a shutdown add up, and a graph that is
closed has no threads left. Every message keeps a context in order, whatever it is and whenever it
comes.

## Main definitions

* `ExtensionGraph.Thread.Idle`, `ExtensionGraph.Thread.Waiting`, `ExtensionGraph.Thread.Working` —
  handles without a thread, before their start, and after it.
* `ExtensionGraph.Context.Tidy`, `ExtensionGraph.Context.Sound` — contexts in order, without and
  with the counters.

## Main results

* `ExtensionGraph.Context.Sound.handle` — a message keeps a context in order.
* `ExtensionGraph.Context.sound_start` — a graph that has just been started is in order.
-/

namespace ExtensionGraph

namespace Thread

/-- The handle is attached, and there is no thread to it: it has not been started, or its start
has failed. -/
structure Idle (t : Thread) : Prop where
  state : t.state = .attached
  attached : t.attached = true
  wired : t.wired = false

/-- The handle has its group and waits for the start. -/
structure Waiting (t : Thread) : Prop extends t.Idle where
  group : ∃ g, t.group = some g ∧ g.name = t.groupName

/-- The handle has been started and not been closed. -/
structure Working (t : Thread) : Prop where
  state : t.state = .running
  wired : t.wired = true

/-- The handle is in a state that the phase of the graph asks for. In a running graph a handle stays
without a thread if its group has come when the others had been started already, or if its thread
was refused. -/
def Fits (phase : Phase) (t : Thread) : Prop :=
  match phase with
  | .init => False
  | .starting => t.Waiting
  | .running => t.Idle ∨ t.Working
  | .closing => t.state = .closing
  | .closed => False

variable {t : Thread}

/-- Closing a handle without a thread makes it report in place of its thread. -/
lemma Idle.close (h : t.Idle) :
    t.close = ({ t with state := .closing }, [.post (.threadClosed t.id)]) := by
  simp [Thread.close, h.state, h.attached]

/-- Closing a handle that works asks its thread to end. -/
lemma Working.close (h : t.Working) :
    t.close = ({ t with state := .closing }, [.tell t.id .close none]) := by
  simp [Thread.close, h.state, h.wired]

/-- A handle that waits was started: it works, or there is no thread to it. -/
lemma Waiting.startThread (h : t.Waiting) (c : Context) (topology : Topology) :
    (c.startThread topology t).1.Idle ∨ (c.startThread topology t).1.Working := by
  have hr := c.starts_startThread topology t
  generalize c.startThread topology t = r at hr ⊢
  cases hr with
  | unfit => exact .inl h.toIdle
  | spawned => exact .inr ⟨rfl, rfl⟩
  | refused | panics => exact .inl ⟨h.state, h.attached, h.wired⟩

/-- A handle keeps everything but its group when the group is told what is declared. -/
lemma inform_getD (topology : Topology) (app : String) (t : Thread) :
    ∃ group, (Context.inform topology app t).getD t = { t with group } ∧
      ∀ g, t.group = some g → ∃ g', group = some g' ∧ g'.name = g.name := by
  unfold Context.inform
  split
  · next info g hi hg =>
    refine ⟨some (g.setInfo info), rfl, ?_⟩
    intro g' hg'
    rw [hg] at hg'
    obtain rfl : g = g' := Option.some.inj hg'
    exact ⟨g.setInfo info, rfl, rfl⟩
  · exact ⟨t.group, rfl, fun g hg => ⟨g, hg, rfl⟩⟩

/-- A handle that waits for its start goes on waiting when its group is told what the topology
says. -/
lemma Waiting.inform (h : t.Waiting) (topology : Topology) (app : String) :
    ((Context.inform topology app t).getD t).Waiting := by
  obtain ⟨group, he, hgroup⟩ := inform_getD topology app t
  obtain ⟨g, hg, hname⟩ := h.group
  obtain ⟨g', hg', hname'⟩ := hgroup g hg
  rw [he]
  exact ⟨⟨h.state, h.attached, h.wired⟩, g', hg', hname'.trans hname⟩

/-- In whatever phase a handle fits, it fits a shutdown once it has been closed. -/
lemma Fits.close {phase : Phase} (h : t.Fits phase) : t.close.1.Fits .closing := by
  show t.close.1.state = .closing
  cases phase with
  | init => exact h.elim
  | starting => rw [Idle.close (Waiting.toIdle h)]
  | running =>
    rcases h with h | h
    · rw [Idle.close h]
    · rw [Working.close h]
  | closing =>
    have hs : t.state = .closing := h
    simp [Thread.close, hs]
  | closed => exact h.elim

end Thread

namespace Context

/-- The handles of a context are in order, and everybody is told the truth about its end. -/
structure Tidy (c : Context) : Prop where
  idsNodup : (c.threads.map (·.id)).Nodup
  idsBelow : ∀ t ∈ c.threads, t.id.number < c.nextThread
  fits : ∀ t ∈ c.threads, t.Fits c.phase
  envClosed : c.envClosed = c.isClosed
  watched : c.watched = !c.isClosed

/-- A context in order between two messages. -/
structure Sound (c : Context) : Prop extends c.Tidy where
  begun : c.phase ≠ .init
  unready : c.phase = .starting → c.topology = none
  ready : c.phase = .running → c.topology.isSome
  counted : c.phase = .closing → c.closed + c.threads.length = c.total ∧ c.threads ≠ []

variable {c : Context}

/-- A graph that is closed has no threads left. -/
lemma Tidy.threads_eq_nil (h : c.Tidy) (hc : c.phase = .closed) : c.threads = [] := by
  rw [List.eq_nil_iff_forall_not_mem]
  intro t ht
  have hf := h.fits t ht
  rw [hc] at hf
  exact hf

/-- A graph that lists a thread has not been closed. -/
lemma Tidy.not_closed_of_mem (h : c.Tidy) {t : Thread} (ht : t ∈ c.threads) :
    c.phase ≠ .closed := by
  intro hc
  rw [h.threads_eq_nil hc] at ht
  exact List.not_mem_nil ht

/-- A graph that is not in the last phase is not closed. -/
lemma isClosed_eq_false (hc : c.phase ≠ .closed) : c.isClosed = false := by
  simpa [isClosed] using hc

/-- While no topology is known, all handles wait. -/
lemma Sound.waiting (h : c.Sound) (ho : c.IsOpen) (ht : c.topology = none) :
    c.phase = .starting ∧ ∀ t ∈ c.threads, t.Waiting := by
  cases hp : c.phase with
  | init => exact absurd hp h.begun
  | starting =>
    refine ⟨rfl, fun t hm => ?_⟩
    have hf := h.fits t hm
    rw [hp] at hf
    exact hf
  | running =>
    have hr := h.ready hp
    rw [ht] at hr
    exact absurd hr (by simp)
  | closing => exact absurd hp ho.1
  | closed => exact absurd hp ho.2

/-! ## One operation after the other -/

/-- The last step of a shutdown leaves the context in order if no thread is listed. -/
lemma sound_concluded (hn : c.threads = []) : c.concluded.1.Sound where
  begun := by simp [concluded]
  idsNodup := by simp [concluded, hn]
  idsBelow := by simp [concluded, hn]
  fits := by simp [concluded, hn]
  unready := by simp [concluded]
  ready := by simp [concluded]
  counted := by simp [concluded]
  envClosed := rfl
  watched := rfl

/-- Closing an open context leaves it in order, also if its topology has just become known.

**Proof sketch.** Without handles the shutdown is over at once. Otherwise every handle is closed and
fits a shutdown then; their numbers stay, and the total counts them all, so that no report is
missing yet. -/
lemma Tidy.close (h : c.Tidy) (ho : c.IsOpen) : c.close.1.Sound := by
  by_cases hn : c.threads = []
  · rw [c.close_eq_concluded ho hn]
    exact sound_concluded hn
  · rw [c.close_eq_of_nonempty ho hn]
    have hids : (c.threads.map fun t => t.close.1).map (·.id) = c.threads.map (·.id) := by
      simp [List.map_map, Function.comp_def]
    refine
      { begun := by simp
        idsNodup := by rw [hids]; exact h.idsNodup
        idsBelow := ?_
        fits := ?_
        unready := by simp
        ready := by simp
        counted := fun _ => ⟨by simp, by simpa using hn⟩
        envClosed := ?_
        watched := ?_ }
    · intro t ht
      obtain ⟨u, hu, rfl⟩ := List.mem_map.1 ht
      simpa using h.idsBelow u hu
    · intro t ht
      obtain ⟨u, hu, rfl⟩ := List.mem_map.1 ht
      exact (h.fits u hu).close
    · have he := h.envClosed
      rw [isClosed_eq_false ho.2] at he
      exact he
    · have hw := h.watched
      rw [isClosed_eq_false ho.2] at hw
      exact hw

/-- Closing leaves a context in order, whether it is open or not. -/
lemma Sound.close (h : c.Sound) : c.close.1.Sound := by
  by_cases ho : c.IsOpen
  · exact h.toTidy.close ho
  · rw [c.close_eq_self ho]
    exact h

/-- When a handle is taken off the list, the others stay. -/
lemma Tidy.mem_release (h : c.Tidy) {id : ThreadId} {t : Thread} :
    t ∈ (c.release id).threads ↔ t ∈ c.threads ∧ t.id ≠ id :=
  mem_eraseP_iff h.idsNodup

/-- Since numbers are different from each other, the handle with a number is the one on the list
that has it. -/
lemma Tidy.handle?_eq_some_iff (h : c.Tidy) {id : ThreadId} {t : Thread} :
    c.handle? id = some t ↔ t ∈ c.threads ∧ t.id = id :=
  atKey?_eq_some_iff h.idsNodup

/-- A handle that is taken off the list was on it once. -/
lemma length_release {t : Thread} (ht : t ∈ c.threads) :
    (c.release t.id).threads.length + 1 = c.threads.length := by
  have hlen : (c.release t.id).threads.length = c.threads.length - 1 :=
    List.length_eraseP_of_mem ht (by simp)
  have hpos : 0 < c.threads.length := List.length_pos_of_mem ht
  omega

/-- Taking a handle off the list leaves a context in order, unless it was the last one of a graph
that closes; the counter of the reports goes up while the graph closes.

**Proof sketch.** The remaining handles are as they were. In a graph that closes, the list becomes
shorter by one and the counter greater by one, so that their sum stays; and if it was not the last
one, the list is not empty. -/
lemma Sound.release (h : c.Sound) {t : Thread} (ht : t ∈ c.threads) (n : Nat)
    (hn : c.phase = .closing → n = c.closed + 1 ∧ n ≠ c.total) :
    ({ c.release t.id with closed := n } : Context).Sound where
  begun := h.begun
  idsNodup := h.idsNodup.sublist (List.Sublist.map _ List.eraseP_sublist)
  idsBelow u hu := h.idsBelow u (h.mem_release.1 hu).1
  fits u hu := h.fits u (h.mem_release.1 hu).1
  unready := h.unready
  ready := h.ready
  counted hp := by
    have hlen := length_release ht
    obtain ⟨hsum, -⟩ := h.counted hp
    obtain ⟨rfl, hne⟩ := hn hp
    have hsum' : c.closed + 1 + (c.release t.id).threads.length = c.total := by omega
    refine ⟨hsum', fun hnil => hne ?_⟩
    have hzero : (c.release t.id).threads.length = 0 := by
      show ({ c.release t.id with closed := c.closed + 1 } : Context).threads.length = 0
      rw [hnil, List.length_nil]
    omega
  envClosed := h.envClosed
  watched := h.watched

/-- The last report leaves no handle on the list. -/
lemma Sound.release_last (h : c.Sound) {t : Thread} (ht : t ∈ c.threads)
    (hp : c.phase = .closing) (hc : c.closed + 1 = c.total) : (c.release t.id).threads = [] := by
  have hlen := length_release ht
  obtain ⟨hsum, -⟩ := h.counted hp
  exact List.length_eq_zero_iff.1 (by omega)

/-- In order, a graph that is closed for good with the last report has no thread then: the step that
asserts this does not panic.

**Proof sketch.** The general equation of this step, with the one fact that it lacks: when the last
report comes, the list of a context in order is empty. -/
lemma Sound.threadClosed_eq (h : c.Sound) {t : Thread} (ht : c.handle? t.id = some t) :
    c.handle (.threadClosed t.id) =
      if c.phase = .closing then
        if c.closed + 1 = c.total then
          (({ c.release t.id with closed := c.closed + 1 }.concluded).1,
            releasing t ++ ({ c.release t.id with closed := c.closed + 1 }.concluded).2)
        else
          ({ c.release t.id with closed := c.closed + 1 },
            releasing t ++ [.log (.waiting c.link.graph (c.closed + 1) c.total)])
      else (c.release t.id, releasing t ++ [.log (.threadLeft c.link.graph t.groupName)]) := by
  rw [c.threadClosed_eq_of_listed ht]
  by_cases hp : c.phase = .closing
  · by_cases hc : c.closed + 1 = c.total
    · have hnil := h.release_last (h.handle?_eq_some_iff.1 ht).1 hp hc
      rw [if_pos hp, if_pos hc, if_pos hp, if_pos hc,
        conclude_eq { c.release t.id with closed := c.closed + 1 } hnil]
    · rw [if_pos hp, if_neg hc, if_pos hp, if_neg hc]
  · rw [if_neg hp, if_neg hp]

/-- The report of a thread leaves a context in order.

**Proof sketch.** Reports of unknown threads change nothing. Otherwise the thread leaves the list,
and the context concludes if it was the last one. -/
lemma Sound.threadClosed (h : c.Sound) (id : ThreadId) :
    (c.handle (.threadClosed id)).1.Sound := by
  cases hf : c.handle? id with
  | none =>
    rw [c.threadClosed_eq_of_unlisted hf]
    exact h
  | some t =>
    obtain ⟨ht, rfl⟩ := h.handle?_eq_some_iff.1 hf
    rw [h.threadClosed_eq hf]
    by_cases hp : c.phase = .closing
    · rw [if_pos hp]
      by_cases hc : c.closed + 1 = c.total
      · rw [if_pos hc]
        exact sound_concluded (h.release_last ht hp hc)
      · rw [if_neg hc]
        exact h.release ht _ fun _ => ⟨rfl, hc⟩
    · rw [if_neg hp]
      exact h.release ht c.closed fun hp' => absurd hp' hp

/-- A new handle leaves a context in order if it fits the phase and, in a graph that closes, is
counted.

**Proof sketch.** The new number is greater than all the others, so it is none of them. While the
graph closes, the list and the total both become greater by one. -/
lemma Sound.withThread (h : c.Sound) {t : Thread} (hid : t.id = ⟨c.nextThread⟩)
    (hfit : t.Fits c.phase) {ready total : Nat}
    (hcount : c.phase = .closing → total = c.total + 1) :
    ({ c.withThread t with ready, total } : Context).Sound where
  begun := h.begun
  idsNodup := by
    show ((c.threads ++ [t]).map (·.id)).Nodup
    rw [List.map_append, List.nodup_append]
    refine ⟨h.idsNodup, by simp, ?_⟩
    intro a ha b hb
    obtain ⟨u, hu, rfl⟩ := List.mem_map.1 ha
    obtain rfl : b = t.id := by simpa using hb
    have hlt := h.idsBelow u hu
    intro he
    rw [he, hid] at hlt
    exact Nat.lt_irrefl _ hlt
  idsBelow u hu := by
    rcases List.mem_append.1 hu with hu | hu
    · exact Nat.lt_succ_of_lt (h.idsBelow u hu)
    · obtain rfl : u = t := by simpa using hu
      rw [hid]
      exact Nat.lt_succ_self _
  fits u hu := by
    rcases List.mem_append.1 hu with hu | hu
    · exact h.fits u hu
    · obtain rfl : u = t := by simpa using hu
      exact hfit
  unready := h.unready
  ready := h.ready
  counted hp := by
    obtain ⟨hsum, -⟩ := h.counted hp
    have hlen : (c.withThread t).threads.length = c.threads.length + 1 := by
      simp [Context.withThread]
    have htotal := hcount hp
    refine ⟨?_, by simp [Context.withThread]⟩
    show c.closed + (c.withThread t).threads.length = total
    omega
  envClosed := h.envClosed
  watched := h.watched

/-- The handle of a new group waits for its start. -/
lemma waiting_handleFor (g : Group) : (c.handleFor g).Waiting :=
  ⟨⟨rfl, rfl, rfl⟩, c.adopt g, rfl, rfl⟩

/-- An open graph with one more group is in order: its handle waits, and fits whatever phase the
graph is in. -/
lemma Sound.opened (h : c.Sound) (ho : c.IsOpen) (g : Group) : (c.opened g).Sound := by
  have hw : (c.handleFor g).Waiting := waiting_handleFor g
  have hfit : (c.handleFor g).Fits c.phase := by
    cases hp : c.phase with
    | init => exact absurd hp h.begun
    | starting => exact hw
    | running => exact .inl hw.toIdle
    | closing => exact absurd hp ho.1
    | closed => exact absurd hp ho.2
  exact h.withThread rfl hfit fun hp => absurd hp ho.1

/-- Once the groups have been told what is declared, the handles are as they were. -/
lemma Tidy.told (h : c.Tidy) (hp : c.phase = .starting) : c.told.Tidy where
  idsNodup := by
    rw [c.told_ids]
    exact h.idsNodup
  idsBelow u hu := by
    obtain ⟨t, ht, rfl⟩ := List.mem_map.1 hu
    rw [inform_id]
    exact h.idsBelow t ht
  fits u hu := by
    obtain ⟨t, ht, rfl⟩ := List.mem_map.1 hu
    have hf := h.fits t ht
    have hp' : c.told.phase = .starting := hp
    rw [hp] at hf
    rw [hp']
    exact Thread.Waiting.inform hf _ _
  envClosed := h.envClosed
  watched := h.watched

/-- Starting the threads of a graph that has just become ready.

**Proof sketch.** Each handle waits when it is started, so afterwards it runs or has nothing left to
do, and fits a running graph in either case. Nothing else of the context changes but the phase, and
the topology is known by now. -/
lemma Tidy.startThreads (h : c.Tidy) (hp : c.phase = .starting) (ht : c.topology.isSome) :
    c.startThreads.1.Sound := by
  have hmem : ∀ u ∈ c.startThreads.1.threads, ∃ t ∈ c.threads,
      u.id = t.id ∧ (u.Idle ∨ u.Working) := by
    intro u hu
    simp only [Context.startThreads, List.map_map] at hu
    obtain ⟨t, hm, rfl⟩ := List.mem_map.1 hu
    have hf := h.fits t hm
    rw [hp] at hf
    exact ⟨t, hm, c.startThread_id _ t, Thread.Waiting.startThread hf c _⟩
  have hopen : c.phase ≠ .closed := by rw [hp]; simp
  refine
    { begun := by simp [Context.startThreads]
      idsNodup := by rw [c.startThreads_ids]; exact h.idsNodup
      idsBelow := ?_
      fits := ?_
      unready := by simp [Context.startThreads]
      ready := fun _ => ht
      counted := by simp [Context.startThreads]
      envClosed := ?_
      watched := ?_ }
  · intro u hu
    obtain ⟨t, hm, hid, -⟩ := hmem u hu
    rw [hid]
    exact h.idsBelow t hm
  · intro u hu
    obtain ⟨t, -, -, hw⟩ := hmem u hu
    exact hw
  · have he := h.envClosed
    rw [isClosed_eq_false hopen] at he
    exact he
  · have hw := h.watched
    rw [isClosed_eq_false hopen] at hw
    exact hw

/-- A group that has been built leaves a context in order, whatever it leads to.

**Proof sketch.** By what a group can lead to. In an open context it opens a handle first, and then
the groups are told and their threads started, or the graph is closed over an undeclared group. A
closing context closes the new handle at once. -/
lemma Sound.groupCreated (h : c.Sound) (g : Group) : (c.groupCreated g).1.Sound := by
  have hr := c.receives g
  generalize c.groupCreated g = r at hr ⊢
  cases hr with
  | late => exact h
  | closing hp =>
    have hfit : (c.handleFor g).close.1.Fits c.phase := by
      rw [hp, (waiting_handleFor g).toIdle.close]
      rfl
    exact h.withThread (Thread.close_fst_id _) hfit fun _ => rfl
  | early ho => exact h.opened ho g
  | twice ho => exact h.opened ho g
  | ready ho _ ht _ =>
    have hs := h.opened ho g
    have hp : (c.opened g).phase = .starting := (h.waiting ho ht).1
    exact (hs.toTidy.told hp).startThreads hp rfl
  | strange ho _ ht _ =>
    have hs := h.opened ho g
    have hp : (c.opened g).phase = .starting := (h.waiting ho ht).1
    exact (hs.toTidy.told hp).close ho

/-- A message keeps a context in order. -/
theorem Sound.handle (h : c.Sound) (m : EngineMsg) : (c.handle m).1.Sound := by
  cases m with
  | created result =>
    cases result with
    | ok g => exact h.groupCreated g
    | error e => exact h.close
  | threadClosed id => exact h.threadClosed id
  | route m => exact h
  | close => exact h.close

/-! ## The start -/

/-- A graph that has just been started is in order.

**Proof sketch.** Without groups the graph starts its threads, of which there are none. With groups
it has only asked for them, and no handle exists. -/
lemma sound_start (link : Link) : (Context.create link true).start.1.Sound := by
  by_cases hg : (Context.create link true).localGroups = []
  · rw [start_eq_of_no_groups _ hg rfl]
    refine Tidy.startThreads ⟨?_, ?_, ?_, rfl, rfl⟩ rfl rfl
    · simp [Context.create]
    · simp [Context.create]
    · simp [Context.create]
  · rw [start_eq_request _ hg]
    exact
      { idsNodup := by simp [Context.create]
        idsBelow := by simp [Context.create]
        fits := by simp [Context.create]
        envClosed := rfl
        watched := rfl
        begun := by simp
        unready := fun _ => rfl
        ready := by simp
        counted := by simp }

end Context

end ExtensionGraph
