import ExtensionGraph.Proofs.ContextEffects
import ExtensionGraph.Proofs.Lifecycle

/-!
# Who has reported what

A thread is known in three places: the graph lists its handle, the host keeps its worker, and its
report travels through the mailbox to the engine. The ledger says how the three fit together, for
every number. A handle that is listed has not been heard of; a worker that is no longer listed has
ended, was heard of once and has been waited for; and a report is on its way exactly if the thread
has ended, or will never be started.

## Main definitions

* `ExtensionGraph.reportsOf` — how often messages report the end of a thread.
* `ExtensionGraph.Accounts` — how what is known of one thread fits together.
* `ExtensionGraph.Ledger` — the same for all threads.

## Main results

* `ExtensionGraph.Ledger.close`, `ExtensionGraph.Ledger.withThread`,
  `ExtensionGraph.Ledger.startThreads`, `ExtensionGraph.Ledger.unlist`,
  `ExtensionGraph.Ledger.unlist_joined` — the ledger after each operation of a context.
* `ExtensionGraph.Ledger.setWorker` — the ledger after a step of a worker.
-/

namespace ExtensionGraph

/-! ## Reports -/

/-- The thread whose end a message reports. -/
def EngineMsg.report? : EngineMsg → Option ThreadId
  | .threadClosed id => some id
  | _ => none

/-- How often messages report the end of a thread. -/
def reportsOf (id : ThreadId) (ms : List EngineMsg) : Nat :=
  (ms.filterMap EngineMsg.report?).count id

/-- The reports of a thread are counted part by part. -/
lemma reportsOf_append (id : ThreadId) (ms ms' : List EngineMsg) :
    reportsOf id (ms ++ ms') = reportsOf id ms + reportsOf id ms' := by
  unfold reportsOf
  rw [List.filterMap_append, List.count_append]

/-- The reports of a thread are counted message by message. -/
lemma reportsOf_cons (id : ThreadId) (m : EngineMsg) (ms : List EngineMsg) :
    reportsOf id (m :: ms) = reportsOf id [m] + reportsOf id ms :=
  reportsOf_append id [m] ms

/-- One message is one report of the thread, or none. -/
lemma reportsOf_singleton (id : ThreadId) (m : EngineMsg) :
    reportsOf id [m] = if m.report? = some id then 1 else 0 := by
  cases hm : m.report? with
  | none => simp [reportsOf, hm]
  | some id' => simp [reportsOf, hm, List.count_singleton]

/-- The report of one thread is not counted for another. -/
lemma reportsOf_threadClosed (id id' : ThreadId) :
    reportsOf id [.threadClosed id'] = if id = id' then 1 else 0 := by
  rw [reportsOf_singleton]
  simp only [EngineMsg.report?, Option.some.injEq, eq_comm]

/-- Messages that are not reports count for no thread. -/
lemma reportsOf_eq_zero {ms : List EngineMsg} (h : ∀ m ∈ ms, m.report? = none) (id : ThreadId) :
    reportsOf id ms = 0 := by
  unfold reportsOf
  rw [List.filterMap_eq_nil_iff.2 h]
  rfl

/-- Extensions cannot report the end of a thread. -/
lemma EngineMsg.IsWish.report? {m : EngineMsg} (h : m.IsWish) : m.report? = none := by
  cases m with
  | created | threadClosed => exact h.elim
  | route | close => rfl

/-! ## One thread -/

/-- How the handle of a thread, its worker, and how often it has been heard of and will be, fit
together. Numbers from `next` on have not been given yet. -/
def Accounts (next heard waiting : Nat) (id : ThreadId) : Option Thread → Option Worker → Prop
  | none, none => waiting = 0 ∧ (next ≤ id.number → heard = 0)
  | none, some w =>
    id.number < next ∧ w.stage = .ended ∧ w.hungUp = true ∧ heard = 1 ∧ waiting = 0
  | some t, none => t.wired = false ∧ heard = 0 ∧ waiting = if t.state = .closing then 1 else 0
  | some t, some w =>
    t.wired = true ∧ w.hungUp = false ∧ heard = 0 ∧ waiting = if w.stage = .ended then 1 else 0

/-- What has been written to a worker does not matter. -/
lemma accounts_quiet {next heard waiting : Nat} {id : ThreadId} {t : Option Thread}
    {w : Option Worker} :
    Accounts next heard waiting id t (w.map Worker.quiet) ↔ Accounts next heard waiting id t w := by
  cases t <;> cases w <;> rfl

/-- Giving more numbers changes nothing for those that have been given.

**Proof sketch.** A larger number of threads only makes it easier for a known number to have been
given, and harder for an unknown one not to have been. -/
lemma Accounts.mono {next next' heard waiting : Nat} {id : ThreadId} {t : Option Thread}
    {w : Option Worker} (h : Accounts next heard waiting id t w) (hn : next ≤ next') :
    Accounts next' heard waiting id t w := by
  cases t with
  | some t =>
    cases w with
    | none => exact h
    | some w => exact h
  | none =>
    cases w with
    | none =>
      obtain ⟨hz, hheard⟩ := h
      exact ⟨hz, fun hle => hheard (Nat.le_trans hn hle)⟩
    | some w =>
      obtain ⟨hlt, hrest⟩ := h
      exact ⟨Nat.lt_of_lt_of_le hlt hn, hrest⟩

/-- Only listed threads are about to be heard of. -/
lemma Accounts.listed {next heard waiting : Nat} {id : ThreadId} {t : Option Thread}
    {w : Option Worker} (h : Accounts next heard waiting id t w) (hw : 0 < waiting) :
    ∃ t', t = some t' := by
  cases t with
  | some t => exact ⟨t, rfl⟩
  | none =>
    cases w with
    | none =>
      obtain ⟨hz, -⟩ := h
      omega
    | some w =>
      obtain ⟨-, -, -, -, hz⟩ := h
      omega

/-- A handle without a thread has no worker, and has reported in its place if it closes. -/
lemma Accounts.of_unwired {next heard waiting : Nat} {id : ThreadId} {t : Thread}
    {w : Option Worker} (h : Accounts next heard waiting id (some t) w) (ht : t.wired = false) :
    w = none ∧ heard = 0 ∧ waiting = if t.state = .closing then 1 else 0 := by
  cases w with
  | none => exact ⟨rfl, h.2⟩
  | some w =>
    have hwired := h.1
    rw [ht] at hwired
    cases hwired

/-- A handle with a thread has its worker, which has reported if it has ended. -/
lemma Accounts.of_wired {next heard waiting : Nat} {id : ThreadId} {t : Thread}
    {w : Option Worker} (h : Accounts next heard waiting id (some t) w) (ht : t.wired = true) :
    ∃ w', w = some w' ∧ w'.hungUp = false ∧ heard = 0 ∧
      waiting = if w'.stage = .ended then 1 else 0 := by
  cases w with
  | some w => exact ⟨w, rfl, h.2⟩
  | none =>
    have hwired := h.1
    rw [ht] at hwired
    cases hwired

/-- A worker that has not ended is listed. -/
lemma Accounts.listed_of_worker {next heard waiting : Nat} {id : ThreadId} {t : Option Thread}
    {w : Worker} (h : Accounts next heard waiting id t (some w)) (hw : w.stage ≠ .ended) :
    ∃ t', t = some t' := by
  cases t with
  | some t => exact ⟨t, rfl⟩
  | none => exact absurd h.2.1 hw

/-! ## All threads -/

/-- What is known of all threads fits together: the handles of a context, the messages that its
engine has heard and those that wait for it, and the workers of its host. -/
def Ledger (c : Context) (heard waiting : List EngineMsg) (ws : List Worker) : Prop :=
  ∀ id, Accounts c.nextThread (reportsOf id heard) (reportsOf id waiting) id (c.handle? id)
    (atKey? Worker.id ws id)

namespace Ledger

variable {c : Context} {heard waiting : List EngineMsg} {ws : List Worker}

/-- A worker is found by its number whatever is in its inbox. -/
lemma atKey?_quiet (ws : List Worker) (id : ThreadId) :
    atKey? Worker.id (ws.map Worker.quiet) id = (atKey? Worker.id ws id).map Worker.quiet :=
  atKey?_map fun _ _ => rfl

/-- What has been written to the workers does not matter. -/
lemma quiet_iff : Ledger c heard waiting (ws.map Worker.quiet) ↔ Ledger c heard waiting ws := by
  unfold Ledger
  refine forall_congr' fun id => ?_
  rw [atKey?_quiet]
  exact accounts_quiet

/-- The ledger does not look into inboxes. -/
lemma of_quiet {ws' : List Worker} (h : Ledger c heard waiting ws)
    (hq : ws'.map Worker.quiet = ws.map Worker.quiet) : Ledger c heard waiting ws' := by
  rw [← quiet_iff, hq, quiet_iff]
  exact h

/-- The engine hears a message that reports nothing. -/
lemma hear {m : EngineMsg} (h : Ledger c heard (m :: waiting) ws) (hm : m.report? = none) :
    Ledger c (heard ++ [m]) waiting ws := by
  intro id
  have hz : reportsOf id [m] = 0 := reportsOf_eq_zero (by simpa using hm) id
  have hid := h id
  rw [reportsOf_cons, hz, Nat.zero_add] at hid
  rw [reportsOf_append, hz, Nat.add_zero]
  exact hid

/-- Messages that report nothing are posted. -/
lemma post {ms : List EngineMsg} (h : Ledger c heard waiting ws)
    (hms : ∀ m ∈ ms, m.report? = none) : Ledger c heard (waiting ++ ms) ws := by
  intro id
  rw [reportsOf_append, reportsOf_eq_zero hms, Nat.add_zero]
  exact h id

/-- A number that has not been given is not known.

**Proof sketch.** All listed handles and all workers have numbers that have been given. Under any
other number nothing is accounted for but reports, and of these there are none. -/
lemma fresh (h : Ledger c heard waiting ws) (ht : c.Tidy) (id : ThreadId)
    (hid : c.nextThread ≤ id.number) :
    c.handle? id = none ∧ atKey? Worker.id ws id = none ∧ reportsOf id heard = 0 ∧
      reportsOf id waiting = 0 := by
  have hnone : c.handle? id = none := by
    rw [Context.handle?, atKey?_eq_none_iff]
    intro t hm heq
    have hlt := ht.idsBelow t hm
    rw [heq] at hlt
    omega
  have hacc := h id
  rw [hnone] at hacc
  cases hw : atKey? Worker.id ws id with
  | none =>
    rw [hw] at hacc
    exact ⟨hnone, rfl, hacc.2 hid, hacc.1⟩
  | some w =>
    rw [hw] at hacc
    have hlt := hacc.1
    omega

/-! ### Groups that come -/

/-- A new handle is waited for if it has been closed at once, in which case it has reported.

**Proof sketch.** The number of the new handle has not been used before, so its account starts at
zero, and nothing changes in any other account. It has no worker; if it has been closed at once, the
report that it owes is posted. -/
lemma withThread (h : Ledger c heard waiting ws) (ht : c.Tidy) {t : Thread} {c' : Context}
    (hid : t.id = ⟨c.nextThread⟩) (hwired : t.wired = false)
    (hthreads : c'.threads = c.threads ++ [t]) (hnext : c'.nextThread = c.nextThread + 1)
    {ms : List EngineMsg}
    (hms : ms = if t.state = .closing then [.threadClosed t.id] else []) :
    Ledger c' heard (waiting ++ ms) ws := by
  intro id
  have hhandle : c'.handle? id = if id = t.id then some t else c.handle? id := by
    rw [Context.handle?, hthreads, atKey?_concat _ _ fun u hu => ?_]
    · rfl
    · intro heq
      have hlt := ht.idsBelow u hu
      rw [heq, hid] at hlt
      exact Nat.lt_irrefl _ hlt
  have hreports : reportsOf id ms = if id = t.id ∧ t.state = .closing then 1 else 0 := by
    rw [hms]
    by_cases hs : t.state = .closing
    · rw [if_pos hs, reportsOf_threadClosed]
      simp [hs]
    · rw [if_neg hs, if_neg fun h => hs h.2]
      rfl
  rw [hhandle, hnext]
  by_cases heq : id = t.id
  · obtain ⟨-, hworker, hheard, hwaiting⟩ :=
      h.fresh ht id (Nat.le_of_eq (by rw [heq, hid]))
    rw [if_pos heq, hworker, hheard, reportsOf_append, hwaiting, hreports]
    refine ⟨hwired, rfl, ?_⟩
    simp [heq]
  · have hsame : reportsOf id (waiting ++ ms) = reportsOf id waiting := by
      rw [reportsOf_append, hreports, if_neg (by simp [heq]), Nat.add_zero]
    rw [if_neg heq, hsame]
    exact (h id).mono (Nat.le_succ _)

/-! ### Handles that change -/

/-- Changes to the handles that leave them unstarted or started, and closed or not, do not
matter.

**Proof sketch.** The account of a number reads from its handle only whether it was started and
whether it is closing. -/
lemma map {f : Thread → Thread} {c' : Context} (h : Ledger c heard waiting ws)
    (hf : ∀ t, (f t).id = t.id ∧ (f t).wired = t.wired ∧ (f t).state = t.state)
    (hthreads : c'.threads = c.threads.map f) (hnext : c'.nextThread = c.nextThread) :
    Ledger c' heard waiting ws := by
  intro id
  have hhandle : c'.handle? id = (c.handle? id).map f := by
    rw [Context.handle?, hthreads]
    exact atKey?_map fun t _ => (hf t).1
  have hacc := h id
  rw [hhandle, hnext]
  cases ht : c.handle? id with
  | none =>
    rw [ht] at hacc
    exact hacc
  | some t =>
    obtain ⟨-, hwired, hstate⟩ := hf t
    rw [ht] at hacc
    cases hw : atKey? Worker.id ws id with
    | none =>
      rw [hw] at hacc
      obtain ⟨hu, hheard, hwait⟩ := hacc
      exact ⟨hwired.trans hu, hheard, by rw [hstate]; exact hwait⟩
    | some w =>
      rw [hw] at hacc
      obtain ⟨hu, hrest⟩ := hacc
      exact ⟨hwired.trans hu, hrest⟩

/-- Several handles with numbers of their own post what reports their own ends at most.

**Proof sketch.** By induction over the handles. Only the one with the number in question reports
it, and no two have the same number. -/
lemma reportsOf_flatMap {f : Thread → List EngineMsg}
    (hf : ∀ t id, id ≠ t.id → reportsOf id (f t) = 0) {ts : List Thread}
    (hnd : (ts.map (·.id)).Nodup) (id : ThreadId) :
    reportsOf id (ts.flatMap f) =
      match atKey? Thread.id ts id with
      | some t => reportsOf id (f t)
      | none => 0 := by
  induction ts with
  | nil => rfl
  | cons t ts ih =>
    rw [List.map_cons, List.nodup_cons] at hnd
    rw [List.flatMap_cons, reportsOf_append, ih hnd.2, atKey?_cons]
    by_cases ht : t.id = id
    · have hnone : atKey? Thread.id ts id = none := by
        rw [atKey?_eq_none_iff]
        intro u hu heq
        exact hnd.1 (List.mem_map.2 ⟨u, hu, heq.trans ht.symm⟩)
      rw [hnone, if_pos ht]
      rfl
    · rw [if_neg ht, hf t id (Ne.symm ht), Nat.zero_add]

/-- What a handle posts when it is closed. -/
lemma close_posted (t : Thread) :
    ∀ m ∈ t.close.2.filterMap Effect.posted?, m = .threadClosed t.id := by
  intro m hm
  obtain ⟨x, hx, hp⟩ := List.mem_filterMap.1 hm
  rcases t.close_effects x hx with rfl | rfl | ⟨event, rfl⟩
  · cases hp
  · cases hp
    rfl
  · cases hp

/-- In an open graph a handle works, or there is no thread to it. -/
lemma idle_or_working (ht : c.Tidy) (ho : c.IsOpen) {t : Thread} (hm : t ∈ c.threads) :
    t.Idle ∨ t.Working := by
  have hf := ht.fits t hm
  cases hp : c.phase with
  | init =>
    rw [hp] at hf
    exact hf.elim
  | starting =>
    rw [hp] at hf
    exact .inl (Thread.Waiting.toIdle hf)
  | running =>
    rw [hp] at hf
    exact hf
  | closing => exact absurd hp ho.1
  | closed => exact absurd hp ho.2

/-- Closing a graph posts the reports of those threads only that are listed, each by its own
handle.

**Proof sketch.** Closing the graph closes each handle on its own, and a handle posts at most its
own report. -/
lemma reportsOf_close (ht : c.Tidy) (ho : c.IsOpen) (hn : c.threads ≠ []) (id : ThreadId) :
    reportsOf id (c.close.2.filterMap Effect.posted?) =
      match c.handle? id with
      | some t => reportsOf id (t.close.2.filterMap Effect.posted?)
      | none => 0 := by
  rw [c.close_eq_of_nonempty ho hn]
  show reportsOf id ((c.threads.flatMap fun t => t.close.2).filterMap Effect.posted?) = _
  rw [List.filterMap_flatMap]
  refine reportsOf_flatMap (fun t id hne => ?_) ht.idsNodup id
  unfold reportsOf
  rw [List.count_eq_zero]
  intro hm
  obtain ⟨m, hm, hr⟩ := List.mem_filterMap.1 hm
  rw [close_posted t m hm] at hr
  exact hne (Option.some.inj hr).symm

/-- A graph that begins to close reports the threads that were never started in their place.

**Proof sketch.** A handle without a thread has no worker and posts its report at once, whether it
still waits for its start or its thread was refused; a handle that works only writes to its
thread. -/
lemma close (h : Ledger c heard waiting ws) (ht : c.Tidy) (ho : c.IsOpen) :
    Ledger c.close.1 heard (waiting ++ c.close.2.filterMap Effect.posted?) ws := by
  by_cases hn : c.threads = []
  · have hposted : c.close.2.filterMap Effect.posted? = [] := by
      rw [c.close_eq_concluded ho hn, List.filterMap_eq_nil_iff]
      exact fun x hx => (Context.concluded_mild _ x hx).2.1
    rw [hposted, List.append_nil, c.close_eq_concluded ho hn]
    exact h
  intro id
  have hhandle : c.close.1.handle? id = (c.handle? id).map fun t => t.close.1 := by
    rw [c.close_eq_of_nonempty ho hn]
    exact atKey?_map fun t _ => t.close_fst_id
  have hacc := h id
  rw [reportsOf_append, reportsOf_close ht ho hn, hhandle, c.close_nextThread]
  cases hth : c.handle? id with
  | none =>
    rw [hth] at hacc
    exact hacc
  | some t =>
    obtain ⟨hm, hid⟩ := ht.handle?_eq_some_iff.1 hth
    rw [hth] at hacc
    show Accounts _ _ (reportsOf id waiting + reportsOf id (t.close.2.filterMap Effect.posted?)) id
      (some t.close.1) _
    -- A handle without a thread has no worker, and a handle that works has one.
    rcases idle_or_working ht ho hm with hw | hw
    · obtain ⟨hnone, hheard, hwait⟩ := hacc.of_unwired hw.wired
      rw [hw.state] at hwait
      rw [hnone, hw.close]
      refine ⟨hw.wired, hheard, ?_⟩
      show reportsOf id waiting + reportsOf id [.threadClosed t.id] = 1
      rw [hwait, hid, reportsOf_threadClosed]
      simp
    · obtain ⟨w, hwk, haccount⟩ := hacc.of_wired hw.wired
      rw [hwk, hw.close]
      exact ⟨hw.wired, haccount⟩

/-- The threads of a graph that is ready have workers from now on, apart from those that were
refused: their handles stay without a thread.

**Proof sketch.** No handle had a worker before, so the workers of a number are those that are
started now, and the number is among theirs exactly if its handle has a thread now. -/
lemma startThreads {c' : Context} {started : List Worker} (h : Ledger c heard waiting ws)
    (hunwired : ∀ t ∈ c.threads, t.wired = false ∧ t.state ≠ .closing)
    (hnd : (c.threads.map (·.id)).Nodup)
    (hids : c'.threads.map (·.id) = c.threads.map (·.id))
    (hopen : ∀ t ∈ c'.threads, t.state ≠ .closing) (hnext : c'.nextThread = c.nextThread)
    (hstarted : started.map (·.id) = (c'.threads.filter (·.wired)).map (·.id))
    (hfresh : ∀ w ∈ started, w.stage ≠ .ended ∧ w.hungUp = false) :
    Ledger c' heard waiting (ws ++ started) := by
  intro id
  have hacc := h id
  have hnd' : (c'.threads.map (·.id)).Nodup := hids ▸ hnd
  rw [atKey?_append, hnext]
  have hsome : (c'.handle? id).isSome ↔ (c.handle? id).isSome := by
    rw [Context.handle?, Context.handle?, isSome_atKey?_iff, isSome_atKey?_iff, hids]
  -- A number has a new worker exactly if its handle has a thread now.
  have hstarted? : (atKey? Worker.id started id).isSome ↔
      ∃ t, c'.handle? id = some t ∧ t.wired = true := by
    rw [isSome_atKey?_iff, hstarted]
    simp only [List.mem_map, List.mem_filter]
    constructor
    · rintro ⟨t, ⟨hm, hw⟩, rfl⟩
      exact ⟨t, atKey?_of_mem hnd' hm, hw⟩
    · rintro ⟨t, ht, hw⟩
      exact ⟨t, ⟨mem_of_atKey? ht, hw⟩, key_of_atKey? ht⟩
  cases hth : c.handle? id with
  | none =>
    rw [hth] at hacc hsome
    have hnone : c'.handle? id = none := by simpa using hsome
    have hnone' : atKey? Worker.id started id = none := by
      rw [← Option.not_isSome_iff_eq_none, hstarted?, hnone]
      simp
    rw [hnone, hnone', Option.or_none]
    exact hacc
  | some t =>
    obtain ⟨hu, hclosing⟩ := hunwired t (mem_of_atKey? hth)
    rw [hth] at hacc hsome
    obtain ⟨t', ht'⟩ := Option.isSome_iff_exists.1 (hsome.2 rfl)
    obtain ⟨hnone, hheard, hwait⟩ := hacc.of_unwired hu
    rw [if_neg hclosing] at hwait
    rw [ht', hnone, Option.none_or]
    cases hw : atKey? Worker.id started id with
    | some w =>
      obtain ⟨t'', ht'', hwired⟩ := hstarted?.1 (by rw [hw]; rfl)
      obtain rfl : t' = t'' := Option.some.inj (ht'.symm.trans ht'')
      obtain ⟨hended, hhung⟩ := hfresh w (mem_of_atKey? hw)
      refine ⟨hwired, hhung, hheard, ?_⟩
      rw [if_neg hended]
      exact hwait
    | none =>
      have hwired : t'.wired = false := by
        by_contra hne
        have hs := hstarted?.2 ⟨t', ht', by simpa using hne⟩
        rw [hw] at hs
        cases hs
      refine ⟨hwired, hheard, ?_⟩
      rw [if_neg (hopen t' (mem_of_atKey? ht'))]
      exact hwait

/-! ### Reports that are heard -/

/-- A handle that is taken off the list is not found any more, and the others are. -/
lemma handle?_release {c' : Context} (ht : c.Tidy) {id : ThreadId}
    (hthreads : c'.threads = (c.release id).threads) (id' : ThreadId) :
    c'.handle? id' = if id' = id then none else c.handle? id' := by
  rw [Context.handle?, hthreads]
  exact atKey?_eraseP ht.idsNodup id id'

/-- A report that arrives was about a listed thread. -/
lemma listed {id : ThreadId} (h : Ledger c heard (.threadClosed id :: waiting) ws) :
    ∃ t, c.handle? id = some t := by
  refine (h id).listed ?_
  rw [reportsOf_cons, reportsOf_threadClosed, if_pos rfl]
  omega

/-- A thread that was never started is taken off the list.

**Proof sketch.** The account of the thread says that it never had a worker, and that the one report
that it owed is the one at the front of the mailbox. Taking the report up moves it from those that
wait to those that were heard. -/
lemma unlist {c' : Context} {t : Thread} (h : Ledger c heard (.threadClosed t.id :: waiting) ws)
    (ht : c.Tidy) (hth : c.handle? t.id = some t) (hwired : t.wired = false)
    (hthreads : c'.threads = (c.release t.id).threads) (hnext : c'.nextThread = c.nextThread) :
    Ledger c' (heard ++ [.threadClosed t.id]) waiting ws := by
  intro id
  have hacc := h id
  rw [reportsOf_cons, reportsOf_threadClosed] at hacc
  rw [handle?_release ht hthreads, hnext, reportsOf_append, reportsOf_threadClosed]
  by_cases hid : id = t.id
  · rw [if_pos hid]
    rw [if_pos hid, hid, hth] at hacc
    rw [if_pos hid, hid]
    have hlt := ht.idsBelow t (mem_of_atKey? hth)
    obtain ⟨hnone, -, hwait⟩ := hacc.of_unwired hwired
    rw [hnone]
    refine ⟨?_, fun hle => ?_⟩
    · split at hwait
      · omega
      · omega
    · omega
  · rw [if_neg hid, if_neg hid, Nat.add_zero]
    rw [if_neg hid, Nat.zero_add] at hacc
    exact hacc

/-- A thread that has ended is taken off the list and waited for.

**Proof sketch.** A report waits, so the account says that the worker has ended, and that this is
its only one. Waiting for the worker hangs it up. -/
lemma unlist_joined {c' : Context} {t : Thread} {w : Worker} {place : Nat}
    (h : Ledger c heard (.threadClosed t.id :: waiting) ws) (ht : c.Tidy)
    (hth : c.handle? t.id = some t) (hnd : (ws.map (·.id)).Nodup) (hw : ws[place]? = some w)
    (hid : w.id = t.id) (hthreads : c'.threads = (c.release t.id).threads)
    (hnext : c'.nextThread = c.nextThread) :
    Ledger c' (heard ++ [.threadClosed t.id]) waiting (ws.set place { w with hungUp := true }) := by
  intro id
  have hacc := h id
  have hset : atKey? Worker.id (ws.set place { w with hungUp := true }) id =
      if id = w.id then some { w with hungUp := true } else atKey? Worker.id ws id :=
    atKey?_set hnd hw rfl
  rw [reportsOf_cons, reportsOf_threadClosed] at hacc
  rw [handle?_release ht hthreads, hnext, reportsOf_append, reportsOf_threadClosed, hset, hid]
  by_cases he : id = t.id
  · have hwk : atKey? Worker.id ws t.id = some w := by
      rw [← hid]
      exact atKey?_of_mem hnd (List.mem_of_getElem? hw)
    have hlt := ht.idsBelow t (mem_of_atKey? hth)
    rw [if_pos he, he, hth, hwk] at hacc
    rw [if_pos he, if_pos he, if_pos he, he]
    obtain ⟨-, -, hheard, hwait⟩ := hacc
    have hended : w.stage = .ended := by
      by_contra hne
      rw [if_neg hne] at hwait
      omega
    rw [if_pos hended] at hwait
    exact ⟨hlt, hended, rfl, by omega, by omega⟩
  · rw [if_neg he, if_neg he, if_neg he, Nat.add_zero]
    rw [if_neg he, Nat.zero_add] at hacc
    exact hacc

/-! ### Workers that make a step -/

/-- A worker that has not ended makes a step, and reports if it ends by that.

**Proof sketch.** Only the account of this worker changes. It has not ended and its report is not
there yet; both change together, or neither does. -/
lemma setWorker {w w' : Worker} {place : Nat} {ms : List EngineMsg}
    (h : Ledger c heard waiting ws) (hnd : (ws.map (·.id)).Nodup) (hw : ws[place]? = some w)
    (hid : w'.id = w.id) (hhung : w'.hungUp = w.hungUp) (hended : w.stage ≠ .ended)
    (hms : reportsOf w.id ms = if w'.stage = .ended then 1 else 0)
    (hother : ∀ id, id ≠ w.id → reportsOf id ms = 0) :
    Ledger c heard (waiting ++ ms) (ws.set place w') := by
  intro id
  have hacc := h id
  rw [atKey?_set (k := id) hnd hw hid, reportsOf_append]
  by_cases he : id = w.id
  · have hwk : atKey? Worker.id ws w.id = some w := atKey?_of_mem hnd (List.mem_of_getElem? hw)
    rw [he, hwk] at hacc
    rw [if_pos he, he, hms]
    obtain ⟨t, hth⟩ := hacc.listed_of_worker hended
    rw [hth] at hacc ⊢
    obtain ⟨hwired, hu, hheard, hwait⟩ := hacc
    rw [if_neg hended] at hwait
    refine ⟨hwired, hhung.trans hu, hheard, ?_⟩
    rw [hwait, Nat.zero_add]
  · rw [if_neg he, hother id he, Nat.add_zero]
    exact hacc

end Ledger

end ExtensionGraph
