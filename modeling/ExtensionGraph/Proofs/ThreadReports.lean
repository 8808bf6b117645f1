import ExtensionGraph.Proofs.StartedGroups

/-!
# Which threads report their end

A graph that closes waits for the reports of its threads. A thread reports when it has taken its
extensions down, and also when it cannot even begin, but not when one of its extensions, or an
addon that is to create one, takes it down: then it is gone without a word. As long as there is an
engine to report to, this is the only exception. It has consequences, since a handle that cannot
write to its thread any more takes the report for posted. If the thread has crashed, none comes, and
the graph waits for ever.

## Main definitions

* `ExtensionGraph.Engine.ReportsUnlessCrashed` — what can be said of the reports of threads.

## Main results

* `ExtensionGraph.Engine.reports_unless_crashed` — this, at any time of any run.
* `ExtensionGraph.Engine.crash_not_reported` — a thread that is gone and never heard of.
-/

namespace ExtensionGraph

namespace Host

/-- A thread is heard by its worker, if that takes messages. -/
lemma hears_eq (h : Host) (hnd : (h.workers.map (·.id)).Nodup) {w : Worker} (hw : w ∈ h.workers) :
    h.hears w.id = w.isReceiving := by
  obtain ⟨place, hp⟩ := h.exists_place? hw
  obtain ⟨w', hw', hid⟩ := h.exists_of_place? hp
  obtain rfl : w' = w := List.inj_on_of_nodup_map hnd (List.mem_of_getElem? hw') hw hid
  unfold hears
  rw [hp, Option.bind_some, hw']

end Host

namespace Worker

/-- A worker is gone if it has ended or crashed. -/
lemma isGone_iff (w : Worker) : w.isGone = true ↔ w.stage = .ended ∨ w.stage = .crashed := by
  unfold isGone
  cases w.stage <;> simp

/-- A worker that is not gone has not ended. -/
lemma not_ended_of_not_gone {w : Worker} (h : w.isGone = false) : w.stage ≠ .ended := by
  intro hs
  rw [w.isGone_iff.2 (.inl hs)] at h
  cases h

/-- A worker that takes messages has not ended. -/
lemma not_ended_of_receiving {w : Worker} (h : w.isReceiving = true) : w.stage ≠ .ended := by
  intro hs
  rw [isReceiving_of_isGone (w.isGone_iff.2 (.inl hs))] at h
  cases h

/-- A worker that does not take messages, and has not been asked to end, is gone. -/
lemma Undisturbed.isGone {w : Worker} (h : w.Undisturbed) (hr : w.isReceiving = false) :
    w.isGone = true := by
  rw [isGone_iff]
  unfold isReceiving at hr
  cases hs : w.stage with
  | creating loss => simp [hs] at hr
  | opening => simp [hs] at hr
  | serving => simp [hs] at hr
  | stopping => exact absurd hs h.stopping
  | stopped => exact absurd hs h.stopped
  | ended => exact .inl rfl
  | crashed => exact .inr rfl

end Worker

namespace Engine

/-- What can be said of the reports of threads, those that the engine has heard and those that wait
in its mailbox. -/
structure ReportsUnlessCrashed (heard : List EngineMsg) (e : Engine) : Prop where
  /-- A thread that has ended has reported once. No other thread has reported. -/
  once : ∀ w ∈ e.host.workers,
    reportsOf w.id (heard ++ e.host.mailbox.messages) = if w.stage = .ended then 1 else 0
  /-- So a thread that is gone has reported once exactly if it has not crashed. -/
  gone : ∀ w ∈ e.host.workers, w.isGone = true →
    (reportsOf w.id (heard ++ e.host.mailbox.messages) = 1 ↔ w.stage ≠ .crashed)
  /-- If a running handle cannot write to its thread, the thread is gone, and its report is in the
  mailbox exactly if it has not crashed. -/
  unheard : ∀ t ∈ e.context.threads, t.state = .running → e.host.hears t.id = false →
    ∃ w ∈ e.host.workers, w.id = t.id ∧ w.isGone = true ∧
      (reportsOf t.id e.host.mailbox.messages = 1 ↔ w.stage ≠ .crashed)
  /-- A thread that has crashed is never taken off the list, and its graph is never closed. -/
  stuck : ∀ w ∈ e.host.workers, w.stage = .crashed → ∀ moves taken e',
    e.play moves = some (taken, e') →
      w.id ∈ e'.context.threads.map (·.id) ∧ e'.context.phase ≠ .closed

variable {e e' : Engine} {heard : List EngineMsg}

/-- As long as the engine is up, a worker has reported once if it has ended, and not otherwise.

**Proof sketch.** The ledger of the engine has an account for each number. That of a worker without
a handle is settled, and otherwise its report waits once it has ended. -/
lemma Sound.reports_once (h : e.Sound heard) (hup : ¬ e.IsDown) {w : Worker}
    (hw : w ∈ e.host.workers) :
    reportsOf w.id (heard ++ e.host.mailbox.messages) = if w.stage = .ended then 1 else 0 := by
  have hacc := h.ledger hup w.id
  rw [atKey?_of_mem h.idsNodup hw] at hacc
  rw [reportsOf_append]
  cases ht : e.context.handle? w.id with
  | none =>
    rw [ht] at hacc
    obtain ⟨-, hended, -, hheard, hwait⟩ := hacc
    rw [if_pos hended, hheard, hwait]
  | some t =>
    rw [ht] at hacc
    obtain ⟨-, -, hheard, hwait⟩ := hacc
    rw [hheard, hwait, Nat.zero_add]

/-- A handle that is running has a worker, which nobody has asked to end.

**Proof sketch.** A running handle means an open graph, where a handle is idle or at work; so it has
been started, and the ledger names its worker. On an open graph nobody has been asked to end. -/
lemma Sound.running (h : e.Sound heard) (hup : ¬ e.IsDown) {t : Thread}
    (ht : t ∈ e.context.threads) (hs : t.state = .running) :
    ∃ w ∈ e.host.workers, w.id = t.id ∧ w.Undisturbed ∧
      reportsOf t.id e.host.mailbox.messages = if w.stage = .ended then 1 else 0 := by
  have htidy := h.steady.context.toTidy
  have hopen : e.context.IsOpen := by
    have hfits := htidy.fits t ht
    refine ⟨fun hp => ?_, htidy.not_closed_of_mem ht⟩
    rw [hp] at hfits
    have hclosing : t.state = .closing := hfits
    rw [hs] at hclosing
    cases hclosing
  have hwired : t.wired = true := by
    rcases Ledger.idle_or_working htidy hopen ht with hw | hw
    · rw [hw.state] at hs
      cases hs
    · exact hw.wired
  have hacc := h.ledger hup t.id
  rw [htidy.handle?_eq_some_iff.2 ⟨ht, rfl⟩] at hacc
  obtain ⟨w, hw, hhung, -, hwait⟩ := hacc.of_wired hwired
  have hmem := mem_of_atKey? hw
  exact ⟨w, hmem, key_of_atKey? hw, h.peace hopen w hmem hhung, hwait⟩

/-- A thread that has crashed stays on the list for ever. -/
lemma Sound.stuck (h : e.Sound heard) (hup : ¬ e.IsDown) {w : Worker}
    (hw : w ∈ e.host.workers) (hc : w.stage = .crashed) {moves : List Move} {taken : List EngineMsg}
    (hp : e.play moves = some (taken, e')) :
    w.id ∈ e'.context.threads.map (·.id) ∧ e'.context.phase ≠ .closed := by
  have h' := h.play hp
  have hup' : ¬ e'.IsDown := h.not_isDown_of_working hup hw (by rw [hc]; simp) hp
  obtain ⟨w', hw', hev⟩ := play_later True hp (fun _ _ _ => trivial) w hw
  have hended : w'.stage ≠ .ended := by
    rw [hev.crashed hc]
    simp
  refine ⟨?_, h'.not_closed hw' hended⟩
  obtain ⟨t, ht⟩ := h'.exists_listed hup' hw' hended
  rw [← hev.id, ← key_of_atKey? ht]
  exact List.mem_map_of_mem (mem_of_atKey? ht)

/-- **Every thread that ends has reported, unless it has crashed.** This holds at any time of any
run, whatever the extensions and their addons do, and also for threads that fail to begin, as long
as the engine has not gone down itself: after that there is nobody to report to.

**Proof sketch.** A thread that is gone has ended or crashed, and has reported in the first case
only. A running handle that nobody hears belongs to a thread that is gone. -/
theorem reports_unless_crashed {link : Link} {moves : List Move} {taken : List EngineMsg}
    (hp : (start link).1.play moves = some (taken, e)) (hup : ¬ e.IsDown) :
    e.ReportsUnlessCrashed taken := by
  have hs := sound_of_play hp
  have hiff {w : Worker} (hg : w.isGone = true) :
      (if w.stage = .ended then 1 else 0) = 1 ↔ w.stage ≠ .crashed := by
    rcases w.isGone_iff.1 hg with hw | hw
    · simp [hw]
    · simp [hw]
  refine ⟨fun w hw => hs.reports_once hup hw, fun w hw hg => ?_, fun t ht hr hh => ?_,
    fun w hw hc moves taken e' hp' => hs.stuck hup hw hc hp'⟩
  · rw [hs.reports_once hup hw]
    exact hiff hg
  · obtain ⟨w, hw, hid, hu, hwait⟩ := hs.running hup ht hr
    rw [← hid, e.host.hears_eq hs.idsNodup hw] at hh
    have hg := hu.isGone hh
    refine ⟨w, hw, hid, hg, ?_⟩
    rw [hwait]
    exact hiff hg

/-- The extension that takes its thread down when it is called. -/
def crashing : Extension := ⟨.null, fun _ _ _ => .crash⟩

/-- The run of a graph with this extension up to its first call. -/
def crashRun : List Move := [.complete 0, .handle, .work 0, .work 0]

/-- A thread that is gone and has not reported, while its handle is running and cannot write to it
any more. -/
theorem crash_not_reported :
    ∃ taken e, (start (oneExtension crashing)).1.play crashRun = some (taken, e) ∧
      ∃ t ∈ e.context.threads, ∃ w ∈ e.host.workers, w.id = t.id ∧ t.state = .running ∧
        e.host.hears t.id = false ∧ w.isGone = true ∧
        reportsOf w.id (taken ++ e.host.mailbox.messages) = 0 := by
  have hrun : ((start (oneExtension crashing)).1.play crashRun).map (fun r =>
      (r.2.context.threads.map fun t => (t.id, t.state, r.2.host.hears t.id),
        r.2.host.workers.map fun w => (w.id, w.isGone),
        reportsOf ⟨1⟩ (r.1 ++ r.2.host.mailbox.messages))) =
      some ([(⟨1⟩, .running, false)], [(⟨1⟩, true)], 0) := by rfl
  obtain ⟨⟨taken, e⟩, hp, hsum⟩ := Option.map_eq_some_iff.1 hrun
  simp only [Prod.mk.injEq] at hsum
  obtain ⟨hthreads, hworkers, hreports⟩ := hsum
  obtain ⟨t, ht, htsum⟩ := List.map_eq_singleton_iff.1 hthreads
  obtain ⟨w, hw, hwsum⟩ := List.map_eq_singleton_iff.1 hworkers
  simp only [Prod.mk.injEq] at htsum hwsum
  obtain ⟨hid, hstate, hhears⟩ := htsum
  obtain ⟨hwid, hgone⟩ := hwsum
  refine ⟨taken, e, hp, t, ?_, w, ?_, hwid.trans hid.symm, hstate, hhears, hgone, ?_⟩
  · rw [ht]
    exact List.mem_singleton_self t
  · rw [hw]
    exact List.mem_singleton_self w
  · rw [hwid]
    exact hreports

/-- The graph of this extension is never closed. -/
theorem reports_unless_crashed_crashRun :
    ∃ taken e, (start (oneExtension crashing)).1.play crashRun = some (taken, e) ∧
      ∀ moves taken' e', e.play moves = some (taken', e') → e'.context.phase ≠ .closed := by
  have hrun : ((start (oneExtension crashing)).1.play crashRun).map (fun r =>
      (r.2.host.workers.map (·.stage), r.2.host.mailbox.listening)) = some ([.crashed], true) := by
    rfl
  obtain ⟨⟨taken, e⟩, hp, hsum⟩ := Option.map_eq_some_iff.1 hrun
  simp only [Prod.mk.injEq] at hsum
  obtain ⟨hstages, hlistening⟩ := hsum
  have hup := not_isDown_of_listening hlistening
  obtain ⟨w, hw, hstage⟩ := List.map_eq_singleton_iff.1 hstages
  have hmem : w ∈ e.host.workers := by
    rw [hw]
    exact List.mem_singleton_self w
  refine ⟨taken, e, hp, fun moves taken' e' hp' => ?_⟩
  exact ((reports_unless_crashed hp hup).stuck w hmem hstage moves taken' e' hp').2

end Engine

end ExtensionGraph
