import ExtensionGraph.Proofs.Ledger

/-!
# One report for every handle

An engine that closes counts the reports of its threads, and a thread is reported from two sides:
by itself when it ends, and by its handle if that is closed before it was started. Here a handle
and its thread are taken on their own. The calls of the handle and the steps of the thread come in
any order; the rest of the program shows in the mailbox of the engine only, which may be exchanged
for any other between two moves. However they move, there is one thread at most and one report at
most.

## Main definitions

* `ExtensionGraph.Host.Advances` — what a host does without a start and without a report of a
  handle.
* `ExtensionGraph.Tandem` — a handle and its thread, with a history of what they have done.
* `ExtensionGraph.Tandem.Move`, `ExtensionGraph.Tandem.play` — what they can do, in any order.
* `ExtensionGraph.Tandem.OneReport` — one thread at most, and one report at most.

## Main results

* `ExtensionGraph.Tandem.InOrder.turn` — a move keeps a handle and its thread in order.
* `ExtensionGraph.Tandem.play_reports_once` — they start one thread and report once at most,
  whatever is done with them.

## Design

Neither the handle nor its thread keeps a record of what it has posted: the history does. It notes
who has posted what, the calls that have changed the handle, and whether the engine has ever been
deaf. No move depends on it. A start that panics leaves the engine deaf; what the rest of the
program does then shows in the mailbox of the next move.
-/

namespace ExtensionGraph

/-- What has come into a mailbox by posting. -/
def Mailbox.gained {α : Type} (before after : Mailbox α) : List α :=
  after.messages.drop before.messages.length

/-- A mailbox gains what is posted, as long as somebody listens. -/
lemma Mailbox.gained_postAll {α : Type} (m : Mailbox α) (as : List α) :
    m.gained (m.postAll as) = if m.listening then as else [] := by
  rw [gained, postAll_messages, List.drop_left]

/-! ## Threads that go on -/

namespace Worker

/-- Whether the thread has ended. -/
def hasEnded (w : Worker) : Bool := w.stage = .ended

/-- A worker has gone on to another state. It has reported its end exactly if it has ended
meanwhile. -/
structure GoesTo (engine : Mailbox EngineMsg) (w : Worker) (engine' : Mailbox EngineMsg)
    (w' : Worker) : Prop where
  id : w'.id = w.id
  sound : w'.Sound
  reports : ∃ ms, engine' = engine.postAll ms ∧
    w'.hasEnded.toNat = w.hasEnded.toNat + reportsOf w.id ms

variable {w w' w'' : Worker} {engine engine' engine'' : Mailbox EngineMsg}

/-- Two parts of a course are one. -/
lemma GoesTo.trans (h : GoesTo engine w engine' w') (h' : GoesTo engine' w' engine'' w'') :
    GoesTo engine w engine'' w'' := by
  obtain ⟨ms, rfl, hms⟩ := h.reports
  obtain ⟨ms', rfl, hms'⟩ := h'.reports
  refine ⟨h'.id.trans h.id, h'.sound, ms ++ ms', (Mailbox.postAll_append _ _ _).symm, ?_⟩
  rw [h.id] at hms'
  rw [hms', hms, reportsOf_append, Nat.add_assoc]

/-- A worker that keeps its stage has gone on without a report. -/
lemma goesTo_of_stage (ms : List EngineMsg) (hid : w'.id = w.id) (hsound : w'.Sound)
    (hstage : w'.stage = w.stage) (hms : ∀ m ∈ ms, m.IsWish) :
    GoesTo engine w (engine.postAll ms) w' := by
  refine ⟨hid, hsound, ms, rfl, ?_⟩
  rw [reportsOf_eq_zero (fun m hm => (hms m hm).report?), hasEnded, hasEnded, hstage, Nat.add_zero]

/-- A worker that has not ended ends, and reports it. -/
lemma goesTo_of_ended (hid : w'.id = w.id) (hsound : w'.Sound) (hw : w.stage ≠ .ended)
    (hw' : w'.stage = .ended) : GoesTo engine w (engine.post (.threadClosed w.id)) w' := by
  refine ⟨hid, hsound, [.threadClosed w.id], rfl, ?_⟩
  rw [reportsOf_threadClosed, if_pos rfl, hasEnded, hasEnded, decide_eq_false hw,
    decide_eq_true hw']
  rfl

/-- A worker that does nothing. -/
lemma Sound.goesTo_self (h : w.Sound) : GoesTo engine w engine w :=
  goesTo_of_stage [] rfl h rfl (by simp)

/-- A worker that takes a step. -/
lemma Sound.goesTo_step? (h : w.Sound) (hs : w.step? engine = some (engine', w')) :
    GoesTo engine w engine' w' := by
  have hsteps := steps_of_step? hs
  obtain ⟨⟨hid, -, -⟩, hgone, hout⟩ := h.outcome hsteps
  have hne : w.stage ≠ .ended := by
    intro he
    simp [isGone, he] at hgone
  rcases hout with ⟨hne', ms, hms, rfl⟩ | ⟨he, rfl⟩
  · refine ⟨hid, h.steps hsteps, ms, rfl, ?_⟩
    rw [reportsOf_eq_zero (fun m hm => (hms m hm).report?), hasEnded, hasEnded,
      decide_eq_false hne, decide_eq_false hne', Nat.add_zero]
  · exact goesTo_of_ended hid (h.steps hsteps) hne he

/-- A worker that runs until it rests. -/
lemma Sound.goesTo_run (h : w.Sound) : GoesTo engine w (w.run engine).1 (w.run engine).2 :=
  run_induction (P := GoesTo engine w) (fun hg hs => hg.trans (hg.sound.goesTo_step? hs))
    h.goesTo_self

/-- A worker whose ticker beats. -/
lemma Sound.goesTo_beat (h : w.Sound) (k : Nat) :
    GoesTo engine w (w.beat engine k).1 (w.beat engine k).2 := by
  obtain ⟨ho, ms, hms, hmail⟩ := onCourse_beat w engine k
  by_cases hk : k < w.tickers.length
  · rw [hmail]
    exact goesTo_of_stage ms ho.id (h.beat hk engine).1 ho.stage hms
  · have hnone : w.beat engine k = (engine, w) := by
      rw [Worker.beat, List.getElem?_eq_none (Nat.le_of_not_lt hk)]
    rw [hnone]
    exact h.goesTo_self

/-- A worker that gets no runtime ends with its report. -/
lemma goesTo_abort? {reason : String} (hs : w.abort? reason engine = some (engine', w')) :
    GoesTo engine w engine' w' := by
  obtain ⟨hfirst, rfl, hsound, hended, hid, -⟩ := abort?_eq hs
  refine goesTo_of_ended hid hsound (fun he => ?_) hended
  rw [he] at hfirst
  cases hfirst

end Worker

/-! ## Hosts that go on -/

/-- All workers have the given number, and are in order. -/
def Crew (id : ThreadId) (ws : List Worker) : Prop := ∀ w ∈ ws, w.id = id ∧ w.Sound

/-- An effect that neither starts a thread nor posts anything, and does not panic. -/
def Effect.IsPlain (x : Effect) : Prop := x.launch? = none ∧ x.posted? = none ∧ x ≠ .panic

namespace Host

/-- A host whose workers have the given number has gone on to another state without starting a
worker. Those of its workers that have ended meanwhile have reported it, and nobody else has. -/
structure Advances (id : ThreadId) (h h' : Host) : Prop where
  length : h'.workers.length = h.workers.length
  crew : Crew id h'.workers
  reports : ∃ ms, h'.mailbox = h.mailbox.postAll ms ∧
    h'.workers.countP Worker.hasEnded = h.workers.countP Worker.hasEnded + reportsOf id ms

variable {id : ThreadId} {h h' h'' : Host}

/-- Advancing twice is advancing. -/
lemma Advances.trans (ha : h.Advances id h') (ha' : h'.Advances id h'') : h.Advances id h'' := by
  obtain ⟨ms, hmail, hms⟩ := ha.reports
  obtain ⟨ms', hmail', hms'⟩ := ha'.reports
  refine ⟨ha'.length.trans ha.length, ha'.crew, ms ++ ms', ?_, ?_⟩
  · rw [hmail', hmail, Mailbox.postAll_append]
  · rw [hms', hms, reportsOf_append, Nat.add_assoc]

/-- Nothing has happened that concerns the workers or the mailbox. -/
lemma advances_of_eq (hc : Crew id h.workers) (hworkers : h'.workers = h.workers)
    (hmail : h'.mailbox = h.mailbox) : h.Advances id h' := by
  refine ⟨by rw [hworkers], by rw [hworkers]; exact hc, [], hmail, ?_⟩
  rw [hworkers]
  rfl

/-- One worker has gone on.

**Proof sketch.** A worker that goes on posts its report exactly if it has ended by that, so that
the number of workers that have ended grows by the number of reports. -/
lemma advances_set (hc : Crew id h.workers) {place : Nat} {w w' : Worker}
    {mailbox : Mailbox EngineMsg} (hw : h.workers[place]? = some w)
    (hg : Worker.GoesTo h.mailbox w mailbox w') :
    h.Advances id { h with mailbox, workers := h.workers.set place w' } := by
  obtain ⟨hlt, hget⟩ := List.getElem?_eq_some_iff.1 hw
  obtain ⟨hid, -⟩ := hc w (List.mem_of_getElem? hw)
  obtain ⟨ms, hmail, hms⟩ := hg.reports
  refine ⟨List.length_set, fun v hv => ?_, ms, hmail, ?_⟩
  · rcases List.mem_or_eq_of_mem_set hv with hv | rfl
    · exact hc v hv
    · exact ⟨hg.id.trans hid, hg.sound⟩
  · have hcount : w.hasEnded.toNat ≤ h.workers.countP Worker.hasEnded := by
      cases he : w.hasEnded with
      | false => exact Nat.zero_le _
      | true => exact List.countP_pos_iff.2 ⟨w, List.mem_of_getElem? hw, he⟩
    have htoNat (b : Bool) : (if b = true then 1 else 0) = b.toNat := by cases b <;> rfl
    show (h.workers.set place w').countP Worker.hasEnded = _
    rw [List.countP_set hlt, hget, htoNat, htoNat, hms, hid]
    omega

/-- Changing a worker without a step does not report anything.

**Proof sketch.** A change that keeps the number and the stage is a worker that goes on without
posting anything. -/
lemma advances_modify (hc : Crew id h.workers) (place : Nat) {f : Worker → Worker}
    (hf : ∀ w : Worker, w.Sound → (f w).id = w.id ∧ (f w).stage = w.stage ∧ (f w).Sound) :
    h.Advances id (h.modify place f) := by
  cases hw : h.workers[place]? with
  | none =>
    have heq : (h.modify place f).workers = h.workers := by
      show h.workers.modify place f = _
      rw [List.modify_eq_set_getElem?, hw]
      rfl
    exact advances_of_eq hc heq rfl
  | some w =>
    have heq : h.modify place f = { h with workers := h.workers.set place (f w) } := by
      show { h with workers := h.workers.modify place f } = _
      rw [List.modify_eq_set_getElem?, hw]
      rfl
    obtain ⟨-, hsound⟩ := hc w (List.mem_of_getElem? hw)
    obtain ⟨hid, hstage, hsound'⟩ := hf w hsound
    rw [heq]
    exact advances_set hc hw (Worker.goesTo_of_stage [] hid hsound' hstage (by simp))

/-- Hanging up on a worker does not report anything. -/
lemma advances_hangUp (hc : Crew id h.workers) (place : Nat) :
    h.Advances id (h.modify place fun w => { w with hungUp := true }) :=
  advances_modify hc place fun _ hs => ⟨rfl, rfl, hs.hangUp true⟩

/-- Writing to a worker does not report anything. -/
lemma advances_tell (hc : Crew id h.workers) (id' : ThreadId) (m : ThreadMsg)
    (unheard : Option LogEvent) : h.Advances id (h.tell id' m unheard) := by
  unfold tell
  split
  · exact advances_modify hc _ fun _ hs => ⟨rfl, rfl, hs.write _⟩
  · split
    · exact advances_of_eq hc rfl rfl
    · exact advances_of_eq hc rfl rfl

/-- Running a worker reports its end, if it comes to it. -/
lemma advances_runWorker (hc : Crew id h.workers) (place : Nat) :
    h.Advances id (h.runWorker place) := by
  unfold runWorker
  split
  · exact advances_of_eq hc rfl rfl
  · next w hw => exact advances_set hc hw (hc w (List.mem_of_getElem? hw)).2.goesTo_run

/-- Waiting for a worker reports its end, if it comes to it. -/
lemma advances_reap (hc : Crew id h.workers) (id' : ThreadId) (group : String) :
    h.Advances id (h.reap id' group) := by
  unfold reap
  split
  · exact advances_of_eq hc rfl rfl
  · next place _ =>
    have hhung := advances_hangUp hc place
    have hrun := hhung.trans (advances_runWorker hhung.crew place)
    dsimp only
    split
    · split
      · exact hrun.trans (advances_of_eq hrun.crew rfl rfl)
      · exact hrun
    · exact hrun

/-- Effects that neither start a thread nor post anything let the threads go on at most. -/
lemma advances_perform (hc : Crew id h.workers) (link : Link) {x : Effect} (hx : x.IsPlain) :
    h.Advances id (h.perform link x) := by
  cases x with
  | log | await | announce => exact advances_of_eq hc rfl rfl
  | post => cases hx.2.1
  | spawn => cases hx.1
  | panic => exact absurd rfl hx.2.2
  | tell id' m unheard => exact advances_tell hc id' m unheard
  | reap id' group => exact advances_reap hc id' group

end Host

/-! ## A handle and its thread -/

/-- Who posts to the engine. -/
inductive Poster where
  | handle
  | thread
deriving DecidableEq

/-- The calls that change a handle: starts that succeed, requests to close, and waits. -/
inductive Landmark where
  | started
  | closed
  | joined
deriving DecidableEq

/-- A handle with the host of its thread, and their history. -/
structure Tandem where
  handle : Thread
  host : Host
  /-- The calls that have changed the handle, in their order. -/
  landmarks : List Landmark
  /-- What was posted to the engine, and by whom. -/
  posts : List (Poster × EngineMsg)
  /-- Whether the engine has not listened at some time. -/
  deaf : Bool

namespace Tandem

/-- A new handle that has been attached to a graph with its group, as a graph does it for every
group that comes. -/
def begin (id : ThreadId) (g : Group) : Tandem :=
  ⟨(Thread.create id).attach g, .create, [], [], false⟩

/-- What can be done with a handle, and what its thread can do. -/
inductive Move where
  | start (topology : Topology)
  /-- A start for which the system has no thread. -/
  | deny (reason : String) (topology : Topology)
  | close
  | deliver (extension : String) (m : Msg) (unheard : Option LogEvent)
  /-- The inbox of a thread is taken away, with which a wait begins. The thread may make any number
  of moves before the wait is over. -/
  | letGo (place : Nat)
  | join
  | step (place : Nat)
  | beat (place ticker : Nat)
  | abort (place : Nat) (reason : String)

variable (link : Link) (s : Tandem)

/-- The host changes; what has come into the mailbox was posted by the given side. -/
def reach (p : Poster) (host : Host) : Tandem :=
  { s with host, posts := s.posts ++ (s.host.mailbox.gained host.mailbox).map (p, ·) }

/-- It is noted if the engine does not listen. -/
def noteDeafness : Tandem := { s with deaf := s.deaf || !s.host.mailbox.listening }

/-- The host does what the handle has decided. A handle posts by itself; all else that reaches the
engine meanwhile comes from the thread. -/
def perform (x : Effect) : Tandem :=
  (s.reach (if x.posted?.isSome then .handle else .thread) (s.host.perform link x)).noteDeafness

/-- A call of the handle: its new state, what it has decided, and what is noted about it. -/
def call (t : Thread) (effects : List Effect) (landmarks : List Landmark) : Tandem :=
  effects.foldl (perform link) { s with handle := t, landmarks := s.landmarks ++ landmarks }

/-- A start with all that it comes to. -/
def attempt (r : Thread × List Effect × Option (Except Error Unit)) : Tandem :=
  s.call link r.1 r.2.1 (match r.2.2 with
    | some (.ok ()) => [.started]
    | _ => [])

/-- The thread at a place makes a move, if there is one and it can. -/
def work (place : Nat) (f : Mailbox EngineMsg → Worker → Option (Mailbox EngineMsg × Worker)) :
    Tandem :=
  match s.host.workers[place]?.bind (f s.host.mailbox) with
  | none => s
  | some (mailbox, w) =>
    s.reach .thread { s.host with mailbox, workers := s.host.workers.set place w }

/-- One move. -/
def move : Move → Tandem
  | .start topology => s.attempt link (s.handle.start none topology)
  | .deny reason topology => s.attempt link (s.handle.start (some reason) topology)
  | .close => s.call link s.handle.close.1 s.handle.close.2 [.closed]
  | .deliver extension m unheard =>
    s.call link s.handle (s.handle.deliver extension m unheard) []
  | .letGo place => s.reach .thread (s.host.modify place fun w => { w with hungUp := true })
  | .join => s.call link s.handle.join.1 s.handle.join.2 [.joined]
  | .step place => s.work place fun engine w => w.step? engine
  | .beat place ticker => s.work place fun engine w => some (w.beat engine ticker)
  | .abort place reason => s.work place fun engine w => w.abort? reason engine

/-- One move beside a mailbox that has become what it is without the handle and its thread. -/
def turn (engine : Mailbox EngineMsg) (m : Move) : Tandem :=
  { s with host := { s.host with mailbox := engine } }.noteDeafness.move link m

/-- Any moves in any order, each beside a mailbox of its own. -/
def play (turns : List (Mailbox EngineMsg × Move)) : Tandem :=
  turns.foldl (fun s x => s.turn link x.1 x.2) s

/-- The side that has posted the reports of a thread, for each of them. -/
def reports (id : ThreadId) : List Poster :=
  (s.posts.filter fun x => x.2.report? = some id).map (·.1)

/-- The handle was closed before it was started. -/
def ClosedUnstarted : Prop :=
  ∃ before after, s.landmarks = before ++ .closed :: after ∧ .started ∉ before

/-- The reports that there are to be: that of a handle of which the first thing was that it was
closed, and that of each thread that has ended. -/
def due : List Poster :=
  (if s.landmarks.head? = some .closed then [.handle] else []) ++
    List.replicate (s.host.workers.countP Worker.hasEnded) .thread

/-- One thread at most, and one report at most. -/
structure OneReport (id : ThreadId) : Prop where
  /-- Each start that succeeds makes one thread, and nothing else does. -/
  spawns : s.host.workers.length = s.landmarks.count .started
  /-- One start succeeds at most, and none after a request to close or a wait. -/
  oneStart : s.host.workers.length ≤ 1 ∧ .started ∉ s.landmarks.tail
  once : (s.reports id).length ≤ 1
  byHandle : s.ClosedUnstarted → ∀ p ∈ s.reports id, p = .handle
  byThread : ¬ s.ClosedUnstarted → ∀ p ∈ s.reports id, p = .thread
  /-- No report is missing unless the engine was deaf. -/
  complete : s.deaf = false → s.reports id = s.due
  /-- A request to close is never taken back. -/
  closing : .closed ∈ s.landmarks → s.handle.state = .closing ∨ s.handle.state = .closed
  /-- After a request to close a start fails, and changes nothing. -/
  refused : .closed ∈ s.landmarks → ∀ topology,
    (∀ refusal, s.handle.start refusal topology = (s.handle, [],
        some (.error (.invalidState (id.text ++ " cannot start from " ++ s.handle.state.name))))) ∧
      s.move link (.start topology) = s ∧ ∀ reason, s.move link (.deny reason topology) = s

/-! ### What is kept up -/

/-- What can have been called while a handle has a state: nothing as long as it is attached, and
a call to close ends its running. -/
def Fits (landmarks : List Landmark) (t : Thread) : Prop :=
  match t.state with
  | .created => False
  | .attached => landmarks = [] ∧ t.attached = true
  | .running => landmarks ≠ [] ∧ .closed ∉ landmarks
  | .closing => landmarks ≠ []
  | .closed => landmarks ≠ []

/-- A handle and its thread in order. -/
structure InOrder (id : ThreadId) : Prop where
  number : s.handle.id = id
  fits : Fits s.landmarks s.handle
  crew : Crew id s.host.workers
  spawns : s.host.workers.length = s.landmarks.count .started
  first : .started ∉ s.landmarks.tail
  reports : (s.reports id).Sublist s.due
  complete : s.deaf = false → s.host.mailbox.listening = true ∧ s.reports id = s.due

variable {link s} {id : ThreadId}

/-! ### Reports and what is due -/

/-- All reports among messages come from the one who has posted them. -/
lemma map_filter_reports (p : Poster) (id : ThreadId) (ms : List EngineMsg) :
    (((ms.map (p, ·)).filter fun x => x.2.report? = some id).map (·.1)) =
      List.replicate (reportsOf id ms) p := by
  induction ms with
  | nil => rfl
  | cons m ms ih =>
    rw [reportsOf_cons, reportsOf_singleton, List.map_cons, List.filter_cons]
    by_cases hm : m.report? = some id
    · simp [hm, ih, Nat.add_comm 1, List.replicate_succ]
    · simp [hm, ih]

/-- What comes into the mailbox is added to the reports. -/
lemma reports_reach (p : Poster) (host : Host) :
    (s.reach p host).reports id =
      s.reports id ++ List.replicate (reportsOf id (s.host.mailbox.gained host.mailbox)) p := by
  rw [← map_filter_reports, reports, reports, ← List.map_append, ← List.filter_append]
  rfl

/-- Posted messages that report the thread once at most. -/
lemma replicate_gained_sublist (m : Mailbox EngineMsg) (ms : List EngineMsg) (p : Poster) :
    (List.replicate (reportsOf id (m.gained (m.postAll ms))) p).Sublist
      (List.replicate (reportsOf id ms) p) := by
  rw [m.gained_postAll]
  split
  · exact List.Sublist.refl _
  · exact List.nil_sublist _

/-- Nothing has been started as long as nothing has been called. -/
lemma InOrder.workers_eq_nil (h : s.InOrder id) (hs : .started ∉ s.landmarks) :
    s.host.workers = [] := by
  rw [← List.length_eq_zero_iff, h.spawns, List.count_eq_zero]
  exact hs

/-! ### Moves of the thread -/

/-- **The thread keeps everything in order.** What it reports has become due by its end.

**Proof sketch.** The reports that have been posted and those that were due grow by the same number,
all of them by the thread. -/
lemma InOrder.advance (h : s.InOrder id) {host : Host} (ha : s.host.Advances id host) :
    (s.reach .thread host).InOrder id := by
  obtain ⟨ms, hmail, hms⟩ := ha.reports
  have hdue : (s.reach .thread host).due =
      s.due ++ List.replicate (reportsOf id ms) .thread := by
    show _ ++ List.replicate (host.workers.countP Worker.hasEnded) Poster.thread = _
    rw [hms, List.replicate_add, ← List.append_assoc]
    rfl
  refine ⟨h.number, h.fits, ha.crew, ha.length.trans h.spawns, h.first, ?_, fun hd => ?_⟩
  · rw [reports_reach, hdue, hmail]
    exact h.reports.append (replicate_gained_sublist _ _ _)
  · obtain ⟨hlistening, hreports⟩ := h.complete hd
    rw [reports_reach, hdue, hreports]
    show host.mailbox.listening = true ∧
      s.due ++ List.replicate (reportsOf id (s.host.mailbox.gained host.mailbox)) _ = _
    rw [hmail, Mailbox.gained_postAll, Mailbox.postAll_listening, hlistening]
    exact ⟨rfl, rfl⟩

/-- Whatever the thread does by itself keeps the book in order. -/
lemma InOrder.work (h : s.InOrder id) (place : Nat)
    {f : Mailbox EngineMsg → Worker → Option (Mailbox EngineMsg × Worker)}
    (hf : ∀ {engine mailbox : Mailbox EngineMsg} {w w' : Worker}, w.Sound →
      f engine w = some (mailbox, w') → Worker.GoesTo engine w mailbox w') :
    (s.work place f).InOrder id := by
  unfold Tandem.work
  split
  · exact h
  · next mailbox w' hr =>
    obtain ⟨w, hw, hfw⟩ := Option.bind_eq_some_iff.1 hr
    have hsound := (h.crew w (List.mem_of_getElem? hw)).2
    exact h.advance (Host.advances_set h.crew hw (hf hsound hfw))

/-! ### Calls of the handle -/

/-- Nothing is missing because of a note that the engine is deaf. -/
lemma InOrder.noteDeafness (h : s.InOrder id) : s.noteDeafness.InOrder id :=
  ⟨h.number, h.fits, h.crew, h.spawns, h.first, h.reports,
    fun hd => h.complete (Bool.or_eq_false_iff.1 hd).1⟩

/-- An effect that does not start the thread keeps the book in order. -/
lemma InOrder.perform (h : s.InOrder id) {x : Effect} (hx : x.IsPlain) :
    (s.perform link x).InOrder id := by
  unfold Tandem.perform
  rw [hx.2.1]
  exact (h.advance (Host.advances_perform h.crew link hx)).noteDeafness

/-- The handle changes, and that it was called is noted. Closing it must not come first: then it
would have to report.

**Proof sketch.** What is due depends on the first call only, so that a further one does not change
it; the workers stay the same, and a start is not among the calls. -/
lemma InOrder.note (h : s.InOrder id) {t : Thread} {landmarks : List Landmark} (hid : t.id = id)
    (hfits : Fits (s.landmarks ++ landmarks) t) (hstarted : .started ∉ landmarks)
    (hclosed : s.landmarks = [] → landmarks.head? ≠ some .closed) :
    { s with handle := t, landmarks := s.landmarks ++ landmarks }.InOrder id := by
  have hdue : { s with handle := t, landmarks := s.landmarks ++ landmarks }.due = s.due := by
    unfold due
    cases hl : s.landmarks with
    | nil => simp [hclosed hl]
    | cons l ls => rfl
  have hcount : landmarks.count .started = 0 := List.count_eq_zero.2 hstarted
  refine ⟨hid, hfits, h.crew, ?_, ?_, ?_, ?_⟩
  · show _ = (s.landmarks ++ landmarks).count .started
    rw [List.count_append, hcount]
    exact h.spawns
  · show _ ∉ (s.landmarks ++ landmarks).tail
    cases hl : s.landmarks with
    | nil => exact fun hm => hstarted (List.mem_of_mem_tail hm)
    | cons l ls =>
      have hfirst := h.first
      rw [hl] at hfirst
      exact fun hm => (List.mem_append.1 hm).elim hfirst hstarted
  · rw [hdue]
    exact h.reports
  · rw [hdue]
    exact h.complete

/-- A call that neither starts the thread nor reports anything.

**Proof sketch.** One effect after the other, beside the handle as it has become. A plain effect
keeps everything in order. -/
lemma InOrder.call (h : s.InOrder id) {t : Thread} {effects : List Effect}
    {landmarks : List Landmark} (hid : t.id = id) (hfits : Fits (s.landmarks ++ landmarks) t)
    (hstarted : .started ∉ landmarks)
    (hclosed : s.landmarks = [] → landmarks.head? ≠ some .closed)
    (hplain : ∀ x ∈ effects, x.IsPlain) : (s.call link t effects landmarks).InOrder id := by
  unfold Tandem.call
  -- The effects follow one another beside the handle as it has become.
  generalize hs : ({ s with handle := t, landmarks := s.landmarks ++ landmarks } : Tandem) = s'
  have h' : s'.InOrder id := hs ▸ h.note hid hfits hstarted hclosed
  clear hs
  induction effects generalizing s' with
  | nil => exact h'
  | cons x effects ih =>
    rw [List.forall_mem_cons] at hplain
    exact ih hplain.2 _ (h'.perform hplain.1)

/-- What is called when nothing is noted leaves a handle in its state. -/
lemma InOrder.callUnnoted (h : s.InOrder id) {t : Thread} {effects : List Effect}
    (hid : t.id = id) (hfits : Fits s.landmarks t) (hplain : ∀ x ∈ effects, x.IsPlain) :
    (s.call link t effects []).InOrder id :=
  h.call hid (by rwa [List.append_nil]) List.not_mem_nil (by simp) hplain

/-- A start that does nothing but fail changes nothing. -/
lemma attempt_of_error (e : Error) : s.attempt link (s.handle, [], some (.error e)) = s := by
  show { s with handle := s.handle, landmarks := s.landmarks ++ [] } = s
  rw [List.append_nil]

/-- An attached handle has nothing behind it. -/
lemma InOrder.attached (h : s.InOrder id) (hs : s.handle.state = .attached) :
    s.landmarks = [] ∧ s.handle.attached = true ∧ s.host.workers = [] ∧ s.reports id = [] := by
  have hfits := h.fits
  rw [Fits, hs] at hfits
  obtain ⟨hl, hattached⟩ := hfits
  have hworkers : s.host.workers = [] := h.workers_eq_nil (by simp [hl])
  have hreports := h.reports
  rw [show s.due = [] by simp [due, hl, hworkers]] at hreports
  exact ⟨hl, hattached, hworkers, List.sublist_nil.1 hreports⟩

/-- The first call that changes an attached handle. What has to be reported after it is what it
posts.

**Proof sketch.** Nothing has been called, spawned or reported before. So all there is to count is
this call, its workers and its posts. -/
lemma InOrder.firstCall (h : s.InOrder id) (ms : List EngineMsg)
    (hs : s.handle.state = .attached) {t : Thread} {l : Landmark} {p : Poster} {host : Host}
    (hid : t.id = id) (hfits : Fits [l] t) (hcrew : Crew id host.workers)
    (hfresh : ∀ w ∈ host.workers, w.hasEnded = false)
    (hspawns : host.workers.length = [l].count .started)
    (hmail : host.mailbox = s.host.mailbox.postAll ms)
    (hms : List.replicate (reportsOf id ms) p = if l = .closed then [.handle] else []) :
    ({ s with handle := t, landmarks := s.landmarks ++ [l] }.reach p host).InOrder id := by
  obtain ⟨hl, -, -, hnone⟩ := h.attached hs
  have hl' : s.landmarks ++ [l] = [l] := by rw [hl, List.nil_append]
  rw [hl']
  have hreports : ({ s with handle := t, landmarks := [l] }.reach p host).reports id =
      List.replicate (reportsOf id (s.host.mailbox.gained host.mailbox)) p := by
    rw [reports_reach]
    show s.reports id ++ _ = _
    rw [hnone]
    rfl
  have hdue : ({ s with handle := t, landmarks := [l] }.reach p host).due =
      List.replicate (reportsOf id ms) p := by
    have hcount : host.workers.countP Worker.hasEnded = 0 :=
      List.countP_eq_zero.2 fun w hw => by simp [hfresh w hw]
    simp [due, reach, hcount, hms]
  refine ⟨hid, hfits, hcrew, hspawns, List.not_mem_nil, ?_, fun hd => ?_⟩
  · rw [hreports, hdue, hmail]
    exact replicate_gained_sublist _ _ _
  · have hlistening := (h.complete hd).1
    rw [hreports, hdue]
    show host.mailbox.listening = true ∧ _
    rw [hmail, Mailbox.postAll_listening, Mailbox.gained_postAll, hlistening]
    exact ⟨rfl, rfl⟩

/-- The thread begins without a report.

**Proof sketch.** The host was empty, so the new worker is the only one. It has just been created
and has not ended, so that there is nothing to report. -/
lemma InOrder.begins (h : s.InOrder id) (hs : s.handle.state = .attached) (g : Group)
    (topology : Topology) :
    (s.attempt link ({ s.handle with group := none, wired := true, state := .running },
      [.spawn s.handle.id g topology], some (.ok ()))).InOrder id := by
  obtain ⟨-, -, hworkers, -⟩ := h.attached hs
  have hspawn : (s.host.spawn (Worker.create link s.handle.id g topology)).workers =
      [Worker.create link s.handle.id g topology] := by
    rw [s.host.spawn_workers (by simp [hworkers]), hworkers]
    rfl
  refine InOrder.noteDeafness (h.firstCall [] hs h.number (by simp [Fits]) ?_ ?_ ?_
    (Host.spawn_mailbox _ _) rfl)
  · show Crew id (s.host.spawn (Worker.create link s.handle.id g topology)).workers
    rw [hspawn, Crew, List.forall_mem_singleton]
    exact ⟨h.number, Worker.sound_create link _ g topology⟩
  · show ∀ w ∈ (s.host.spawn (Worker.create link s.handle.id g topology)).workers, _
    rw [hspawn, List.forall_mem_singleton]
    exact decide_eq_false (Worker.create_stage_ne link s.handle.id g topology rfl)
  · show (s.host.spawn (Worker.create link s.handle.id g topology)).workers.length = _
    rw [hspawn]
    rfl

/-- A start that panics leaves a handle without its group, and a deaf engine.

**Proof sketch.** The thread was not spawned and the mailbox is gone, so there is nothing to report
and nobody to hear it. -/
lemma InOrder.panics (h : s.InOrder id) (hs : s.handle.state = .attached) :
    (s.attempt link ({ s.handle with group := none }, [.panic], none)).InOrder id := by
  obtain ⟨hl, hattached, hworkers, hnone⟩ := h.attached hs
  have hworkers' : s.host.collapse.workers = [] := by simp [Host.collapse, hworkers]
  have hreports : (s.attempt link ({ s.handle with group := none }, [.panic], none)).reports id =
      [] := by
    refine (reports_reach .thread s.host.collapse).trans ?_
    show s.reports id ++ List.replicate (reportsOf id ([].drop _)) _ = []
    rw [hnone, List.drop_nil]
    rfl
  refine ⟨h.number, ?_, ?_, ?_, ?_, ?_, fun hd => ?_⟩
  · show Fits (s.landmarks ++ []) { s.handle with group := none }
    simp [Fits, hs, hl, hattached]
  · show Crew id s.host.collapse.workers
    simp [Crew, hworkers']
  · show s.host.collapse.workers.length = (s.landmarks ++ []).count Landmark.started
    simp [hworkers', hl]
  · show Landmark.started ∉ (s.landmarks ++ []).tail
    simp [hl]
  · rw [hreports]
    exact List.nil_sublist _
  · have hdeaf : (s.deaf || !s.host.collapse.mailbox.listening) = false := hd
    simp [Host.collapse, Mailbox.hangUp] at hdeaf

/-- However a start turns out.

**Proof sketch.** By how the start turns out. A handle that is not fit for it stays as it is, a
refused one logs a line, and one that begins has its thread. -/
lemma InOrder.start (h : s.InOrder id) (refusal : Option String) (topology : Topology) :
    (s.attempt link (s.handle.start refusal topology)).InOrder id := by
  have hr := s.handle.startsAs_start refusal topology
  generalize s.handle.start refusal topology = r at hr ⊢
  cases hr with
  | unfit e =>
    rw [attempt_of_error]
    exact h
  | @spawned g hs => exact h.begins hs g topology
  | refused hs =>
    have hfits := h.fits
    rw [Fits, hs] at hfits
    refine h.callUnnoted h.number (by simpa [Fits, hs] using hfits) fun x hx => ?_
    obtain rfl := List.mem_singleton.1 hx
    exact ⟨rfl, rfl, Effect.noConfusion⟩
  | panics hs => exact h.panics hs

/-- A handle that is closed before it was started reports in place of its thread. -/
lemma InOrder.giveUp (h : s.InOrder id) (hs : s.handle.state = .attached) :
    (s.move link .close).InOrder id := by
  obtain ⟨-, hattached, hworkers, -⟩ := h.attached hs
  have hclose : s.handle.close =
      ({ s.handle with state := .closing }, [.post (.threadClosed s.handle.id)]) := by
    simp [Thread.close, hs, hattached]
  have hfresh : ∀ w ∈ s.host.workers, w.hasEnded = false := by simp [hworkers]
  have hlength : s.host.workers.length = 0 := by rw [hworkers, List.length_nil]
  rw [move, hclose]
  refine InOrder.noteDeafness (h.firstCall [.threadClosed s.handle.id] hs h.number
    (by simp [Fits]) h.crew hfresh hlength rfl ?_)
  rw [h.number, reportsOf_threadClosed, if_pos rfl]
  rfl

/-- Closing the handle keeps the book in order.

**Proof sketch.** By the state of the handle. One that is attached reports at once; one that runs
asks its thread to end, which reports later; any other has been closed before. -/
lemma InOrder.close (h : s.InOrder id) : (s.move link .close).InOrder id := by
  have hfits := h.fits
  -- Only a handle that is still attached posts anything.
  cases hs : s.handle.state with
  | attached => exact h.giveUp hs
  | created =>
    rw [Fits, hs] at hfits
    exact hfits.elim
  | running =>
    rw [Fits, hs] at hfits
    have hclose : s.handle.close = ({ s.handle with state := .closing },
        if s.handle.wired then [.tell s.handle.id .close none] else []) := by
      simp [Thread.close, hs]
    rw [move, hclose]
    refine h.call h.number (by simp [Fits]) (by simp) (absurd · hfits.1) fun x hx => ?_
    split at hx
    · rw [List.mem_singleton.1 hx]
      exact ⟨rfl, rfl, Effect.noConfusion⟩
    · cases hx
  | closing | closed =>
    rw [Fits, hs] at hfits
    have hclose : s.handle.close = (s.handle, []) := by simp [Thread.close, hs]
    rw [move, hclose]
    exact h.call h.number (by simp [Fits, hs]) (by simp) (absurd · hfits) (by simp)

/-- Every turn keeps the book in order.

**Proof sketch.** By the kinds of turns. A start and a close are the calls that matter; a message
and a wait change neither the state nor the count; what the thread does itself goes through
`InOrder.work`. -/
lemma InOrder.move (h : s.InOrder id) (m : Move) : (s.move link m).InOrder id := by
  cases m with
  | start topology => exact h.start none topology
  | deny reason topology => exact h.start (some reason) topology
  | close => exact h.close
  | deliver extension m unheard =>
    refine h.callUnnoted h.number h.fits fun x hx => ?_
    rcases s.handle.deliver_effects extension m unheard x hx with rfl | ⟨event, rfl⟩
    · exact ⟨rfl, rfl, Effect.noConfusion⟩
    · exact ⟨rfl, rfl, Effect.noConfusion⟩
  | letGo place => exact h.advance (Host.advances_hangUp h.crew place)
  | join =>
    refine h.call h.number (by simp [Fits, Thread.join]) (by simp) (by simp) fun x hx => ?_
    rw [s.handle.join_effects x hx]
    exact ⟨rfl, rfl, Effect.noConfusion⟩
  | step place => exact h.work place fun hsound hs => hsound.goesTo_step? hs
  | beat place ticker =>
    have hbeat {engine mailbox : Mailbox EngineMsg} {w w' : Worker} (hsound : w.Sound)
        (hs : some (w.beat engine ticker) = some (mailbox, w')) :
        Worker.GoesTo engine w mailbox w' := by
      have hg : Worker.GoesTo engine w (w.beat engine ticker).1 (w.beat engine ticker).2 :=
        hsound.goesTo_beat ticker
      rw [Option.some.inj hs] at hg
      exact hg
    exact h.work place hbeat
  | abort place reason => exact h.work place fun _ hs => Worker.goesTo_abort? hs

/-- **A move keeps a handle and its thread in order**, whatever has become of the mailbox. -/
theorem InOrder.turn (h : s.InOrder id) (engine : Mailbox EngineMsg) (m : Move) :
    (s.turn link engine m).InOrder id := by
  have h' : ({ s with host := { s.host with mailbox := engine } } : Tandem).noteDeafness.InOrder
      id := by
    refine ⟨h.number, h.fits, h.crew, h.spawns, h.first, h.reports, fun hd => ?_⟩
    obtain ⟨hd, hlistening⟩ := Bool.or_eq_false_iff.1 hd
    have hlistening' : engine.listening = true := by
      simpa using (hlistening : (!engine.listening) = false)
    exact ⟨hlistening', (h.complete hd).2⟩
  exact h'.move m

/-- The book is in order before the first turn. -/
lemma inOrder_begin (id : ThreadId) (g : Group) : (begin id g).InOrder id :=
  ⟨rfl, ⟨rfl, rfl⟩, by simp [Crew, begin, Host.create], rfl, List.not_mem_nil,
    List.Sublist.refl _, fun _ => ⟨rfl, rfl⟩⟩

/-- The book is in order at any time. -/
lemma InOrder.play (h : s.InOrder id) (turns : List (Mailbox EngineMsg × Move)) :
    (s.play link turns).InOrder id := by
  induction turns generalizing s with
  | nil => exact h
  | cons x turns ih => exact ih (h.turn x.1 x.2)

/-! ### What follows -/

/-- After a request to close, a handle is closing or closed.

**Proof sketch.** By the state of the handle, and by what has to have happened in that state. -/
lemma InOrder.state_of_closed (h : s.InOrder id) (hc : .closed ∈ s.landmarks) :
    s.handle.state = .closing ∨ s.handle.state = .closed := by
  have hfits := h.fits
  cases hs : s.handle.state with
  | created =>
    rw [Fits, hs] at hfits
    exact hfits.elim
  | attached =>
    rw [Fits, hs] at hfits
    rw [hfits.1] at hc
    cases hc
  | running =>
    rw [Fits, hs] at hfits
    exact absurd hc hfits.2
  | closing => exact .inl rfl
  | closed => exact .inr rfl

/-- A handle that was closed first is never started. -/
lemma InOrder.started_notMem_of_closedUnstarted (h : s.InOrder id) (hc : s.ClosedUnstarted) :
    .started ∉ s.landmarks := by
  obtain ⟨before, after, hl, hbefore⟩ := hc
  have hfirst := h.first
  rw [hl] at hfirst ⊢
  cases before with
  | nil => simpa using hfirst
  | cons b before =>
    rw [List.cons_append, List.tail_cons] at hfirst
    rw [List.cons_append, List.mem_cons]
    exact fun hm => hm.elim (fun he => hbefore (he ▸ List.mem_cons_self)) hfirst

/-- A handle whose first call was a close was closed unstarted. -/
lemma closedUnstarted_of_head? (hl : s.landmarks.head? = some .closed) : s.ClosedUnstarted := by
  obtain ⟨rest, hrest⟩ := List.head?_eq_some_iff.1 hl
  exact ⟨[], rest, hrest, List.not_mem_nil⟩

/-- One thread is started at most, since only the first call can start it. -/
lemma InOrder.workers_length (h : s.InOrder id) : s.host.workers.length ≤ 1 := by
  rw [h.spawns]
  cases hl : s.landmarks with
  | nil => exact Nat.zero_le _
  | cons l ls =>
    have hfirst := h.first
    rw [hl, List.tail_cons] at hfirst
    rw [List.count_cons, List.count_eq_zero.2 hfirst]
    split
    · exact Nat.le_refl _
    · exact Nat.zero_le _

/-- A handle that was closed before it was started is all that can report. -/
lemma InOrder.reports_of_closedUnstarted (h : s.InOrder id) (hc : s.ClosedUnstarted) :
    (s.reports id).Sublist [.handle] := by
  refine h.reports.trans ?_
  rw [due, h.workers_eq_nil (h.started_notMem_of_closedUnstarted hc)]
  split
  · exact List.Sublist.refl _
  · exact List.nil_sublist _

/-- The thread is all that can report if its handle was not closed first. -/
lemma InOrder.reports_of_not_closedUnstarted (h : s.InOrder id) (hc : ¬ s.ClosedUnstarted) :
    (s.reports id).Sublist [.thread] := by
  refine h.reports.trans ?_
  rw [due, if_neg fun hl => hc (closedUnstarted_of_head? hl), List.nil_append]
  exact List.replicate_sublist_replicate _ |>.2
    (Nat.le_trans List.countP_le_length h.workers_length)

/-- A book in order tells of one thread and one report.

**Proof sketch.** What was reported is at most what is due. This is one report by the handle, if it
was closed before it was started, and else one by each thread that has ended, of which there is one
at most. -/
lemma InOrder.oneReport (h : s.InOrder id) : s.OneReport link id where
  spawns := h.spawns
  oneStart := ⟨h.workers_length, h.first⟩
  once := by
    by_cases hc : s.ClosedUnstarted
    · exact (h.reports_of_closedUnstarted hc).length_le
    · exact (h.reports_of_not_closedUnstarted hc).length_le
  byHandle hc p hp := List.mem_singleton.1 ((h.reports_of_closedUnstarted hc).subset hp)
  byThread hc p hp := List.mem_singleton.1 ((h.reports_of_not_closedUnstarted hc).subset hp)
  complete hd := (h.complete hd).2
  closing := h.state_of_closed
  refused hc topology := by
    have hstate : s.handle.state ≠ .attached := by
      rcases h.state_of_closed hc with hs | hs
      · simp [hs]
      · simp [hs]
    have herror (refusal : Option String) : s.handle.start refusal topology = (s.handle, [],
        some (.error (.invalidState
          (id.text ++ " cannot start from " ++ s.handle.state.name)))) := by
      rw [Thread.start, if_pos hstate, h.number]
    have hattempt (refusal : Option String) :
        s.attempt link (s.handle.start refusal topology) = s := by
      rw [herror]
      exact attempt_of_error _
    exact ⟨herror, hattempt none, fun reason => hattempt (some reason)⟩

/-- **One report for every handle.** Whatever is called on a handle and whatever its thread does
meanwhile, in any order and beside any mailbox: there is one thread at most, its end is reported
once at most, by the handle if that was closed before it was started and by the thread otherwise,
and the handle cannot be started any more once it was closed.

**Proof sketch.** Induction on the moves. As long as the handle is attached, nothing was started and
nothing was reported. The first call that changes this either starts the thread, or makes the handle
report, or does neither. From then on every start fails and closing reports nothing, so that there
is nobody but the thread to report, which it does when it ends. -/
theorem play_reports_once (link : Link) (id : ThreadId) (g : Group)
    (turns : List (Mailbox EngineMsg × Move)) :
    ((begin id g).play link turns).OneReport link id :=
  ((inOrder_begin id g).play turns).oneReport

example (link : Link) (g : Group) (t : Topology) :
    ((begin ⟨1⟩ g).play link [(.empty, .close), (.empty, .start t), (.empty, .join)]).reports ⟨1⟩ =
      [.handle] := by
  rfl

example (link : Link) (t : Topology) :
    ((begin ⟨1⟩ (.create "main" "group")).play link
      ([.start t, .close, .step 0, .step 0, .step 0, .step 0].map (.empty, ·))).reports ⟨1⟩ =
        [.thread] := by
  cbv

end Tandem

end ExtensionGraph
