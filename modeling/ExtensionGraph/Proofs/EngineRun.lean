import Mathlib.Data.List.Induction
import ExtensionGraph.Proofs.Decisions

/-!
# Runs of an engine with its threads

A run is any sequence of moves: the engine takes messages, threads work, tickers beat, groups are
finished, and messages and the wish to close come from outside, in any order. At any time of a run
the engine is in order.

## Main definitions

* `ExtensionGraph.Engine.Moves` — what a move does, case by case.
* `ExtensionGraph.Engine.play` — a run, with the messages that the engine takes in it.

## Main results

* `ExtensionGraph.Engine.moves_of_move?` — every move is one of the cases.
* `ExtensionGraph.Engine.play_induction`, `ExtensionGraph.Engine.induction_of_moves`,
  `ExtensionGraph.Engine.induction_of_play` — what every move keeps up is kept up by every run.
* `ExtensionGraph.Engine.Sound.setWorker` — a step of a thread.
* `ExtensionGraph.Engine.Sound.move` — every move keeps an engine in order.
* `ExtensionGraph.Engine.sound_of_play` — an engine is in order at any time of its run.
-/

namespace ExtensionGraph

namespace Engine

variable {e e' : Engine} {heard : List EngineMsg}

/-! ## Moves -/

/-- **Everything that a move can do.** -/
inductive Moves (e : Engine) : Move → Engine → Prop
  /-- The engine takes a message. -/
  | handles {m : EngineMsg} {mailbox : Mailbox EngineMsg} (hopen : e.context.phase ≠ .closed)
      (htake : e.host.mailbox.take? = some (m, mailbox)) :
      Moves e .handle (({ e with host := { e.host with mailbox } } : Engine).handle m)
  /-- A group that has been built is brought to the engine. -/
  | completes {place : Nat} {creation : Creation}
      (hc : e.host.creations[place]? = some creation) :
      Moves e (.complete place) { e with host := { e.host with
        creations := e.host.creations.eraseIdx place
        mailbox := e.host.mailbox.post (.created creation.result) } }
  /-- A thread makes a step of its own. -/
  | works {place : Nat} {w w' : Worker} {mailbox : Mailbox EngineMsg}
      (hw : e.host.workers[place]? = some w)
      (hs : w.step? e.host.mailbox = some (mailbox, w')) :
      Moves e (.work place) { e with host := { e.host with
        mailbox, workers := e.host.workers.set place w' } }
  /-- A ticker of a thread beats. -/
  | beats {place ticker : Nat} {w : Worker} (hw : e.host.workers[place]? = some w)
      (hk : ticker < w.tickers.length) :
      Moves e (.beat place ticker) { e with host := { e.host with
        mailbox := (w.beat e.host.mailbox ticker).1
        workers := e.host.workers.set place (w.beat e.host.mailbox ticker).2 } }
  /-- A thread ends for want of a runtime. -/
  | aborts {place : Nat} {reason : String} {w w' : Worker} {mailbox : Mailbox EngineMsg}
      (hw : e.host.workers[place]? = some w)
      (hs : w.abort? reason e.host.mailbox = some (mailbox, w')) :
      Moves e (.abort place reason) { e with host := { e.host with
        mailbox, workers := e.host.workers.set place w' } }
  /-- A message is sent from outside. -/
  | sends (msg resolved : Msg) : Moves e (.send msg) (e.post (.route resolved))
  /-- A message from outside is refused. -/
  | refuses (msg : Msg) : Moves e (.send msg) e
  /-- The end of the graph is asked for from outside. -/
  | closes : Moves e .close (e.post .close)

/-- Every move is one of the cases.

**Proof sketch.** Each kind of move unfolds to a guard and one new state; where the guard fails
there is no move at all. -/
theorem moves_of_move? {m : Move} (hm : e.move? m = some e') : e.Moves m e' := by
  cases m with
  | handle =>
    simp only [move?] at hm
    split at hm
    · cases hm
    · next hclosed =>
      obtain ⟨⟨msg, mailbox⟩, htake, rfl⟩ := Option.map_eq_some_iff.1 hm
      exact .handles (by simpa [Context.isClosed] using hclosed) htake
  | complete place =>
    simp only [move?] at hm
    split at hm
    · next hplace =>
      cases hm
      have hc := List.getElem?_eq_getElem hplace
      unfold Host.complete
      rw [hc]
      exact .completes hc
    · cases hm
  | work place =>
    obtain ⟨w, hw, hm⟩ := Option.bind_eq_some_iff.1 hm
    obtain ⟨⟨mailbox, w'⟩, hs, hm⟩ := Option.bind_eq_some_iff.1 hm
    cases hm
    exact .works hw hs
  | beat place ticker =>
    simp only [move?] at hm
    obtain ⟨w, hw, hm⟩ := Option.bind_eq_some_iff.1 hm
    split at hm
    · next hk =>
      cases hm
      unfold Host.beat
      rw [hw]
      exact .beats hw hk
    · cases hm
  | abort place reason =>
    obtain ⟨w, hw, hm⟩ := Option.bind_eq_some_iff.1 hm
    obtain ⟨⟨mailbox, w'⟩, hs, hm⟩ := Option.bind_eq_some_iff.1 hm
    cases hm
    exact .aborts hw hs
  | send msg =>
    cases hm
    unfold send
    split
    · exact .refuses msg
    · split
      · exact .sends msg _
      · exact .refuses msg
  | close =>
    cases hm
    exact .closes

/-! ## Runs -/

/-- The message that the engine takes in a move. -/
def taken? (e : Engine) : Move → Option EngineMsg
  | .handle => e.host.mailbox.messages.head?
  | _ => none

/-- A move other than one of the engine takes nothing out of its mailbox. -/
lemma taken?_eq_none {m : Move} (hm : m ≠ .handle) : e.taken? m = none := by
  unfold taken?
  split
  · exact absurd rfl hm
  · rfl

/-- So it leaves what the engine has heard as it is. -/
lemma append_taken? {m : Move} (hm : m ≠ .handle) (heard : List EngineMsg) :
    heard ++ (e.taken? m).toList = heard := by
  rw [taken?_eq_none hm, Option.toList_none, List.append_nil]

/-- What the engine takes is the first message in its mailbox. -/
lemma taken?_handle {m : EngineMsg} {mailbox : Mailbox EngineMsg}
    (ht : e.host.mailbox.take? = some (m, mailbox)) : e.taken? .handle = some m := by
  unfold taken?
  rw [(Mailbox.take?_eq_some ht).1]
  rfl

/-- Makes moves one after the other, if they are all possible: the messages that the engine takes,
and the engine in the end. -/
def play (e : Engine) : List Move → Option (List EngineMsg × Engine)
  | [] => some ([], e)
  | m :: ms => do
    let e' ← e.move? m
    let (taken, e'') ← e'.play ms
    some ((e.taken? m).toList ++ taken, e'')

/-- A run is its first move and a run from the engine after it. What it takes out of the mailbox is
what the first move takes, followed by what the rest takes. -/
lemma play_cons {e e'' : Engine} {m : Move} {ms : List Move} {taken : List EngineMsg} :
    e.play (m :: ms) = some (taken, e'') ↔
      ∃ e' taken', e.move? m = some e' ∧ e'.play ms = some (taken', e'') ∧
        taken = (e.taken? m).toList ++ taken' := by
  rw [play]
  constructor
  · intro h
    obtain ⟨e', he, h⟩ := Option.bind_eq_some_iff.1 h
    obtain ⟨⟨taken', e₂⟩, hp, h⟩ := Option.bind_eq_some_iff.1 h
    cases h
    exact ⟨e', taken', he, hp, rfl⟩
  · rintro ⟨e', taken', he, hp, rfl⟩
    rw [he]
    show (e'.play ms).bind _ = _
    rw [hp]
    rfl

/-- A run in two parts.

**Proof sketch.** Induction on the first part; what is taken out of the mailbox is appended in the
same way as the moves are. -/
lemma play_append {e e' : Engine} {before after : List Move} {taken : List EngineMsg} :
    e.play (before ++ after) = some (taken, e') ↔
      ∃ taken₁ e₁ taken₂, e.play before = some (taken₁, e₁) ∧ e₁.play after = some (taken₂, e') ∧
        taken = taken₁ ++ taken₂ := by
  induction before generalizing e taken with
  | nil =>
    constructor
    · intro h
      exact ⟨[], e, taken, rfl, h, rfl⟩
    · rintro ⟨taken₁, e₁, taken₂, h₁, h₂, rfl⟩
      cases h₁
      exact h₂
  | cons m before ih =>
    rw [List.cons_append, play_cons]
    constructor
    · rintro ⟨e₂, taken₂, hm, hrest, rfl⟩
      obtain ⟨taken₁, e₁, taken₃, h₁, h₂, rfl⟩ := ih.1 hrest
      exact ⟨_, e₁, taken₃, play_cons.2 ⟨e₂, taken₁, hm, h₁, rfl⟩, h₂,
        (List.append_assoc _ _ _).symm⟩
    · rintro ⟨taken₁, e₁, taken₃, h₁, h₂, rfl⟩
      obtain ⟨e₂, taken₂, hm, hrest, rfl⟩ := play_cons.1 h₁
      exact ⟨e₂, taken₂ ++ taken₃, hm, ih.2 ⟨taken₂, e₁, taken₃, hrest, h₂, rfl⟩,
        List.append_assoc _ _ _⟩

/-- **What every move keeps up is kept up by every run.** It may depend on the messages that the
engine has taken. -/
theorem play_induction {P : List EngineMsg → Engine → Prop}
    (hstep : ∀ {heard : List EngineMsg} {e e' : Engine} {m : Move}, P heard e →
      e.move? m = some e' → P (heard ++ (e.taken? m).toList) e')
    (h : P heard e) {moves : List Move} {taken : List EngineMsg}
    (hp : e.play moves = some (taken, e')) : P (heard ++ taken) e' := by
  induction moves generalizing e heard taken with
  | nil =>
    cases hp
    rw [List.append_nil]
    exact h
  | cons m moves ih =>
    obtain ⟨e₁, taken₁, hm, hrest, rfl⟩ := play_cons.1 hp
    rw [← List.append_assoc]
    exact ih (hstep h hm) hrest

/-- **What every move of a run keeps up holds at any time of the run.** It may depend on the moves
that were made and on the messages that the engine has taken, and the step may use everything that
is known of the run so far.

**Proof sketch.** By induction over the moves, from behind, so that the run up to the last move is
at hand in each step. -/
theorem induction_of_moves {P : List Move → List EngineMsg → Engine → Prop} (hstart : P [] [] e)
    (hstep : ∀ {moves : List Move} {taken : List EngineMsg} {e₁ e₂ : Engine} {m : Move},
      e.play moves = some (taken, e₁) → P moves taken e₁ → e₁.move? m = some e₂ →
        P (moves ++ [m]) (taken ++ (e₁.taken? m).toList) e₂)
    {moves : List Move} {taken : List EngineMsg} (hp : e.play moves = some (taken, e')) :
    P moves taken e' := by
  induction moves using List.reverseRecOn generalizing taken e' with
  | nil =>
    cases hp
    exact hstart
  | append_singleton moves m ih =>
    obtain ⟨taken₁, e₁, taken₂, h₁, h₂, rfl⟩ := play_append.1 hp
    obtain ⟨e₂, taken₃, hm, hlast, rfl⟩ := play_cons.1 h₂
    cases hlast
    rw [List.append_nil]
    exact hstep h₁ (ih h₁) hm

/-- The same for what does not depend on the moves. -/
theorem induction_of_play {P : List EngineMsg → Engine → Prop} (hstart : P [] e)
    (hstep : ∀ {moves : List Move} {taken : List EngineMsg} {e₁ e₂ : Engine} {m : Move},
      e.play moves = some (taken, e₁) → P taken e₁ → e₁.move? m = some e₂ →
        P (taken ++ (e₁.taken? m).toList) e₂)
    {moves : List Move} {taken : List EngineMsg} (hp : e.play moves = some (taken, e')) :
    P taken e' :=
  induction_of_moves (P := fun _ => P) hstart hstep hp

/-! ## What goes on beside the engine -/

/-- Posting what reports nothing keeps an engine in order, also if nobody listens any more.

**Proof sketch.** Only the mailbox changes, and only at its end. The ledger counts reports, and the
new message is none; what a deaf mailbox swallows leaves it empty. -/
lemma Sound.post (h : e.Sound heard) {m : EngineMsg} (hm : m.report? = none) :
    (e.post m).Sound heard := by
  have hmessages : (e.host.mailbox.post m).messages =
      e.host.mailbox.messages ++ (if e.host.mailbox.listening then [m] else []) :=
    e.host.mailbox.post_messages m
  have hlistening : (e.host.mailbox.post m).listening = e.host.mailbox.listening :=
    e.host.mailbox.post_listening m
  have hdown : (e.post m).IsDown ↔ e.IsDown := by
    unfold IsDown
    exact Iff.and (by rw [← hlistening]; rfl) Iff.rfl
  refine
    { workers := h.workers
      idsNodup := h.idsNodup
      peace := h.peace
      ledger := fun hup => ?_
      steady := ⟨h.steady.context, h.steady.announced⟩
      retired := fun hc => hlistening.trans (h.retired hc)
      emptied := fun hdeaf => ?_
      down := fun hd => h.down (hdown.1 hd) }
  · show Ledger e.context heard (e.host.mailbox.post m).messages e.host.workers
    rw [hmessages]
    refine (h.ledger (mt hdown.2 hup)).post fun m' hm' => ?_
    split at hm'
    · obtain rfl := List.mem_singleton.1 hm'
      exact hm
    · cases hm'
  · have hdeaf' : e.host.mailbox.listening = false := hlistening.symm.trans hdeaf
    show (e.host.mailbox.post m).messages = []
    rw [hmessages, hdeaf', h.emptied hdeaf']
    rfl

/-- A worker that has not ended is listed, unless the engine has gone down. -/
lemma Sound.exists_listed (h : e.Sound heard) (hup : ¬ e.IsDown) {w : Worker}
    (hw : w ∈ e.host.workers) (hended : w.stage ≠ .ended) :
    ∃ t, e.context.handle? w.id = some t := by
  have hacc := h.ledger hup w.id
  rw [atKey?_of_mem h.idsNodup hw] at hacc
  exact hacc.listed_of_worker hended

/-- A graph with a worker that has not ended is not closed. -/
lemma Sound.not_closed (h : e.Sound heard) {w : Worker} (hw : w ∈ e.host.workers)
    (hended : w.stage ≠ .ended) : e.context.phase ≠ .closed := by
  by_cases hd : e.IsDown
  · exact hd.2
  · obtain ⟨t, ht⟩ := h.exists_listed hd hw hended
    exact h.steady.context.not_closed_of_mem (mem_of_atKey? ht)

/-- A worker that is not listed any more has ended. -/
lemma Sound.ended_of_unlisted (h : e.Sound heard) (hup : ¬ e.IsDown) {w : Worker}
    (hw : w ∈ e.host.workers) (hn : e.context.handle? w.id = none) : w.stage = .ended := by
  have hacc := h.ledger hup w.id
  rw [hn, atKey?_of_mem h.idsNodup hw] at hacc
  exact hacc.2.1

/-- A worker that is listed has been started, and somebody can write to it. -/
lemma Sound.wired_of_listed (h : e.Sound heard) (hup : ¬ e.IsDown) {w : Worker} {t : Thread}
    (hw : w ∈ e.host.workers) (ht : e.context.handle? w.id = some t) :
    t.wired = true ∧ w.hungUp = false := by
  have hacc := h.ledger hup w.id
  rw [ht, atKey?_of_mem h.idsNodup hw] at hacc
  exact ⟨hacc.1, hacc.2.1⟩

/-- A listed thread of an open graph that has been started is working. -/
lemma Sound.working_of_listed (h : e.Sound heard) (hup : ¬ e.IsDown) (ho : e.context.IsOpen)
    {w : Worker} {t : Thread} (hw : w ∈ e.host.workers) (ht : e.context.handle? w.id = some t) :
    t.Working := by
  have hor := Ledger.idle_or_working h.steady.context.toTidy ho (mem_of_atKey? ht)
  refine hor.resolve_left fun hidle => ?_
  have hwired := (h.wired_of_listed hup hw ht).1
  rw [hidle.wired] at hwired
  cases hwired

/-- Before the topology is known, no worker is at work. -/
lemma Sound.ended_of_unready (h : e.Sound heard) (hup : ¬ e.IsDown) (ho : e.context.IsOpen)
    (ht : e.context.topology = none) {w : Worker} (hw : w ∈ e.host.workers) :
    w.stage = .ended := by
  cases hth : e.context.handle? w.id with
  | none => exact h.ended_of_unlisted hup hw hth
  | some t =>
    have hwaits := (h.steady.context.waiting ho ht).2 t (mem_of_atKey? hth)
    have hwired := (h.wired_of_listed hup hw hth).1
    rw [hwaits.wired] at hwired
    cases hwired

/-- **A step of a thread keeps an engine in order**, if the thread reports its end exactly when it
ends, and does not begin to end by itself.

**Proof sketch.** Only one thread and the mailbox change, so each clause is checked for that thread
alone. In the ledger the thread's account goes up by one exactly if it ends, and then its report is
posted; all other accounts stay. -/
theorem Sound.setWorker (h : e.Sound heard) {place : Nat} {w w' : Worker} {ms : List EngineMsg}
    (hw : e.host.workers[place]? = some w) (hended : w.stage ≠ .ended) (hid : w'.id = w.id)
    (hhung : w'.hungUp = w.hungUp) (hsound : w'.Sound)
    (hpeace : w.hungUp = false → w.Undisturbed → w'.Undisturbed)
    (hms : (w'.stage ≠ .ended ∧ ∀ m ∈ ms, m.IsWish) ∨
      (w'.stage = .ended ∧ ms = [.threadClosed w.id])) :
    ({ e with host := { e.host with
      mailbox := e.host.mailbox.postAll ms, workers := e.host.workers.set place w' } } :
        Engine).Sound heard := by
  have hmem := List.mem_of_getElem? hw
  have hopen := h.not_closed hmem hended
  have hset : ∀ v ∈ e.host.workers.set place w', v ∈ e.host.workers ∨ v = w' :=
    fun v hv => List.mem_or_eq_of_mem_set hv
  have hlistening : (e.host.mailbox.postAll ms).listening = e.host.mailbox.listening :=
    e.host.mailbox.postAll_listening ms
  generalize he' : ({ e with host := { e.host with
      mailbox := e.host.mailbox.postAll ms
      workers := e.host.workers.set place w' } } : Engine) = e'
  -- One of the workers has no say in whether the engine is down.
  have hdown : e'.IsDown ↔ e.IsDown := by
    rw [← he']
    exact Iff.and (by rw [← hlistening]) Iff.rfl
  subst he'
  refine
    { workers := ?_
      idsNodup := ?_
      peace := ?_
      ledger := fun hup => ?_
      steady := ⟨h.steady.context, h.steady.announced⟩
      retired := fun hc => absurd hc hopen
      emptied := fun hdeaf => ?_
      down := fun hd => ?_ }
  · intro v hv
    rcases hset v hv with hv | rfl
    · exact h.workers v hv
    · exact hsound
  · have hids : (e.host.workers.set place w').map (·.id) = e.host.workers.map (·.id) :=
      map_key_set hw hid
    show ((e.host.workers.set place w').map (·.id)).Nodup
    rw [hids]
    exact h.idsNodup
  · intro ho v hv hh
    rcases hset v hv with hv | rfl
    · exact h.peace ho v hv hh
    · rw [hhung] at hh
      exact hpeace hh (h.peace ho w hmem hh)
  · have hup' := mt hdown.2 hup
    show Ledger e.context heard (e.host.mailbox.postAll ms).messages _
    rw [Mailbox.postAll_messages, listening_of_not_isDown hup' hopen]
    refine (h.ledger hup').setWorker h.idsNodup hw hid hhung hended ?_ ?_
    · rcases hms with ⟨hne, hwish⟩ | ⟨he, rfl⟩
      · rw [if_neg hne]
        exact reportsOf_eq_zero (fun m hm => (hwish m hm).report?) _
      · rw [if_pos he, if_pos rfl, reportsOf_threadClosed, if_pos rfl]
    · intro id hne
      rcases hms with ⟨-, hwish⟩ | ⟨-, rfl⟩
      · exact reportsOf_eq_zero (fun m hm => (hwish m hm).report?) _
      · rw [if_pos rfl, reportsOf_threadClosed, if_neg hne]
  · have hdeaf' : e.host.mailbox.listening = false := hlistening.symm.trans hdeaf
    show (e.host.mailbox.postAll ms).messages = []
    rw [Mailbox.postAll_messages, hdeaf', h.emptied hdeaf']
    rfl
  · obtain ⟨hphase, hhungUp⟩ := h.down (hdown.1 hd)
    refine ⟨hphase, fun v hv => ?_⟩
    rcases hset v hv with hv | rfl
    · exact hhungUp v hv
    · exact hhung.trans (hhungUp w hmem)

/-- A group that has been built is brought to the engine. -/
lemma Sound.complete (h : e.Sound heard) {m : EngineMsg} (hm : m.report? = none)
    (creations : List Creation) :
    ({ e with host := { e.host with creations, mailbox := e.host.mailbox.post m } } :
      Engine).Sound heard := by
  have hpost := h.post hm
  exact
    { workers := hpost.workers
      idsNodup := hpost.idsNodup
      peace := hpost.peace
      ledger := hpost.ledger
      steady := ⟨hpost.steady.context, hpost.steady.announced⟩
      retired := hpost.retired
      emptied := hpost.emptied
      down := hpost.down }

/-- A thread makes a step of its own.

**Proof sketch.** The step of the worker says what it may do to the mailbox: it posts its report if
it ends with the step, and otherwise only messages that an extension may post. -/
lemma Sound.work (h : e.Sound heard) {place : Nat} {w w' : Worker} {mailbox : Mailbox EngineMsg}
    (hw : e.host.workers[place]? = some w) (hs : w.step? e.host.mailbox = some (mailbox, w')) :
    ({ e with host := { e.host with mailbox, workers := e.host.workers.set place w' } } :
      Engine).Sound heard := by
  have hsound := h.workers w (List.mem_of_getElem? hw)
  have hsteps := Worker.steps_of_step? hs
  obtain ⟨⟨hid, -, hhung⟩, hgone, hout⟩ := hsound.outcome hsteps
  have hended : w.stage ≠ .ended := by
    intro he
    simp [Worker.isGone, he] at hgone
  have hpeace : w.hungUp = false → w.Undisturbed → w'.Undisturbed :=
    fun hh hu => hu.steps hh hsteps
  rcases hout with ⟨hne, ms, hwish, rfl⟩ | ⟨he, rfl⟩
  · exact h.setWorker hw hended hid hhung (hsound.steps hsteps) hpeace (.inl ⟨hne, hwish⟩)
  · exact h.setWorker hw hended hid hhung (hsound.steps hsteps) hpeace (.inr ⟨he, rfl⟩)

/-- A ticker of a thread beats.

**Proof sketch.** A beat leaves the thread on its course: it takes up nothing from the inbox, its
stage stays, and all that it posts are wishes. -/
lemma Sound.beat (h : e.Sound heard) {place ticker : Nat} {w : Worker}
    (hw : e.host.workers[place]? = some w) (hk : ticker < w.tickers.length) :
    ({ e with host := { e.host with
      mailbox := (w.beat e.host.mailbox ticker).1
      workers := e.host.workers.set place (w.beat e.host.mailbox ticker).2 } } :
        Engine).Sound heard := by
  have hsound := h.workers w (List.mem_of_getElem? hw)
  obtain ⟨hbeat, hgone⟩ := hsound.beat hk e.host.mailbox
  obtain ⟨ho, ms, hwish, hmail⟩ := Worker.onCourse_beat w e.host.mailbox ticker
  have hended : w.stage ≠ .ended := by
    intro he
    simp [Worker.isGone, he] at hgone
  rw [hmail]
  refine h.setWorker hw hended ho.id ho.hungUp hbeat (fun _ hu => ?_) (.inl ⟨?_, hwish⟩)
  · refine ⟨?_, ?_, ?_⟩
    · rw [ho.inbox]
      exact hu.inbox
    · rw [ho.stage]
      exact hu.stopping
    · rw [ho.stage]
      exact hu.stopped
  · rw [ho.stage]
    exact hended

/-- A thread ends for want of a runtime. -/
lemma Sound.abort (h : e.Sound heard) {place : Nat} {w w' : Worker} {reason : String}
    {mailbox : Mailbox EngineMsg} (hw : e.host.workers[place]? = some w)
    (hs : w.abort? reason e.host.mailbox = some (mailbox, w')) :
    ({ e with host := { e.host with mailbox, workers := e.host.workers.set place w' } } :
      Engine).Sound heard := by
  obtain ⟨hfirst, rfl, hsound, hended, hid, hhung, -, hinbox⟩ := Worker.abort?_eq hs
  have hne : w.stage ≠ .ended := fun he => by
    rw [he] at hfirst
    cases hfirst
  refine h.setWorker hw hne hid hhung hsound (fun _ hu => ?_) (.inr ⟨hended, rfl⟩)
  refine ⟨?_, by rw [hended]; simp, by rw [hended]; simp⟩
  rw [hinbox]
  exact hu.inbox

/-- Every move keeps an engine in order.

**Proof sketch.** One case for each kind of move. Only when the engine takes a message does what it
has heard grow. -/
theorem Sound.move (h : e.Sound heard) {m : Move} (hm : e.move? m = some e') :
    e'.Sound (heard ++ (e.taken? m).toList) := by
  have hsame {e'' : Engine} (hh : m ≠ .handle) (hs : e''.Sound heard) :
      e''.Sound (heard ++ (e.taken? m).toList) := by
    rw [append_taken? hh]
    exact hs
  cases moves_of_move? hm with
  | handles _ htake =>
    rw [taken?_handle htake]
    exact h.handle htake
  | completes => exact hsame (by simp) (h.complete rfl _)
  | works hw hs => exact hsame (by simp) (h.work hw hs)
  | beats hw hk => exact hsame (by simp) (h.beat hw hk)
  | aborts hw hs => exact hsame (by simp) (h.abort hw hs)
  | sends => exact hsame (by simp) (h.post rfl)
  | refuses => exact hsame (by simp) h
  | closes => exact hsame (by simp) (h.post rfl)

/-- Nothing that goes on beside the engine makes it listen, or stop listening. -/
lemma Moves.listening {m : Move} (hm : e.Moves m e') (hh : m ≠ .handle) :
    e'.host.mailbox.listening = e.host.mailbox.listening ∧ e'.context = e.context := by
  cases hm with
  | handles => exact absurd rfl hh
  | completes => exact ⟨Mailbox.post_listening _ _, rfl⟩
  | works _ hs =>
    exact ⟨(Worker.steps_of_step? hs).extends.listening, rfl⟩
  | @beats place ticker w =>
    obtain ⟨-, ms, -, hmail⟩ := Worker.onCourse_beat w e.host.mailbox ticker
    exact ⟨by rw [hmail]; exact Mailbox.postAll_listening _ _, rfl⟩
  | aborts _ hs =>
    obtain ⟨-, hmail, -⟩ := Worker.abort?_eq hs
    exact ⟨by rw [hmail]; exact Mailbox.post_listening _ _, rfl⟩
  | sends | closes => exact ⟨Mailbox.post_listening _ _, rfl⟩
  | refuses => exact ⟨rfl, rfl⟩

/-- An engine that has gone down takes no message, so that it stays down, and its context stays as
it is. -/
lemma Sound.move?_of_down (h : e.Sound heard) (hd : e.IsDown) {m : Move}
    (hm : e.move? m = some e') : e'.IsDown ∧ e'.context = e.context ∧ m ≠ .handle := by
  have hh : m ≠ .handle := by
    rintro rfl
    cases moves_of_move? hm with
    | handles _ htake =>
      have hl := h.listening_of_take? htake
      rw [hd.1] at hl
      cases hl
  obtain ⟨hl, hc⟩ := (moves_of_move? hm).listening hh
  exact ⟨⟨hl.trans hd.1, by rw [hc]; exact hd.2⟩, hc, hh⟩

/-! ## Whole runs -/

/-- An engine is in order after its start, whether that has failed or not.

**Proof sketch.** Nothing has been spawned, so the clauses on threads and on the ledger hold of
empty lists. A start that has failed closes the engine right away, and closing keeps the books in
order. -/
lemma sound_start (link : Link) : (start link).1.Sound [] := by
  obtain ⟨hworkers, hmailbox⟩ := begun_host link
  obtain ⟨hsteady, hopen⟩ := begun_steady link
  have hbusy : (begun link).Busy := by
    refine ⟨?_, ?_, ?_⟩
    · rw [hworkers]
      simp
    · rw [hworkers]
      exact .nil
    · rw [hmailbox]
      rfl
  have hthreads : (begun link).context.threads = [] := by
    rw [begun_context]
    exact (Context.start_mild link).2.1
  have hledger : Ledger (begun link).context [] (begun link).host.mailbox.messages
      (begun link).host.workers := by
    intro id
    have hnone : (begun link).context.handle? id = none := by
      rw [Context.handle?, hthreads, atKey?_nil]
    rw [hnone, hworkers, hmailbox]
    exact ⟨rfl, fun _ => rfl⟩
  have hpeace : AtPeace (begun link).host.workers := by
    rw [hworkers]
    simp [AtPeace]
  rw [start_eq]
  split
  · exact Tracks.retire ⟨hbusy.workers, hbusy.idsNodup, hledger, fun _ => hpeace⟩ hsteady
      hbusy.listening
  · have hclose := hbusy.requestClose hsteady.context hledger (fun _ => hpeace) []
      (by simp)
    exact hclose.1.retire (hsteady.carryOut .close) hclose.2

/-- An engine in order stays in order through a run, whatever it hears. -/
lemma Sound.play (h : e.Sound heard) {moves : List Move} {taken : List EngineMsg} {e' : Engine}
    (hp : e.play moves = some (taken, e')) : e'.Sound (heard ++ taken) :=
  play_induction (fun h hm => h.move hm) h hp

/-- **An engine is in order at any time of its run.** -/
theorem sound_of_play {link : Link} {moves : List Move} {taken : List EngineMsg}
    (hp : (start link).1.play moves = some (taken, e)) : e.Sound taken :=
  (sound_start link).play hp

/-- An engine that is not down after a move was not down before it. -/
lemma Sound.not_isDown_of_move (h : e.Sound heard) {m : Move} (hm : e.move? m = some e')
    (hup : ¬ e'.IsDown) : ¬ e.IsDown :=
  fun hd => hup (h.move?_of_down hd hm).1

/-- A graph with a single extension, as an app starts it. -/
def oneExtension (x : Extension) : Link :=
  let g : GraphDefinition := ⟨[.extension ⟨"only", "addon", none, none, none⟩], []⟩
  ⟨"1", none, ⟨"app", ""⟩, ⟨.ofGraph "app" "1", none, g.topology "app" "1"⟩,
    ⟨[("addon", fun _ _ => .made x)], [(defaultGroupAddon, Registry.defaultGroup)]⟩, .willing⟩

end Engine

end ExtensionGraph
