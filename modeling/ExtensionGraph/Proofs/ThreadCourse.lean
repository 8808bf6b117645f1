import ExtensionGraph.Proofs.ThreadDeeds

/-!
# The course of a thread

A thread initialises and starts its extensions in the order of their creation. Then it takes its
inbox from the front and hands every message to the first extension of the name that the message is
for, up to the request to end or to the end of the inbox. It stops its extensions and takes them
down in the opposite order, and reports in the end. No result of any call and nothing that is
written meanwhile changes this course. Only a call that takes the thread down, or never returns,
cuts it short.

A thread is watched here from its start while others write to it, its tickers beat, and the mailbox
of its engine changes as it likes. It is on its track if what it has done and what it has still to
do make up its course, and whatever happens keeps it there.

## Main definitions

* `ExtensionGraph.Scene`, `ExtensionGraph.Scene.play` — a thread among others, and what happens.
* `ExtensionGraph.Scene.OnTrack` — the invariant.
* `ExtensionGraph.Scene.KeepsCourse` — what is promised of a thread.

## Main results

* `ExtensionGraph.Scene.OnTrack.turn?` — whatever happens keeps a thread on its track.
* `ExtensionGraph.Scene.keepsCourse_of_play` — every thread keeps its course.
-/

namespace ExtensionGraph

/-! ## A thread among others -/

/-- A thread as it is watched. -/
structure Scene where
  worker : Worker
  /-- What has been written to its inbox so far. -/
  written : List ThreadMsg
  /-- What it has done so far. -/
  deeds : List Deed
  /-- Whether its runtime could not be built. -/
  refused : Bool

/-- What can happen next to a thread. -/
inductive Turn where
  /-- It makes a step. -/
  | step
  /-- One of its tickers beats. -/
  | beat (ticker : Nat)
  /-- It cannot even begin. -/
  | abort (reason : String)
  /-- Somebody writes to its inbox. -/
  | write (m : ThreadMsg)
  /-- Nobody can write to its inbox any more. -/
  | hangUp

namespace Scene

/-- A thread that has just been started. -/
def begin (link : Link) (id : ThreadId) (g : Group) (t : Topology) : Scene :=
  ⟨.create link id g t, [], [], false⟩

variable (s : Scene)

/-- The thread has become another one. -/
def become (w : Worker) : Scene :=
  { s with worker := w, deeds := s.deeds ++ (s.worker.deed? w).toList }

/-- What happens next, beside the mailbox of the engine. -/
def turn? (engine : Mailbox EngineMsg) : Turn → Option (Mailbox EngineMsg × Scene)
  | .step => (s.worker.step? engine).map fun r => (r.1, s.become r.2)
  | .beat k => some ((s.worker.beat engine k).1, s.become (s.worker.beat engine k).2)
  | .abort reason =>
    (s.worker.abort? reason engine).map fun r => (r.1, { s.become r.2 with refused := true })
  | .write m =>
    if s.worker.hungUp = false ∧ s.worker.isReceiving = true then
      some (engine, { s with worker := s.worker.write [m], written := s.written ++ [m] })
    else none
  | .hangUp => some (engine, { s with worker := { s.worker with hungUp := true } })

/-- Several things happen one after the other, while the mailbox of the engine changes as it
likes. -/
def play (s : Scene) : List (Mailbox EngineMsg × Turn) → Option Scene
  | [] => some s
  | (engine, turn) :: rest => (s.turn? engine turn).bind fun r => r.2.play rest

variable {s s' : Scene} {engine engine' : Mailbox EngineMsg} {id : ThreadId} {crew : List Hosted}
  {turn : Turn}

/-! ## What happens keeps a thread on its track -/

/-- A thread that has not gone down is on its track: what it has done and what it has still to do
make up its course. -/
structure OnTrack (id : ThreadId) (crew : List Hosted) (s : Scene) : Prop where
  id : s.worker.id = id
  alive : s.worker.stage ≠ .crashed
  sound : s.worker.Sound
  inPlace : s.worker.InPlace
  fed : s.worker.Fed s.written s.refused
  course : s.deeds ++ s.worker.outlook = Deed.course s.worker.roster s.written
  noted : s.worker.methodCalls = s.deeds.filterMap (Deed.named? s.worker.roster)
  crew : s.refused = false → s.worker.crew = crew
  refused : s.refused = true → s.worker.stage = .ended ∧ s.worker.hosted = []

/-- A thread that has just been started has its whole course before it. -/
lemma onTrack_begin (link : Link) (id : ThreadId) (g : Group) (t : Topology) :
    (begin link id g t).OnTrack id ((Worker.hostAll link id g t).map Hosted.still) where
  id := rfl
  alive := Worker.create_stage_ne link id g t rfl
  sound := Worker.sound_create link id g t
  inPlace x hx := by
    rw [Worker.length_roster]
    simp only [begin, Worker.create, Worker.openingAgenda, List.mem_append, List.mem_map,
      List.mem_range] at hx
    obtain ⟨k, hk, rfl⟩ | ⟨k, hk, rfl⟩ := hx
    · exact hk
    · exact hk
  fed :=
    ⟨fun _ => rfl, fun hs => absurd hs (Worker.create_stage_ne link id g t rfl), by
      rintro (hs | hs | hs)
      · exact absurd hs (Worker.create_stage_ne link id g t rfl)
      · exact absurd hs (Worker.create_stage_ne link id g t rfl)
      · exact absurd hs (Worker.create_stage_ne link id g t rfl)⟩
  course := (Worker.create link id g t).outlook_of_fresh (Worker.create_isFirst link id g t) rfl
  noted := Worker.filterMap_create (fun _ => Worker.methodCall?_eq_none) link id g t
  crew _ := rfl
  refused := by simp [begin]

/-- A step that does not take the thread down keeps it on its track.

**Proof sketch.** What the step does is the next of what was to come (`deeds_of_steps`), and is
noted (`methodCalls_of_step?`). The step of a thread without a runtime does not exist, since it has
ended. -/
lemma OnTrack.step (h : s.OnTrack id crew) {w' : Worker}
    (hs : s.worker.step? engine = some (engine', w')) (halive : w'.stage ≠ .crashed) :
    (s.become w').OnTrack id crew := by
  have hw := Worker.steps_of_step? hs
  obtain ⟨⟨hid, hroster, -⟩, hgone, -⟩ := h.sound.outcome hw
  exact {
    id := hid.trans h.id
    alive := halive
    sound := h.sound.steps hw
    inPlace := h.inPlace.steps hw
    fed := h.fed.steps hw
    course := by
      show s.deeds ++ (s.worker.deed? w').toList ++ w'.outlook = Deed.course w'.roster s.written
      rw [List.append_assoc, Worker.deeds_of_steps h.sound h.inPlace hw halive, hroster]
      exact h.course
    noted := by
      show w'.methodCalls =
        (s.deeds ++ (s.worker.deed? w').toList).filterMap (Deed.named? w'.roster)
      rw [Worker.methodCalls_of_step? h.inPlace hs, hroster, List.filterMap_append, h.noted]
    crew := fun hr => (Worker.continues_step? hs).crew.trans (h.crew hr)
    refused := fun hr => by
      rw [s.worker.isGone_iff.2 (.inl (h.refused hr).1)] at hgone
      cases hgone }

/-- A ticker changes nothing about the course of its thread.

**Proof sketch.** A turn of a ticker is no deed, and leaves the stage, the agenda, the inbox and the
extensions alone. So what is still to come and what is noted are the same. -/
lemma OnTrack.beat (h : s.OnTrack id crew) (engine : Mailbox EngineMsg) (k : Nat) :
    (s.become (s.worker.beat engine k).2).OnTrack id crew := by
  obtain ⟨ho, -⟩ := Worker.onCourse_beat s.worker engine k
  obtain ⟨-, hhosted⟩ := s.worker.beat_frame engine k
  have hsound : (s.worker.beat engine k).2.Sound := by
    cases hk : s.worker.tickers[k]? with
    | none =>
      unfold Worker.beat
      rw [hk]
      exact h.sound
    | some b => exact (h.sound.beat (List.getElem?_eq_some_iff.1 hk).1 engine).1
  have hcrew := (Worker.continues_beat s.worker engine k).crew
  have hnoted : (s.worker.beat engine k).2.methodCalls = s.worker.methodCalls :=
    Worker.filterMap_beat (fun _ => Worker.methodCall?_eq_none) s.worker engine k
  unfold become
  rw [Worker.deed?_beat, Option.toList_none, List.append_nil]
  generalize (s.worker.beat engine k).2 = w' at ho hhosted hsound hcrew hnoted
  exact {
    id := ho.id.trans h.id
    alive := fun hs => h.alive (ho.stage.symm.trans hs)
    sound := hsound
    inPlace := by
      show ∀ x ∈ w'.agenda, x.1 < w'.roster.length
      rw [ho.agenda, ho.roster]
      exact h.inPlace
    fed := h.fed.congr ho.stage ho.inbox ho.hungUp
    course := by
      show s.deeds ++ w'.outlook = Deed.course w'.roster s.written
      rw [ho.outlook, ho.roster]
      exact h.course
    noted := by
      show w'.methodCalls = s.deeds.filterMap (Deed.named? w'.roster)
      rw [hnoted, ho.roster]
      exact h.noted
    crew := fun hr => hcrew.trans (h.crew hr)
    refused := fun hr => ⟨ho.stage.trans (h.refused hr).1, hhosted.trans (h.refused hr).2⟩ }

/-- Writing makes the course longer, or comes too late.

**Proof sketch.** What comes before the request to end is added to what is to come and to the whole
course alike (`Fed.outlook_write`); what comes after it counts for neither. -/
lemma OnTrack.write (h : s.OnTrack id crew) (hh : s.worker.hungUp = false)
    (hr : s.worker.isReceiving = true) (m : ThreadMsg) :
    OnTrack id crew { s with worker := s.worker.write [m], written := s.written ++ [m] } where
  id := (s.worker.write_id [m]).trans h.id
  alive hs := h.alive ((s.worker.write_stage [m]).symm.trans hs)
  sound := by
    show (s.worker.write [m]).Sound
    rw [s.worker.write_of_receiving [m] hr]
    exact ⟨h.sound.course, h.sound.creating, h.sound.serving, h.sound.resting, h.sound.silent⟩
  inPlace := by
    show (s.worker.write [m]).InPlace
    rw [s.worker.write_of_receiving [m] hr]
    exact h.inPlace
  fed := h.fed.write hr m
  course := by
    show s.deeds ++ (s.worker.write [m]).outlook =
      Deed.course (s.worker.write [m]).roster (s.written ++ [m])
    rw [s.worker.write_roster]
    exact h.fed.outlook_write hh (fun hrefused => (h.refused hrefused).1) hr h.course
  noted := by
    show (s.worker.write [m]).methodCalls =
      s.deeds.filterMap (Deed.named? (s.worker.write [m]).roster)
    rw [s.worker.write_of_receiving [m] hr]
    exact h.noted
  crew hrefused := by
    show (s.worker.write [m]).crew = crew
    rw [s.worker.write_of_receiving [m] hr]
    exact h.crew hrefused
  refused hrefused := by
    rw [Worker.isReceiving, (h.refused hrefused).1] at hr
    cases hr

/-- Whether anybody can write to a thread does not matter for what has been written. -/
lemma OnTrack.hangUp (h : s.OnTrack id crew) :
    OnTrack id crew { s with worker := { s.worker with hungUp := true } } where
  id := h.id
  alive := h.alive
  sound := h.sound.hangUp true
  inPlace := h.inPlace
  fed := ⟨h.fed.opening, h.fed.serving, fun _ => .inr (.inl rfl)⟩
  course := h.course
  noted := h.noted
  crew := h.crew
  refused := h.refused

/-- A thread that cannot even begin has done nothing but to report.

**Proof sketch.** A thread can only be without a runtime before its first step. It then has no
extensions, and its course is nothing but the report. -/
lemma OnTrack.abort (h : s.OnTrack id crew) {reason : String} {w' : Worker}
    (hs : s.worker.abort? reason engine = some (engine', w')) :
    OnTrack id crew { s.become w' with refused := true } := by
  obtain ⟨-, -, hsound, hended, hid, -⟩ := Worker.abort?_eq hs
  have hreport := Worker.deed?_abort? hs
  unfold Worker.abort? at hs
  split at hs
  · next hfresh =>
    unfold Worker.isFresh at hfresh
    simp only [Bool.and_eq_true, decide_eq_true_eq, Option.isNone_iff_eq_none] at hfresh
    obtain ⟨⟨hstage, -⟩, hagenda⟩ := hfresh
    -- The whole course was still to come, so nothing has been done.
    have hdeeds : s.deeds = [] := by
      have hcourse := h.course
      rw [s.worker.outlook_of_fresh hstage hagenda, h.fed.opening hstage] at hcourse
      exact List.append_left_eq_self.1 hcourse
    obtain ⟨hroster, hagenda', hhosted, hcalls⟩ : w'.roster = [] ∧ w'.agenda = [] ∧
        w'.hosted = [] ∧ w'.methodCalls = [] := by
      cases hs
      exact ⟨rfl, rfl, rfl, rfl⟩
    unfold become
    rw [hreport, hdeeds]
    exact {
      id := hid.trans h.id
      alive := by simp [hended]
      sound := hsound
      inPlace := by simp [Worker.InPlace, hagenda']
      fed := ⟨by simp [hended, Stage.isFirst], by simp [hended], fun _ => .inr (.inr rfl)⟩
      course := by
        show [.report] ++ w'.outlook = Deed.course w'.roster s.written
        rw [Deed.course, hroster, Deed.served_nil]
        unfold Worker.outlook
        rw [hended]
        rfl
      noted := hcalls
      crew := by simp
      refused := fun _ => ⟨hended, hhosted⟩ }
  · cases hs

/-- The thread has gone down, and rests in peace. -/
structure Down (s : Scene) : Prop where
  sound : s.worker.Sound
  crashed : s.worker.stage = .crashed

/-- **Whatever happens keeps a thread on its track**, unless it takes the thread down.

**Proof sketch.** By the kinds of turns, with one lemma for each. Only a step can take the thread
down. -/
theorem OnTrack.turn? (h : s.OnTrack id crew) (hs : s.turn? engine turn = some (engine', s')) :
    s'.OnTrack id crew ∨ s'.Down := by
  cases turn with
  | step =>
    obtain ⟨⟨_, w'⟩, hstep, heq⟩ := Option.map_eq_some_iff.1 hs
    cases heq
    by_cases hc : w'.stage = .crashed
    · exact .inr ⟨h.sound.steps (Worker.steps_of_step? hstep), hc⟩
    · exact .inl (h.step hstep hc)
  | beat k =>
    cases hs
    exact .inl (h.beat engine k)
  | abort reason =>
    obtain ⟨⟨_, w'⟩, habort, heq⟩ := Option.map_eq_some_iff.1 hs
    cases heq
    exact .inl (h.abort habort)
  | write m =>
    obtain ⟨⟨hh, hr⟩, heq⟩ := Option.ite_none_right_eq_some.1 hs
    cases heq
    exact .inl (h.write hh hr m)
  | hangUp =>
    cases hs
    exact .inl h.hangUp

/-- A thread that has gone down stays down.

**Proof sketch.** A thread that is down takes no step and no message and has no tickers, so that no
turn changes its stage. -/
lemma Down.turn? (h : s.Down) (hs : s.turn? engine turn = some (engine', s')) : s'.Down := by
  have hgone : s.worker.isGone = true := s.worker.isGone_iff.2 (.inr h.crashed)
  cases turn with
  | step =>
    obtain ⟨⟨_, w'⟩, hstep, -⟩ := Option.map_eq_some_iff.1 hs
    rw [h.sound.step?_of_gone hgone] at hstep
    cases hstep
  | beat k =>
    cases hs
    have hsame : (s.worker.beat engine k).2 = s.worker := by
      unfold Worker.beat
      rw [h.sound.silent hgone]
      rfl
    unfold become
    rw [hsame]
    exact ⟨h.sound, h.crashed⟩
  | abort reason =>
    obtain ⟨⟨_, w'⟩, habort, -⟩ := Option.map_eq_some_iff.1 hs
    obtain ⟨hfirst, -⟩ := Worker.abort?_eq habort
    rw [h.crashed] at hfirst
    cases hfirst
  | write m =>
    obtain ⟨⟨-, hr⟩, -⟩ := Option.ite_none_right_eq_some.1 hs
    rw [Worker.isReceiving_of_isGone hgone] at hr
    cases hr
  | hangUp =>
    cases hs
    exact ⟨h.sound.hangUp true, h.crashed⟩

/-- At any time a thread is on its track, or has gone down. -/
theorem onTrack_or_down_of_play {turns : List (Mailbox EngineMsg × Turn)}
    (h : s.OnTrack id crew ∨ s.Down) (hp : s.play turns = some s') :
    s'.OnTrack id crew ∨ s'.Down := by
  induction turns generalizing s with
  | nil =>
    cases hp
    exact h
  | cons x rest ih =>
    obtain ⟨⟨engine', s₁⟩, hturn, hrest⟩ := Option.bind_eq_some_iff.1 hp
    refine ih ?_ hrest
    rcases h with h | h
    · exact h.turn? hturn
    · exact .inr (h.turn? hturn)

/-! ## What is promised of a thread -/

/-- What is promised of a thread that hosts the members of a group and has not gone down. -/
structure KeepsCourse (link : Link) (id : ThreadId) (g : Group) (t : Topology) (s : Scene) :
    Prop where
  /-- Its extensions are those that the addons of the members create, in the order of the members,
  unless it had no runtime, or an addon does not return. -/
  roster : s.worker.roster = if s.refused ∨ (Worker.loss? link id g).isSome then [] else
    (g.members.filter fun m =>
      (link.registry.createExtension ⟨link.graph, id⟩ m.addon m.name).isMade).map (·.name)
  /-- They stay what they were created as, but for what they remember. -/
  crew : s.worker.crew = if s.refused then [] else (Worker.hostAll link id g t).map Hosted.still
  /-- What the thread has done is where its course begins. -/
  within : s.deeds <+: Deed.course s.worker.roster s.written
  /-- What it has noted are just these calls. -/
  noted : s.worker.methodCalls = s.deeds.filterMap (Deed.named? s.worker.roster)
  /-- It closes nothing before it is asked to end, or nobody can write to it any more. -/
  asked : ∀ d ∈ s.deeds, d.closes = true →
    .close ∈ s.written ∨ s.worker.hungUp = true ∨ s.refused = true
  /-- What it posts to the engine is its report when it reports, and nothing but wishes else. -/
  posts : ∀ {engine engine' : Mailbox EngineMsg} {turn : Turn} {s' : Scene},
    s.turn? engine turn = some (engine', s') →
      ∃ done : Option Deed, s'.deeds = s.deeds ++ done.toList ∧
        (done = some .report ∧ engine' = engine.post (.threadClosed id) ∨
          done ≠ some .report ∧
            ∃ ms : List EngineMsg, (∀ m ∈ ms, m.IsWish) ∧ engine' = engine.postAll ms)
  /-- It has ended when it has done all of its course, and not before. -/
  ended : s.worker.stage = .ended ↔ s.deeds = Deed.course s.worker.roster s.written
  /-- If it makes no step by itself, a call hangs, or all is done, or it has served whatever was
  written and waits for more. -/
  rests : ∀ {engine : Mailbox EngineMsg}, s.worker.step? engine = none →
    s.worker.Hangs ∨
    s.deeds = Deed.course s.worker.roster s.written ∨
    s.deeds = Deed.opening s.worker.roster.length ++ Deed.served s.worker.roster s.written ∧
      .close ∉ s.written ∧ s.worker.hungUp = false
  /-- It does not make steps by itself for ever. -/
  finite : Acc (fun w' w => ∃ engine engine', w.step? engine = some (engine', w')) s.worker

/-- The steps that a thread makes by itself come to an end. -/
lemma acc_step? (w : Worker) :
    Acc (fun w' w : Worker => ∃ engine engine', w.step? engine = some (engine', w')) w := by
  refine (Subrelation.wf ?_ (InvImage.wf Worker.effort WellFoundedRelation.wf)).apply w
  rintro w' w ⟨engine, engine', hs⟩
  exact w.effort_step? hs

/-- The extensions of a thread have the names of the members that are created.

**Proof sketch.** Induction on the members: a member is hosted, under its name, exactly if its addon
makes an extension. -/
lemma map_name_hostAll (link : Link) (id : ThreadId) (g : Group) (t : Topology) :
    (Worker.hostAll link id g t).map (·.name) =
      if (Worker.loss? link id g).isSome then [] else
        (g.members.filter fun m =>
          (link.registry.createExtension ⟨link.graph, id⟩ m.addon m.name).isMade).map (·.name) := by
  unfold Worker.hostAll
  split
  · rfl
  · generalize g.members = ms
    induction ms with
    | nil => rfl
    | cons m ms ih =>
      rw [List.filterMap_cons, List.filter_cons]
      unfold Worker.host? Worker.making
      cases hm : link.registry.createExtension ⟨link.graph, id⟩ m.addon m.name with
      | made x =>
        rw [if_pos (by rfl)]
        exact congrArg (m.name :: ·) ih
      | refused | lost =>
        rw [if_neg (by simp [Making.isMade])]
        exact ih

/-- A thread on its track closes nothing as long as it takes its inbox.

**Proof sketch.** As long as the thread takes its inbox, the closing is still to come as a whole. So
what has been done belongs to the opening or the serving, neither of which closes anything. From
then on the thread has been asked. -/
lemma OnTrack.asked (h : s.OnTrack id crew) {d : Deed} (hd : d ∈ s.deeds)
    (hcloses : d.closes = true) :
    .close ∈ s.written ∨ s.worker.hungUp = true ∨ s.refused = true := by
  have hserves (ho : s.worker.outlook = s.worker.agenda.map .ofHook ++
      Deed.served s.worker.roster s.worker.inbox ++ Deed.closing s.worker.roster.length ++
        [.report]) : False := by
    have hcourse := h.course
    rw [ho, Deed.course] at hcourse
    simp only [← List.append_assoc, List.append_cancel_right_eq] at hcourse
    have hmem : d ∈ Deed.opening s.worker.roster.length ++
        Deed.served s.worker.roster s.written := by
      rw [← hcourse, List.append_assoc]
      exact List.mem_append_left _ hd
    rw [Deed.closes_of_mem hmem] at hcloses
    cases hcloses
  cases hs : s.worker.stage with
  | creating | opening | serving => exact (hserves (by simp [Worker.outlook, hs])).elim
  | stopping => exact h.fed.ending (.inl hs)
  | stopped => exact h.fed.ending (.inr (.inl hs))
  | ended => exact h.fed.ending (.inr (.inr hs))
  | crashed => exact absurd hs h.alive

/-- A thread on its track has ended exactly if it has done everything. -/
lemma OnTrack.ended_iff (h : s.OnTrack id crew) :
    s.worker.stage = .ended ↔ s.deeds = Deed.course s.worker.roster s.written := by
  rw [← h.course, List.self_eq_append_right]
  unfold Worker.outlook
  have halive := h.alive
  cases hs : s.worker.stage with
  | creating | opening | serving | stopping | stopped => simp
  | ended => simp
  | crashed => exact absurd hs halive

/-- What a thread on its track posts to the engine.

**Proof sketch.** By the kinds of turns. `Sound.outcome` says that a step posts the report exactly
if it ends the thread, which is when the report is the deed; a ticker posts wishes, and writing to a
thread posts nothing. -/
lemma OnTrack.posts (h : s.OnTrack id crew) (hs : s.turn? engine turn = some (engine', s')) :
    ∃ done : Option Deed, s'.deeds = s.deeds ++ done.toList ∧
      (done = some .report ∧ engine' = engine.post (.threadClosed id) ∨
        done ≠ some .report ∧
          ∃ ms : List EngineMsg, (∀ m ∈ ms, m.IsWish) ∧ engine' = engine.postAll ms) := by
  have hnothing : s.deeds = s.deeds ++ (none : Option Deed).toList := (List.append_nil _).symm
  cases turn with
  | step =>
    obtain ⟨⟨_, w'⟩, hstep, heq⟩ := Option.map_eq_some_iff.1 hs
    cases heq
    have hw := Worker.steps_of_step? hstep
    obtain ⟨-, hgone, ⟨hended, hwishes⟩ | ⟨hended, hpost⟩⟩ := h.sound.outcome hw
    · exact ⟨s.worker.deed? w', rfl, .inr ⟨Worker.report_ne_deed? hended, hwishes⟩⟩
    · obtain ⟨-, -, hactive⟩ := (h.sound.steps hw).resting
        (Worker.isReceiving_of_isGone (w'.isGone_iff.2 (.inl hended)))
      refine ⟨s.worker.deed? w', rfl, .inl ⟨?_, h.id ▸ hpost⟩⟩
      rw [Worker.deed?_of_inactive hactive,
        if_pos ⟨Worker.not_ended_of_not_gone hgone, hended⟩]
  | beat k =>
    cases hs
    obtain ⟨-, hwishes⟩ := Worker.onCourse_beat s.worker engine k
    refine ⟨s.worker.deed? (s.worker.beat engine k).2, rfl, .inr ⟨?_, hwishes⟩⟩
    rw [Worker.deed?_beat]
    simp
  | abort reason =>
    obtain ⟨⟨_, w'⟩, habort, heq⟩ := Option.map_eq_some_iff.1 hs
    cases heq
    obtain ⟨-, hpost, -⟩ := Worker.abort?_eq habort
    exact ⟨s.worker.deed? w', rfl, .inl ⟨Worker.deed?_abort? habort, h.id ▸ hpost⟩⟩
  | write m =>
    obtain ⟨-, heq⟩ := Option.ite_none_right_eq_some.1 hs
    cases heq
    exact ⟨none, hnothing, .inr ⟨by simp, [], by simp, rfl⟩⟩
  | hangUp =>
    cases hs
    exact ⟨none, hnothing, .inr ⟨by simp, [], by simp, rfl⟩⟩

/-- When a thread on its track makes no step by itself.

**Proof sketch.** By the stage. Where a thread has nothing active and nothing on its agenda, it goes
on to the next stage unless it waits: for an addon that hangs, or with an empty inbox that somebody
may still write to. If it has ended, its course is complete. -/
lemma OnTrack.rests (h : s.OnTrack id crew) (hs : s.worker.step? engine = none) :
    s.worker.Hangs ∨ s.deeds = Deed.course s.worker.roster s.written ∨
    s.deeds = Deed.opening s.worker.roster.length ++ Deed.served s.worker.roster s.written ∧
      .close ∉ s.written ∧ s.worker.hungUp = false := by
  unfold Worker.step? at hs
  split at hs
  · next c ha => exact .inl (.inl ⟨c, ha, s.worker.hangs_of_execute? hs⟩)
  · cases hs
  · next ha hg =>
    unfold Worker.advance? at hs
    cases hstage : s.worker.stage with
    | creating loss =>
      rw [hstage] at hs
      cases loss with
      | crash => cases hs
      | hang => exact .inl (.inr hstage)
    | opening | stopping | stopped =>
      rw [hstage] at hs
      cases hs
    | ended => exact .inr (.inl (h.ended_iff.1 hstage))
    | crashed => exact absurd hstage h.alive
    | serving =>
      rw [hstage] at hs
      have hserve : s.worker.serve? = none := Option.map_eq_none_iff.1 hs
      unfold Worker.serve? at hserve
      split at hserve
      · cases hserve
      · cases hserve
      · next hi =>
        split at hserve
        · cases hserve
        · next hh =>
          refine .inr (.inr ⟨?_, ?_, by simpa using hh⟩)
          · have hcourse := h.course
            -- The inbox is empty, so that only the closing is left.
            have hleft : s.worker.outlook =
                Deed.closing s.worker.roster.length ++ [.report] := by
              unfold Worker.outlook
              rw [hstage, hg, hi]
              rfl
            rw [hleft, Deed.course, ← List.append_assoc] at hcourse
            simpa only [List.append_cancel_right_eq] using hcourse
          · rw [h.fed.serving hstage, hi]
            simp

/-- **Every thread keeps its course**, whatever its extensions do, as long as none of them takes it
down.

**Proof sketch.** A thread that is alive at the end is on its track, by induction on the turns
(`onTrack_or_down_of_play`). Each clause is then one of the lemmas about threads on their tracks;
steps come to an end by `acc_step?`. -/
theorem keepsCourse_of_play {link : Link} {id : ThreadId} {g : Group} {t : Topology}
    {turns : List (Mailbox EngineMsg × Turn)} {s : Scene}
    (hp : (begin link id g t).play turns = some s) (halive : s.worker.stage ≠ .crashed) :
    s.KeepsCourse link id g t := by
  have htrack : s.OnTrack id ((Worker.hostAll link id g t).map Hosted.still) :=
    (onTrack_or_down_of_play (.inl (onTrack_begin link id g t)) hp).resolve_right
      fun hdown => halive hdown.crashed
  have hcrew : s.worker.crew =
      if s.refused then [] else (Worker.hostAll link id g t).map Hosted.still := by
    cases hr : s.refused with
    | false => exact htrack.crew hr
    | true => rw [Worker.crew, (htrack.refused hr).2]; rfl
  have hnames : s.worker.roster = s.worker.crew.map (·.name) := by
    rw [Worker.crew, List.map_map]
    rfl
  refine {
    roster := ?_
    crew := hcrew
    within := ⟨_, htrack.course⟩
    noted := htrack.noted
    asked := fun d hd => htrack.asked hd
    posts := htrack.posts
    ended := htrack.ended_iff
    rests := htrack.rests
    finite := acc_step? s.worker }
  rw [hnames, hcrew]
  cases hr : s.refused with
  | true => rfl
  | false =>
    simp only [Bool.false_eq_true, if_false, false_or]
    rw [← map_name_hostAll link id g t, List.map_map]
    rfl

/-- An extension all of whose calls fail. -/
def unwilling : Extension := ⟨.null, fun memory _ _ => .done (.error (.closed "never")) memory⟩

/-- A group in which a name occurs twice, and in which one addon is unknown. -/
def unevenGroup : Group :=
  (Group.create "group" defaultGroupAddon).withMembers
    [⟨"fails", "a"⟩, ⟨"missing", "x"⟩, ⟨"fails", "b"⟩, ⟨"fails", "a"⟩]

/-- A graph that knows the one addon. -/
def unevenLink : Link :=
  ⟨"1", none, ⟨"app", ""⟩, ⟨.ofGraph "app" "1", none, ⟨[], [], ⟨[]⟩⟩⟩,
    ⟨[("fails", fun _ _ => .made unwilling)], []⟩, .willing⟩

/-- What is written to the thread: messages to a hosted extension, to an unknown one and to the name
that occurs twice, and one that comes too late. -/
def unevenWritten : List ThreadMsg :=
  [.deliver "b" (.create .data "news" default), .deliver "x" (.create .cmd "ask" default),
    .deliver "a" (.create .cmd "ask" default), .close,
    .deliver "b" (.create .data "late" default)]

/-- No failure changes the course, and neither do the member that could not be created and the
message that came too late. -/
theorem keepsCourse_of_play_uneven :
    ∃ s, (begin unevenLink ⟨1⟩ unevenGroup ⟨[], [], ⟨[]⟩⟩).play
        ((unevenWritten.map fun m => (.empty, .write m)) ++
          List.replicate 33 (.empty, .step)) = some s ∧
      s.worker.stage ≠ .crashed ∧
      s.KeepsCourse unevenLink ⟨1⟩ unevenGroup ⟨[], [], ⟨[]⟩⟩ ∧
      s.deeds =
        [.call 0 .onInit, .call 1 .onInit, .call 2 .onInit, .call 0 .onStart, .call 1 .onStart,
          .call 2 .onStart, .call 1 (.onData (.create .data "news" default)),
          .call 0 (.onCmd (.create .cmd "ask" default)), .call 2 .onStop, .call 1 .onStop,
          .call 0 .onStop, .call 2 .onDeinit, .call 1 .onDeinit, .call 0 .onDeinit, .report] := by
  have hrun : ((begin unevenLink ⟨1⟩ unevenGroup ⟨[], [], ⟨[]⟩⟩).play
      ((unevenWritten.map fun m => (.empty, .write m)) ++
        List.replicate 33 (.empty, .step))).map (fun s =>
          (s.worker.stage, s.worker.roster, s.written)) =
        some (.ended, ["a", "b", "a"], unevenWritten) := by rfl
  obtain ⟨s, hp, hsum⟩ := Option.map_eq_some_iff.1 hrun
  simp only [Prod.mk.injEq] at hsum
  obtain ⟨hended, hroster, hwritten⟩ := hsum
  have halive : s.worker.stage ≠ .crashed := by simp [hended]
  have hcourse := keepsCourse_of_play hp halive
  refine ⟨s, hp, halive, hcourse, ?_⟩
  rw [hcourse.ended.1 hended, hroster, hwritten]
  rfl

end Scene

end ExtensionGraph
