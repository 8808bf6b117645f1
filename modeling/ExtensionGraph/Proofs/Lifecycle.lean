import ExtensionGraph.Proofs.WorkerSteps

/-!
# The lifecycle of extensions

A worker calls every one of its extensions four times: it initialises and starts them in their
order, and stops and takes them down in the opposite order. The calls that were made and those that
are still to come make up this lifecycle at any time, unless an extension takes the thread down.

## Main definitions

* `ExtensionGraph.Worker.lifecycle` — the lifecycle calls of extensions with given names.
* `ExtensionGraph.Worker.pending` — the calls that are still to come.
* `ExtensionGraph.Worker.Sound` — workers in order.
* `ExtensionGraph.Worker.Undisturbed` — workers that nobody has asked to end.

## Main results

* `ExtensionGraph.Worker.Sound.steps`, `ExtensionGraph.Worker.Undisturbed.steps` — steps keep
  workers in order, and do not disturb them.
* `ExtensionGraph.Worker.Sound.outcome` — a step reports the end of the thread exactly if it ends
  it.
* `ExtensionGraph.Worker.Sound.hookCalls_of_ended` — a thread that has ended has gone through the
  whole lifecycle.
-/

namespace ExtensionGraph

namespace Worker

/-! ## Agendas by name -/

/-- The calls that open extensions. -/
def openings (names : List String) : List (String × Hook) :=
  names.map (·, .init) ++ names.map (·, .start)

/-- The calls that close extensions. -/
def closings (names : List String) : List (String × Hook) :=
  names.reverse.map (·, .stop) ++ names.reverse.map (·, .deinit)

/-- The lifecycle of extensions with the given names. -/
def lifecycle (names : List String) : List (String × Hook) := openings names ++ closings names

/-- An agenda with the names of the extensions in place of their places. -/
def callsOn (names : List String) (agenda : List (Nat × Hook)) : List (String × Hook) :=
  agenda.filterMap fun x => names[x.1]?.map (·, x.2)

/-- An agenda is worked off part by part. -/
lemma callsOn_append (names : List String) (l l' : List (Nat × Hook)) :
    callsOn names (l ++ l') = callsOn names l ++ callsOn names l' :=
  List.filterMap_append

/-- Looking up the first places of a list is taking its first entries. -/
lemma filterMap_range_eq_take {α β : Type} (l : List α) (f : α → β) {n : Nat}
    (hn : n ≤ l.length) :
    (List.range n).filterMap (fun k => l[k]?.map f) = (l.take n).map f := by
  induction n with
  | zero => rfl
  | succ n ih =>
    have hlt : n < l.length := hn
    rw [List.range_succ, List.filterMap_append, ih (by omega), List.take_succ_eq_append_getElem hlt,
      List.map_append]
    simp [List.getElem?_eq_getElem hlt]

/-- Calling all extensions for the same thing, in their order. -/
lemma callsOn_range (names : List String) (h : Hook) :
    callsOn names ((List.range names.length).map (·, h)) = names.map (·, h) := by
  rw [callsOn, List.filterMap_map]
  have hall := filterMap_range_eq_take names (fun name => (name, h)) (Nat.le_refl _)
  rw [List.take_length] at hall
  exact hall

/-- One call for each extension, from the last to the first. -/
lemma callsOn_range_reverse (names : List String) (h : Hook) :
    callsOn names ((List.range names.length).reverse.map (·, h)) = names.reverse.map (·, h) := by
  have hrange := callsOn_range names h
  rw [callsOn] at hrange ⊢
  rw [List.map_reverse, List.filterMap_reverse, hrange, List.map_reverse]

/-- The opening agenda opens the extensions in their order. -/
lemma callsOn_openingAgenda (names : List String) :
    callsOn names (openingAgenda names.length) = openings names := by
  rw [openingAgenda, callsOn_append, callsOn_range, callsOn_range]
  rfl

/-- The stopping agenda closes the extensions in the opposite order. -/
lemma callsOn_stoppingAgenda (names : List String) :
    callsOn names (stoppingAgenda names.length) = closings names := by
  rw [stoppingAgenda, callsOn_append, callsOn_range_reverse, callsOn_range_reverse]
  rfl

/-! ## Workers in order -/

/-- The lifecycle calls that are still to come. -/
def pending (w : Worker) : List (String × Hook) :=
  match w.stage with
  | .creating _ => lifecycle w.roster
  | .opening => callsOn w.roster w.agenda ++ closings w.roster
  | .serving => closings w.roster
  | .stopping => callsOn w.roster w.agenda
  | .stopped => []
  | .ended => []
  | .crashed => []

/-- A worker in order. -/
structure Sound (w : Worker) : Prop where
  course : w.stage ≠ .crashed → w.hookCalls ++ w.pending = lifecycle w.roster
  /-- Where an addon does not return, there are no extensions, and nobody is called. -/
  creating : ∀ loss, w.stage = .creating loss → w.roster = [] ∧ w.agenda = [] ∧ w.active = none
  serving : w.stage = .serving → w.agenda = []
  /-- A worker that does not take messages any more makes no call, and has none to make. -/
  resting : w.isReceiving = false → w.stage ≠ .opening ∧ w.agenda = [] ∧ w.active = none
  /-- The tickers of a thread are gone with it. -/
  silent : w.isGone = true → w.tickers = []

variable {w w' : Worker} {engine engine' : Mailbox EngineMsg}

/-- A worker that is gone takes no messages. -/
lemma isReceiving_of_isGone (h : w.isGone = true) : w.isReceiving = false := by
  unfold isGone at h
  unfold isReceiving
  split at h
  · next hs => rw [hs]
  · next hs => rw [hs]
  · cases h

/-- A worker begins with creating its extensions if an addon does not return, and otherwise with
opening them. -/
lemma create_stage (link : Link) (id : ThreadId) (g : Group) (t : Topology) :
    (∃ loss, loss? link id g = some loss ∧ (create link id g t).stage = .creating loss ∧
      (create link id g t).hosted = []) ∨
      (loss? link id g = none ∧ (create link id g t).stage = .opening) := by
  cases hl : loss? link id g with
  | some loss => exact .inl ⟨loss, rfl, by simp [create, hl], by simp [create, hostAll, hl]⟩
  | none => exact .inr ⟨rfl, by simp [create, hl]⟩

/-- In either case it is in the first stage, with all calls of the opening before it. -/
lemma create_isFirst (link : Link) (id : ThreadId) (g : Group) (t : Topology) :
    (create link id g t).stage.isFirst = true := by
  rcases create_stage link id g t with ⟨loss, -, hs, -⟩ | ⟨-, hs⟩
  · rw [hs]
    rfl
  · rw [hs]
    rfl

/-- So it is in none of the others. -/
lemma create_stage_ne (link : Link) (id : ThreadId) (g : Group) (t : Topology) {s : Stage}
    (hs : s.isFirst = false) : (create link id g t).stage ≠ s := by
  intro he
  rw [← he, create_isFirst] at hs
  cases hs

/-- A worker that has not served yet takes messages. -/
lemma isReceiving_of_isFirst (h : w.stage.isFirst = true) : w.isReceiving = true := by
  unfold Stage.isFirst at h
  unfold isReceiving
  split at h
  · next hs => rw [hs]
  · next hs => rw [hs]
  · cases h

/-- A worker that has just been created is in order.

**Proof sketch.** No hook has been called yet, and what is pending is the whole course: as an
agenda, or, if an addon does not return, as the course of no extensions at all. -/
lemma sound_create (link : Link) (id : ThreadId) (g : Group) (t : Topology) :
    (create link id g t).Sound where
  course _ := by
    have hnone : (create link id g t).hookCalls = [] :=
      filterMap_create (fun _ => hookCall?_eq_none) link id g t
    have hlen : (create link id g t).hosted.length = (create link id g t).roster.length := by
      rw [roster, List.length_map]
    have hpending : (create link id g t).pending = lifecycle (create link id g t).roster := by
      rcases create_stage link id g t with ⟨loss, -, hs, -⟩ | ⟨-, hs⟩
      · rw [pending, hs]
      · rw [pending, hs]
        show callsOn (create link id g t).roster
          (openingAgenda (create link id g t).hosted.length) ++ _ = _
        rw [hlen, callsOn_openingAgenda]
        rfl
    rw [hnone, hpending, List.nil_append]
  creating loss hs := by
    rcases create_stage link id g t with ⟨-, -, -, hnil⟩ | ⟨-, hs'⟩
    · refine ⟨by rw [roster, hnil, List.map_nil], ?_, rfl⟩
      show openingAgenda (create link id g t).hosted.length = []
      rw [hnil]
      rfl
    · rw [hs'] at hs
      cases hs
  serving hs := by
    have hfirst := create_isFirst link id g t
    rw [hs] at hfirst
    cases hfirst
  resting hr := by
    rw [isReceiving_of_isFirst (create_isFirst link id g t)] at hr
    cases hr
  silent _ := rfl

/-- A worker that is gone makes no step any more, whether it is still listened to or not. -/
lemma Sound.step?_of_gone (h : w.Sound) (hg : w.isGone = true) (engine : Mailbox EngineMsg) :
    w.step? engine = none := by
  obtain ⟨-, hagenda, hactive⟩ := h.resting (isReceiving_of_isGone hg)
  unfold step?
  rw [hactive, hagenda]
  unfold isGone at hg
  unfold advance?
  split at hg
  · next hs => simp [hs]
  · next hs => simp [hs]
  · cases hg

/-- Whether anybody can write to a worker does not matter for its order. -/
lemma Sound.hangUp (h : w.Sound) (b : Bool) : ({ w with hungUp := b } : Worker).Sound :=
  ⟨h.course, h.creating, h.serving, h.resting, h.silent⟩

/-- Neither does what has been written to it. -/
lemma sound_quiet_iff : w.quiet.Sound ↔ w.Sound :=
  ⟨fun h => ⟨h.course, h.creating, h.serving, h.resting, h.silent⟩,
    fun h => ⟨h.course, h.creating, h.serving, h.resting, h.silent⟩⟩

/-- Whether a worker is in order does not depend on its inbox. -/
lemma Sound.write (h : w.Sound) (inbox : List ThreadMsg) : ({ w with inbox } : Worker).Sound :=
  sound_quiet_iff.1 (show w.quiet.Sound from sound_quiet_iff.2 h)

/-! ## Calls -/

/-- What a call leaves as it is. -/
lemma call_frame (w : Worker) (place : Nat) (cb : Callback) :
    (w.call place cb).id = w.id ∧ (w.call place cb).roster = w.roster ∧
      (w.call place cb).stage = w.stage ∧ (w.call place cb).agenda = w.agenda ∧
      (w.call place cb).inbox = w.inbox ∧ (w.call place cb).hungUp = w.hungUp ∧
      (w.call place cb).tickers = w.tickers := by
  unfold call
  split
  · exact ⟨rfl, rfl, rfl, rfl, rfl, rfl, rfl⟩
  · exact ⟨rfl, rfl, rfl, rfl, rfl, rfl, rfl⟩

/-- A lifecycle call is noted under the name of its extension. -/
lemma hookCalls_call (w : Worker) (place : Nat) (hook : Hook) :
    (w.call place (.hook hook)).hookCalls = w.hookCalls ++ callsOn w.roster [(place, hook)] := by
  have hname : w.roster[place]? = w.hosted[place]?.map (·.name) := List.getElem?_map
  rw [callsOn, List.filterMap_cons, List.filterMap_nil, hname]
  unfold call
  split
  · next hn =>
    rw [hn]
    exact (List.append_nil _).symm
  · next h hn =>
    rw [hn]
    exact hookCalls_record w _

/-- Handing over a message is no lifecycle call, and leaves the worker as it is.

**Proof sketch.** If there is an extension of that name, this is a call, and a call with a message
is not one of the lifecycle. If there is none, a line is logged. -/
lemma receive_frame (w : Worker) (extension : String) (m : Msg) :
    (w.receive extension m).id = w.id ∧ (w.receive extension m).roster = w.roster ∧
      (w.receive extension m).stage = w.stage ∧ (w.receive extension m).agenda = w.agenda ∧
      (w.receive extension m).inbox = w.inbox ∧ (w.receive extension m).hungUp = w.hungUp ∧
      (w.receive extension m).hookCalls = w.hookCalls := by
  unfold receive
  split
  · next place _ =>
    obtain ⟨hid, hroster, hstage, hagenda, hinbox, hhung, -⟩ := w.call_frame place (.message m)
    refine ⟨hid, hroster, hstage, hagenda, hinbox, hhung, ?_⟩
    unfold call
    split
    · rfl
    · exact (hookCalls_record w _).trans (List.append_nil _)
  · exact ⟨rfl, rfl, rfl, rfl, rfl, rfl, (hookCalls_record w _).trans (List.append_nil _)⟩

/-! ## Steps -/

/-- Whether a worker takes messages is told by its stage. -/
lemma isReceiving_eq (h : w'.stage = w.stage) : w'.isReceiving = w.isReceiving := by
  unfold isReceiving
  rw [h]

/-- Whether a worker is gone is told by its stage. -/
lemma isGone_eq (h : w'.stage = w.stage) : w'.isGone = w.isGone := by
  unfold isGone
  rw [h]

/-- A worker that makes a call, or has one to make, takes messages. -/
lemma Sound.isReceiving (h : w.Sound) (hb : w.active ≠ none ∨ w.agenda ≠ []) :
    w.isReceiving = true := by
  cases hr : w.isReceiving with
  | true => rfl
  | false =>
    obtain ⟨-, hagenda, hactive⟩ := h.resting hr
    rcases hb with hb | hb
    · exact absurd hactive hb
    · exact absurd hagenda hb

/-- A worker that makes a call, or has one to make, has created its extensions. -/
lemma Sound.not_creating (h : w.Sound) (hb : w.active ≠ none ∨ w.agenda ≠ []) (loss : Loss) :
    w.stage ≠ .creating loss := by
  intro hs
  obtain ⟨-, hagenda, hactive⟩ := h.creating loss hs
  rcases hb with hb | hb
  · exact hb hactive
  · exact hb hagenda

/-- A worker that takes messages stays in order while its stage and what has been and is to be
called fit together. -/
lemma sound_of_receiving (hr : w.isReceiving = true)
    (hc : w.hookCalls ++ w.pending = lifecycle w.roster)
    (hm : ∀ loss, w.stage ≠ .creating loss) (hs : w.stage = .serving → w.agenda = []) :
    w.Sound where
  course _ := hc
  creating loss h := absurd h (hm loss)
  serving := hs
  resting hn := by
    rw [hr] at hn
    cases hn
  silent hg := by
    have hn := isReceiving_of_isGone hg
    rw [hr] at hn
    cases hn

/-- A worker on its course has the same calls before it. -/
lemma OnCourse.pending (h : w.OnCourse w') : w'.pending = w.pending := by
  unfold Worker.pending
  rw [h.stage, h.roster, h.agenda]

/-- What extensions do during a call keeps a worker in order. -/
lemma Sound.onCourse (h : w.Sound) (ho : w.OnCourse w') (ha : w.active ≠ none) : w'.Sound := by
  have hr := h.isReceiving (.inl ha)
  have hstage : w.stage ≠ .crashed := by
    intro hs
    simp [Worker.isReceiving, hs] at hr
  refine sound_of_receiving ((isReceiving_eq ho.stage).trans hr) ?_ ?_ ?_
  · rw [ho.hookCalls, ho.pending, ho.roster]
    exact h.course hstage
  · rw [ho.stage]
    exact h.not_creating (.inl ha)
  · rw [ho.stage, ho.agenda]
    exact h.serving

/-- The next lifecycle call takes its place among those that were made.

**Proof sketch.** The call is taken off the front of the agenda, where it was the next of those that
are pending, and recorded behind those that were made. Together they are the same course. -/
lemma Sound.calls (h : w.Sound) {place : Nat} {hook : Hook} {rest : List (Nat × Hook)}
    (hg : w.agenda = (place, hook) :: rest) :
    ({ w with agenda := rest }.call place (.hook hook)).Sound := by
  have hr := h.isReceiving (.inr (by rw [hg]; simp))
  obtain ⟨-, hroster, hstage, hagenda, -⟩ :=
    ({ w with agenda := rest } : Worker).call_frame place (.hook hook)
  have hcalls := ({ w with agenda := rest } : Worker).hookCalls_call place hook
  have hsplit : callsOn w.roster w.agenda =
      callsOn w.roster [(place, hook)] ++ callsOn w.roster rest := by
    rw [hg, ← callsOn_append]
    rfl
  have hcourse := h.course (by intro hs; simp [Worker.isReceiving, hs] at hr)
  have hmade := h.not_creating (.inr (by rw [hg]; simp))
  refine sound_of_receiving ((isReceiving_eq hstage).trans hr) ?_ (by rw [hstage]; exact hmade) ?_
  · rw [hcalls, hroster]
    -- The call moves from the agenda to the calls that were made, whatever the stage is.
    have hmove : callsOn w.roster [(place, hook)] ++
        ({ w with agenda := rest }.call place (.hook hook)).pending = w.pending := by
      unfold pending
      rw [hstage, hroster, hagenda]
      cases hs : w.stage with
      | creating loss => exact absurd hs (hmade loss)
      | opening =>
        show _ ++ (callsOn w.roster rest ++ closings w.roster) = _
        rw [hsplit, List.append_assoc]
      | stopping => exact hsplit.symm
      | serving =>
        rw [h.serving hs] at hg
        cases hg
      | stopped => simp [Worker.isReceiving, hs] at hr
      | ended => simp [Worker.isReceiving, hs] at hr
      | crashed => simp [Worker.isReceiving, hs] at hr
    show w.hookCalls ++ callsOn w.roster [(place, hook)] ++ _ = lifecycle w.roster
    rw [List.append_assoc, hmove]
    exact hcourse
  · intro hs
    rw [hstage] at hs
    rw [h.serving hs] at hg
    cases hg

/-- Beginning to stop puts the closing calls on the agenda. -/
lemma Sound.windDown (h : w.Sound) (hs : w.stage = .serving) (inbox : List ThreadMsg) :
    ({ w with inbox } : Worker).windDown.Sound := by
  have hcourse := h.course (by rw [hs]; simp)
  refine sound_of_receiving rfl ?_ (by simp [Worker.windDown]) (by simp [Worker.windDown])
  have hpending : ({ w with inbox } : Worker).windDown.pending = closings w.roster := by
    show callsOn w.roster (stoppingAgenda w.hosted.length) = _
    rw [← callsOn_stoppingAgenda, roster, List.length_map]
  rw [hpending]
  show w.hookCalls ++ _ = lifecycle w.roster
  rw [← hcourse, pending, hs]

/-- Steps keep a worker in order.

**Proof sketch.** By cases on the step. A call moves from the pending ones to those that were made;
at each change of the stage the calls that are pending are spelled out anew and are the same; the
inbox holds no calls of hooks. -/
theorem Sound.steps (h : w.Sound) (hw : w.Steps engine engine' w') : w'.Sound := by
  cases hw with
  | goesOn ha ho => exact h.onCourse ho (Option.isSome_iff_ne_none.1 ha)
  | goesDown =>
    exact ⟨fun hs => absurd rfl hs, by simp [goDown], by simp [goDown], by simp [goDown],
      fun _ => rfl⟩
  | calls ha hg => exact h.calls hg
  | opened ha hg hs =>
    have hcourse := h.course (by rw [hs]; simp)
    refine sound_of_receiving rfl ?_ (by simp) fun _ => hg
    rw [pending, hs, hg] at hcourse
    exact hcourse
  | @receives extension m rest ha hg hs =>
    obtain ⟨-, hroster, hstage, hagenda, -, -, hcalls⟩ :=
      ({ w with inbox := rest } : Worker).receive_frame extension m
    have hcourse := h.course (by rw [hs]; simp)
    refine sound_of_receiving ((isReceiving_eq hstage).trans (by simp [Worker.isReceiving, hs])) ?_
      (by rw [hstage]; simp [hs]) fun _ => hagenda.trans hg
    have hpending : ({ w with inbox := rest }.receive extension m).pending = w.pending := by
      unfold pending
      rw [hroster, hstage, hagenda]
      rfl
    rw [hcalls, hroster, hpending]
    exact hcourse
  | obeys ha hg hs => exact h.windDown hs _
  | leaves ha hg hs => exact h.windDown hs _
  | closed ha hg hs =>
    have hcourse := h.course (by rw [hs]; simp)
    refine ⟨fun _ => ?_, by simp, by simp, fun _ => ⟨by simp, hg, ha⟩, by simp [isGone]⟩
    rw [pending, hs, hg] at hcourse
    show (w.record (.log (.threadStopped w.group))).hookCalls ++ [] = lifecycle w.roster
    rw [hookCalls_record, List.append_nil]
    exact hcourse
  | reports ha hg hs =>
    have hcourse := h.course (by rw [hs]; simp)
    refine ⟨fun _ => ?_, by simp, by simp, fun _ => ⟨by simp, hg, ha⟩, fun _ => rfl⟩
    rw [pending, hs] at hcourse
    exact hcourse

/-- A step changes neither the number of a worker nor its extensions, and it reports the end of the
thread exactly if it ends it.

**Proof sketch.** By cases on the step. Every step needs a worker that is not gone, since an active
call and an agenda are only found on one that takes messages. Only the last step of a stopped worker
sets the stage to its end, and only this one posts a report. -/
theorem Sound.outcome (h : w.Sound) (hw : w.Steps engine engine' w') :
    (w'.id = w.id ∧ w'.roster = w.roster ∧ w'.hungUp = w.hungUp) ∧ w.isGone = false ∧
      ((w'.stage ≠ .ended ∧
          ∃ ms : List EngineMsg, (∀ m ∈ ms, m.IsWish) ∧ engine' = engine.postAll ms) ∨
        (w'.stage = .ended ∧ engine' = engine.post (.threadClosed w.id))) := by
  have hgone {s : Stage} (hs : w.stage = s) (hn : s ≠ .ended ∧ s ≠ .crashed) :
      w.isGone = false := by
    subst hs
    unfold isGone
    split
    · next he => exact absurd he hn.1
    · next he => exact absurd he hn.2
    · rfl
  -- A worker with something to do still takes messages, so that it is not gone.
  have hbusy (hb : w.active ≠ none ∨ w.agenda ≠ []) : w.isGone = false := by
    cases hg : w.isGone with
    | false => rfl
    | true =>
      have hr := h.isReceiving hb
      rw [isReceiving_of_isGone hg] at hr
      cases hr
  have hended (hg : w.isGone = false) : w.stage ≠ .ended := by
    intro hs
    simp [isGone, hs] at hg
  have hnothing : ∃ ms : List EngineMsg, (∀ m ∈ ms, m.IsWish) ∧ engine = engine.postAll ms :=
    ⟨[], by simp, rfl⟩
  cases hw with
  | goesOn ha ho hm =>
    have hg := hbusy (.inl (Option.isSome_iff_ne_none.1 ha))
    refine ⟨⟨ho.id, ho.roster, ho.hungUp⟩, hg, .inl ⟨?_, _, hm, rfl⟩⟩
    rw [ho.stage]
    exact hended hg
  | goesDown hdown =>
    have hg : w.isGone = false := by
      rcases hdown with ha | hs
      · exact hbusy (.inl (Option.isSome_iff_ne_none.1 ha))
      · exact hgone hs (by simp)
    exact ⟨⟨rfl, rfl, rfl⟩, hg, .inl ⟨by simp [goDown], hnothing⟩⟩
  | @calls place hook rest ha hl =>
    have hg := hbusy (.inr (by rw [hl]; simp))
    obtain ⟨hid, hroster, hstage, -, -, hhung, -⟩ :=
      ({ w with agenda := rest } : Worker).call_frame place (.hook hook)
    refine ⟨⟨hid, hroster, hhung⟩, hg, .inl ⟨?_, hnothing⟩⟩
    rw [hstage]
    exact hended hg
  | opened ha hl hs =>
    exact ⟨⟨rfl, rfl, rfl⟩, hgone hs (by simp), .inl ⟨by simp, hnothing⟩⟩
  | @receives extension m rest ha hl hs =>
    obtain ⟨hid, hroster, hstage, -, -, hhung, -⟩ :=
      ({ w with inbox := rest } : Worker).receive_frame extension m
    refine ⟨⟨hid, hroster, hhung⟩, hgone hs (by simp), .inl ⟨?_, hnothing⟩⟩
    rw [hstage]
    exact hended (hgone hs (by simp))
  | obeys ha hl hs =>
    exact ⟨⟨rfl, rfl, rfl⟩, hgone hs (by simp), .inl ⟨by simp [Worker.windDown], hnothing⟩⟩
  | leaves ha hl hs =>
    exact ⟨⟨rfl, rfl, rfl⟩, hgone hs (by simp), .inl ⟨by simp [Worker.windDown], hnothing⟩⟩
  | closed ha hl hs =>
    exact ⟨⟨rfl, rfl, rfl⟩, hgone hs (by simp), .inl ⟨by simp, hnothing⟩⟩
  | reports ha hl hs =>
    exact ⟨⟨rfl, rfl, rfl⟩, hgone hs (by simp), .inr ⟨rfl, rfl⟩⟩

/-- A thread that has ended has made every lifecycle call, and makes none. -/
theorem Sound.hookCalls_of_ended (h : w.Sound) (hs : w.stage = .ended) :
    w.hookCalls = lifecycle w.roster ∧ w.active = none ∧ w.agenda = [] ∧ w.tickers = [] := by
  have hg : w.isGone = true := by simp [isGone, hs]
  have hcourse := h.course (by rw [hs]; simp)
  obtain ⟨-, hagenda, hactive⟩ := h.resting (isReceiving_of_isGone hg)
  rw [pending, hs, List.append_nil] at hcourse
  exact ⟨hcourse, hactive, hagenda, h.silent hg⟩

/-- The beat of a ticker keeps a worker in order; a worker that is gone has no ticker.

**Proof sketch.** Only the tickers, the trace and the mailbox change, and the events of a ticker are
not calls. -/
lemma Sound.beat (h : w.Sound) {k : Nat} (hk : k < w.tickers.length) (engine : Mailbox EngineMsg) :
    (w.beat engine k).2.Sound ∧ w.isGone = false := by
  have hg : w.isGone = false := by
    cases hg : w.isGone with
    | false => rfl
    | true =>
      rw [h.silent hg] at hk
      cases hk
  obtain ⟨ho, -⟩ := onCourse_beat w engine k
  have hactive : (w.beat engine k).2.active = w.active := by
    unfold Worker.beat
    split
    · rfl
    · rfl
  refine ⟨⟨?_, ?_, ?_, ?_, ?_⟩, hg⟩
  · rw [ho.stage, ho.hookCalls, ho.pending, ho.roster]
    exact h.course
  · rw [ho.stage, ho.roster, ho.agenda, hactive]
    exact h.creating
  · rw [ho.stage, ho.agenda]
    exact h.serving
  · rw [isReceiving_eq ho.stage, ho.stage, ho.agenda, hactive]
    exact h.resting
  · intro hg'
    rw [isGone_eq ho.stage, hg] at hg'
    cases hg'

/-! ## Threads that end before they have begun -/

/-- A worker that cannot begin reports its end at once. It has called no extension, and has none. -/
lemma abort?_eq {reason : String} (h : w.abort? reason engine = some (engine', w')) :
    w.stage.isFirst = true ∧ engine' = engine.post (.threadClosed w.id) ∧ w'.Sound ∧
      w'.stage = .ended ∧ w'.id = w.id ∧ w'.hungUp = w.hungUp ∧ w'.roster = [] ∧
      w'.inbox = w.inbox := by
  unfold abort? at h
  split at h
  · next hf =>
    cases h
    unfold isFresh at hf
    simp only [Bool.and_eq_true, decide_eq_true_eq, Option.isNone_iff_eq_none] at hf
    obtain ⟨⟨hstage, hactive⟩, -⟩ := hf
    refine ⟨hstage, rfl, ⟨fun _ => rfl, by simp, by simp, ?_, fun _ => rfl⟩, rfl, rfl, rfl, rfl,
      rfl⟩
    intro _
    exact ⟨by simp, rfl, hactive⟩
  · cases h

/-! ## Workers that nobody has asked to end -/

/-- Nobody has asked the worker to end, and it has not begun to. -/
structure Undisturbed (w : Worker) : Prop where
  inbox : ThreadMsg.close ∉ w.inbox
  stopping : w.stage ≠ .stopping
  stopped : w.stage ≠ .stopped

/-- A worker to which somebody can write does not begin to end by itself.

**Proof sketch.** By cases on the step. A worker begins to end only by a wish from its inbox, where
none is, or after its inbox has been taken away, which it has not. -/
lemma Undisturbed.steps (h : w.Undisturbed) (hh : w.hungUp = false)
    (hw : w.Steps engine engine' w') : w'.Undisturbed := by
  cases hw with
  | goesOn ha ho =>
    refine ⟨?_, ?_, ?_⟩
    · rw [ho.inbox]
      exact h.inbox
    · rw [ho.stage]
      exact h.stopping
    · rw [ho.stage]
      exact h.stopped
  | goesDown => exact ⟨h.inbox, by simp [goDown], by simp [goDown]⟩
  | @calls place hook rest =>
    obtain ⟨-, -, hstage, -, hinbox, -⟩ :=
      ({ w with agenda := rest } : Worker).call_frame place (.hook hook)
    refine ⟨?_, ?_, ?_⟩
    · rw [hinbox]
      exact h.inbox
    · rw [hstage]
      exact h.stopping
    · rw [hstage]
      exact h.stopped
  | opened => exact ⟨h.inbox, by simp, by simp⟩
  | @receives extension m rest ha hg hs hi =>
    obtain ⟨-, -, hstage, -, hinbox, -⟩ :=
      ({ w with inbox := rest } : Worker).receive_frame extension m
    have hin := h.inbox
    rw [hi] at hin
    refine ⟨?_, ?_, ?_⟩
    · rw [hinbox]
      exact fun hm => hin (List.mem_cons_of_mem _ hm)
    · rw [hstage]
      exact h.stopping
    · rw [hstage]
      exact h.stopped
  | obeys ha hg hs hi => exact absurd (by rw [hi]; exact List.mem_cons_self) h.inbox
  | leaves ha hg hs hi hu =>
    rw [hh] at hu
    cases hu
  | closed ha hg hs => exact absurd hs h.stopping
  | reports ha hg hs => exact absurd hs h.stopped

end Worker

end ExtensionGraph
