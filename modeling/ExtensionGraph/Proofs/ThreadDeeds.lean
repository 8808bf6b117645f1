import Mathlib.Tactic.Common
import ExtensionGraph.Proofs.HostedExtensions
import ExtensionGraph.Proofs.InboxWrites

/-!
# What a thread does, one thing after the other

The course of a thread is a list of deeds that depends on two things only, the names of its
extensions and what is written to it. At any time, what a thread has still to do can be read off its
stage, its agenda and its inbox. A step does what comes next, or prepares for it: a lifecycle call
comes from the agenda, a message from the front of the inbox. So what has been done and what is
still to be done always make up the same list, and what is written to a thread is added at the one
place where it belongs.

## Main definitions

* `ExtensionGraph.Deed`, `ExtensionGraph.Deed.course` — what a thread does, and in which order.
* `ExtensionGraph.Worker.deed?` — what a thread has done by a step.
* `ExtensionGraph.Worker.outlook` — what a thread has still to do.
* `ExtensionGraph.Worker.methodCalls` — the calls that are noted on a thread.
* `ExtensionGraph.Worker.Fed` — how an inbox fits what has been written to it.

## Main results

* `ExtensionGraph.Worker.deeds_of_steps` — a step does what comes next, or prepares for it.
* `ExtensionGraph.Worker.methodCalls_of_step?` — a thread notes the calls that it makes.
* `ExtensionGraph.Worker.Fed.outlook_write` — what is written is served, unless it comes too late.
-/

namespace ExtensionGraph

/-! ## What a thread does -/

/-- The methods of an extension, with the messages that are handed to them. -/
inductive Method where
  | onInit
  | onStart
  | onCmd (m : Msg)
  | onData (m : Msg)
  | onStop
  | onDeinit

/-- The method that is called; the kind of a message decides on the one that gets it. -/
def Callback.method : Callback → Method
  | .hook .init => .onInit
  | .hook .start => .onStart
  | .hook .stop => .onStop
  | .hook .deinit => .onDeinit
  | .message m => match m.kind with
    | .cmd => .onCmd m
    | .data => .onData m

/-- What a thread does in the course of its work. -/
inductive Deed where
  /-- It calls a method of the extension at a place. -/
  | call (place : Nat) (method : Method)
  /-- It reports that it has ended. -/
  | report

namespace Deed

/-- A lifecycle call. -/
def ofHook (x : Nat × Hook) : Deed := .call x.1 (Callback.hook x.2).method

/-- All extensions are initialised, and then all of them are started. -/
def opening (n : Nat) : List Deed :=
  (List.range n).map (.call · .onInit) ++ (List.range n).map (.call · .onStart)

/-- All extensions are stopped from the last to the first, and then taken down in the same order. -/
def closing (n : Nat) : List Deed :=
  (List.range n).reverse.map (.call · .onStop) ++ (List.range n).reverse.map (.call · .onDeinit)

/-- A message is handed to the first extension of a name, if there is one. -/
def handing (names : List String) (extension : String) (m : Msg) : List Deed :=
  ((names.findIdx? (· = extension)).map (.call · (Callback.message m).method)).toList

/-- What is done with what has been written, up to the request to end. -/
def served (names : List String) : List ThreadMsg → List Deed
  | .deliver extension m :: rest => handing names extension m ++ served names rest
  | .close :: _ => []
  | [] => []

/-- **The course of a thread** with extensions of the given names: it opens them, serves what has
been written to it, closes them, and reports. -/
def course (names : List String) (written : List ThreadMsg) : List Deed :=
  opening names.length ++ served names written ++ closing names.length ++ [.report]

/-- The call that a deed is, with the name of the extension. -/
def named? (names : List String) : Deed → Option (String × Method)
  | .call place method => names[place]?.map (·, method)
  | .report => none

/-- What is written before the request to end is served part by part. -/
lemma served_append (names : List String) {ms : List ThreadMsg} (hc : .close ∉ ms)
    (ms' : List ThreadMsg) : served names (ms ++ ms') = served names ms ++ served names ms' := by
  induction ms with
  | nil => rfl
  | cons x ms ih =>
    rw [List.mem_cons, not_or] at hc
    cases x with
    | close => exact absurd rfl hc.1
    | deliver extension m =>
      rw [List.cons_append, served, served, ih hc.2, List.append_assoc]

/-- What is written after the request to end is of no account. -/
lemma served_append_of_close (names : List String) {ms : List ThreadMsg} (hc : .close ∈ ms)
    (ms' : List ThreadMsg) : served names (ms ++ ms') = served names ms := by
  induction ms with
  | nil => cases hc
  | cons x ms ih =>
    cases x with
    | close => rfl
    | deliver extension m =>
      have hrest : ThreadMsg.close ∈ ms := (List.mem_cons.1 hc).resolve_left (by simp)
      rw [List.cons_append, served, served, ih hrest]

/-- Whether a deed belongs to the end of a thread. -/
def closes : Deed → Bool
  | .call _ .onStop => true
  | .call _ .onDeinit => true
  | .report => true
  | _ => false

/-- Serving closes nothing. -/
lemma closes_of_mem_served {names : List String} {ms : List ThreadMsg} {d : Deed}
    (hd : d ∈ served names ms) : d.closes = false := by
  induction ms with
  | nil => cases hd
  | cons x ms ih =>
    cases x with
    | close => cases hd
    | deliver extension m =>
      rcases List.mem_append.1 hd with hd | hd
      · obtain ⟨k, -, rfl⟩ := Option.map_eq_some_iff.1 (Option.mem_toList.1 hd)
        cases hm : m.kind with
        | cmd | data => simp [Callback.method, hm, closes]
      · exact ih hd

/-- Nothing is closed while a thread opens its extensions and serves its inbox. -/
lemma closes_of_mem {n : Nat} {names : List String} {ms : List ThreadMsg} {d : Deed}
    (hd : d ∈ opening n ++ served names ms) : d.closes = false := by
  rcases List.mem_append.1 hd with hd | hd
  · simp only [opening, List.mem_append, List.mem_map] at hd
    obtain ⟨k, -, rfl⟩ | ⟨k, -, rfl⟩ := hd
    · rfl
    · rfl
  · exact closes_of_mem_served hd

/-- A thread without extensions hands nothing over. -/
lemma served_nil (ms : List ThreadMsg) : served [] ms = [] := by
  induction ms with
  | nil => rfl
  | cons x ms ih =>
    cases x with
    | close => rfl
    | deliver extension m => exact ih

/-- The opening agenda is how a course opens. -/
lemma map_openingAgenda (n : Nat) : (Worker.openingAgenda n).map ofHook = opening n := by
  simp only [Worker.openingAgenda, List.map_append, List.map_map]
  rfl

/-- The stopping agenda is how a course closes. -/
lemma map_stoppingAgenda (n : Nat) : (Worker.stoppingAgenda n).map ofHook = closing n := by
  simp only [Worker.stoppingAgenda, List.map_append, List.map_map]
  rfl

end Deed

namespace Worker

variable {w w' : Worker} {engine engine' : Mailbox EngineMsg}

/-- What a thread has done when it has become another one: it has begun a call, or it has come to
its end. -/
def deed? (w w' : Worker) : Option Deed :=
  match w.active, w'.active with
  | none, some c => some (.call c.place c.callback.method)
  | _, _ => if w.stage ≠ .ended ∧ w'.stage = .ended then some .report else none

/-- What a thread has still to do, as its inbox stands. -/
def outlook (w : Worker) : List Deed :=
  match w.stage with
  | .creating _ | .opening | .serving =>
    w.agenda.map .ofHook ++ Deed.served w.roster w.inbox ++ Deed.closing w.roster.length ++
      [.report]
  | .stopping => w.agenda.map .ofHook ++ [.report]
  | .stopped => [.report]
  | .ended | .crashed => []

/-- The call that an event stands for. -/
def methodCall? : Event → Option (String × Method)
  | .called name cb => some (name, cb.method)
  | _ => none

/-- The calls that are noted on a thread, in their order. -/
def methodCalls (w : Worker) : List (String × Method) := w.trace.filterMap methodCall?

/-- No lifecycle call that is to come misses its extension. -/
def InPlace (w : Worker) : Prop := ∀ x ∈ w.agenda, x.1 < w.roster.length

/-! ## What has been done by a step -/

/-- There is a name for each extension. -/
lemma length_roster (w : Worker) : w.roster.length = w.hosted.length := List.length_map _

/-- A worker that begins no call and stays at its stage does nothing that counts. -/
lemma deed?_eq_none (ha : w.active = none → w'.active = none) (hs : w'.stage = w.stage) :
    w.deed? w' = none := by
  unfold deed?
  rw [hs]
  cases hw : w.active with
  | none =>
    rw [ha hw]
    simp
  | some c => simp

/-- A worker that makes no call does nothing that counts but to report its end. -/
lemma deed?_of_inactive (ha' : w'.active = none) :
    w.deed? w' = if w.stage ≠ .ended ∧ w'.stage = .ended then some .report else none := by
  unfold deed?
  rw [ha']
  cases w.active with
  | none | some => rfl

/-- Whoever does not end does not report. -/
lemma report_ne_deed? (hs : w'.stage ≠ .ended) : w.deed? w' ≠ some .report := by
  unfold deed?
  split
  · simp
  · rw [if_neg fun h => hs h.2]
    simp

/-- A turn of a ticker leaves the calls and the extensions alone. -/
lemma beat_frame (w : Worker) (engine : Mailbox EngineMsg) (k : Nat) :
    (w.beat engine k).2.active = w.active ∧ (w.beat engine k).2.hosted = w.hosted := by
  unfold beat
  split
  · exact ⟨rfl, rfl⟩
  · exact ⟨rfl, rfl⟩

/-- A ticker neither calls nor reports. -/
lemma deed?_beat (w : Worker) (engine : Mailbox EngineMsg) (k : Nat) :
    w.deed? (w.beat engine k).2 = none :=
  deed?_eq_none (fun ha => (w.beat_frame engine k).1.trans ha) (onCourse_beat w engine k).1.stage

/-- A thread that cannot even begin reports. -/
lemma deed?_abort? {reason : String} (h : w.abort? reason engine = some (engine', w')) :
    w.deed? w' = some .report := by
  obtain ⟨hopening, -, hsound, hended, -⟩ := abort?_eq h
  obtain ⟨-, -, hactive⟩ :=
    hsound.resting (isReceiving_of_isGone (w'.isGone_iff.2 (.inl hended)))
  refine (deed?_of_inactive hactive).trans (if_pos ⟨fun hs => ?_, hended⟩)
  rw [hs] at hopening
  cases hopening

/-- A call at the place of an extension is begun, and noted under its name. -/
lemma deed?_call (ha : w.active = none) (v : Worker) {place : Nat}
    (hp : place < v.roster.length) (cb : Callback) :
    w.deed? (v.call place cb) = some (.call place cb.method) ∧
      (v.call place cb).methodCalls = v.methodCalls ++ [(v.roster[place], cb.method)] := by
  have hlt : place < v.hosted.length := v.length_roster ▸ hp
  have hname : v.roster[place] = v.hosted[place].name := List.getElem_map _
  unfold call
  rw [List.getElem?_eq_getElem hlt, hname]
  constructor
  · unfold deed?
    rw [ha]
  · show (v.trace ++ [_]).filterMap methodCall? = _
    rw [List.filterMap_append]
    rfl

/-- A message is handed to the first extension of the name.

**Proof sketch.** The extension is looked up by its name, among the names as among the extensions.
If it is found, the call is the deed and is noted; otherwise there is an entry in the log, which is
neither. -/
lemma deed?_receive (ha : w.active = none) (v : Worker) (hv : v.active = none)
    (hs : v.stage = w.stage) (extension : String) (m : Msg) :
    (w.deed? (v.receive extension m)).toList = Deed.handing v.roster extension m ∧
      (v.receive extension m).methodCalls =
        v.methodCalls ++ (Deed.handing v.roster extension m).filterMap (Deed.named? v.roster) := by
  have hfind : v.roster.findIdx? (· = extension) = v.hosted.findIdx? (·.name = extension) :=
    List.findIdx?_map ..
  unfold receive Deed.handing
  rw [hfind]
  cases hplace : v.hosted.findIdx? (·.name = extension) with
  | none =>
    have hnone : w.deed? (v.record (.log (.notHosted v.group extension m.name))) = none :=
      deed?_eq_none (fun _ => hv) hs
    refine ⟨by rw [hnone]; rfl, ?_⟩
    show (v.trace ++ [_]).filterMap methodCall? = _
    rw [List.filterMap_append]
    rfl
  | some place =>
    have hp : place < v.roster.length := by
      rw [length_roster]
      exact (List.findIdx?_eq_some_iff_getElem.1 hplace).1
    obtain ⟨hdeed, hcalls⟩ := deed?_call ha v hp (.message m)
    refine ⟨by rw [hdeed]; rfl, hcalls.trans ?_⟩
    show _ = v.methodCalls ++ (v.roster[place]?.map (·, _)).toList
    rw [List.getElem?_eq_getElem hp]
    rfl

/-- Only a call that hangs has no next instruction. -/
lemma hangs_of_execute? (w : Worker) {c : Call} (h : w.execute? engine c = none) :
    c.script = .hang := by
  unfold execute? at h
  cases hc : c.script with
  | hang => rfl
  | done | crash | emit | send | closeGraph | every | cancel =>
    rw [hc] at h
    cases h

/-- What is to come depends on the stage, the agenda, the names and the inbox. -/
lemma outlook_congr (hs : w'.stage = w.stage) (ha : w'.agenda = w.agenda)
    (hr : w'.roster = w.roster) (hi : w'.inbox = w.inbox) : w'.outlook = w.outlook := by
  unfold outlook
  rw [hs, ha, hr, hi]

/-- A worker on its course has the same to come. -/
lemma OnCourse.outlook (h : w.OnCourse w') : w'.outlook = w.outlook :=
  outlook_congr h.stage h.agenda h.roster h.inbox

/-- A thread that has called no extension yet has its whole course before it. -/
lemma outlook_of_fresh (w : Worker) (hs : w.stage.isFirst = true)
    (ha : w.agenda = openingAgenda w.hosted.length) :
    w.outlook = Deed.course w.roster w.inbox := by
  unfold outlook Deed.course
  rw [ha, ← length_roster, Deed.map_openingAgenda]
  cases hstage : w.stage with
  | creating | opening => rfl
  | serving | stopping | stopped | ended | crashed => simp [hstage, Stage.isFirst] at hs

/-! ## One deed after the other -/

/-- The calls that close the extensions are at their places. -/
lemma inPlace_windDown (w : Worker) : w.windDown.InPlace := by
  intro x hx
  rw [length_roster]
  simp only [Worker.windDown, stoppingAgenda, List.mem_append, List.mem_map, List.mem_reverse,
    List.mem_range] at hx
  obtain ⟨k, hk, rfl⟩ | ⟨k, hk, rfl⟩ := hx
  · exact hk
  · exact hk

/-- Steps keep the lifecycle calls at their places.

**Proof sketch.** By cases on the step. The agenda is only taken from, or set to the closing of all
extensions. -/
lemma InPlace.steps (h : w.InPlace) (hw : w.Steps engine engine' w') : w'.InPlace := by
  cases hw with
  | goesOn _ ho =>
    unfold InPlace
    rw [ho.agenda, ho.roster]
    exact h
  | goesDown => simp [InPlace, goDown]
  | @calls place hook rest _ hg =>
    obtain ⟨-, hroster, -, hagenda, -⟩ :=
      ({ w with agenda := rest } : Worker).call_frame place (.hook hook)
    unfold InPlace
    rw [hagenda, hroster]
    exact fun x hx => h x (hg ▸ List.mem_cons_of_mem _ hx)
  | @receives extension m rest =>
    obtain ⟨-, hroster, -, hagenda, -⟩ :=
      ({ w with inbox := rest } : Worker).receive_frame extension m
    unfold InPlace
    rw [hagenda, hroster]
    exact h
  | obeys | leaves => exact inPlace_windDown _
  | opened | closed | reports => exact h

/-- When a thread begins to end, the calls that close its extensions get on its agenda. It has
nothing else to do than before if nothing in its inbox was to be served.

**Proof sketch.** Up to then, it has had to serve the inbox, to close the extensions and to report.
The first part is empty, and the second one is now the agenda. -/
lemma outlook_windDown (inbox : List ThreadMsg) (hg : w.agenda = []) (hs : w.stage = .serving)
    (hi : Deed.served w.roster w.inbox = []) :
    ({ w with inbox } : Worker).windDown.outlook = w.outlook := by
  show (stoppingAgenda w.hosted.length).map Deed.ofHook ++ [.report] = _
  rw [Deed.map_stoppingAgenda, ← length_roster]
  unfold outlook
  rw [hs, hg]
  dsimp only
  rw [hi]
  rfl

/-- The next call on the agenda is done, and the rest of the agenda is still to come.

**Proof sketch.** The call that begins is the deed that the agenda names next. Everything else in
the outlook is what it was before. -/
lemma deeds_of_call (hsound : w.Sound) (h : w.InPlace) {place : Nat} {hook : Hook}
    {rest : List (Nat × Hook)} (ha : w.active = none) (hg : w.agenda = (place, hook) :: rest) :
    (w.deed? (({ w with agenda := rest } : Worker).call place (.hook hook))).toList ++
      (({ w with agenda := rest } : Worker).call place (.hook hook)).outlook = w.outlook := by
  have hp : place < w.roster.length := h (place, hook) (hg ▸ List.mem_cons_self)
  obtain ⟨hbegun, -⟩ := deed?_call ha { w with agenda := rest } hp (.hook hook)
  obtain ⟨-, hroster, hstage, hagenda, hinbox, -⟩ :=
    ({ w with agenda := rest } : Worker).call_frame place (.hook hook)
  rw [hbegun, outlook_congr hstage hagenda hroster hinbox]
  -- Whoever has a call to make is in one of the stages that make calls.
  have hr := hsound.isReceiving (.inr (by rw [hg]; simp))
  unfold outlook
  cases hs : w.stage with
  | creating | opening | serving | stopping =>
    rw [hg]
    rfl
  | stopped | ended | crashed => simp [Worker.isReceiving, hs] at hr

/-- The first message in the inbox is handed over, and the rest of the inbox is still to come.

**Proof sketch.** What is to come is the serving of the inbox, then the closing and the report.
Serving the inbox begins with handing over the first message, which is the deed of this step. -/
lemma deeds_of_receive {extension : String} {m : Msg} {rest : List ThreadMsg}
    (ha : w.active = none) (hg : w.agenda = []) (hs : w.stage = .serving)
    (hi : w.inbox = .deliver extension m :: rest) :
    (w.deed? (({ w with inbox := rest } : Worker).receive extension m)).toList ++
      (({ w with inbox := rest } : Worker).receive extension m).outlook = w.outlook := by
  obtain ⟨hhanded, -⟩ := deed?_receive ha { w with inbox := rest } ha rfl extension m
  obtain ⟨-, hroster, hstage, hagenda, hinbox, -⟩ :=
    ({ w with inbox := rest } : Worker).receive_frame extension m
  have hleft : ({ w with inbox := rest } : Worker).outlook =
      Deed.served w.roster rest ++ Deed.closing w.roster.length ++ [.report] := by
    unfold outlook
    rw [hs, hg]
    rfl
  have hall : w.outlook = Deed.handing w.roster extension m ++ Deed.served w.roster rest ++
      Deed.closing w.roster.length ++ [.report] := by
    unfold outlook
    rw [hs, hg, hi]
    rfl
  rw [hhanded, outlook_congr hstage hagenda hroster hinbox, hleft, hall]
  show Deed.handing w.roster extension m ++ _ = _
  simp only [List.append_assoc]

/-- **A step does what comes next, or prepares for it.**

**Proof sketch.** A call that goes on changes nothing. A lifecycle call comes from the agenda, and a
message from the inbox. When a thread begins to end, what is left in its inbox is of no account, and
the calls that close its extensions get on the agenda. -/
theorem deeds_of_steps (hsound : w.Sound) (h : w.InPlace) (hw : w.Steps engine engine' w')
    (halive : w'.stage ≠ .crashed) : (w.deed? w').toList ++ w'.outlook = w.outlook := by
  have hquiet (ha' : w'.active = none) (hended : w'.stage ≠ .ended) : w.deed? w' = none := by
    rw [deed?_of_inactive ha', if_neg fun h => hended h.2]
  cases hw with
  | goesOn ha ho =>
    rw [deed?_eq_none (fun hn => by simp [hn] at ha) ho.stage, ho.outlook]
    rfl
  | goesDown => exact absurd rfl halive
  | calls ha hg => exact deeds_of_call hsound h ha hg
  | opened ha _ hs =>
    rw [hquiet ha (by simp)]
    unfold outlook
    rw [hs]
    rfl
  | receives ha hg hs hi => exact deeds_of_receive ha hg hs hi
  | obeys ha hg hs hi =>
    rw [hquiet ha (by simp [Worker.windDown])]
    exact outlook_windDown _ hg hs (by rw [hi]; rfl)
  | leaves ha hg hs hi =>
    rw [hquiet ha (by simp [Worker.windDown])]
    exact outlook_windDown w.inbox hg hs (by rw [hi]; rfl)
  | closed ha hg hs =>
    rw [hquiet ha (by simp)]
    unfold outlook
    rw [hs, hg]
    rfl
  | reports ha _ hs =>
    have ha' : ({ w with stage := .ended, tickers := [] } : Worker).active = none := ha
    rw [deed?_of_inactive ha', if_pos ⟨by simp [hs], rfl⟩]
    unfold outlook
    rw [hs]
    rfl

/-! ## What is noted -/

/-- An event that is no call is not noted as one. -/
lemma methodCall?_eq_none {e : Event} (he : e.isCall = false) : methodCall? e = none := by
  cases e with
  | called => cases he
  | log | note | crashed | tickerCrashed => rfl

/-- **A thread notes the calls that it makes**, under the names of its extensions.

**Proof sketch.** By cases on the step. A hook and a message begin a call, which is noted under the
name at its place; all other steps are no calls, and the only deed among them is the report, which
has no name. -/
theorem methodCalls_of_step? (h : w.InPlace) (hs : w.step? engine = some (engine', w')) :
    w'.methodCalls =
      w.methodCalls ++ (w.deed? w').toList.filterMap (Deed.named? w.roster) := by
  -- What is no call is not noted as one.
  have hnone (hsame : w'.methodCalls = w.methodCalls) (hno : ∀ d ∈ w.deed? w', d = .report) :
      w'.methodCalls = w.methodCalls ++ (w.deed? w').toList.filterMap (Deed.named? w.roster) := by
    rw [hsame]
    cases hd : w.deed? w' with
    | none => exact (List.append_nil _).symm
    | some d =>
      rw [hno d hd]
      exact (List.append_nil _).symm
  have hinactive (ha' : w'.active = none) : ∀ d ∈ w.deed? w', d = .report := by
    rw [deed?_of_inactive ha']
    split
    · simp
    · simp
  cases ha : w.active with
  | some c =>
    have hexec := hs
    unfold step? at hexec
    rw [ha] at hexec
    refine hnone (filterMap_execute? (fun _ => methodCall?_eq_none) hexec) fun d hd => ?_
    unfold deed? at hd
    rw [ha] at hd
    simp only at hd
    split at hd
    · exact (Option.some.inj hd).symm
    · cases hd
  | none =>
    cases steps_of_step? hs with
    | goesOn hactive =>
      rw [ha] at hactive
      cases hactive
    | goesDown => exact hnone (filterMap_record w rfl) (hinactive rfl)
    | @calls place hook rest _ hg =>
      have hp : place < w.roster.length := h (place, hook) (hg ▸ List.mem_cons_self)
      obtain ⟨hdeed, hcalls⟩ := deed?_call ha { w with agenda := rest } hp (.hook hook)
      rw [hdeed, hcalls]
      show _ = w.methodCalls ++ (w.roster[place]?.map (·, _)).toList
      rw [List.getElem?_eq_getElem hp]
      rfl
    | @receives extension m rest =>
      obtain ⟨hdeed, hcalls⟩ := deed?_receive ha { w with inbox := rest } ha rfl extension m
      rw [hdeed, hcalls]
      rfl
    | opened | obeys | leaves | reports => exact hnone rfl (hinactive ha)
    | closed => exact hnone (filterMap_record w rfl) (hinactive ha)

/-! ## What has been written -/

/-- How the inbox of a thread and how far the thread has come fit what has been written to it. -/
structure Fed (w : Worker) (written : List ThreadMsg) (refused : Bool) : Prop where
  opening : w.stage.isFirst = true → w.inbox = written
  serving : w.stage = .serving → (.close ∈ written ↔ .close ∈ w.inbox)
  ending : w.stage = .stopping ∨ w.stage = .stopped ∨ w.stage = .ended →
    .close ∈ written ∨ w.hungUp = true ∨ refused = true

variable {written : List ThreadMsg} {refused : Bool}

/-- Whether a worker is fed depends on its stage and its inbox. -/
lemma Fed.congr (h : w.Fed written refused) (hs : w'.stage = w.stage) (hi : w'.inbox = w.inbox)
    (hh : w'.hungUp = w.hungUp) : w'.Fed written refused := by
  refine ⟨?_, ?_, ?_⟩
  · rw [hs, hi]
    exact h.opening
  · rw [hs, hi]
    exact h.serving
  · rw [hs, hh]
    exact h.ending

/-- Steps take from the inbox what they serve.

**Proof sketch.** By cases on the step. The inbox is only taken from while the worker serves, and
the request to end ends the serving; from then on the inbox no longer matters. -/
lemma Fed.steps (h : w.Fed written refused) (hw : w.Steps engine engine' w') :
    w'.Fed written refused := by
  cases hw with
  | goesOn _ ho => exact h.congr ho.stage ho.inbox ho.hungUp
  | goesDown => exact ⟨by simp [goDown, Stage.isFirst], by simp [goDown], by simp [goDown]⟩
  | @calls place hook rest =>
    obtain ⟨-, -, hstage, -, hinbox, hhung, -⟩ :=
      ({ w with agenda := rest } : Worker).call_frame place (.hook hook)
    exact h.congr hstage hinbox hhung
  | opened _ _ hs =>
    refine ⟨by simp [Stage.isFirst], fun _ => ?_, by simp⟩
    rw [h.opening (by rw [hs]; rfl)]
  | @receives extension m rest _ _ hs hi =>
    obtain ⟨-, -, hstage, -, hinbox, -, -⟩ :=
      ({ w with inbox := rest } : Worker).receive_frame extension m
    have hserving : (({ w with inbox := rest } : Worker).receive extension m).stage = .serving :=
      hstage.trans hs
    refine ⟨fun hs' => ?_, fun _ => ?_, fun hs' => ?_⟩
    · simp [hserving, Stage.isFirst] at hs'
    · rw [hinbox, h.serving hs, hi]
      simp
    · simp [hserving] at hs'
  | obeys _ _ hs hi =>
    have hclose : ThreadMsg.close ∈ written := (h.serving hs).2 (hi ▸ List.mem_cons_self)
    exact ⟨by simp [Worker.windDown, Stage.isFirst], by simp [Worker.windDown],
      fun _ => .inl hclose⟩
  | leaves _ _ _ _ hh =>
    exact ⟨by simp [Worker.windDown, Stage.isFirst], by simp [Worker.windDown],
      fun _ => .inr (.inl hh)⟩
  | closed _ _ hs => exact ⟨by simp [Stage.isFirst], by simp, fun _ => h.ending (.inl hs)⟩
  | reports _ _ hs => exact ⟨by simp [Stage.isFirst], by simp, fun _ => h.ending (.inr (.inl hs))⟩

/-- What is written gets to the inbox. -/
lemma Fed.write (h : w.Fed written refused) (hr : w.isReceiving = true) (m : ThreadMsg) :
    (w.write [m]).Fed (written ++ [m]) refused := by
  rw [w.write_of_receiving [m] hr]
  refine ⟨fun hs => congrArg (· ++ [m]) (h.opening hs), fun hs => ?_, fun hs => ?_⟩
  · rw [List.mem_append, List.mem_append, h.serving hs]
  · exact (h.ending hs).imp_left (List.mem_append_left [m])

/-- What is written is served if it comes before the request to end, and else changes nothing.

**Proof sketch.** If the worker still takes its inbox, serving what was written and serving what is
in the inbox both end with the same request, or both go on with the message. If it is closing, the
request was written before, or nobody can write to it. -/
lemma Fed.outlook_write (h : w.Fed written refused) (hh : w.hungUp = false)
    (hrefused : refused = true → w.stage = .ended) (hr : w.isReceiving = true) {m : ThreadMsg}
    {deeds : List Deed} (hc : deeds ++ w.outlook = Deed.course w.roster written) :
    deeds ++ (w.write [m]).outlook = Deed.course w.roster (written ++ [m]) := by
  -- A thread that still takes its inbox serves what is written to it like all that was written.
  have hgrow (hin : ThreadMsg.close ∈ written ↔ .close ∈ w.inbox)
      (ho : w.outlook = w.agenda.map .ofHook ++ Deed.served w.roster w.inbox ++
        Deed.closing w.roster.length ++ [.report])
      (ho' : (w.write [m]).outlook = w.agenda.map .ofHook ++
        Deed.served w.roster (w.inbox ++ [m]) ++ Deed.closing w.roster.length ++ [.report]) :
      deeds ++ (w.write [m]).outlook = Deed.course w.roster (written ++ [m]) := by
    by_cases hclose : ThreadMsg.close ∈ w.inbox
    · rw [Deed.served_append_of_close _ hclose, ← ho] at ho'
      unfold Deed.course
      rw [ho', hc, Deed.served_append_of_close _ (hin.2 hclose)]
      rfl
    · rw [Deed.served_append _ hclose] at ho'
      unfold Deed.course at hc ⊢
      rw [Deed.served_append _ fun hw => hclose (hin.1 hw), ho']
      rw [ho] at hc
      simp only [← List.append_assoc, List.append_cancel_right_eq] at hc ⊢
      rw [hc]
  have hwrite := w.write_of_receiving [m] hr
  cases hs : w.stage with
  | creating | opening =>
    refine hgrow (by rw [h.opening (by rw [hs]; rfl)]) ?_ ?_
    · simp [outlook, hs]
    · rw [hwrite]
      simp [outlook, hs, roster]
  | serving =>
    refine hgrow (h.serving hs) ?_ ?_
    · simp [outlook, hs]
    · rw [hwrite]
      simp [outlook, hs, roster]
  | stopping =>
    have hclose : ThreadMsg.close ∈ written := by
      rcases h.ending (.inl hs) with hclose | hhung | hrefuse
      · exact hclose
      · rw [hh] at hhung
        cases hhung
      · rw [hs] at hrefused
        cases hrefused hrefuse
    unfold Deed.course at hc ⊢
    rw [Deed.served_append_of_close _ hclose, ← hc, hwrite]
    simp [outlook, hs]
  | stopped | ended | crashed => simp [Worker.isReceiving, hs] at hr

end Worker

end ExtensionGraph
