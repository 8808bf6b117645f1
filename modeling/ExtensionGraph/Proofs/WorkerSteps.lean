import Mathlib.Tactic.Common
import ExtensionGraph.Thread.Worker

/-!
# What the steps of a worker do

Each step of a worker is described once, by one of a few cases. All that extensions can do lies in a
single case: it leaves the course of the worker alone, and what it posts to the engine are wishes.
Only the last step of a worker reports that the thread has ended.

## Main definitions

* `ExtensionGraph.EngineMsg.IsWish` — what extensions may post to the engine.
* `ExtensionGraph.Mailbox.Extends`, `ExtensionGraph.Mailbox.Follows` — messages have been posted,
  and perhaps the reader has gone.
* `ExtensionGraph.Event.isCall` — whether an event is the beginning of a call.
* `ExtensionGraph.Worker.roster`, `ExtensionGraph.Worker.hookCalls` — the names of the extensions of
  a worker, and the lifecycle calls that were made.
* `ExtensionGraph.Worker.quiet` — a worker without its inbox.
* `ExtensionGraph.Worker.OnCourse` — two workers that differ in nothing but what their extensions
  have done.
* `ExtensionGraph.Worker.Hangs` — a worker that has called somebody who does not return.
* `ExtensionGraph.Worker.Executes` — what the instructions of a call do, case by case.
* `ExtensionGraph.Worker.Steps` — what a step does, case by case.

## Main results

* `ExtensionGraph.Worker.steps_of_step?` — every step is one of the cases.
* `ExtensionGraph.Worker.filterMap_execute?` — an extension that is being called calls nobody.
* `ExtensionGraph.Worker.run_induction` — what every step keeps up is kept up by all of them.
* `ExtensionGraph.Worker.onCourse_beat` — a ticker does no more than an extension.
-/

namespace ExtensionGraph

/-- What an extension may post to the engine: messages, and the wish that the graph be closed. -/
def EngineMsg.IsWish : EngineMsg → Prop
  | .route _ => True
  | .close => True
  | _ => False

/-- Whether an event is the beginning of a call. -/
def Event.isCall : Event → Bool
  | .called _ _ => true
  | _ => false

/-! ## Posting -/

/-- Messages have been posted to a mailbox. -/
def Mailbox.Extends (m m' : Mailbox EngineMsg) : Prop := ∃ ms, m' = m.postAll ms

namespace Mailbox.Extends

variable {m m' m'' : Mailbox EngineMsg}

/-- A mailbox in which nothing was posted. -/
lemma refl (m : Mailbox EngineMsg) : m.Extends m := ⟨[], rfl⟩

/-- Posting and then posting is posting. -/
lemma trans (h : m.Extends m') (h' : m'.Extends m'') : m.Extends m'' := by
  obtain ⟨ms, rfl⟩ := h
  obtain ⟨ms', rfl⟩ := h'
  exact ⟨ms ++ ms', (m.postAll_append ms ms').symm⟩

/-- Posting one message. -/
lemma post (m : Mailbox EngineMsg) (x : EngineMsg) : m.Extends (m.post x) := ⟨[x], rfl⟩

/-- Posting does not end the listening. -/
lemma listening (h : m.Extends m') : m'.listening = m.listening := by
  obtain ⟨ms, rfl⟩ := h
  exact postAll_listening m ms

/-- What waits goes on waiting, before what has been posted. -/
lemma messages (h : m.Extends m') : m.messages <+: m'.messages := by
  obtain ⟨ms, rfl⟩ := h
  rw [postAll_messages]
  exact List.prefix_append _ _

end Mailbox.Extends

/-- Messages have been posted to a mailbox, unless its reader has gone. -/
def Mailbox.Follows (m m' : Mailbox EngineMsg) : Prop := m.Extends m' ∨ m' = m.hangUp

namespace Mailbox.Follows

variable {m m' m'' : Mailbox EngineMsg}

/-- A reader that has gone does not come back, and nothing is posted any more. -/
lemma eq_hangUp (h : m.hangUp.Follows m') : m' = m.hangUp := by
  rcases h with ⟨ms, rfl⟩ | rfl
  · induction ms with
    | nil => rfl
    | cons x ms ih => exact ih
  · rfl

/-- Following a mailbox that follows a mailbox. -/
lemma trans (h : m.Follows m') (h' : m'.Follows m'') : m.Follows m'' := by
  rcases h with hx | rfl
  · exact h'.imp_left hx.trans
  · exact .inr h'.eq_hangUp

/-- A mailbox that is still read has only got messages. -/
lemma extends_of_listening (h : m.Follows m') (hl : m'.listening = true) : m.Extends m' := by
  rcases h with hx | rfl
  · exact hx
  · cases hl

/-- A mailbox that is still read has been read before. -/
lemma listening (h : m.Follows m') (hl : m'.listening = true) : m.listening = true :=
  (h.extends_of_listening hl).listening.symm.trans hl

end Mailbox.Follows

/-! ## What extensions post -/

namespace Env

variable (e : Env) (engine : Mailbox EngineMsg)

/-- An extension that posts a wish posts it or nothing. -/
lemma post_fst {m : EngineMsg} (hm : m.IsWish) :
    ∃ ms : List EngineMsg, (∀ x ∈ ms, x.IsWish) ∧ (e.post engine m).1 = engine.postAll ms := by
  unfold post
  split
  · exact ⟨[m], by simpa using hm, rfl⟩
  · exact ⟨[], by simp, rfl⟩

/-- Sending posts a wish at most. -/
lemma send_fst (mode : SendMode) (m : Msg) :
    ∃ ms : List EngineMsg, (∀ x ∈ ms, x.IsWish) ∧
      (e.send mode m engine).1 = engine.postAll ms := by
  unfold send
  split
  · exact ⟨[], by simp, rfl⟩
  · split
    · exact ⟨[], by simp, rfl⟩
    · exact e.post_fst engine trivial

end Env

namespace Worker

variable (w : Worker)

/-- A worker without its inbox. -/
def quiet : Worker := { w with inbox := [] }

/-- The names of the extensions of a worker, in their order. -/
def roster : List String := w.hosted.map (·.name)

/-- The lifecycle call that an event stands for. -/
def hookCall? : Event → Option (String × Hook)
  | .called name (.hook h) => some (name, h)
  | _ => none

/-- An event that is no call is not the call of a hook. -/
lemma hookCall?_eq_none {e : Event} (he : e.isCall = false) : hookCall? e = none := by
  cases e with
  | called => cases he
  | log | note | crashed | tickerCrashed => rfl

/-- The lifecycle calls that were made, in their order. -/
def hookCalls : List (String × Hook) := w.trace.filterMap hookCall?

/-- The workers differ in nothing but what their extensions have done during a call. -/
structure OnCourse (w w' : Worker) : Prop where
  id : w'.id = w.id
  roster : w'.roster = w.roster
  stage : w'.stage = w.stage
  agenda : w'.agenda = w.agenda
  inbox : w'.inbox = w.inbox
  hungUp : w'.hungUp = w.hungUp
  hookCalls : w'.hookCalls = w.hookCalls

/-- An extension has been called, or an addon has been asked for one, and does not return. -/
def Hangs (w : Worker) : Prop :=
  (∃ c, w.active = some c ∧ c.script = .hang) ∨ w.stage = .creating .hang

variable {w} {w' : Worker}

/-- A worker that nothing has happened to is on its course. -/
lemma OnCourse.refl (w : Worker) : w.OnCourse w := ⟨rfl, rfl, rfl, rfl, rfl, rfl, rfl⟩

/-- A worker goes on on its course. -/
lemma OnCourse.trans {w'' : Worker} (h : w.OnCourse w') (h' : w'.OnCourse w'') :
    w.OnCourse w'' :=
  ⟨h'.id.trans h.id, h'.roster.trans h.roster, h'.stage.trans h.stage, h'.agenda.trans h.agenda,
    h'.inbox.trans h.inbox, h'.hungUp.trans h.hungUp, h'.hookCalls.trans h.hookCalls⟩

/-- The calls of hooks after one more event. -/
@[simp] lemma hookCalls_record (w : Worker) (e : Event) :
    (w.record e).hookCalls = w.hookCalls ++ (hookCall? e).toList := by
  show (w.trace ++ [e]).filterMap hookCall? = _
  rw [List.filterMap_append, List.filterMap_cons, List.filterMap_nil]
  cases hookCall? e with
  | none => rfl
  | some x => rfl

/-- What is no call leaves the worker on its course. -/
lemma onCourse_record {e : Event} (he : hookCall? e = none) : w.OnCourse (w.record e) := by
  refine ⟨rfl, rfl, rfl, rfl, rfl, rfl, ?_⟩
  rw [hookCalls_record, he]
  exact List.append_nil _

/-- A call that ends leaves the worker on its course.

**Proof sketch.** The end of a call gives the extension its memory back, under the same name, and
may record a failure. -/
lemma onCourse_finish (c : Call) (result : Except Error Unit) (memory : Memory) :
    w.OnCourse (w.finish c result memory) := by
  have hroster : (w.hosted.modify c.place fun h =>
      { h with extension := { h.extension with memory } }).map (·.name) =
        w.hosted.map (·.name) := by
    refine List.ext_getElem? fun k => ?_
    simp only [List.getElem?_map, List.getElem?_modify]
    split
    · cases w.hosted[k]? <;> rfl
    · cases w.hosted[k]? <;> rfl
  unfold finish
  split
  · exact ⟨rfl, hroster, rfl, rfl, rfl, rfl, rfl⟩
  · refine OnCourse.trans ?_ (onCourse_record rfl)
    exact ⟨rfl, hroster, rfl, rfl, rfl, rfl, rfl⟩

/-- **Everything that a step can do**, to the worker and to the mailbox of the engine. -/
inductive Steps (w : Worker) (engine : Mailbox EngineMsg) : Mailbox EngineMsg → Worker → Prop
  /-- The extension that is being called goes on. -/
  | goesOn {w' : Worker} {ms : List EngineMsg} (ha : w.active.isSome) (ho : w.OnCourse w')
      (hm : ∀ m ∈ ms, m.IsWish) : Steps w engine (engine.postAll ms) w'
  /-- It takes the thread down, or an addon does that was asked for an extension. -/
  | goesDown (h : w.active.isSome ∨ w.stage = .creating .crash) : Steps w engine engine w.goDown
  /-- The next lifecycle call is made. -/
  | calls {place : Nat} {hook : Hook} {rest : List (Nat × Hook)} (ha : w.active = none)
      (hg : w.agenda = (place, hook) :: rest) :
      Steps w engine engine ({ w with agenda := rest }.call place (.hook hook))
  /-- All extensions have been opened. -/
  | opened (ha : w.active = none) (hg : w.agenda = []) (hs : w.stage = .opening) :
      Steps w engine engine { w with stage := .serving }
  /-- A message is handed to an extension, if there is one of its name. -/
  | receives {extension : String} {m : Msg} {rest : List ThreadMsg} (ha : w.active = none)
      (hg : w.agenda = []) (hs : w.stage = .serving) (hi : w.inbox = .deliver extension m :: rest) :
      Steps w engine engine ({ w with inbox := rest }.receive extension m)
  /-- The worker is asked to end. -/
  | obeys {rest : List ThreadMsg} (ha : w.active = none) (hg : w.agenda = [])
      (hs : w.stage = .serving) (hi : w.inbox = .close :: rest) :
      Steps w engine engine { w with inbox := rest }.windDown
  /-- Nobody can write to the worker any more. -/
  | leaves (ha : w.active = none) (hg : w.agenda = []) (hs : w.stage = .serving)
      (hi : w.inbox = []) (hh : w.hungUp = true) : Steps w engine engine w.windDown
  /-- All extensions have been closed. -/
  | closed (ha : w.active = none) (hg : w.agenda = []) (hs : w.stage = .stopping) :
      Steps w engine engine
        { w.record (.log (.threadStopped w.group)) with stage := .stopped }
  /-- The worker reports its end. -/
  | reports (ha : w.active = none) (hg : w.agenda = []) (hs : w.stage = .stopped) :
      Steps w engine (engine.post (.threadClosed w.id)) { w with stage := .ended, tickers := [] }

variable {engine engine' : Mailbox EngineMsg}

/-- A step posts messages at most. -/
lemma Steps.extends (h : w.Steps engine engine' w') : engine.Extends engine' := by
  cases h with
  | goesOn => exact ⟨_, rfl⟩
  | reports => exact .post _ _
  | goesDown | calls | opened | receives | obeys | leaves | closed => exact .refl _

/-- **Everything that an instruction of a call can do**, to the worker and to the mailbox of the
engine. -/
inductive Executes (w : Worker) (engine : Mailbox EngineMsg) (c : Call) :
    Mailbox EngineMsg → Worker → Prop
  /-- The call returns. -/
  | returns {result : Except Error Unit} {memory : Memory} (hs : c.script = .done result memory) :
      Executes w engine c engine (w.finish c result memory)
  /-- It panics. -/
  | panics (hs : c.script = .crash) : Executes w engine c engine w.goDown
  /-- Something is noted. -/
  | notes {n : Note} {next : Script} (hs : c.script = .emit n next) :
      Executes w engine c engine ((w.record n.event).goOn c next)
  /-- Something is sent, or the end of the graph is asked for; how the call goes on depends on the
  answer. -/
  | wishes {ms : List EngineMsg} (hm : ∀ m ∈ ms, m.IsWish) (next : Script) :
      Executes w engine c (engine.postAll ms) (w.goOn c next)
  /-- A ticker begins to wait. -/
  | ticks {t : Ticker} {next : Script} (hs : c.script = .every t next) :
      Executes w engine c engine
        ({ w with tickers := w.tickers ++ [Beating.mk c.place c.env 1 t] }.goOn c next)
  /-- The tickers of the extension are stopped. -/
  | cancels {next : Script} (hs : c.script = .cancel next) :
      Executes w engine c engine
        ({ w with tickers := w.tickers.filter (·.place ≠ c.place) }.goOn c next)

/-- Every instruction of a call does one of these. -/
lemma executes_of_execute? {c : Call} (h : w.execute? engine c = some (engine', w')) :
    w.Executes engine c engine' w' := by
  unfold execute? at h
  split at h
  · next hs =>
    cases h
    exact .returns hs
  · next hs =>
    cases h
    exact .panics hs
  · cases h
  · next hs =>
    cases h
    exact .notes hs
  · next mode m next hs =>
    obtain ⟨ms, hw, he⟩ := c.env.send_fst engine mode m
    have hpair := Option.some.inj h
    have hfst : (c.env.send mode m engine).1 = engine' := congrArg Prod.fst hpair
    have hsnd : w.goOn c (next (c.env.send mode m engine).2) = w' := congrArg Prod.snd hpair
    rw [← hfst, ← hsnd, he]
    exact .wishes hw _
  · next next hs =>
    obtain ⟨ms, hw, he⟩ := c.env.post_fst engine (m := .close) trivial
    have hpair := Option.some.inj h
    have hfst : (c.env.post engine .close).1 = engine' := congrArg Prod.fst hpair
    have hsnd : w.goOn c (next (c.env.post engine .close).2) = w' := congrArg Prod.snd hpair
    rw [← hfst, ← hsnd, he]
    exact .wishes hw _
  · next hs =>
    cases h
    exact .ticks hs
  · next hs =>
    cases h
    exact .cancels hs

/-- Going on with a call is one of the steps. A call that ends, notes something or handles its
tickers posts nothing; one that panics takes the thread down. -/
lemma steps_of_execute? {c : Call} (ha : w.active = some c)
    (h : w.execute? engine c = some (engine', w')) : w.Steps engine engine' w' := by
  have hsome : w.active.isSome := by rw [ha]; rfl
  have hgoOn (w : Worker) (s : Script) : w.OnCourse (w.goOn c s) :=
    ⟨rfl, rfl, rfl, rfl, rfl, rfl, rfl⟩
  -- What only changes the call itself or the tickers posts nothing.
  have hplain {w' : Worker} (ho : w.OnCourse w') : w.Steps engine engine w' := by
    have hnothing : w.Steps engine (engine.postAll []) w' := .goesOn hsome ho (by simp)
    exact hnothing
  cases executes_of_execute? h with
  | returns => exact hplain (onCourse_finish c _ _)
  | panics => exact .goesDown (.inl hsome)
  | @notes n =>
    have hnote : hookCall? n.event = none := hookCall?_eq_none (by cases n <;> rfl)
    exact hplain ((onCourse_record hnote).trans (hgoOn _ _))
  | wishes hm => exact .goesOn hsome (hgoOn _ _) hm
  | ticks | cancels => exact hplain ⟨rfl, rfl, rfl, rfl, rfl, rfl, rfl⟩

/-- Going on to the next stage is one of the steps. -/
lemma steps_of_advance? (ha : w.active = none) (hg : w.agenda = [])
    (h : w.advance? engine = some (engine', w')) : w.Steps engine engine' w' := by
  unfold advance? at h
  split at h
  · next hs =>
    cases h
    exact .goesDown (.inr hs)
  · cases h
  · next hs =>
    cases h
    exact .opened ha hg hs
  · next hs =>
    obtain ⟨v, hv, he⟩ := Option.map_eq_some_iff.1 h
    cases he
    unfold serve? at hv
    split at hv
    · next hi =>
      cases hv
      exact .receives ha hg hs hi
    · next hi =>
      cases hv
      exact .obeys ha hg hs hi
    · next hi =>
      split at hv
      · next hh =>
        cases hv
        exact .leaves ha hg hs hi hh
      · cases hv
  · next hs =>
    cases h
    exact .closed ha hg hs
  · next hs =>
    cases h
    exact .reports ha hg hs
  · cases h
  · cases h

/-- Every step of a worker is one of the cases. -/
theorem steps_of_step? (h : w.step? engine = some (engine', w')) : w.Steps engine engine' w' := by
  unfold step? at h
  split at h
  · next c _ ha => exact steps_of_execute? ha h
  · next ha hg =>
    cases h
    exact .calls ha hg
  · next ha hg => exact steps_of_advance? ha hg h

/-! ## What is noted while nobody is called -/

section Noted

variable {α : Type} {f : Event → Option α}

/-- Recording an event that is not picked changes nothing that is. -/
lemma filterMap_record (w : Worker) {e : Event} (he : f e = none) :
    (w.record e).trace.filterMap f = w.trace.filterMap f := by
  show (w.trace ++ [e]).filterMap f = _
  rw [List.filterMap_append, List.filterMap_cons_none he]
  exact List.append_nil _

/-- The creation of a worker calls nobody. -/
lemma filterMap_create (hf : ∀ e : Event, e.isCall = false → f e = none) (link : Link)
    (id : ThreadId) (g : Group) (t : Topology) : (create link id g t).trace.filterMap f = [] := by
  refine List.filterMap_eq_nil_iff.2 fun e he => hf e ?_
  obtain ⟨x, -, rfl⟩ := List.mem_map.1 he
  rfl

/-- **An extension that is being called calls nobody**: what is picked from the calls that are noted
stays the same.

**Proof sketch.** By what the instruction does: if it records anything, that is a note, a failure or
a crash, and none of them is a call. -/
theorem filterMap_execute? (hf : ∀ e : Event, e.isCall = false → f e = none) {c : Call}
    (h : w.execute? engine c = some (engine', w')) :
    w'.trace.filterMap f = w.trace.filterMap f := by
  cases executes_of_execute? h with
  | returns =>
    unfold finish
    split
    · rfl
    · exact filterMap_record _ (hf _ rfl)
  | panics => exact filterMap_record w (hf _ rfl)
  | @notes n => exact filterMap_record w (hf _ (by cases n <;> rfl))
  | wishes | ticks | cancels => rfl

/-- The beat of a ticker calls nobody either. -/
lemma filterMap_beat (hf : ∀ e : Event, e.isCall = false → f e = none) (w : Worker)
    (engine : Mailbox EngineMsg) (k : Nat) :
    (w.beat engine k).2.trace.filterMap f = w.trace.filterMap f := by
  have htick (b : Beating) : (tick engine b).2.2.filterMap f = [] := by
    unfold tick
    split
    · exact List.filterMap_cons_none (hf _ rfl)
    · split
      · rfl
      · exact List.filterMap_cons_none (hf _ rfl)
  unfold beat
  split
  · rfl
  · next b _ =>
    show (w.trace ++ (tick engine b).2.2).filterMap f = _
    rw [List.filterMap_append, htick, List.append_nil]

end Noted

/-! ## Runs -/

/-- **What every step keeps up is kept up by all steps until the worker has to wait.** -/
theorem run_induction {P : Mailbox EngineMsg → Worker → Prop}
    (hstep : ∀ {engine engine' : Mailbox EngineMsg} {w w' : Worker}, P engine w →
      w.step? engine = some (engine', w') → P engine' w')
    (h : P engine w) : P (w.run engine).1 (w.run engine).2 := by
  induction engine, w using run.induct with
  | case1 engine w hs =>
    rw [run]
    split
    · exact h
    · next hs' => exact absurd (hs.symm.trans hs') (by simp)
  | case2 engine w engine' w' hs ih =>
    rw [run]
    split
    · next hs' => exact absurd (hs.symm.trans hs') (by simp)
    · next hs' =>
      cases hs.symm.trans hs'
      exact ih (hstep h hs)

/-! ## Tickers -/

/-- The beat of a ticker posts wishes at most. -/
lemma tick_fst (engine : Mailbox EngineMsg) (b : Beating) :
    ∃ ms : List EngineMsg, (∀ m ∈ ms, m.IsWish) ∧ (tick engine b).1 = engine.postAll ms := by
  obtain ⟨ms, hw, he⟩ := b.env.send_fst engine .dataOnly (b.ticker.message b.beat)
  unfold tick
  split
  · exact ⟨[], by simp, rfl⟩
  · split
    · next hs =>
      rw [hs] at he
      exact ⟨ms, hw, he⟩
    · next hs =>
      rw [hs] at he
      exact ⟨ms, hw, he⟩

/-- The beat of a ticker leaves the worker on its course, and posts wishes at most. -/
lemma onCourse_beat (w : Worker) (engine : Mailbox EngineMsg) (k : Nat) :
    w.OnCourse (w.beat engine k).2 ∧
      ∃ ms : List EngineMsg, (∀ m ∈ ms, m.IsWish) ∧ (w.beat engine k).1 = engine.postAll ms := by
  have hcalls : (w.beat engine k).2.hookCalls = w.hookCalls :=
    filterMap_beat (fun _ => hookCall?_eq_none) w engine k
  unfold beat at hcalls ⊢
  split
  · exact ⟨OnCourse.refl w, [], by simp, rfl⟩
  · next b hb =>
    rw [hb] at hcalls
    obtain ⟨ms, hw, he⟩ := tick_fst engine b
    exact ⟨⟨rfl, rfl, rfl, rfl, rfl, rfl, hcalls⟩, ms, hw, he⟩

end Worker

end ExtensionGraph
