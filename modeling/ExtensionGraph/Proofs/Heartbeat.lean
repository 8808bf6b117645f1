import ExtensionGraph.Builtin
import ExtensionGraph.Proofs.HostedExtensions

/-!
# Heartbeats on their thread

A heartbeat is started with a ticker, which is to send the beats, and stopped by taking the ticker
away. In between the ticker waits for its first turn. So at any time a heartbeat has still to be
started, or its ticker waits, or the ticker has had its first turn; unless it has been stopped, or
another extension has taken the thread down. None of its calls ever fails.

## Main definitions

* `ExtensionGraph.Hosted.IsHeartbeat` — the extensions of the heartbeat addon.
* `ExtensionGraph.Addon.firstBeat` — a ticker before its first turn.
* `ExtensionGraph.Worker.HeartCall` — what may be left of a call of a heartbeat.
* `ExtensionGraph.Worker.Pulse` — how far a heartbeat has come.
* `ExtensionGraph.Worker.HeartSound`, `ExtensionGraph.Worker.HeartsSound` — a heartbeat in order,
  and all of them.

## Main results

* `ExtensionGraph.Worker.HeartCall.returnsQuietly` — every call of a heartbeat returns.
* `ExtensionGraph.Worker.HeartSound.step?` — every step keeps a heartbeat in order.
* `ExtensionGraph.Worker.HeartsSound.step?`, `ExtensionGraph.Worker.HeartsSound.beat` — steps and
  turns of tickers keep all of them in order.
-/

namespace ExtensionGraph

/-- The extension is one of the heartbeat addon. -/
def Hosted.IsHeartbeat (h : Hosted) : Prop := h.extension.script = Addon.heartbeatScript

/-- Extensions that differ in what they remember are alike in everything else. -/
lemma Hosted.alike_of_still {h h' : Hosted} (hs : h.still = h'.still) :
    h.name = h'.name ∧ h.env = h'.env ∧ h.extension.script = h'.extension.script := by
  obtain ⟨hname, henv, hx⟩ := Hosted.mk.inj hs
  exact ⟨hname, henv, (Extension.mk.inj hx).2⟩

/-- The ticker of the heartbeat at a place, before its first turn. -/
def Addon.firstBeat (place : Nat) (env : Env) : Beating := ⟨place, env, 1, heartbeatTicker env⟩

namespace Worker

variable {w w' : Worker} {engine engine' : Mailbox EngineMsg} {b : Beating}

/-! ## Tickers -/

/-- An extension that is being called takes no ticker away but its own, unless it takes the thread
down.

**Proof sketch.** By what the instruction does. A ticker is only taken away where the script
cancels, and then only those at the place of the call; a new one is added at the end. -/
lemma mem_tickers_of_execute? {c : Call} (h : w.execute? engine c = some (engine', w'))
    (hb : b ∈ w.tickers) :
    b ∈ w'.tickers ∨ (∃ next, c.place = b.place ∧ c.script = .cancel next) ∨
      w'.stage = .crashed := by
  cases executes_of_execute? h with
  | returns =>
    left
    unfold finish
    split
    · exact hb
    · exact hb
  | panics => exact .inr (.inr rfl)
  | notes | wishes => exact .inl hb
  | ticks => exact .inl (List.mem_append_left _ hb)
  | @cancels next hs =>
    by_cases hplace : b.place = c.place
    · exact .inr (.inl ⟨next, hplace.symm, hs⟩)
    · exact .inl (List.mem_filter.2 ⟨hb, by simpa using hplace⟩)

/-- The step of a call is the step of the worker. -/
lemma step?_of_active {c : Call} (ha : w.active = some c) :
    w.step? engine = w.execute? engine c := by
  unfold step?
  rw [ha]

/-- **A ticker goes on waiting for its turn** unless its extension stops it or its thread is at its
end.

**Proof sketch.** While a call is active, the step is one of its script. Otherwise it takes up a
hook, a message or an order, none of which touches tickers, up to the last step of a thread. -/
lemma mem_tickers_of_step? (h : w.step? engine = some (engine', w')) (hb : b ∈ w.tickers) :
    b ∈ w'.tickers ∨
      (∃ c next, w.active = some c ∧ c.place = b.place ∧ c.script = .cancel next) ∨
      w'.stage = .crashed ∨ w.stage = .stopped := by
  cases ha : w.active with
  | some c =>
    rw [step?_of_active ha] at h
    rcases mem_tickers_of_execute? h hb with hb | ⟨next, hcancel⟩ | hdown
    · exact .inl hb
    · exact .inr (.inl ⟨c, next, rfl, hcancel⟩)
    · exact .inr (.inr (.inl hdown))
  | none =>
    cases steps_of_step? h with
    | goesOn hactive =>
      rw [ha] at hactive
      cases hactive
    | goesDown => exact .inr (.inr (.inl rfl))
    | @calls place hook rest =>
      left
      rw [(call_frame _ place (.hook hook)).2.2.2.2.2.2]
      exact hb
    | opened | obeys | leaves | closed => exact .inl hb
    | @receives extension m rest =>
      left
      unfold receive
      split
      · rw [(call_frame _ _ _).2.2.2.2.2.2]
        exact hb
      · exact hb
    | reports _ _ hs => exact .inr (.inr (.inr hs))

/-- A ticker goes on waiting while others have their turn. -/
lemma mem_tickers_beat (hb : b ∈ w.tickers) (engine : Mailbox EngineMsg) (j : Nat) :
    b ∈ (w.beat engine j).2.tickers ∨ w.tickers[j]? = some b := by
  unfold beat
  cases hj : w.tickers[j]? with
  | none => exact .inl hb
  | some b' =>
    obtain ⟨hlt, hget⟩ := List.getElem?_eq_some_iff.1 hj
    have hsplit : w.tickers = w.tickers.take j ++ b' :: w.tickers.drop (j + 1) := by
      rw [← hget, ← List.drop_eq_getElem_cons hlt, List.take_append_drop]
    rw [hsplit] at hb
    rcases List.mem_append.1 hb with hb | hb
    · exact .inl (List.mem_append_left _ (List.mem_append_left _ hb))
    · rcases List.mem_cons.1 hb with rfl | hb
      · exact .inr rfl
      · exact .inl (List.mem_append_right _ hb)

/-! ## Calls -/

/-- What may be left of a call of a heartbeat: a call that starts it has a ticker to start, a call
that stops it has been noted, and every call returns with success. -/
inductive HeartCall (w : Worker) (name : String) (env : Env) (c : Call) : Prop
  | starts (memory : Memory) (henv : c.env = env)
      (hs : c.script = .every (Addon.heartbeatTicker env) (.done (.ok ()) memory))
  | stops (memory : Memory) (hc : (name, .stop) ∈ w.hookCalls)
      (hs : c.script = .cancel (.done (.ok ()) memory))
  | returns (memory : Memory) (hs : c.script = .done (.ok ()) memory)

/-- The call that is being made ends, whatever the engine does: after a step or two nobody is being
called, and nothing has been noted or posted. -/
def ReturnsQuietly (w : Worker) : Prop :=
  ∀ engine : Mailbox EngineMsg, ∃ w' : Worker, w'.active = none ∧ w'.trace = w.trace ∧
    (w.step? engine = some (engine, w') ∨
      ∃ v, w.step? engine = some (engine, v) ∧ v.step? engine = some (engine, w'))

/-- How far a heartbeat has come. -/
inductive Pulse (turned : Prop) (place : Nat) (name : String) (env : Env) (w : Worker) : Prop
  /-- It has still to be started. -/
  | due (hd : (place, .start) ∈ w.agenda)
  /-- It is being started. -/
  | starts {c : Call} {memory : Memory} (ha : w.active = some c) (hplace : c.place = place)
      (hs : c.script = .every (Addon.heartbeatTicker env) (.done (.ok ()) memory))
  /-- Its ticker waits for the first turn. -/
  | waits (hb : Addon.firstBeat place env ∈ w.tickers)
  /-- Its ticker has had the first turn. -/
  | turned (ht : turned)
  /-- It has been stopped. -/
  | stopped (hs : (name, .stop) ∈ w.hookCalls)
  /-- Some extension has taken the thread down. -/
  | down (hd : w.stage = .crashed)

/-- A heartbeat in order. -/
structure HeartSound (turned : Prop) (place : Nat) (name : String) (env : Env) (w : Worker) :
    Prop where
  call : ∀ c, w.active = some c → c.place = place → w.HeartCall name env c
  pulse : w.Pulse turned place name env

variable {turned : Prop} {place : Nat} {name : String} {env : Env}

/-- A call of a heartbeat begins. -/
lemma heartCall_script {h : Hosted} (hh : h.IsHeartbeat) {k : Nat} {cb : Callback}
    (hstop : cb = .hook .stop → (h.name, .stop) ∈ w.hookCalls) :
    w.HeartCall h.name h.env
      ⟨k, h.name, h.env, cb, h.extension.script h.extension.memory h.env cb⟩ := by
  rw [hh]
  cases cb with
  | message m => exact .returns _ rfl
  | hook hook =>
    cases hook with
    | init | deinit => exact .returns _ rfl
    | start => exact .starts _ rfl rfl
    | stop => exact .stops _ (hstop rfl) rfl

/-- What was called stays called. -/
lemma mem_hookCalls_of_trace (h : w.trace <+: w'.trace) {x : String × Hook}
    (hx : x ∈ w.hookCalls) : x ∈ w'.hookCalls :=
  (h.filterMap hookCall?).subset hx

/-- A call changes nothing about how far a heartbeat has come, unless it starts it. -/
lemma Pulse.call (hp : w.Pulse turned place name env) (ha : w.active = none) (k : Nat)
    (cb : Callback) : (w.call k cb).Pulse turned place name env := by
  obtain ⟨-, -, hstage, hagenda, -, -, htickers⟩ := w.call_frame k cb
  cases hp with
  | due hd => exact .due (hagenda.symm ▸ hd)
  | starts hactive =>
    rw [ha] at hactive
    cases hactive
  | waits hb => exact .waits (htickers.symm ▸ hb)
  | turned ht => exact .turned ht
  | stopped hs => exact .stopped (mem_hookCalls_of_trace (continues_call w k cb).trace hs)
  | down hd => exact .down (hstage.trans hd)

/-- Whatever is called, a call of the heartbeat is as it has to be.

**Proof sketch.** If another extension is called, nothing is to be shown of the call. If it is the
heartbeat, its script is one of three, and it stops only after it has been called to. -/
lemma heartSound_call {h : Hosted} (hget : w.hosted[place]? = some h) (hh : h.IsHeartbeat)
    (ha : w.active = none) {k : Nat} {cb : Callback}
    (hp : (w.call k cb).Pulse turned place h.name h.env) :
    (w.call k cb).HeartSound turned place h.name h.env := by
  refine ⟨fun c hc hplace => ?_, hp⟩
  unfold call at hc ⊢
  cases hk : w.hosted[k]? with
  | none =>
    rw [hk, ha] at hc
    cases hc
  | some h' =>
    rw [hk] at hc
    cases hc
    obtain rfl : k = place := hplace
    cases hk.symm.trans hget
    refine heartCall_script hh fun hstop => ?_
    subst hstop
    show _ ∈ (w.record (.called h.name (.hook .stop))).hookCalls
    rw [hookCalls_record]
    exact List.mem_append_right _ List.mem_cons_self

/-- What goes on is the same call. -/
lemma place_of_execute? {c c' : Call} (h : w.execute? engine c = some (engine', w'))
    (ha' : w'.active = some c') : c'.place = c.place := by
  cases Worker.executes_of_execute? h with
  | @returns result => cases result <;> cases ha'
  | panics => cases ha'
  -- Whatever else is done, the call goes on with the rest of its script.
  | notes | wishes | ticks | cancels =>
    cases ha'
    rfl

/-- What is left of a call of a heartbeat after one of its instructions.

**Proof sketch.** By what is left of the call: it starts a ticker, stops the tickers or returns, and
after any of them it returns next. -/
lemma HeartCall.execute? {c c' : Call} (hc : w.HeartCall name env c)
    (h : w.execute? engine c = some (engine', w')) (ha' : w'.active = some c') :
    w'.HeartCall name env c' := by
  unfold Worker.execute? at h
  cases hc with
  | starts memory henv hs =>
    rw [hs] at h
    cases h
    cases ha'
    exact .returns memory rfl
  | stops memory hc hs =>
    rw [hs] at h
    cases h
    cases ha'
    exact .returns memory rfl
  | returns memory hs =>
    rw [hs] at h
    cases h
    cases ha'

/-- A call that is at its end. -/
lemma step?_of_done {c : Call} {memory : Memory} (ha : w.active = some c)
    (hs : c.script = .done (.ok ()) memory) :
    w.step? engine = some (engine, w.finish c (.ok ()) memory) := by
  rw [step?_of_active ha, Worker.execute?, hs]

/-- **Every call of a heartbeat returns**, and with success.

**Proof sketch.** A call that returns is at its end in one step. The other two kinds have one
instruction in front of that, which touches tickers only. -/
theorem HeartCall.returnsQuietly {c : Call} (hc : w.HeartCall name env c)
    (ha : w.active = some c) : w.ReturnsQuietly := by
  -- After its only instruction, a call is at its end.
  have hnext (v : Worker) (memory : Memory) {engine : Mailbox EngineMsg}
      (htrace : v.trace = w.trace)
      (hstep : w.step? engine = some (engine, v.goOn c (.done (.ok ()) memory))) :
      ∃ w' : Worker, w'.active = none ∧ w'.trace = w.trace ∧ (w.step? engine = some (engine, w') ∨
        ∃ u, w.step? engine = some (engine, u) ∧ u.step? engine = some (engine, w')) :=
    ⟨(v.goOn c (.done (.ok ()) memory)).finish { c with script := .done (.ok ()) memory } (.ok ())
      memory, rfl, htrace, .inr ⟨_, hstep, step?_of_done rfl rfl⟩⟩
  intro engine
  cases hc with
  | starts memory _ hs =>
    refine hnext { w with
      tickers := w.tickers ++ [⟨c.place, c.env, 1, Addon.heartbeatTicker env⟩] } memory rfl ?_
    rw [step?_of_active ha, Worker.execute?, hs]
  | stops memory _ hs =>
    refine hnext { w with tickers := w.tickers.filter (·.place ≠ c.place) } memory rfl ?_
    rw [step?_of_active ha, Worker.execute?, hs]
  | returns memory hs => exact ⟨w.finish c (.ok ()) memory, rfl, rfl, .inl (step?_of_done ha hs)⟩

/-- A heartbeat that has to be started is being started after the step in which its turn comes.

**Proof sketch.** The start is on the agenda. A thread works its agenda off from the front, so the
next call is either this start, whose script is the one of a heartbeat, or another one before it;
all other steps need an empty agenda. -/
lemma pulse_of_due {h : Hosted} (hget : w.hosted[place]? = some h) (hh : h.IsHeartbeat)
    (hd : (place, .start) ∈ w.agenda) (hsteps : w.Steps engine engine' w') :
    w'.Pulse turned place h.name h.env := by
  have hempty (hg : w.agenda = []) : False := by
    rw [hg] at hd
    cases hd
  cases hsteps with
  | goesOn _ ho => exact .due (ho.agenda.symm ▸ hd)
  | goesDown => exact .down rfl
  | @calls k hook rest ha hg =>
    rw [hg] at hd
    rcases List.mem_cons.1 hd with heq | hd
    · cases heq
      have hbegins : ({ w with agenda := rest } : Worker).call place (.hook .start) =
          { ({ w with agenda := rest } : Worker).record (.called h.name (.hook .start)) with
            active := some ⟨place, h.name, h.env, .hook .start,
              h.extension.script h.extension.memory h.env (.hook .start)⟩ } := by
        unfold Worker.call
        rw [show ({ w with agenda := rest } : Worker).hosted[place]? = some h from hget]
      have hscript : h.extension.script h.extension.memory h.env (.hook .start) =
          .every (Addon.heartbeatTicker h.env) (.done (.ok ()) h.extension.memory) := by
        rw [show h.extension.script = Addon.heartbeatScript from hh]
        rfl
      rw [hbegins]
      exact .starts rfl rfl hscript
    · have hrest : ({ w with agenda := rest } : Worker).Pulse turned place h.name h.env := .due hd
      exact hrest.call ha k (.hook hook)
  | opened _ hg | receives _ hg | obeys _ hg | leaves _ hg | closed _ hg | reports _ hg =>
    exact (hempty hg).elim

/-- A ticker that waits goes on waiting, unless its heartbeat is stopped or its thread is at its
end. A thread at its end has stopped all of its extensions.

**Proof sketch.** By what has become of the ticker. If its own extension has cancelled it, that was
in the stop; if the thread has ended, its course shows that the stop was called. -/
lemma HeartSound.pulse_of_waits {h : Hosted} (hs : w.HeartSound turned place h.name h.env)
    (hsound : w.Sound) (hget : w.hosted[place]? = some h)
    (hb : Addon.firstBeat place h.env ∈ w.tickers) (hstep : w.step? engine = some (engine', w')) :
    w'.Pulse turned place h.name h.env := by
  have htrace := (continues_step? hstep).trace
  rcases mem_tickers_of_step? hstep hb with hb | ⟨c, next, ha, hplace, hcancel⟩ | hdown | hend
  · exact .waits hb
  · cases hs.call c ha hplace with
    | stops _ hc => exact .stopped (mem_hookCalls_of_trace htrace hc)
    | starts _ _ hs' | returns _ hs' =>
      rw [hcancel] at hs'
      cases hs'
  · exact .down hdown
  · have hcourse := hsound.course (by rw [hend]; simp)
    have hname : h.name ∈ w.roster := List.mem_map_of_mem (List.mem_of_getElem? hget)
    have hstop : (h.name, .stop) ∈ w.hookCalls := by
      rw [pending, hend, List.append_nil] at hcourse
      rw [hcourse, lifecycle, closings]
      exact List.mem_append_right _ (List.mem_append_left _
        (List.mem_map_of_mem (List.mem_reverse.2 hname)))
    exact .stopped (mem_hookCalls_of_trace htrace hstop)

/-- A step brings a heartbeat on, or leaves it where it is.

**Proof sketch.** By how far the heartbeat is. A call that is starting it runs the script of the
start, which sets the ticker going; from the later states there is no way back. -/
lemma HeartSound.pulse_step? {h : Hosted} (hs : w.HeartSound turned place h.name h.env)
    (hsound : w.Sound) (hget : w.hosted[place]? = some h) (hh : h.IsHeartbeat)
    (hstep : w.step? engine = some (engine', w')) : w'.Pulse turned place h.name h.env := by
  have hsteps := steps_of_step? hstep
  cases hs.pulse with
  | due hd => exact pulse_of_due hget hh hd hsteps
  | @starts c memory ha hplace hscript =>
    rw [step?_of_active ha, Worker.execute?, hscript] at hstep
    cases hstep
    cases hs.call c ha hplace with
    | starts _ henv =>
      refine .waits (List.mem_append_right _ (List.mem_singleton.2 ?_))
      rw [hplace, henv]
      rfl
    | stops _ _ hs' | returns _ hs' =>
      rw [hscript] at hs'
      cases hs'
  | waits hb => exact hs.pulse_of_waits hsound hget hb hstep
  | turned ht => exact .turned ht
  | stopped hc => exact .stopped (mem_hookCalls_of_trace (continues_step? hstep).trace hc)
  | down hd => exact .down (hsteps.frame.2.2 hd)

/-- **Every step keeps a heartbeat in order.**

**Proof sketch.** `pulse_step?` brings the heartbeat on. What remains is what its calls return: an
active call goes on by its script, and a new call on its place is one of the three that the
heartbeat answers. -/
theorem HeartSound.step? {h : Hosted} (hs : w.HeartSound turned place h.name h.env)
    (hsound : w.Sound) (hget : w.hosted[place]? = some h) (hh : h.IsHeartbeat)
    (hstep : w.step? engine = some (engine', w')) : w'.HeartSound turned place h.name h.env := by
  have hpulse := hs.pulse_step? hsound hget hh hstep
  cases ha : w.active with
  | some c =>
    rw [step?_of_active ha] at hstep
    refine ⟨fun c' ha' hplace => ?_, hpulse⟩
    have hcall := hs.call c ha ((place_of_execute? hstep ha').symm.trans hplace)
    exact hcall.execute? hstep ha'
  | none =>
    have hidle (hn : w'.active = none) : w'.HeartSound turned place h.name h.env := by
      refine ⟨fun c hc => ?_, hpulse⟩
      rw [hn] at hc
      cases hc
    cases steps_of_step? hstep with
    | goesOn hactive =>
      rw [ha] at hactive
      cases hactive
    | goesDown => exact hidle rfl
    | @calls k hook rest =>
      exact heartSound_call (w := { w with agenda := rest }) hget hh ha hpulse
    | @receives extension m rest =>
      unfold receive at hpulse hidle ⊢
      split
      · next k hk =>
        rw [hk] at hpulse
        exact heartSound_call (w := { w with inbox := rest }) hget hh ha hpulse
      · next hk =>
        rw [hk] at hidle
        exact hidle ha
    | opened | obeys | leaves | closed | reports => exact hidle ha

/-! ## All heartbeats of a thread -/

/-- All heartbeats of a worker are in order. Which of their tickers have had their first turn is
given by the places and environments. -/
def HeartsSound (turned : Nat → Env → Prop) (w : Worker) : Prop :=
  ∀ k h, w.hosted[k]? = some h → h.IsHeartbeat → w.HeartSound (turned k h.env) k h.name h.env

/-- What does not concern the calls leaves a heartbeat in order, unless its ticker has its turn.

**Proof sketch.** Case by case, what is known of the call and of the pulse is read off the parts of
the worker that stay the same. -/
lemma HeartSound.congr {turned' : Prop} (hs : w.HeartSound turned place name env)
    (hactive : w'.active = w.active) (hstage : w'.stage = w.stage) (hagenda : w'.agenda = w.agenda)
    (hcalls : w'.hookCalls = w.hookCalls) (hturned : turned → turned')
    (hbeats : Addon.firstBeat place env ∈ w.tickers →
      Addon.firstBeat place env ∈ w'.tickers ∨ turned') :
    w'.HeartSound turned' place name env := by
  refine ⟨fun c ha hplace => ?_, ?_⟩
  · cases hs.call c (hactive ▸ ha) hplace with
    | starts memory henv hscript => exact .starts memory henv hscript
    | stops memory hc hscript => exact .stops memory (hcalls.symm ▸ hc) hscript
    | returns memory hscript => exact .returns memory hscript
  · cases hs.pulse with
    | due hd => exact .due (hagenda.symm ▸ hd)
    | starts ha hplace hscript => exact .starts (hactive.trans ha) hplace hscript
    | waits hb => exact (hbeats hb).elim .waits .turned
    | turned ht => exact .turned (hturned ht)
    | stopped hc => exact .stopped (hcalls.symm ▸ hc)
    | down hd => exact .down (hstage.trans hd)

namespace HeartsSound

variable {turned turned' : Nat → Env → Prop}

/-- What the engine does to a thread leaves its heartbeats in order. -/
lemma touched (hs : w.HeartsSound turned) (ht : w.Touched w')
    (hturned : ∀ k env, turned k env → turned' k env) : w'.HeartsSound turned' := by
  obtain ⟨extra, hungUp, rfl, -⟩ := ht
  exact fun k h hget hh => (hs k h hget hh).congr rfl rfl rfl rfl (hturned k h.env) .inl

/-- The turn of a ticker leaves them in order. -/
lemma beat (hs : w.HeartsSound turned) (engine : Mailbox EngineMsg) (j : Nat)
    (hturned : ∀ k env, turned k env → turned' k env)
    (hbeats : ∀ k env, w.tickers[j]? = some (Addon.firstBeat k env) → turned' k env) :
    (w.beat engine j).2.HeartsSound turned' := by
  obtain ⟨ho, -⟩ := onCourse_beat w engine j
  have hframe : (w.beat engine j).2.active = w.active ∧
      (w.beat engine j).2.hosted = w.hosted := by
    unfold Worker.beat
    split
    · exact ⟨rfl, rfl⟩
    · exact ⟨rfl, rfl⟩
  intro k h hget hh
  rw [hframe.2] at hget
  exact (hs k h hget hh).congr hframe.1 ho.stage ho.agenda ho.hookCalls (hturned k h.env)
    fun hb => (mem_tickers_beat hb engine j).imp_right (hbeats k h.env)

/-- A step leaves them in order. -/
lemma step? (hs : w.HeartsSound turned) (hsound : w.Sound)
    (hstep : w.step? engine = some (engine', w'))
    (hturned : ∀ k env, turned k env → turned' k env) : w'.HeartsSound turned' := by
  intro k h' hget hh
  -- The extension was there before, with the same script.
  have hcrew : (w'.hosted[k]?).map Hosted.still = (w.hosted[k]?).map Hosted.still := by
    rw [← List.getElem?_map, ← List.getElem?_map]
    exact congrArg (fun crew : List Hosted => crew[k]?) (continues_step? hstep).crew
  rw [hget] at hcrew
  obtain ⟨h, hget', hstill⟩ := Option.map_eq_some_iff.1 hcrew.symm
  obtain ⟨hname, henv, hscript⟩ := Hosted.alike_of_still hstill
  have hheart : h.IsHeartbeat := hscript.trans hh
  have hnext := (hs k h hget' hheart).step? hsound hget' hheart hstep
  rw [hname, henv] at hnext
  exact hnext.congr rfl rfl rfl rfl (hturned k h'.env) .inl

/-- A new thread has all of its heartbeats still to start. -/
lemma create (link : Link) (id : ThreadId) (g : Group) (t : Topology) :
    (Worker.create link id g t).HeartsSound turned := by
  intro k h hget _
  have hlt : k < (hostAll link id g t).length := (List.getElem?_eq_some_iff.1 hget).1
  refine ⟨fun c ha => ?_, .due ?_⟩
  · cases ha
  · exact List.mem_append_right _ (List.mem_map_of_mem (List.mem_range.2 hlt))

/-- A thread without a runtime has no heartbeats. -/
lemma abort? {reason : String} (h : w.abort? reason engine = some (engine', w')) :
    w'.HeartsSound turned := by
  intro k x hget
  rw [(refused_of_abort? h).hosted] at hget
  cases hget

end HeartsSound

end Worker

end ExtensionGraph
