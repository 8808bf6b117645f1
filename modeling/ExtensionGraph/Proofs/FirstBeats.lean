import ExtensionGraph.Builtin
import ExtensionGraph.Proofs.Heartbeat
import ExtensionGraph.Proofs.Sending

/-!
# First beats

In a graph that its app accepts, a heartbeat for which the connections declare a destination sends
its first beat when its ticker has its first turn, whatever property it was declared with; an
interval of zero is the only exception. A ticker with such an interval crashes before it sends
anything. Its thread goes on as if nothing had happened, and the extension never learns of it.

## Main definitions

* `ExtensionGraph.ExtensionNode.HasZeroInterval` — the nodes that declare an interval of zero.
* `ExtensionGraph.GraphDefinition.beatDests`, `ExtensionGraph.GraphDefinition.firstBeatMsg` — where
  the beats of a node go, and the first of them.
* `ExtensionGraph.Engine.HadTurn` — a ticker that has had a turn in the course of a run.
* `ExtensionGraph.Engine.Beats` — what is promised of a heartbeat.

## Main results

* `ExtensionGraph.Engine.Sound.move?_firstBeat` — what the first turn of a ticker does.
* `ExtensionGraph.Engine.heartsSound_of_play` — all heartbeats are in order at any time of any run.
* `ExtensionGraph.Engine.heart_beats_unless_still` — the promise is kept.
* `ExtensionGraph.Engine.heart_stands_still` — a heartbeat that never beats.
-/

namespace ExtensionGraph

open Addon (firstBeat heartbeatInterval heartbeatMsg)

/-! ## Declared heartbeats -/

/-- The node declares a heartbeat with an interval of zero. -/
def ExtensionNode.HasZeroInterval (n : ExtensionNode) : Prop :=
  ((n.property.getD .null).member? "interval_ms").bind Json.Value.asNat? = some 0

instance (n : ExtensionNode) : Decidable n.HasZeroInterval :=
  inferInstanceAs (Decidable (_ = some 0))

/-- Where the connections of a graph bring the beats of a node. -/
def GraphDefinition.beatDests (g : GraphDefinition) (host : String) (n : ExtensionNode) :
    List FlowDest :=
  g.flowDests host ⟨host, n.name, .data, "heartbeat"⟩

/-- The first beat of a node of the app. -/
def GraphDefinition.firstBeatMsg (g : GraphDefinition) (host graph : String) (n : ExtensionNode) :
    Msg where
  kind := .data
  name := "heartbeat"
  src := .ofExtension host graph n.name
  dest := (g.beatDests host n).map (FlowDest.loc host graph)
  properties := [("seq", .ofNat 1)]
  createdAt := ⟨0, 0⟩

/-! ## The turn of a ticker -/

/-- The first message of a heartbeat as it leaves its extension. -/
def Env.firstBeatMsg (env : Env) : Msg :=
  { heartbeatMsg 1 with src := env.loc, dest := env.connected (heartbeatMsg 1) }

namespace Worker

variable {w : Worker} {engine engine' : Mailbox EngineMsg} {env : Env} {j k : Nat}

/-- A turn of a ticker is its tick, with what is left of the ticker put back into its place. -/
lemma beat_of_tick {b : Beating} {b' : Option Beating} {events : List Event}
    (hb : w.tickers[j]? = some b) (ht : tick engine b = (engine', b', events)) :
    w.beat engine j = (engine', { w with
      tickers := w.tickers.take j ++ b'.toList ++ w.tickers.drop (j + 1)
      trace := w.trace ++ events }) := by
  unfold beat
  rw [hb]
  dsimp only
  rw [ht]

/-- A ticker whose period is zero crashes at its turn. It is gone, and nothing is posted. -/
lemma beat_of_zero {b : Beating} (hb : w.tickers[j]? = some b) (hz : b.ticker.period = 0) :
    w.beat engine j = (engine, { w with
      tickers := w.tickers.eraseIdx j
      trace := w.trace ++ [.tickerCrashed] }) := by
  have htick : tick engine b = (engine, none, [.tickerCrashed]) := if_pos hz
  rw [beat_of_tick hb htick, Option.toList_none, List.append_nil,
    List.eraseIdx_eq_take_drop_succ]

/-- With any other interval there is one, if it goes somewhere and the engine listens.

**Proof sketch.** The beat is data with somewhere to go, so nothing refuses it, and a listening
engine takes it as a message to route. The ticker stays in its place and counts on. -/
lemma beat_of_pos (hb : w.tickers[j]? = some (firstBeat k env)) (hz : heartbeatInterval env ≠ 0)
    (hdest : env.connected (heartbeatMsg 1) ≠ []) (hl : engine.listening = true) :
    w.beat engine j = (engine.post (.route env.firstBeatMsg),
      { w with tickers := w.tickers.set j { firstBeat k env with beat := 2 } }) := by
  have hadmitted : ¬ env.Refuses .dataOnly (heartbeatMsg 1) :=
    not_or.2 ⟨not_not_intro rfl, fun hnone => hdest hnone.2⟩
  have hsend : env.send .dataOnly (heartbeatMsg 1) engine =
      (engine.post (.route env.firstBeatMsg), .ok ()) := by
    rw [env.send_of_not_refuses hadmitted, if_pos hl]
    rfl
  have htick : tick engine (firstBeat k env) =
      (engine.post (.route env.firstBeatMsg), some { firstBeat k env with beat := 2 }, []) := by
    have hperiod : (firstBeat k env).ticker.period ≠ 0 := hz
    have hsend' : (firstBeat k env).env.send .dataOnly
        ((firstBeat k env).ticker.message (firstBeat k env).beat) engine =
          (engine.post (.route env.firstBeatMsg), .ok ()) := hsend
    rw [tick, if_neg hperiod, hsend']
    rfl
  have hlt : j < w.tickers.length := (List.getElem?_eq_some_iff.1 hb).1
  rw [beat_of_tick hb htick, Option.toList_some, List.append_assoc, List.singleton_append,
    List.append_nil, List.set_eq_take_append_cons_drop, if_pos hlt]

end Worker

namespace Engine

variable {e : Engine} {heard : List EngineMsg} {link : Link}

/-- A turn of a ticker that is there is possible. -/
lemma move?_beat {place j : Nat} {w : Worker} {b : Beating}
    (hw : e.host.workers[place]? = some w) (hb : w.tickers[j]? = some b) :
    e.move? (.beat place j) = some { e with host := { e.host with
      mailbox := (w.beat e.host.mailbox j).1
      workers := e.host.workers.set place (w.beat e.host.mailbox j).2 } } := by
  have hlt : j < w.tickers.length := (List.getElem?_eq_some_iff.1 hb).1
  show (e.host.workers[place]?).bind _ = _
  rw [hw]
  show (if j < w.tickers.length then some { e with host := e.host.beat place j } else none) = _
  rw [if_pos hlt, Host.beat, hw]

/-- The engine listens to a thread that has a ticker, unless it has gone down.

**Proof sketch.** Tickers are gone with their threads, so the thread is still there. A graph is not
closed before its threads have ended, and until then only an engine that has gone down does not
listen. -/
lemma Sound.listening_of_ticker (h : e.Sound heard) (hup : ¬ e.IsDown) {w : Worker}
    (hw : w ∈ e.host.workers) {b : Beating} (hb : b ∈ w.tickers) :
    e.host.mailbox.listening = true := by
  have hended : w.stage ≠ .ended := by
    intro hended
    rw [(h.workers w hw).silent (w.isGone_iff.2 (.inl hended))] at hb
    cases hb
  exact listening_of_not_isDown hup (h.not_closed hw hended)

/-- **A heartbeat beats when its turn comes**, if there is somebody for whom it beats, the engine
has not gone down, and the interval is not zero. With an interval of zero its ticker crashes. -/
theorem Sound.move?_firstBeat (h : e.Sound heard) (hup : ¬ e.IsDown) {place j k : Nat}
    {w : Worker} {env : Env} (hw : e.host.workers[place]? = some w)
    (hb : w.tickers[j]? = some (firstBeat k env)) (hdest : env.connected (heartbeatMsg 1) ≠ []) :
    e.move? (.beat place j) = some (if heartbeatInterval env = 0 then
      { e with host := { e.host with
        workers := e.host.workers.set place { w with
          tickers := w.tickers.eraseIdx j
          trace := w.trace ++ [.tickerCrashed] } } }
    else
      { e with host := { e.host with
        mailbox := e.host.mailbox.post (.route env.firstBeatMsg)
        workers := e.host.workers.set place
          { w with tickers := w.tickers.set j { firstBeat k env with beat := 2 } } } }) := by
  have hlistening := h.listening_of_ticker hup (List.mem_of_getElem? hw) (List.mem_of_getElem? hb)
  rw [move?_beat hw hb]
  by_cases hz : heartbeatInterval env = 0
  · rw [if_pos hz, Worker.beat_of_zero hb hz]
  · rw [if_neg hz, Worker.beat_of_pos hb hz hdest hlistening]

/-! ## Runs -/

/-- In the course of the moves, a ticker of the thread with the number has had a turn. -/
def HadTurn (link : Link) (moves : List Move) (id : ThreadId) (b : Beating) : Prop :=
  ∃ before place ticker after taken e w, moves = before ++ .beat place ticker :: after ∧
    (start link).1.play before = some (taken, e) ∧ e.host.workers[place]? = some w ∧ w.id = id ∧
    w.tickers[ticker]? = some b

/-- A turn stays in the past. -/
lemma HadTurn.append {moves : List Move} {id : ThreadId} {b : Beating}
    (h : HadTurn link moves id b) (m : Move) : HadTurn link (moves ++ [m]) id b := by
  obtain ⟨before, place, ticker, after, taken, e, w, rfl, hrest⟩ := h
  exact ⟨before, place, ticker, after ++ [m], taken, e, w, by simp, hrest⟩

/-- **At any time of any run, all heartbeats are in order.**

**Proof sketch.** Induction on the run. The engine's own moves at most write into inboxes, hang
threads up, or create threads with no heartbeat started yet; a thread's own step and a turn of a
ticker keep its heartbeats in order by the lemmas on workers, and the turn is recorded as had. -/
theorem heartsSound_of_play {moves : List Move} {taken : List EngineMsg}
    (hp : (start link).1.play moves = some (taken, e)) {w : Worker} (hw : w ∈ e.host.workers) :
    w.HeartsSound fun k env => HadTurn link moves w.id (firstBeat k env) := by
  refine induction_of_moves (P := fun moves _ e => ∀ w ∈ e.host.workers,
    w.HeartsSound fun k env => HadTurn link moves w.id (firstBeat k env)) ?_ ?_ hp w hw
  · intro w hw
    rw [start_workers] at hw
    cases hw
  · intro moves taken₁ e₁ e' m h₁ ih hm w hw
    have hsound := sound_of_play h₁
    -- A worker that the move leaves alone. A turn that it has had remains had.
    have hsame (hmem : w ∈ e₁.host.workers) :
        w.HeartsSound fun k env => HadTurn link (moves ++ [m]) w.id (firstBeat k env) :=
      (ih w hmem).touched (.refl w) fun _ _ ht => ht.append m
    cases moves_of_move? hm with
    | handles hopen htake =>
      obtain ⟨w₁, hmem, ht⟩ := (hsound.handle_touched htake).exists_of_mem hw
      have hid : w.id = w₁.id := by
        obtain ⟨extra, hungUp, rfl, -⟩ := ht
        rfl
      rw [hid]
      rcases List.mem_append.1 hmem with hmem | hmem
      · exact (ih w₁ hmem).touched ht fun _ _ ht => ht.append _
      · obtain ⟨l, -, rfl⟩ := List.mem_map.1 hmem
        exact Worker.HeartsSound.touched (.create _ _ _ _) ht fun _ _ ht => ht
    | @works place w₁ w' mailbox hget hstep =>
      rcases List.mem_or_eq_of_mem_set hw with hmem | rfl
      · exact hsame hmem
      · have hmem := List.mem_of_getElem? hget
        rw [(Worker.steps_of_step? hstep).frame.1]
        exact (ih w₁ hmem).step? (hsound.workers w₁ hmem) hstep fun _ _ ht => ht.append _
    | @beats place ticker w₁ hget hk =>
      rcases List.mem_or_eq_of_mem_set hw with hmem | rfl
      · exact hsame hmem
      · rw [(Worker.onCourse_beat w₁ e₁.host.mailbox ticker).1.id]
        refine (ih w₁ (List.mem_of_getElem? hget)).beat _ _ (fun _ _ ht => ht.append _)
          fun k env hb => ?_
        exact ⟨moves, place, ticker, [], taken₁, e₁, w₁, rfl, h₁, hget, rfl, hb⟩
    | aborts hget habort =>
      rcases List.mem_or_eq_of_mem_set hw with hmem | rfl
      · exact hsame hmem
      · exact .abort? habort
    | completes | sends | refuses | closes => exact hsame hw

/-! ## The heartbeats of a graph -/

/-- The environment of a declared extension has the declared property.

**Proof sketch.** The environment looks its row up by name in the topology, and in an accepted graph
the row that is found is that of the node. -/
lemma property_of_hosted (app : AppInfo) {g : GraphDefinition} {graph : String} {s : StartGraph}
    (hs : StartGraph.ofDefinition g app.uri graph = .ok s) (name : String) (registry : Registry)
    (spawner : Spawner) {moves : List Move} {taken : List EngineMsg}
    (hp : (start (Link.ofStart app registry spawner (s.withName name))).1.play moves =
      some (taken, e))
    {w : Worker} (hw : w ∈ e.host.workers) {h : Hosted} (hh : h ∈ w.hosted) {n : ExtensionNode}
    (hn : n ∈ g.extensionsOn app.uri) (hname : n.name = h.name) :
    h.env.property = n.property.getD .null := by
  obtain ⟨hf, rfl⟩ := StartGraph.ofDefinition_eq_ok hs
  have hfound : (g.topology app.uri graph).extension? (some app.uri) (some graph) (some h.name) =
      some (n.info app.uri graph) := hname ▸ GraphDefinition.extension?_of_mem hf hn
  have henv := env_of_hosted hp hw hh
  rw [henv]
  show (((g.topology app.uri graph).extension? (some app.uri) (some graph) (some h.name)).map
    (·.property)).getD .null = _
  rw [hfound]
  rfl

/-- What is promised of the heartbeat at a place of a thread: `n` is its declaration, and the moves
are those that were made so far. -/
structure Beats (link : Link) (g : GraphDefinition) (n : ExtensionNode) (moves : List Move)
    (w : Worker) (k : Nat) (h : Hosted) : Prop where
  /-- The call that starts it has the ticker to start and returns with success; so does every other
  call of it. -/
  call : ∀ c, w.active = some c → c.place = k → w.HeartCall h.name h.env c
  /-- Nothing keeps such a call from returning. -/
  returns : ∀ c, w.active = some c → c.place = k → w.ReturnsQuietly
  /-- The start is still to come or being made; or the ticker waits for its first turn, or has had
  it; or the extension has been stopped, or the thread has gone down. -/
  pulse : w.Pulse (HadTurn link moves w.id (firstBeat k h.env)) k h.name h.env
  /-- Whenever the ticker waits for its first turn, and the engine has not gone down, the turn is
  possible. It sends the message, and the ticker goes on to its second beat; but if the node
  declares an interval of zero, the ticker crashes and is gone, and nothing else happens. -/
  turn : ∀ {before : List Move} {taken : List EngineMsg} {e : Engine} {place j : Nat} {v : Worker},
    (start link).1.play before = some (taken, e) → ¬ e.IsDown →
    e.host.workers[place]? = some v → v.tickers[j]? = some (firstBeat k h.env) →
      e.host.mailbox.listening = true ∧
      e.move? (.beat place j) = some (if n.HasZeroInterval then
        { e with host := { e.host with
          workers := e.host.workers.set place { v with
            tickers := v.tickers.eraseIdx j
            trace := v.trace ++ [.tickerCrashed] } } }
      else
        { e with host := { e.host with
          mailbox := e.host.mailbox.post (.route (g.firstBeatMsg link.app.uri link.graph n))
          workers := e.host.workers.set place
            { v with tickers := v.tickers.set j { firstBeat k h.env with beat := 2 } } } })

/-- The interval is zero only if zero is declared. -/
lemma heartbeatInterval_eq_zero_iff {env : Env} {n : ExtensionNode}
    (h : env.property = n.property.getD .null) :
    heartbeatInterval env = 0 ↔ n.HasZeroInterval := by
  unfold Addon.heartbeatInterval Env.propertyNat? ExtensionNode.HasZeroInterval
  rw [h]
  cases ((n.property.getD .null).member? "interval_ms").bind Json.Value.asNat? with
  | none => simp
  | some i => simp

/-- The members of a group that are declared as heartbeats are hosted as heartbeats, if the thread
of the group has begun.

**Proof sketch.** The crew of the thread is what the declared members of its group are built into,
and the node in question is one of them. Its entry is alike to the heartbeat that its addon
makes. -/
lemma exists_heartbeat {link : Link} {g : GraphDefinition} (h : HostsDeclared link g heard e)
    {n : ExtensionNode} (hn : n ∈ g.extensionsOn link.app.uri)
    (hx : ∀ occasion, link.registry.createExtension occasion n.addon n.name =
      Addon.heartbeat occasion n.name) {b : Group}
    (hb : b ∈ groupsIn heard) (hdriven : b.fixed = false) (hname : b.name = n.groupName)
    {w : Worker} (hw : w ∈ e.host.workers) (hgroup : w.group = b.name)
    (hbegun : w.neverBegan = false) :
    ∃ (k : Nat) (h : Hosted), w.hosted[k]? = some h ∧ h.name = n.name ∧ h.IsHeartbeat := by
  have hcrew := (h.driven b hb hdriven w hw hgroup).begun hbegun
  let x : Hosted := ⟨n.name, ⟨n.address link.app.uri link.graph, n.groupName,
    n.property.getD .null, link.command.topology⟩, ⟨.null, Addon.heartbeatScript⟩⟩
  have hn' : n.hosted? link w.id = some x := by
    unfold ExtensionNode.hosted?
    rw [hx]
    rfl
  have hmem : n ∈ g.extensionsOf link.app.uri b.name :=
    GraphDefinition.mem_extensionsOf.2 ⟨hn, hname.symm⟩
  have hin : x.still ∈ w.crew := by
    rw [hcrew]
    exact List.mem_map_of_mem (List.mem_filterMap.2 ⟨n, hmem, hn'⟩)
  obtain ⟨h', hh', hstill⟩ := List.mem_map.1 hin
  obtain ⟨k, hk⟩ := List.getElem?_of_mem hh'
  obtain ⟨hname', -, hscript⟩ := Hosted.alike_of_still hstill
  exact ⟨k, h', hk, hname', hscript⟩

/-- **Every heartbeat beats, unless it is declared with an interval of zero.** Let a graph be
accepted by its app, and let the connections bring the beats of one of its heartbeats somewhere. The
thread of its group hosts it, if the group is left to the graph and the thread has begun. At any
time of any run, its calls return with success; and it has still to be started, or its ticker waits
for the first turn or has had it, unless the extension was stopped or another one of its group has
taken the thread down. The first turn can come at any time, and the engine listens unless it has
gone down. It posts the first beat to the declared destinations, whatever property was declared;
only with an interval of zero the ticker crashes before it posts anything.

**Proof sketch.** The hosting of declared extensions gives the first half. For the second, a hosted
extension of that name has the declared property and the declared destinations, so the first message
that it posts is the one that is declared. `heartsSound_of_play` tells what its calls return and
where its ticker is; `move?_firstBeat` computes the first turn, for an interval of zero and any
other. -/
theorem heart_beats_unless_still (app : AppInfo) {g : GraphDefinition} {graph : String}
    {s : StartGraph} (hs : StartGraph.ofDefinition g app.uri graph = .ok s) (name : String)
    (registry : Registry) (spawner : Spawner) {n : ExtensionNode}
    (hn : n ∈ g.extensionsOn app.uri)
    (hx : ∀ occasion,
      registry.createExtension occasion n.addon n.name = Addon.heartbeat occasion n.name)
    (hdest : g.beatDests app.uri n ≠ []) {moves : List Move} {taken : List EngineMsg}
    (hp : (start (Link.ofStart app registry spawner (s.withName name))).1.play moves =
      some (taken, e)) :
    (∀ b ∈ groupsIn taken, b.fixed = false → b.name = n.groupName → ∀ w ∈ e.host.workers,
      w.group = b.name → w.neverBegan = false →
        ∃ (k : Nat) (h : Hosted), w.hosted[k]? = some h ∧ h.name = n.name ∧ h.IsHeartbeat) ∧
    ∀ w ∈ e.host.workers, ∀ (k : Nat) (h : Hosted), w.hosted[k]? = some h → h.name = n.name →
      h.IsHeartbeat →
        Beats (Link.ofStart app registry spawner (s.withName name)) g n moves w k h := by
  refine ⟨fun b hb hdriven hname w hw hgroup hbegun => ?_, fun w hw k h hget hname hh => ?_⟩
  · exact exists_heartbeat (hosts_declared app hs name registry spawner hp) hn hx hb hdriven hname
      hw hgroup hbegun
  · have hmem := List.mem_of_getElem? hget
    have hproperty := property_of_hosted app hs name registry spawner hp hw hmem hn hname.symm
    have hstands := stands_of_hosted app hs name registry spawner hp hw hmem hn hname.symm
    have happ : n.app.getD app.uri = app.uri := (GraphDefinition.mem_extensionsOn.1 hn).2
    -- Where the beats go is declared in the graph, and so is the first of them.
    have hconnected : h.env.connected (heartbeatMsg 1) =
        (g.beatDests app.uri n).map (FlowDest.loc app.uri graph) := by
      rw [hstands.connected_eq hs, Env.route, happ]
      rfl
    have hposted : h.env.firstBeatMsg = g.firstBeatMsg app.uri graph n := by
      rw [Env.firstBeatMsg, hconnected, hstands.loc]
      show Msg.mk _ _ (.ofExtension (n.app.getD app.uri) graph n.name) _ _ _ = _
      rw [happ]
      rfl
    have hsound := heartsSound_of_play hp hw k h hget hh
    refine ⟨hsound.call, fun c ha hplace => (hsound.call c ha hplace).returnsQuietly ha,
      hsound.pulse, fun hp' hup hv hb => ?_⟩
    have hsound' := sound_of_play hp'
    refine ⟨hsound'.listening_of_ticker hup (List.mem_of_getElem? hv) (List.mem_of_getElem? hb), ?_⟩
    have hmove := hsound'.move?_firstBeat hup hv hb (by
      rw [hconnected]
      simpa using hdest)
    rw [hmove, hposted]
    obtain ⟨-, rfl⟩ := StartGraph.ofDefinition_eq_ok hs
    by_cases hz : n.HasZeroInterval
    · rw [if_pos hz, if_pos ((heartbeatInterval_eq_zero_iff hproperty).2 hz)]
    · rw [if_neg hz, if_neg (mt (heartbeatInterval_eq_zero_iff hproperty).1 hz)]
      rfl

/-- A heartbeat with an interval. -/
def beatNode (interval : Int) : ExtensionNode :=
  ⟨"beat", "heartbeat", some "pair", none,
    some (.object [("interval_ms", .number (.integer interval))])⟩

/-- A graph in which the log listens to a heartbeat of its group. -/
def beating (interval : Int) : GraphDefinition :=
  ⟨[.extension (beatNode interval), .extension ⟨"sink", "log", some "pair", none, none⟩],
    [⟨none, "beat", [], [⟨"heartbeat", [⟨none, "sink"⟩]⟩]⟩]⟩

/-- The moves up to the time when both extensions have been started. -/
def untilBeating : List Move := [.complete 0, .handle] ++ List.replicate 10 (.work 0)

/-- A heartbeat with an interval of five milliseconds. -/
theorem heart_beats_unless_still_five :
    let s : StartGraph := ⟨.ofGraph "app" "1", none, (beating 5).topology "app" "1"⟩
    let link : Link := .ofStart ⟨"app", ""⟩ .builtin .willing (s.withName "")
    StartGraph.ofDefinition (beating 5) "app" "1" = .ok s ∧ ¬ (beatNode 5).HasZeroInterval ∧
    ∃ taken e, (start link).1.play untilBeating = some (taken, e) ∧
      ∃ w ∈ e.host.workers, ∃ (k : Nat) (h : Hosted), w.hosted[k]? = some h ∧ h.name = "beat" ∧
        h.IsHeartbeat ∧ Beats link (beating 5) (beatNode 5) untilBeating w k h := by
  intro s link
  have hs : StartGraph.ofDefinition (beating 5) "app" "1" = .ok s := rfl
  have hrun : ((start link).1.play untilBeating).map (fun r =>
      ((groupsIn r.1).map fun b => (b.fixed, b.name),
        r.2.host.workers.map fun w => (w.group, w.neverBegan))) =
      some ([(false, "pair")], [("pair", false)]) := by decide +kernel
  obtain ⟨⟨taken, e⟩, hp, hsum⟩ := Option.map_eq_some_iff.1 hrun
  simp only [Prod.mk.injEq] at hsum
  obtain ⟨hgroups, hworkers⟩ := hsum
  obtain ⟨b, hb, hbsum⟩ := List.mem_map.1 (hgroups ▸ List.mem_singleton_self (false, "pair"))
  obtain ⟨w, hw, hwsum⟩ := List.mem_map.1 (hworkers ▸ List.mem_singleton_self ("pair", false))
  obtain ⟨hfixed, hname⟩ := Prod.mk.inj hbsum
  obtain ⟨hgroup, hbegun⟩ := Prod.mk.inj hwsum
  have hpromise := heart_beats_unless_still ⟨"app", ""⟩ hs "" .builtin .willing (n := beatNode 5)
    List.mem_cons_self (fun _ => rfl) (List.cons_ne_nil _ _) hp
  obtain ⟨k, h, hget, hn, hh⟩ :=
    hpromise.1 b hb hfixed hname w hw (hgroup.trans hname.symm) hbegun
  exact ⟨hs, by decide, taken, e, hp, w, hw, k, h, hget, hn, hh, hpromise.2 w hw k h hget hn hh⟩

/-- **A heartbeat with an interval of zero never beats.** It has been started with success, and it
has not been stopped. When the turn of its ticker comes, the ticker crashes. Nothing is posted
although the engine listens, and nothing else happens on the thread. -/
theorem heart_stands_still :
    let s : StartGraph := ⟨.ofGraph "app" "1", none, (beating 0).topology "app" "1"⟩
    let link : Link := .ofStart ⟨"app", ""⟩ .builtin .willing (s.withName "")
    StartGraph.ofDefinition (beating 0) "app" "1" = .ok s ∧
    (beating 0).beatDests "app" (beatNode 0) = [⟨none, "sink"⟩] ∧
    ∃ r e w, (start link).1.play untilBeating = some r ∧ r.2.move? (.beat 0 0) = some e ∧
      r.2.host.workers[0]? = some w ∧ ("beat", .start) ∈ w.hookCalls ∧
      ("beat", .stop) ∉ w.hookCalls ∧ w.active.isNone ∧ w.tickers.length = 1 ∧
      e.host.workers = r.2.host.workers.set 0
        { w with tickers := w.tickers.eraseIdx 0, trace := w.trace ++ [.tickerCrashed] } ∧
      e.host.mailbox.listening = true ∧ e.host.mailbox.messages.isEmpty := by
  intro s link
  have hrun : ((start link).1.play untilBeating).any fun r : List EngineMsg × Engine =>
      r.2.host.workers[0]?.any fun w => w.tickers[0]?.any fun b => decide
        ((("beat", .start) ∈ w.hookCalls ∧ ("beat", .stop) ∉ w.hookCalls ∧ w.active.isNone ∧
            w.tickers.length = 1) ∧
          b.ticker.period = 0 ∧ r.2.host.mailbox.listening = true ∧
            r.2.host.mailbox.messages.isEmpty) := by decide +kernel
  obtain ⟨r, hp, hrun⟩ := (Option.any_eq_true _ _).1 hrun
  obtain ⟨w, hw, hrun⟩ := (Option.any_eq_true _ _).1 hrun
  obtain ⟨b, hb, hsum⟩ := (Option.any_eq_true _ _).1 hrun
  obtain ⟨⟨hstart, hstop, hactive, hone⟩, hzero, hlistening, hempty⟩ := of_decide_eq_true hsum
  have hmove := move?_beat hw hb
  rw [Worker.beat_of_zero hb hzero] at hmove
  exact ⟨rfl, rfl, r, _, w, hp, hmove, hw, hstart, hstop, hactive, hone, rfl, hlistening, hempty⟩

end Engine

end ExtensionGraph
