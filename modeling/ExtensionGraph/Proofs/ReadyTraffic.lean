import ExtensionGraph.Proofs.Delivery
import ExtensionGraph.Proofs.MailboxOrder
import ExtensionGraph.Proofs.StartInterleaving

/-!
# Messages and the readiness of a graph

Messages may be sent from outside as soon as a graph has been started, which is before its groups
have come. Such a message is handled when it has its turn. If the last group has come by then, it is
brought to its destinations; otherwise it is lost. The messages of extensions are never too early:
an extension is called by a thread that has been started, and no thread is started before all groups
have come. The messages wait in the mailbox of the engine until it has started the other threads.

## Main definitions

* `ExtensionGraph.Engine.GivesUp` — a message is lost.
* `ExtensionGraph.Engine.Loses` — a run that loses a message which was accepted.
* `ExtensionGraph.Engine.Move.IsOfThread` — the moves by which extensions send messages.

## Main results

* `ExtensionGraph.Engine.delivered_or_given_up` — what becomes of messages from outside.
* `ExtensionGraph.Engine.accepted_messages_lost` — messages that are lost, each in its own way.
* `ExtensionGraph.Engine.traffic_meets_ready_graph` — what becomes of messages of extensions.
-/

namespace ExtensionGraph

namespace Engine

variable {e e' : Engine} {heard : List EngineMsg} {link : Link} {g : GraphDefinition}

/-! ## A graph with two extensions -/

/-- An extension that sends a message when it is initialised. -/
def caller (m : Msg) : Extension :=
  ⟨.null, fun memory _ callback => match callback with
    | .hook .init => .send .any m fun _ => .done (.ok ()) memory
    | _ => .done (.ok ()) memory⟩

/-- A message to one of two extensions. -/
def greeting : Msg := (Msg.create .cmd "hello" default).withDest (.here "listener")

/-- A graph with these extensions. -/
def neighbours : GraphDefinition :=
  ⟨[.extension ⟨"caller", "caller", none, none, none⟩,
    .extension ⟨"listener", "idle", none, none, none⟩], []⟩

/-- The other extension sends the message when it is initialised. -/
def neighbours.registry : Registry :=
  ⟨[("caller", fun _ _ => .made (caller greeting)), ("idle", fun _ _ => .made .idle)],
    [(defaultGroupAddon, Registry.defaultGroup)]⟩

/-! ## Messages from outside -/

/-- A message is lost: the topology is not known, no thread has been started, and all that happens
is that each destination is complained about. -/
structure GivesUp (link : Link) (g : GraphDefinition) (m : Msg) (e e' : Engine) : Prop where
  topology : e.context.topology = none
  unstarted : e.host.workers = []
  lost : ∃ mailbox, e' = { e with host := { e.host with
    mailbox
    log := e.host.log ++ m.dest.map (e.context.givenUp m) } }
  /-- The address of a declared extension is complained about as an unknown one. -/
  unknown : ∀ n ∈ g.extensionsOn link.app.uri,
    e.context.givenUp m (n.address link.app.uri link.graph) =
      .unknownDestination m.name (n.address link.app.uri link.graph)

/-- While groups are missing and nobody has asked for the end, messages are lost.

**Proof sketch.** By how far the engine has come. With a group missing and no end asked for, it
waits: it knows no topology and has started no thread, so a message to any declared extension is
given up. -/
lemma givesUp_of_play (hk : (link.command.topology.groups.map GroupInfo.key).Nodup)
    (hok : (start link).2 = .ok ()) {moves : List Move} {taken : List EngineMsg}
    (hp : (start link).1.play moves = some (taken, e)) (hq : ∀ m ∈ taken, ¬ m.AsksForEnd)
    (hn : (groupsIn taken).length ≠ link.command.groupCount link.app.uri) {m : Msg}
    {mailbox : Mailbox EngineMsg} :
    e.GivesUp link g m
      (({ e with host := { e.host with mailbox } } : Engine).handle (.route m)) := by
  have hopen := open_of_quiet hk hok hp hq
  have hcount : (groupsIn taken).length ≤ link.command.groupCount link.app.uri := by
    have hlen := ((owes_start hok).play hp).names.length_le
    rwa [List.length_map, List.length_map] at hlen
  have hlinked := (origins_of_play hp).linked
  have hpending : e.context.topology = none ∧ e.startedGroups = [] := by
    cases (course_of_play hk hp).1 with
    | empty hz => omega
    | refused _ _ hc => exact absurd hc hopen.2
    | waits _ _ hc hg => exact ⟨by rw [hc]; rfl, hg⟩
    | @ended before after m hh _ hm => exact absurd hm (hq m (by rw [hh]; simp))
    | up _ hin | down _ hin =>
      have hle := hin.le
      omega
  refine ⟨hpending.1, List.map_eq_nil_iff.1 hpending.2, ⟨mailbox, ?_⟩, fun n _ => ?_⟩
  · exact handle_route_of_unready ({ e with host := { e.host with mailbox } } : Engine) hopen.2
      hpending.1 m
  · unfold Context.givenUp
    rw [if_neg (by simp [ExtensionNode.address, Loc.ofExtension]), if_neg]
    rw [hlinked]
    exact not_not.2 rfl

/-- What is sent from outside and accepted is put behind everything that waits. -/
lemma send_eq_post {m : Msg} (h : (e.send m).2 = .ok ()) :
    (e.send m).1 = e.post (.route (m.resolve e.context.link.app.uri e.graph)) ∧
      e.host.mailbox.listening = true := by
  unfold send at h ⊢
  split
  · next hempty =>
    rw [if_pos hempty] at h
    cases h
  · next hempty =>
    rw [if_neg hempty] at h
    split
    · next hlistening => exact ⟨rfl, hlistening⟩
    · next hdeaf =>
      rw [if_neg hdeaf] at h
      cases h

/-- What a message adds to the inboxes of threads. -/
lemma Delivers.lengths {refused : List String} {m : Msg} (h : e.Delivers link g refused m e')
    (ho : e.context.IsOpen) (hw : ∀ w ∈ e.host.workers, w.isGone = false) :
    e'.host.workers.map (fun w => (w.group, w.inbox.length)) =
      (e.host.workers.map fun w => (w.group, w.inbox.length)).map fun x =>
        (x.1, x.2 + m.dest.countP (· ∈ g.addresses link.app.uri link.graph x.1)) := by
  rw [h.delivered ho hw, List.map_map, List.map_map]
  refine List.map_congr_left fun w _ => ?_
  simp only [Function.comp_apply, List.length_append, Msg.deliveries, List.length_map,
    List.countP_eq_length_filter]

/-- **What becomes of messages from outside.** Let the start of a graph have succeeded. A message
that is accepted at any time is taken when it has its turn, unless the engine has gone down over a
group whose name no thread can have. If by then nobody has asked for the end, no group has failed
and no thread is gone, then it is brought to all destinations that are declared, except for those in
groups that have been refused their threads, provided that all groups have come; otherwise it is
lost.

**Proof sketch.** The sending is a move of a longer run, and the mailbox is taken in order, so that
the message comes up when as many have been taken as had been waiting. By then the graph is open. If
all groups have come this is `delivers_of_play`, and otherwise `givesUp_of_play`. -/
theorem delivered_or_given_up (app : AppInfo) {graph : String} {s : StartGraph}
    (hs : StartGraph.ofDefinition g app.uri graph = .ok s) (name : String) (registry : Registry)
    (spawner : Spawner)
    (hok : (start (Link.ofStart app registry spawner (s.withName name))).2 = .ok ())
    {before after : List Move} {taken taken' : List EngineMsg} {m : Msg}
    (hp : (start (Link.ofStart app registry spawner (s.withName name))).1.play before =
      some (taken, e))
    (hsend : (e.send m).2 = .ok ()) (hp' : (e.send m).1.play after = some (taken', e'))
    (hq : ∀ x ∈ taken ++ taken', ¬ x.AsksForEnd) :
    let link := Link.ofStart app registry spawner (s.withName name)
    (e'.IsDown → ∃ name ∈ (s.groupsOf app.uri).map (·.name), isThreadName name = false) ∧
    (¬ e'.IsDown → taken'.length = e.host.mailbox.messages.length →
      e'.taken? .handle = some (.route (m.resolve app.uri graph)) ∧
      ∃ e'', e'.move? .handle = some e'' ∧
        ((groupsIn (taken ++ taken')).length = s.groupCount app.uri →
          e'.Delivers link g (link.threadless (groupsIn (taken ++ taken')))
            (m.resolve app.uri graph) e'') ∧
        ((groupsIn (taken ++ taken')).length ≠ s.groupCount app.uri →
          e'.GivesUp link g (m.resolve app.uri graph) e'')) := by
  intro link
  have hg : link.Accepts g := Link.accepts_ofStart app hs name registry spawner
  have hgraph : link.graph = graph := by
    obtain ⟨-, rfl⟩ := StartGraph.ofDefinition_eq_ok hs
    rfl
  obtain ⟨hpost, hlistening⟩ := send_eq_post hsend
  rw [Engine.graph, (origins_of_play hp).linked, hgraph] at hpost
  -- The whole run, with the sending as one of its moves.
  have hwhole : (start link).1.play (before ++ .send m :: after) = some (taken ++ taken', e') :=
    play_append.2 ⟨taken, e, taken', hp, play_cons.2 ⟨_, taken', rfl, hp', rfl⟩, rfl⟩
  refine ⟨(course_of_play hg.keys hwhole).1.exists_unnameable (sound_of_play hwhole),
    fun hup hturn => ?_⟩
  have hopen := open_of_quiet hg.keys hok hwhole hq
  have hmessages : (e.send m).1.host.mailbox.messages =
      e.host.mailbox.messages ++ [.route (m.resolve app.uri graph)] := by
    rw [hpost]
    show (e.host.mailbox.post _).messages = _
    rw [Mailbox.post_messages, if_pos hlistening]
    rfl
  obtain ⟨-, mailbox, htake⟩ :=
    next_of_play hp' (listening_of_not_isDown hup hopen.2) hmessages hturn
  refine ⟨taken?_handle htake, _, move?_handle hopen.2 htake, fun hn => ?_, fun hn => ?_⟩
  · exact delivers_of_play hg hok hwhole hup ⟨_, [], (List.append_nil _).symm, hn, hq⟩
  · exact givesUp_of_play hg.keys hok hwhole hq hn

/-- A message is accepted and gets lost. It is sent after some moves, and others follow, none of
which asks for the end. Then there are threads of the given groups, none of which has ended or has
been written to, and nothing is left for the engine to do. -/
def Loses (e : Engine) (m : Msg) (before after : List Move) (groups : List String) : Prop :=
  ∃ r r', e.play before = some r ∧ (r.2.send m).2 = .ok () ∧ (r.2.send m).1.play after = some r' ∧
    (∀ x ∈ r.1 ++ r'.1, ¬ x.AsksForEnd) ∧ r'.2.startedGroups = groups ∧
    r'.2.host.mailbox.messages.isEmpty ∧ ∀ w ∈ r'.2.host.workers, w.isFresh ∧ w.inbox.isEmpty

/-- A run that loses a message, as it is computed. -/
lemma loses_of_any {m : Msg} {before after : List Move} {groups : List String}
    (h : (e.play before).any fun r => ((r.2.send m).1.play after).any fun r' =>
      (r.2.send m).2 = .ok () ∧ (∀ x ∈ r.1 ++ r'.1, ¬ x.AsksForEnd) ∧
        r'.2.startedGroups = groups ∧ r'.2.host.mailbox.messages.isEmpty ∧
        ∀ w ∈ r'.2.host.workers, w.isFresh ∧ w.inbox.isEmpty) : e.Loses m before after groups := by
  obtain ⟨r, hp, h⟩ := (Option.any_eq_true _ _).1 h
  obtain ⟨r', hp', h⟩ := (Option.any_eq_true _ _).1 h
  obtain ⟨hsend, hrest⟩ := of_decide_eq_true h
  exact ⟨r, r', hp, hsend, hp', hrest⟩

/-- An accepted message that names a declared extension may be lost: if it has its turn before the
last group has come, if there is no thread to be had for the destination, and if it waits behind a
group over which the engine goes down. -/
theorem accepted_messages_lost :
    let started (g : GraphDefinition) (spawner : Spawner) :=
      let s : StartGraph := ⟨.ofGraph "app" "1", none, g.topology "app" "1"⟩
      start (Link.ofStart ⟨"app", ""⟩ neighbours.registry spawner (s.withName ""))
    (∀ g ∈ [neighbours, unnameable],
      StartGraph.ofDefinition g "app" "1" =
        .ok ⟨.ofGraph "app" "1", none, g.topology "app" "1"⟩ ∧
      (∀ spawner ∈ [.willing, reluctant], (started g spawner).2 = .ok ()) ∧
      (greeting.resolve "app" "1").dest = [.ofExtension "app" "1" "listener"] ∧
      .ofExtension "app" "1" "listener" ∈ g.addresses "app" "1" "listener") ∧
    (started neighbours .willing).1.Loses greeting []
      [.handle, .complete 0, .complete 0, .handle, .handle] ["caller", "listener"] ∧
    (started neighbours reluctant).1.Loses greeting
      [.complete 0, .complete 0, .handle, .handle] [.handle] ["caller"] ∧
    (started unnameable .willing).1.Loses greeting
      [.complete 1, .complete 0, .handle] [.handle] ["listener"] := by
  intro started
  refine ⟨?_, loses_of_any (by decide +kernel), loses_of_any (by decide +kernel),
    loses_of_any (by decide +kernel)⟩
  simp only [List.forall_mem_cons, List.not_mem_nil, false_implies, implies_true, and_true]
  exact ⟨⟨rfl, ⟨rfl, rfl⟩, by decide +kernel, by decide +kernel⟩,
    ⟨rfl, ⟨rfl, rfl⟩, by decide +kernel, by decide +kernel⟩⟩

/-- A message that is sent when one group has come, and has its turn when both have. -/
theorem delivered_or_given_up_neighbours :
    let s : StartGraph := ⟨.ofGraph "app" "1", none, neighbours.topology "app" "1"⟩
    let started := start (Link.ofStart ⟨"app", ""⟩ neighbours.registry .willing (s.withName ""))
    StartGraph.ofDefinition neighbours "app" "1" = .ok s ∧ started.2 = .ok () ∧
    ∃ r r' e, started.1.play [.complete 1, .complete 0, .handle] = some r ∧
      (r.2.send greeting).2 = .ok () ∧ (r.2.send greeting).1.play [.handle] = some r' ∧
      r'.2.move? .handle = some e ∧
      e.host.workers.map (fun w => (w.group, w.inbox.length)) =
        [("listener", 1), ("caller", 0)] := by
  intro s started
  have hs : StartGraph.ofDefinition neighbours "app" "1" = .ok s := rfl
  have hok : started.2 = .ok () := rfl
  have hrun : (started.1.play [.complete 1, .complete 0, .handle]).any fun r =>
      ((r.2.send greeting).1.play [.handle]).any fun r' =>
        (r.2.send greeting).2 = .ok () ∧ r'.1.length = r.2.host.mailbox.messages.length ∧
        (∀ m ∈ r.1 ++ r'.1, ¬ m.AsksForEnd) ∧ (groupsIn (r.1 ++ r'.1)).length = 2 ∧
        r'.2.host.mailbox.listening = true ∧ r'.2.context.phase = .running ∧
        (∀ w ∈ r'.2.host.workers, w.isGone = false) ∧
        r'.2.host.workers.map (fun w => (w.group, w.inbox.length)) =
          [("listener", 0), ("caller", 0)] := by decide +kernel
  obtain ⟨r, hp, hrun⟩ := (Option.any_eq_true _ _).1 hrun
  obtain ⟨r', hp', hsum⟩ := (Option.any_eq_true _ _).1 hrun
  obtain ⟨hsend, hturn, hquiet, hlen, hlistening, hrunning, hgone, hinboxes⟩ :=
    of_decide_eq_true hsum
  have hup : ¬ r'.2.IsDown := not_isDown_of_listening hlistening
  have hopen : r'.2.context.IsOpen := ⟨by rw [hrunning]; decide, by rw [hrunning]; decide⟩
  obtain ⟨-, e, hmove, hdelivers, -⟩ :=
    (delivered_or_given_up ⟨"app", ""⟩ hs "" neighbours.registry .willing hok hp hsend hp'
      hquiet).2 hup hturn
  refine ⟨hs, hok, r, r', e, hp, hsend, hp', hmove, ?_⟩
  rw [(hdelivers hlen).lengths hopen hgone, hinboxes]
  decide +kernel

/-! ## Messages of extensions -/

/-- The moves by which extensions send messages. -/
def Move.IsOfThread : Move → Prop
  | .work _ => True
  | .beat _ _ => True
  | _ => False

/-- Without a thread, there is no such move. -/
lemma workers_of_isOfThread {m : Move} (hm : e.move? m = some e') (ht : m.IsOfThread) :
    e.host.workers ≠ [] := by
  cases moves_of_move? hm with
  | works hw | beats hw => exact List.ne_nil_of_mem (List.mem_of_getElem? hw)
  | handles | completes | aborts | sends | refuses | closes => exact ht.elim

/-- **The messages of extensions never meet a graph that is not ready.** Let all threads be made
that are asked for. A message that an extension sends, during any call or by a ticker, has its turn
when the topology is known and the threads of all groups have been started. As long as the graph is
open and no thread is gone, it is brought to all destinations that are declared. This includes what
is sent by the first threads while others are still being started: whatever goes on then might as
well have happened afterwards.

**Proof sketch.** A thread that moves has been started, which happens only when all groups have
come, and no message takes this back. So `delivers_of_play` applies when the message has its turn.
The second part is `play_of_start`: a start in which all threads are made does not panic, and its
effects commute with what the threads do in between. -/
theorem traffic_meets_ready_graph (app : AppInfo) {graph : String} {s : StartGraph}
    (hs : StartGraph.ofDefinition g app.uri graph = .ok s) (name : String) (registry : Registry)
    (spawner : Spawner) (hm : (Link.ofStart app registry spawner (s.withName name)).MakesThreads)
    {before : List Move} {taken : List EngineMsg}
    (hp : (start (Link.ofStart app registry spawner (s.withName name))).1.play before =
      some (taken, e)) :
    let link := Link.ofStart app registry spawner (s.withName name)
    (∀ move e₁ m after taken' e₂ e₃, move.IsOfThread → e.move? move = some e₁ →
      e₁.host.mailbox.messages = e.host.mailbox.messages ++ [.route m] →
      e₁.play after = some (taken', e₂) → taken'.length = e.host.mailbox.messages.length →
      e₂.move? .handle = some e₃ →
        e₂.taken? .handle = some (.route m) ∧
          e₂.Delivers link g [] m e₃) ∧
    (∀ m mailbox steps e₁, e.context.phase ≠ .closed →
      e.host.mailbox.take? = some (m, mailbox) →
      (e.context.handle m).2.filterMap Effect.launch? ≠ [] →
      effectsOf steps = (e.context.handle m).2 → (∀ x ∈ movesOf steps, x ≠ .handle) →
      (e.decided m mailbox).amid? steps = some e₁ →
        (start link).1.play (before ++ .handle :: movesOf steps) = some (taken ++ [m], e₁)) := by
  intro link
  have hg : link.Accepts g := Link.accepts_ofStart app hs name registry spawner
  constructor
  · intro move e₁ m after taken' e₂ e₃ hthread hmove hmessages hp' hturn hnext
    obtain ⟨hok, b, a, hsplit, hn, hq⟩ :=
      cameInTime_of_workers hg.keys hp (workers_of_isOfThread hmove hthread)
    have hnone : e.taken? move = none := taken?_eq_none (by rintro rfl; exact hthread)
    have hwhole : (start link).1.play (before ++ move :: after) = some (taken ++ taken', e₂) :=
      play_append.2 ⟨taken, e, taken', hp,
        play_cons.2 ⟨e₁, taken', hmove, hp', by rw [hnone]; rfl⟩, rfl⟩
    cases moves_of_move? hnext with
    | handles hopen htake =>
      have hlistening := (sound_of_play hwhole).listening_of_take? htake
      obtain ⟨-, mailbox, htake'⟩ := next_of_play hp' hlistening hmessages hturn
      cases htake.symm.trans htake'
      -- The groups had come before the message was sent, and what came later takes nothing back.
      have hin : CameInTime (link.command.groupCount link.app.uri) (taken ++ taken') :=
        ⟨b, a ++ taken', by rw [hsplit, List.append_assoc], hn, hq⟩
      have hnone := hm.threadless ((owes_start hok).play hwhole).names.subset
      refine ⟨taken?_handle htake, ?_⟩
      rw [← hnone]
      exact delivers_of_play hg hok hwhole (not_isDown_of_listening hlistening) hin
  · intro m mailbox steps e₁ hopen htake hl hx hh hsteps
    -- The start does not panic, since all threads can have their names.
    have hcalm : .panic ∉ (e.context.handle m).2 := by
      intro hpanic
      have hok := start_ok_of_open hp hopen
      obtain ⟨-, -, ⟨name, hname, hbad⟩, -⟩ := (course_of_play hg.keys hp).1.last_of_panic hg.keys
        (sound_of_play hp) ((owes_start hok).play hp) htake hpanic
      obtain ⟨info, hi, rfl⟩ := List.mem_map.1 hname
      rw [hm.nameable info hi] at hbad
      cases hbad
    have hplay := (sound_of_play hp).play_of_start htake hl hcalm hx hh hsteps
    refine play_append.2 ⟨taken, e, [m], hp,
      play_cons.2 ⟨_, [], move?_handle hopen htake, hplay, ?_⟩, rfl⟩
    rw [taken?_handle htake]
    rfl

/-- The first thread greets the second one at once. What it does before the second one has been
started, it might as well have done afterwards. -/
theorem traffic_meets_ready_graph_neighbours :
    let s : StartGraph := ⟨.ofGraph "app" "1", none, neighbours.topology "app" "1"⟩
    let started := start (Link.ofStart ⟨"app", ""⟩ neighbours.registry .willing (s.withName ""))
    let steps (effects : List Effect) : List (Effect ⊕ Move) :=
      between (effects.take 3) [.work 0, .work 0] (effects.drop 3)
    StartGraph.ofDefinition neighbours "app" "1" = .ok s ∧
    (∃ r e e', started.1.play [.complete 0, .complete 0, .handle, .handle, .work 0] = some r ∧
      r.2.move? (.work 0) = some e ∧ e.move? .handle = some e' ∧
      e'.host.workers.map (fun w => (w.group, w.inbox.length)) =
        [("caller", 0), ("listener", 1)]) ∧
    ∃ r x e, started.1.play [.complete 0, .complete 0, .handle] = some r ∧
      r.2.host.mailbox.take? = some x ∧
      (r.2.decided x.1 x.2).amid? (steps (r.2.context.handle x.1).2) = some e ∧
      started.1.play [.complete 0, .complete 0, .handle, .handle, .work 0, .work 0] =
        some (r.1 ++ [x.1], e) := by
  intro s started steps
  have hs : StartGraph.ofDefinition neighbours "app" "1" = .ok s := rfl
  have hmakes : (Link.ofStart ⟨"app", ""⟩ neighbours.registry .willing
      (s.withName "")).MakesThreads := ⟨fun _ => rfl, by decide⟩
  refine ⟨hs, ?_, ?_⟩
  · have hrun : (started.1.play [.complete 0, .complete 0, .handle, .handle, .work 0]).any fun r =>
        (r.2.move? (.work 0)).any fun e => (e.move? .handle).any fun _ =>
          r.2.host.mailbox.messages.isEmpty ∧
            e.host.mailbox.messages.map (fun x => x.routed?.map (·.dest)) =
              [some [.ofExtension "app" "1" "listener"]] ∧
            e.context.phase = .running ∧ (∀ w ∈ e.host.workers, w.isGone = false) ∧
            e.host.workers.map (fun w => (w.group, w.inbox.length)) =
              [("caller", 0), ("listener", 0)] := by decide +kernel
    obtain ⟨r, hp, hrun⟩ := (Option.any_eq_true _ _).1 hrun
    obtain ⟨e, hwork, hrun⟩ := (Option.any_eq_true _ _).1 hrun
    obtain ⟨e', hmove, hsum⟩ := (Option.any_eq_true _ _).1 hrun
    obtain ⟨hempty, hposted, hrunning, hgone, hinboxes⟩ := of_decide_eq_true hsum
    have hempty := List.isEmpty_iff.1 hempty
    obtain ⟨x, hposted, hx⟩ := List.map_eq_singleton_iff.1 hposted
    obtain ⟨m, hm, hdest⟩ := Option.map_eq_some_iff.1 hx
    obtain rfl := EngineMsg.routed?_eq_some_iff.1 hm
    have hopen : e.context.IsOpen := ⟨by rw [hrunning]; decide, by rw [hrunning]; decide⟩
    obtain ⟨-, hdelivers⟩ :=
      (traffic_meets_ready_graph ⟨"app", ""⟩ hs "" neighbours.registry .willing hmakes hp).1
        (.work 0) e m [] [] e e' trivial hwork (by rw [hempty, hposted]; rfl) rfl
        (by rw [hempty]) hmove
    refine ⟨r, e, e', hp, hwork, hmove, ?_⟩
    rw [hdelivers.lengths hopen hgone, hinboxes]
    rw [hdest]
    decide +kernel
  · have hrun : (started.1.play [.complete 0, .complete 0, .handle]).any fun r =>
        r.2.host.mailbox.take?.any fun x =>
          ((r.2.decided x.1 x.2).amid? (steps (r.2.context.handle x.1).2)).any fun _ =>
            r.2.context.phase = .starting ∧
              ((r.2.context.handle x.1).2.filterMap Effect.launch?).length = 2 := by
      decide +kernel
    obtain ⟨r, hp, hrun⟩ := (Option.any_eq_true _ _).1 hrun
    obtain ⟨x, htake, hrun⟩ := (Option.any_eq_true _ _).1 hrun
    obtain ⟨e, hsteps, hsum⟩ := (Option.any_eq_true _ _).1 hrun
    obtain ⟨hstarting, hlaunched⟩ := of_decide_eq_true hsum
    have hmoves := movesOf_between ((r.2.context.handle x.1).2.take 3)
      ((r.2.context.handle x.1).2.drop 3) [.work 0, .work 0]
    have hplay := (traffic_meets_ready_graph ⟨"app", ""⟩ hs "" neighbours.registry .willing hmakes
      hp).2 x.1 x.2 _ e (by rw [hstarting]; decide) htake (List.ne_nil_of_length_pos (by omega))
      ((effectsOf_between _ _ _).trans (List.take_append_drop 3 _)) (by rw [hmoves]; simp) hsteps
    rw [hmoves] at hplay
    exact ⟨r, x, e, hp, htake, hsteps, hplay⟩

end Engine

end ExtensionGraph
