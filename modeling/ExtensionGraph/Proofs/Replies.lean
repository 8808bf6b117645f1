import ExtensionGraph.Proofs.Addressing
import ExtensionGraph.Proofs.MessageOrder
import ExtensionGraph.Proofs.ReadyTraffic

/-!
# Replies

A message carries the address of its sender, which is made of the name under which the sender is
hosted. A reply to this address is brought to the group that the graph declares for the name. This
is the sender's own group if the graph decides on the members of the group. An addon that fixes the
members of its group may host extensions that the graph does not declare there, and these cannot be
replied to.

## Main definitions

* `ExtensionGraph.Engine.Exchange` — an extension has sent a message to another one.
* `ExtensionGraph.Engine.Replied` — what becomes of a reply.

## Main results

* `ExtensionGraph.Engine.declared_of_driven` — whoever is hosted by a group whose members the graph
  decides on is declared for this group.
* `ExtensionGraph.Engine.reply_reaches_declared` — replies reach senders that are declared for their
  groups.
* `ExtensionGraph.Engine.reply_lost` — a sender that is not.
-/

namespace ExtensionGraph

/-- An address that is complete stays as it is, and so does one that is resolved against itself. -/
lemma Loc.resolve_self (app graph extension : String) :
    (Loc.ofExtension app graph extension).resolve app graph =
      .ofExtension app graph extension := by
  unfold resolve ofExtension
  simp

/-- What a message to one destination writes to a thread. -/
lemma Msg.deliveries_singleton {m : Msg} {d : Loc} (hm : m.dest = [d]) (addresses : List Loc) :
    m.deliveries addresses =
      if d ∈ addresses then [.deliver (d.extension.getD "") m] else [] := by
  unfold deliveries
  rw [hm]
  by_cases hd : d ∈ addresses
  · rw [if_pos hd, List.filter_cons_of_pos (by simpa using hd)]
    rfl
  · rw [if_neg hd, List.filter_cons_of_neg (by simpa using hd)]
    rfl

namespace Engine

variable {e e' : Engine} {link : Link} {g : GraphDefinition} {w : Worker}
  {sender receiver : Hosted} {m posted : Msg}

/-- An extension has sent a message from its thread, and the message has been handed to another
extension. -/
structure Exchange (e : Engine) (w : Worker) (sender receiver : Hosted) (m : Msg) : Prop where
  thread : w ∈ e.host.workers
  hosted : sender ∈ w.hosted
  sent : ∃ mode engine original, sender.env.Posts mode engine original m
  handed : ∃ v ∈ e.host.workers, receiver ∈ v.hosted ∧ m ∈ v.handled receiver.name

/-- What becomes of a reply: it is put into the inbox of the thread that has the sender among its
declared extensions, unless this thread is gone, and nothing else happens to any thread. -/
structure Replied (link : Link) (g : GraphDefinition) (w : Worker) (sender : Hosted) (posted : Msg)
    (e e' : Engine) : Prop where
  /-- The thread of the sender is still there. -/
  thread : ∃ v ∈ e.host.workers, v.id = w.id ∧ v.group = w.group
  workers : e'.host.workers = e.host.workers.map fun v =>
    if sender.env.loc ∈ g.addresses link.app.uri link.graph v.group ∧ v.isGone = false then
      { v with inbox := v.inbox ++ [.deliver sender.name posted] }
    else v

/-- A message is handed over with the address of its sender. -/
lemma Exchange.src_eq (h : e.Exchange w sender receiver m) : m.src = sender.env.loc := by
  obtain ⟨mode, engine, original, hposts⟩ := h.sent
  exact congrArg Msg.src (Env.address_eq_ok_iff.1 (Env.posts_iff.1 hposts).2.2).1

/-! ## Declared senders -/

/-- **Whoever is hosted by a group whose members the graph decides on is declared for the
group.**

**Proof sketch.** The thread hosts the members of its group, which are the declared extensions as
the graph decides on them. The sender is one of these by its name, which makes up its address. -/
lemma declared_of_driven (app : AppInfo) {graph : String} {s : StartGraph}
    (hs : StartGraph.ofDefinition g app.uri graph = .ok s) (name : String) (registry : Registry)
    (spawner : Spawner) {moves : List Move} {taken : List EngineMsg}
    (hp : (start (Link.ofStart app registry spawner (s.withName name))).1.play moves =
      some (taken, e))
    (hw : w ∈ e.host.workers) (hsender : sender ∈ w.hosted) {b : Group} (hb : b ∈ groupsIn taken)
    (hname : b.name = w.group) (hdriven : b.fixed = false) :
    sender.env.loc ∈ g.addresses app.uri graph w.group := by
  have hgraph : (Link.ofStart app registry spawner (s.withName name)).graph = graph := by
    obtain ⟨-, rfl⟩ := StartGraph.ofDefinition_eq_ok hs
    rfl
  have hk := (Link.accepts_ofStart app hs name registry spawner).keys
  have hhosts := hosts_of_play hk hp hw hb hname.symm
  rw [membersIn_hosted? app hs name registry spawner w.id hdriven] at hhosts
  have hcrew : sender.still ∈ w.crew := List.mem_map_of_mem hsender
  cases hbegun : w.neverBegan with
  | true =>
    rw [hhosts.unbegun hbegun] at hcrew
    cases hcrew
  | false =>
    rw [hhosts.begun hbegun] at hcrew
    obtain ⟨h, hh, hstill⟩ := List.mem_map.1 hcrew
    obtain ⟨n, hn, hhosted⟩ := List.mem_filterMap.1 hh
    have hsame : sender.name = n.name := by
      rw [← ExtensionNode.name_of_hosted? hhosted]
      exact (congrArg Hosted.name hstill).symm
    rw [loc_of_hosted hp hw hsender, hgraph, hsame, ← hname]
    exact List.mem_map_of_mem hn

/-! ## Dispatching a reply -/

/-- An open graph writes to every thread that is not gone, and to no other. -/
lemma Sound.isReceiving_eq {heard : List EngineMsg} (h : e.Sound heard) (hup : ¬ e.IsDown)
    (ho : e.context.IsOpen) (hw : w ∈ e.host.workers) : w.isReceiving = !w.isGone := by
  cases hg : w.isGone with
  | false => exact h.receiving hup ho hw hg
  | true => exact Worker.isReceiving_of_isGone hg

/-- **A message to one address is put into the inbox of the thread that has it**, as long as the
graph is open.

**Proof sketch.** What is written to a thread is one entry if it has the address and nothing
otherwise. On an open graph a thread takes messages exactly if it is not gone. -/
lemma route_one (hg : link.Accepts g) {moves : List Move} {taken : List EngineMsg}
    (hp : (start link).1.play moves = some (taken, e)) (hstarted : e.host.workers ≠ [])
    (hup : ¬ e.IsDown) (ho : e.context.IsOpen) {mailbox : Mailbox EngineMsg} {d : Loc}
    (hm : m.dest = [d]) :
    (({ e with host := { e.host with mailbox } } : Engine).handle (.route m)).host.workers =
      e.host.workers.map fun v =>
        if d ∈ g.addresses link.app.uri link.graph v.group ∧ v.isGone = false then
          { v with inbox := v.inbox ++ [.deliver (d.extension.getD "") m] }
        else v := by
  have hsound := sound_of_play hp
  obtain ⟨hok, hin⟩ := cameInTime_of_workers hg.keys hp hstarted
  rw [(staffed_of_play hg.keys hok hp hin).route_workers hg (origins_of_play hp).linked hsound]
  refine List.map_congr_left fun v hv => ?_
  have hreceiving := hsound.isReceiving_eq hup ho hv
  rw [Msg.deliveries_singleton hm]
  by_cases hd : d ∈ g.addresses link.app.uri link.graph v.group
  · rw [if_pos hd]
    cases hgone : v.isGone with
    | false =>
      rw [hgone] at hreceiving
      rw [v.write_of_receiving _ hreceiving, if_pos ⟨hd, rfl⟩]
    | true =>
      rw [hgone] at hreceiving
      rw [v.write_of_not_receiving _ hreceiving, if_neg fun h => by cases h.2]
  · rw [if_neg hd, if_neg fun h => hd h.1, v.write_nil]

/-- **A reply reaches its sender** if the graph declares the sender for the group that hosts it. Let
a message have been sent by one extension and handed to another one, on a graph that is open. What
the other one sends to the source of the message is posted. When the engine takes it, on a graph
that is still open, it is put into the inbox of the thread that has the sender among its declared
extensions, unless this thread is gone. It is the sender's own thread, provided that the graph
decides on the members of its group; and no thread at all, if nobody declares the sender.

**Proof sketch.** The source of the message is the sender's address, which is complete, so that the
reply goes there unchanged. When its turn comes the thread is still there, and `route_one` says
which inboxes it is put into. -/
theorem reply_reaches_declared (app : AppInfo) {graph : String} {s : StartGraph}
    (hs : StartGraph.ofDefinition g app.uri graph = .ok s) (name : String) (registry : Registry)
    (spawner : Spawner) {before : List Move} {taken : List EngineMsg}
    (hp : (start (Link.ofStart app registry spawner (s.withName name))).1.play before =
      some (taken, e))
    (ho : e.context.IsOpen) (hex : e.Exchange w sender receiver m) {mode : SendMode} {reply : Msg}
    (hdest : reply.dest = [m.src]) (hkind : Env.checkKind mode reply = .ok ()) :
    ((∃ b ∈ groupsIn taken, b.name = w.group ∧ b.fixed = false) →
      sender.env.loc ∈ g.addresses app.uri graph w.group) ∧
    ∃ posted, receiver.env.Posts mode e.host.mailbox reply posted ∧
      ∀ after taken' e₁ mailbox, e.play after = some (taken', e₁) → e₁.context.IsOpen →
        e₁.host.mailbox.take? = some (.route posted, mailbox) →
        ∃ e₂, e₁.move? .handle = some e₂ ∧
          Replied (Link.ofStart app registry spawner (s.withName name)) g w sender posted e₁
            e₂ := by
  have hg := Link.accepts_ofStart app hs name registry spawner
  constructor
  · rintro ⟨b, hb, hname, hdriven⟩
    exact declared_of_driven app hs name registry spawner hp hex.thread hex.hosted hb hname hdriven
  · obtain ⟨v, hv, hreceiver, hm⟩ := hex.handed
    have hsender := loc_of_hosted hp hex.thread hex.hosted
    have hloc := loc_of_hosted hp hv hreceiver
    -- Both have their addresses in the same graph, so that the sender's address is left as it is.
    have hdests : receiver.env.dests reply = [sender.env.loc] := by
      unfold Env.dests
      rw [if_neg (by rw [hdest]; exact List.cons_ne_nil _ _), hdest, hex.src_eq, hsender, hloc]
      exact congrArg (fun d => [d]) (Loc.resolve_self _ _ _)
    -- Something has been handed over, so the engine has not gone down.
    have hup : ¬ e.IsDown := by
      intro hd
      have hnothing := ((unwritten_of_play (g := g) hg.keys hp hd).2 v hv).handled receiver.name
      rw [hnothing] at hm
      cases hm
    have hlistening : e.host.mailbox.listening = true := listening_of_not_isDown hup ho.2
    refine ⟨{ reply with src := receiver.env.loc, dest := [sender.env.loc] }, ?_, ?_⟩
    · refine Env.posts_iff.2 ⟨hkind, hlistening, Env.address_eq_ok_iff.2 ⟨by rw [hdests], ?_⟩⟩
      rw [hdests]
      exact List.cons_ne_nil _ _
    · intro after taken' e₁ mailbox hp' ho₁ htake
      refine ⟨_, move?_handle ho₁.2 htake, ?_, ?_⟩
      · obtain ⟨w', hw', hev⟩ := play_later True hp' (fun _ _ _ => trivial) w hex.thread
        exact ⟨w', hw', hev.id, hev.group⟩
      · have hwhole := play_append.2 ⟨taken, e, taken', hp, hp', rfl⟩
        have hstarted : e₁.host.workers ≠ [] := by
          obtain ⟨w', hw', -⟩ := play_later True hp' (fun _ _ _ => trivial) w hex.thread
          exact List.ne_nil_of_mem hw'
        have hextension : sender.env.loc.extension.getD "" = sender.name := by
          rw [hsender]
          rfl
        have hup₁ := not_isDown_of_listening ((sound_of_play hwhole).listening_of_take? htake)
        rw [route_one hg hwhole hstarted hup₁ ho₁ rfl, hextension]

/-! ## Two exchanges -/

/-- An answer to a message. -/
def answer (m : Msg) : Msg := (Msg.create .cmd "answer" default).withDest m.src

/-- An extension that answers every message. -/
def replier : Extension :=
  ⟨.null, fun memory _ callback => match callback with
    | .message m => .send .any (answer m) fun _ => .done (.ok ()) memory
    | _ => .done (.ok ()) memory⟩

/-- A graph with an extension that greets another one. -/
def penPals : GraphDefinition :=
  ⟨[.extension ⟨"caller", "caller", none, none, none⟩,
    .extension ⟨"listener", "replier", none, none, none⟩], []⟩

/-- A graph that leaves the first one to the addon of a group. -/
def foundling : GraphDefinition :=
  ⟨[.group ⟨"home", "home", none⟩, .extension ⟨"listener", "replier", none, none, none⟩], []⟩

/-- The addons of both graphs. -/
def penPals.registry : Registry :=
  ⟨[("caller", fun _ _ => .made (caller greeting)), ("replier", fun _ _ => .made replier)],
    [(defaultGroupAddon, Registry.defaultGroup),
      ("home", fun name =>
        ⟨0, .ok ((Group.create name "home").withMembers [⟨"caller", "caller"⟩])⟩)]⟩

/-- The run of either graph until the greeting has been handed over. -/
def untilGreeted : List Move :=
  [.complete 0, .complete 0, .handle, .handle, .work 0, .work 0, .handle, .work 1, .work 1, .work 1,
    .work 1, .work 1, .work 1]

/-- A message is another one, without properties, as it leaves an extension. -/
def Leaves (env : Env) (original m : Msg) : Prop :=
  (m.kind = original.kind ∧ m.name = original.name ∧ m.src = env.loc) ∧
    m.dest = env.dests original ∧ m.properties.isEmpty ∧ m.createdAt = original.createdAt

instance (env : Env) (original m : Msg) : Decidable (Leaves env original m) :=
  inferInstanceAs (Decidable (_ ∧ _))

/-- A message without properties that leaves an extension as stated is posted as stated. -/
lemma Leaves.posts {env : Env} {original : Msg} (h : Leaves env original m)
    (hempty : original.properties = []) (hsome : m.dest ≠ []) {engine : Mailbox EngineMsg}
    (hlistening : engine.listening = true) : env.Posts .any engine original m := by
  obtain ⟨⟨hkind, hname, hsrc⟩, hdest, hproperties, htime⟩ := h
  have heq : m = { original with src := env.loc, dest := env.dests original } := by
    obtain ⟨kind, name, src, dest, properties, createdAt⟩ := m
    rw [Msg.mk.injEq]
    exact ⟨hkind, hname, hsrc, hdest, (List.isEmpty_iff.1 hproperties).trans hempty.symm, htime⟩
  exact Env.posts_iff.2 ⟨rfl, hlistening, Env.address_eq_ok_iff.2 ⟨heq, hdest ▸ hsome⟩⟩

/-- The first extensions of the first two threads, and what has been handed to the second one. -/
def exchange? (e : Engine) : Option (Worker × Hosted × Hosted × Msg) := do
  let w ← e.host.workers[0]?
  let v ← e.host.workers[1]?
  let sender ← w.hosted[0]?
  let receiver ← v.hosted[0]?
  let m ← (v.handled receiver.name).head?
  some (w, sender, receiver, m)

/-- A greeting that was handed over is an exchange between the two. -/
lemma exchange_of_greeting (h : e.exchange? = some (w, sender, receiver, m))
    (hleft : Leaves sender.env greeting m) (hsome : m.dest ≠ []) :
    e.Exchange w sender receiver m := by
  unfold exchange? at h
  obtain ⟨w, hw, h⟩ := Option.bind_eq_some_iff.1 h
  obtain ⟨v, hv, h⟩ := Option.bind_eq_some_iff.1 h
  obtain ⟨sender, hsender, h⟩ := Option.bind_eq_some_iff.1 h
  obtain ⟨receiver, hreceiver, h⟩ := Option.bind_eq_some_iff.1 h
  obtain ⟨m, hhanded, h⟩ := Option.bind_eq_some_iff.1 h
  cases h
  exact ⟨List.mem_of_getElem? hw, List.mem_of_getElem? hsender,
    ⟨.any, .empty, greeting, hleft.posts rfl hsome rfl⟩,
    ⟨v, List.mem_of_getElem? hv, List.mem_of_getElem? hreceiver, List.mem_of_mem_head? hhanded⟩⟩

/-- What a reply adds to the inboxes of threads. -/
lemma Replied.lengths (h : Replied link g w sender posted e e') :
    e'.host.workers.map (fun v => (v.group, v.inbox.length)) = e.host.workers.map fun v =>
      (v.group, v.inbox.length + if sender.env.loc ∈ g.addresses link.app.uri link.graph v.group ∧
        v.isGone = false then 1 else 0) := by
  rw [h.workers, List.map_map]
  refine List.map_congr_left fun v _ => ?_
  rw [Function.comp_apply]
  split
  · simp
  · rfl

/-- The answer to a greeting from a declared extension is put into its inbox. -/
theorem reply_reaches_declared_penPals :
    let s : StartGraph := ⟨.ofGraph "app" "1", none, penPals.topology "app" "1"⟩
    let started := start (Link.ofStart ⟨"app", ""⟩ penPals.registry .willing (s.withName ""))
    StartGraph.ofDefinition penPals "app" "1" = .ok s ∧
    ∃ r r' e' w sender receiver m posted, started.1.play untilGreeted = some r ∧
      r.2.Exchange w sender receiver m ∧
      receiver.env.Posts .any r.2.host.mailbox (answer m) posted ∧
      r.2.play [.work 1] = some r' ∧ r'.2.move? .handle = some e' ∧ w.group = "caller" ∧
      e'.host.workers.map (fun v => (v.group, v.inbox.length)) =
        [("caller", 1), ("listener", 0)] := by
  intro s started
  have hs : StartGraph.ofDefinition penPals "app" "1" = .ok s := rfl
  have hrun : (started.1.play untilGreeted).any fun r => r.2.exchange?.any fun x =>
      (r.2.play [.work 1]).any fun r' => r'.2.host.mailbox.take?.any fun y =>
      y.1.routed?.any fun posted =>
        (Leaves x.2.1.env greeting x.2.2.2 ∧ x.2.2.2.dest ≠ []) ∧
        (Leaves x.2.2.1.env (answer x.2.2.2) posted ∧ posted.dest ≠ []) ∧
        r.2.host.mailbox.listening ∧ r.2.context.phase = .running ∧
        r'.2.context.phase = .running ∧ x.1.group = "caller" ∧
        r'.2.host.workers.map (fun v => (v.group, v.inbox.length +
          if x.2.1.env.loc ∈ penPals.addresses "app" "1" v.group ∧ v.isGone = false
          then 1 else 0)) = [("caller", 1), ("listener", 0)] := by decide +kernel
  obtain ⟨r, hp, hrun⟩ := (Option.any_eq_true _ _).1 hrun
  obtain ⟨⟨w, sender, receiver, m⟩, hx, hrun⟩ := (Option.any_eq_true _ _).1 hrun
  obtain ⟨r', hp', hrun⟩ := (Option.any_eq_true _ _).1 hrun
  obtain ⟨⟨y, mailbox⟩, htake, hrun⟩ := (Option.any_eq_true _ _).1 hrun
  obtain ⟨posted, hrouted, hsum⟩ := (Option.any_eq_true _ _).1 hrun
  obtain ⟨⟨hleft, hsome⟩, ⟨hreply, hsome'⟩, hlistening, hrunning, hrunning', hgroup, hinboxes⟩ :=
    of_decide_eq_true hsum
  obtain rfl := EngineMsg.routed?_eq_some_iff.1 hrouted
  have hex := exchange_of_greeting hx hleft hsome
  have hposts := hreply.posts rfl hsome' hlistening
  obtain ⟨-, posted', hposts', hreplied⟩ := reply_reaches_declared ⟨"app", ""⟩ hs ""
    penPals.registry .willing hp ⟨by rw [hrunning]; decide, by rw [hrunning]; decide⟩ hex
    (show (answer m).dest = [m.src] from rfl) (show Env.checkKind .any (answer m) = .ok () from rfl)
  obtain rfl : posted' = posted :=
    Except.ok.inj ((Env.posts_iff.1 hposts').2.2.symm.trans (Env.posts_iff.1 hposts).2.2)
  obtain ⟨e', hmove, hfinal⟩ := hreplied _ _ _ _ hp'
    ⟨by rw [hrunning']; decide, by rw [hrunning']; decide⟩ htake
  exact ⟨hs, r, r', e', w, sender, receiver, m, posted', hp, hex, hposts, hp', hmove, hgroup,
    hfinal.lengths.trans hinboxes⟩

/-- **A sender that cannot be replied to.** The addon of its group has fixed the members, and the
graph does not declare it. All extensions have names of their own, the graph is open and both
threads are at work, but the answer to its greeting is put into no inbox. -/
theorem reply_lost :
    let s : StartGraph := ⟨.ofGraph "app" "1", none, foundling.topology "app" "1"⟩
    let started := start (Link.ofStart ⟨"app", ""⟩ penPals.registry .willing (s.withName ""))
    StartGraph.ofDefinition foundling "app" "1" = .ok s ∧ started.2 = .ok () ∧
    ∃ r r' e' w sender receiver m posted mailbox, started.1.play untilGreeted = some r ∧
      r.2.Exchange w sender receiver m ∧ (answer m).dest = [m.src] ∧
      receiver.env.Posts .any r.2.host.mailbox (answer m) posted ∧
      r.2.play [.work 1] = some r' ∧
      r'.2.host.mailbox.take? = some (.route posted, mailbox) ∧ r'.2.move? .handle = some e' ∧
      (r.1.all fun m => ¬ m.AsksForEnd) ∧ e'.context.phase = .running ∧
      (e'.host.workers.flatMap Worker.roster).Nodup ∧
      ∀ v ∈ e'.host.workers, v.isGone = false ∧ v.inbox = [] := by
  intro s started
  have hrun : (started.1.play untilGreeted).any fun r => r.2.exchange?.any fun x =>
      (r.2.play [.work 1]).any fun r' => r'.2.host.mailbox.take?.any fun y =>
      y.1.routed?.any fun posted => (r'.2.move? .handle).any fun e' =>
        (Leaves x.2.1.env greeting x.2.2.2 ∧ x.2.2.2.dest ≠ []) ∧
        (Leaves x.2.2.1.env (answer x.2.2.2) posted ∧ posted.dest ≠ []) ∧
        r.2.host.mailbox.listening ∧ (r.1.all fun m => ¬ m.AsksForEnd) ∧
        e'.context.phase = .running ∧ (e'.host.workers.flatMap Worker.roster).Nodup ∧
        ∀ v ∈ e'.host.workers, v.isGone = false ∧ v.inbox.isEmpty := by decide +kernel
  obtain ⟨r, hp, hrun⟩ := (Option.any_eq_true _ _).1 hrun
  obtain ⟨⟨w, sender, receiver, m⟩, hx, hrun⟩ := (Option.any_eq_true _ _).1 hrun
  obtain ⟨r', hp', hrun⟩ := (Option.any_eq_true _ _).1 hrun
  obtain ⟨⟨y, mailbox⟩, htake, hrun⟩ := (Option.any_eq_true _ _).1 hrun
  obtain ⟨posted, hrouted, hrun⟩ := (Option.any_eq_true _ _).1 hrun
  obtain ⟨e', hmove, hsum⟩ := (Option.any_eq_true _ _).1 hrun
  obtain ⟨⟨hleft, hsome⟩, ⟨hreply, hsome'⟩, hlistening, hquiet, hrunning, hnames, hinboxes⟩ :=
    of_decide_eq_true hsum
  obtain rfl := EngineMsg.routed?_eq_some_iff.1 hrouted
  refine ⟨rfl, rfl, r, r', e', w, sender, receiver, m, posted, mailbox, hp,
    exchange_of_greeting hx hleft hsome, rfl, hreply.posts rfl hsome' hlistening, hp', htake, hmove,
    hquiet, hrunning, hnames, fun v hv => ?_⟩
  obtain ⟨hgone, hinbox⟩ := hinboxes v hv
  exact ⟨hgone, List.isEmpty_iff.1 hinbox⟩

end Engine

end ExtensionGraph
