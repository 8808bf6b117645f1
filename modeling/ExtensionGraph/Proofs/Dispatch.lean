import Mathlib.Tactic.Common
import ExtensionGraph.Proofs.ReadyTraffic

/-!
# Bringing a message to its destinations

A destination of a message leads to a thread if it is the address of an extension that the graph
declares for its own app and under its own id, and if the thread is that of the extension's group:
listed, not refused when it was to be started, and still taking messages. Groups are looked up by
their bare names, in tables that also speak of other apps. Still, at any time of any run, a
destination leads to one thread at most. The message is put there, and every other destination is
passed over without a trace in any inbox.

## Main definitions

* `ExtensionGraph.Engine.leadsTo` — whether a destination leads to a thread.
* `ExtensionGraph.Engine.Dispatches` — a message has been brought to its destinations.

## Main results

* `ExtensionGraph.Engine.foldl_perform_host` — writing to threads changes inboxes and the log only.
* `ExtensionGraph.Engine.dispatches_of_play` — at any time, every message is put into exactly the
  inboxes to which its destinations lead.
-/

namespace ExtensionGraph

/-! ## Nothing but inboxes and the log -/

/-- Writing to an inbox leaves everything else in its place. -/
lemma Host.tell_eq (h : Host) (id : ThreadId) (m : ThreadMsg) (unheard : Option LogEvent) :
    ∃ events, h.tell id m unheard =
      { h with workers := (h.tell id m unheard).workers, log := h.log ++ events } := by
  unfold tell
  split
  · exact ⟨[], by rw [List.append_nil]; rfl⟩
  · cases unheard with
    | none => exact ⟨[], by rw [List.append_nil]⟩
    | some event => exact ⟨[event], rfl⟩

/-- What writes to threads, and what is written to the log. -/
def Effect.Writes : Effect → Prop
  | .tell .. => True
  | .log _ => True
  | _ => False

/-- Bringing a message to its destinations writes to inboxes and logs. -/
lemma Context.writes_dispatch (c : Context) (m : Msg) : ∀ x ∈ c.dispatch m, x.Writes := by
  intro x hx
  rcases c.dispatch_effects m x hx with ⟨id, extension, m, unheard, rfl⟩ | ⟨event, rfl⟩
  · trivial
  · trivial

/-- A graph without a fault gives no address to two groups. -/
lemma GraphDefinition.group_eq_of_mem {g : GraphDefinition} {host graph a b : String} {d : Loc}
    (h : g.fault? host = none) (ha : d ∈ g.addresses host graph a)
    (hb : d ∈ g.addresses host graph b) : a = b := by
  obtain ⟨n, hn, rfl, rfl⟩ := mem_addresses.1 ha
  obtain ⟨n', hn', rfl, haddress⟩ := mem_addresses.1 hb
  obtain ⟨-, -, hname⟩ := Loc.mk.inj haddress
  rw [eq_of_name_eq h hn hn' (Option.some.inj hname).symm]

namespace Engine

variable {e : Engine}

/-- Such an effect changes nothing of a host but the inboxes and the log. -/
lemma perform_host {x : Effect} (hx : x.Writes) :
    ∃ events, (e.perform x).host =
      { e.host with workers := (e.perform x).host.workers, log := e.host.log ++ events } := by
  cases x with
  | tell id m unheard => exact e.host.tell_eq id m unheard
  | log event => exact ⟨[event], rfl⟩
  | await | post | spawn | reap | announce | panic => exact hx.elim

/-- **Writing to threads changes inboxes and the log only.** -/
lemma foldl_perform_host (e : Engine) {effects : List Effect} (hx : ∀ x ∈ effects, x.Writes) :
    ∃ events, (effects.foldl perform e).host =
      { e.host with
        workers := (effects.foldl perform e).host.workers, log := e.host.log ++ events } := by
  induction effects generalizing e with
  | nil => exact ⟨[], by rw [List.append_nil]; rfl⟩
  | cons x effects ih =>
    obtain ⟨first, hfirst⟩ := perform_host (e := e) (hx x List.mem_cons_self)
    obtain ⟨rest, hrest⟩ := ih (e.perform x) fun y hy => hx y (List.mem_cons_of_mem _ hy)
    refine ⟨first ++ rest, ?_⟩
    rw [List.foldl_cons, ← List.append_assoc]
    refine hrest.trans ?_
    rw [hfirst]

/-! ## Destinations and threads -/

variable {link : Link} {g : GraphDefinition} {heard : List EngineMsg}

/-- Whether a destination leads to a thread: it is the address of an extension that is declared for
this app and this graph, a handle on the list has started the thread for the extension's group, and
the thread takes messages. -/
def leadsTo (e : Engine) (g : GraphDefinition) (d : Loc) (w : Worker) : Bool :=
  d.app = e.context.link.app.uri && d.graph = e.context.link.graph &&
    (g.extensionsOn e.context.link.app.uri).any
      (fun n => d.extension = some n.name && n.groupName = w.group) &&
    e.context.threads.any (fun t => t.id = w.id && t.groupName = w.group && t.wired) &&
    w.isReceiving

/-- When a destination leads to a worker, in terms of what the graph declares, of the list of
handles and of the worker.

**Proof sketch.** An address is one of those of a group exactly if it names the app, the graph and
an extension that is declared for this group; the rest is how the three conditions are written. -/
lemma leadsTo_iff {d : Loc} {w : Worker} : e.leadsTo g d w = true ↔
    d ∈ g.addresses e.context.link.app.uri e.context.link.graph w.group ∧
      (∃ t ∈ e.context.threads, t.id = w.id ∧ t.groupName = w.group ∧ t.wired = true) ∧
      w.isReceiving = true := by
  have hdeclared : d ∈ g.addresses e.context.link.app.uri e.context.link.graph w.group ↔
      d.app = e.context.link.app.uri ∧ d.graph = e.context.link.graph ∧
        ∃ n ∈ g.extensionsOn e.context.link.app.uri,
          d.extension = some n.name ∧ n.groupName = w.group := by
    rw [GraphDefinition.mem_addresses]
    constructor
    · rintro ⟨n, hn, hgroup, rfl⟩
      exact ⟨rfl, rfl, n, hn, rfl, hgroup⟩
    · rintro ⟨happ, hgraph, n, hn, hname, hgroup⟩
      refine ⟨n, hn, hgroup, ?_⟩
      obtain ⟨app, graph, extension⟩ := d
      cases happ
      cases hgraph
      cases hname
      rfl
  rw [hdeclared]
  simp only [leadsTo, Bool.and_eq_true, decide_eq_true_eq, List.any_eq_true, and_assoc]

/-- In a staffed graph, a destination leads to a worker if it belongs to one of its extensions, and
if the worker takes messages. -/
lemma Staffed.leadsTo_eq (h : e.Staffed link) {w : Worker} (hw : w ∈ e.host.workers) (d : Loc) :
    e.leadsTo g d w = (decide (d ∈ g.addresses e.context.link.app.uri e.context.link.graph w.group)
      && w.isReceiving) := by
  rw [Bool.eq_iff_iff, leadsTo_iff, Bool.and_eq_true, decide_eq_true_eq]
  exact and_congr_right fun _ => and_iff_right_of_imp fun hr => h.staff w hw hr

/-- A message has been brought to its destinations. -/
structure Dispatches (g : GraphDefinition) (m : Msg) (e e' : Engine) : Prop where
  context : e'.context = e.context
  /-- Every thread gets the message once for each destination that leads to it, in their order. -/
  workers : e'.host.workers = e.host.workers.map fun w =>
    { w with
      inbox := w.inbox ++ (m.dest.filter fun d => e.leadsTo g d w).map fun d =>
        .deliver (d.extension.getD "") m }
  /-- No destination leads to two threads. -/
  unique : ∀ d, (e.host.workers.filter (e.leadsTo g d)).length ≤ 1
  /-- A declared extension can be reached if its group has a handle that somebody hears. -/
  reached : ∀ n ∈ g.extensionsOn e.context.link.app.uri, ∀ t ∈ e.context.threads,
    t.groupName = n.groupName → t.wired = true → e.host.hears t.id = true →
      ∃ w ∈ e.host.workers, w.id = t.id ∧
        e.leadsTo g (n.address e.context.link.app.uri e.context.link.graph) w = true
  /-- Before the topology is known, no destination leads anywhere. -/
  early : e.context.topology = none → ∀ d, ∀ w ∈ e.host.workers, e.leadsTo g d w = false
  rest : ∃ events, e'.host =
    { e.host with workers := e'.host.workers, log := e.host.log ++ events }

/-- Whoever hears a handle is a worker with its number. -/
lemma exists_of_hears {id : ThreadId} (h : e.host.hears id = true) :
    ∃ w ∈ e.host.workers, w.id = id ∧ w.isReceiving = true := by
  unfold Host.hears at h
  cases hp : e.host.place? id with
  | none =>
    rw [hp] at h
    cases h
  | some place =>
    obtain ⟨w, hw, hid⟩ := e.host.exists_of_place? hp
    rw [hp, Option.bind_some, hw] at h
    exact ⟨w, List.mem_of_getElem? hw, hid, h⟩

/-- **In a staffed graph, every message is put into exactly the inboxes to which its destinations
lead.**

**Proof sketch.** A thread that takes messages is listed, so that it gets the destinations of its
group. An address belongs to one group only, and a group has one thread only. -/
lemma Staffed.dispatches (h : e.Staffed link) (hg : link.Accepts g) (hlink : e.context.link = link)
    (hsound : e.Sound heard)
    (hgroups : (e.host.workers.map (·.group)).Nodup) (m : Msg) :
    e.Dispatches g m (e.carryOut (e.context, e.context.dispatch m)) := by
  constructor
  case context => exact e.carryOut_context _
  case workers =>
    have hroute : (e.handle (.route m)).host.workers = e.host.workers.map fun w =>
        w.write (m.deliveries (g.addresses link.app.uri link.graph w.group)) :=
      h.route_workers hg hlink hsound
    rw [Engine.handle, retire_workers] at hroute
    refine hroute.trans (List.map_congr_left fun w hw => ?_)
    -- To a worker that is staffed lead the addresses of its group, as long as it receives.
    have hleads : (m.dest.filter fun d => e.leadsTo g d w) = m.dest.filter fun d =>
        decide (d ∈ g.addresses link.app.uri link.graph w.group) && w.isReceiving := by
      rw [← hlink]
      exact List.filter_congr fun d _ => h.leadsTo_eq hw d
    rw [hleads]
    cases hr : w.isReceiving with
    | true =>
      rw [w.write_of_receiving _ hr]
      simp only [Bool.and_true]
      rfl
    | false =>
      rw [w.write_of_not_receiving _ hr]
      simp
  case unique =>
    intro d
    have hsame : ∀ w ∈ e.host.workers.filter (e.leadsTo g d),
        ∀ v ∈ e.host.workers.filter (e.leadsTo g d), w.group = v.group := by
      intro w hw v hv
      have hd := (leadsTo_iff.1 (List.mem_filter.1 hw).2).1
      have hd' := (leadsTo_iff.1 (List.mem_filter.1 hv).2).1
      rw [hlink] at hd hd'
      exact GraphDefinition.group_eq_of_mem hg.fault hd hd'
    have hnd : ((e.host.workers.filter (e.leadsTo g d)).map (·.group)).Nodup :=
      hgroups.sublist (List.filter_sublist.map _)
    -- Two workers to which one destination leads would be of the same group.
    generalize e.host.workers.filter (e.leadsTo g d) = ws at hsame hnd
    rcases ws with _ | ⟨w, _ | ⟨v, ws⟩⟩
    · exact Nat.zero_le _
    · exact Nat.le_refl _
    · refine absurd ?_ (List.nodup_cons.1 hnd).1
      exact List.mem_map.2 ⟨v, List.mem_cons_self, (hsame w (by simp) v (by simp)).symm⟩
  case reached =>
    intro n hn t ht hname hwired hears
    obtain ⟨w, hw, hid, hr⟩ := exists_of_hears hears
    obtain ⟨u, hu, huid, hgroup, -⟩ := h.staff w hw hr
    obtain rfl : u = t :=
      List.inj_on_of_nodup_map hsound.steady.context.idsNodup hu ht (huid.trans hid)
    refine ⟨w, hw, hid, leadsTo_iff.2 ⟨?_, ⟨u, hu, huid, hgroup, hwired⟩, hr⟩⟩
    exact GraphDefinition.mem_addresses.2 ⟨n, hn, hname.symm.trans hgroup, rfl⟩
  case early =>
    intro hnone
    rw [h.topology] at hnone
    cases hnone
  case rest => exact foldl_perform_host _ (e.context.writes_dispatch m)

/-- Before any thread has been started, a message is put nowhere.

**Proof sketch.** Writing to inboxes makes no workers. So there are none before and afterwards, and
every statement about a worker holds for want of one. -/
lemma dispatches_of_unstarted (hw : e.host.workers = []) (m : Msg) :
    e.Dispatches g m (e.carryOut (e.context, e.context.dispatch m)) := by
  have hmild : ∀ x ∈ e.context.dispatch m, x.IsMild := Context.quiet_dispatch _ m
  have hworkers : (e.carryOut (e.context, e.context.dispatch m)).host.workers = [] := by
    refine (foldl_perform_workers _ hmild ?_).trans ?_
    · show (e.host.workers.map (·.id)).Nodup
      rw [hw]
      exact List.nodup_nil
    · show e.host.workers.map _ = []
      rw [hw]
      rfl
  constructor
  case context => exact e.carryOut_context _
  case workers =>
    rw [hworkers, hw]
    rfl
  case unique =>
    intro d
    rw [hw]
    exact Nat.zero_le _
  case reached =>
    intro n _ t _ _ _ hears
    obtain ⟨w, hmem, -⟩ := exists_of_hears hears
    rw [hw] at hmem
    cases hmem
  case early =>
    intro _ d w hmem
    rw [hw] at hmem
    cases hmem
  case rest => exact foldl_perform_host _ (e.context.writes_dispatch m)

/-- **At any time, every message is put into exactly the inboxes to which its destinations lead.**
Let a graph be accepted by its app. At any time of any run, whatever the phase, a destination leads
to one thread at most, which is the thread of the group for which the graph declares the extension.
The message is put into its inbox unchanged, once for each time that it is named, and nothing but
inboxes and the log is changed. -/
theorem dispatches_of_play (app : AppInfo) {graph : String} {s : StartGraph}
    (hs : StartGraph.ofDefinition g app.uri graph = .ok s) (name : String) (registry : Registry)
    (spawner : Spawner) {moves : List Move} {taken : List EngineMsg}
    (hp : (start (Link.ofStart app registry spawner (s.withName name))).1.play moves =
      some (taken, e))
    (m : Msg) : e.Dispatches g m (e.carryOut (e.context, e.context.dispatch m)) := by
  have hg := Link.accepts_ofStart app hs name registry spawner
  by_cases hw : e.host.workers = []
  · exact dispatches_of_unstarted hw m
  · obtain ⟨hok, hin⟩ := cameInTime_of_workers hg.keys hp hw
    exact (staffed_of_play hg.keys hok hp hin).dispatches hg (origins_of_play hp).linked
      (sound_of_play hp) ((course_of_play hg.keys hp).1.startedGroups_nodup hg.keys) m

/-- A graph with two extensions of one name, on two apps. -/
def namesakes : GraphDefinition :=
  ⟨[.extension ⟨"listener", "idle", none, some "elsewhere", none⟩,
    .extension ⟨"caller", "caller", none, none, none⟩,
    .extension ⟨"listener", "idle", none, none, none⟩], []⟩

/-- A message to the graph itself, to the other app, to another graph, to somebody unknown, to one
extension, and twice to another one. -/
def circular : Msg :=
  { Msg.create .data "news" default with
    dest := [.ofGraph "app" "1", .ofExtension "elsewhere" "1" "listener",
      .ofExtension "app" "2" "listener", .ofExtension "app" "1" "nobody",
      .ofExtension "app" "1" "caller", .ofExtension "app" "1" "listener",
      .ofExtension "app" "1" "listener"] }

/-- A spawner that refuses the first thread of every graph. -/
def lateSpawner : Spawner :=
  ⟨fun _ id => if id.number = 1 then some "no more threads" else none⟩

/-- The caller's thread has been refused, beside the listener's, so that two destinations are
left. -/
theorem dispatches_of_play_namesakes :
    let s : StartGraph := ⟨.ofGraph "app" "1", none, namesakes.topology "app" "1"⟩
    let link := Link.ofStart ⟨"app", ""⟩ neighbours.registry lateSpawner (s.withName "")
    StartGraph.ofDefinition namesakes "app" "1" = .ok s ∧
    ∃ r, (start link).1.play [.complete 0, .complete 0, .handle, .handle] = some r ∧
      r.2.context.threads.map (fun t => (t.groupName, t.wired)) =
        [("caller", false), ("listener", true)] ∧
      (r.2.carryOut (r.2.context, r.2.context.dispatch circular)).host.workers.map
        (fun w => (w.group, w.inbox.length)) = [("listener", 2)] ∧
      r.2.Dispatches namesakes circular
        (r.2.carryOut (r.2.context, r.2.context.dispatch circular)) := by
  intro s link
  have hs : StartGraph.ofDefinition namesakes "app" "1" = .ok s := rfl
  have hrun : ((start link).1.play [.complete 0, .complete 0, .handle, .handle]).any
      fun r : List EngineMsg × Engine => decide
        (r.2.context.threads.map (fun t => (t.groupName, t.wired)) =
            [("caller", false), ("listener", true)] ∧
          (r.2.carryOut (r.2.context, r.2.context.dispatch circular)).host.workers.map
            (fun w => (w.group, w.inbox.length)) = [("listener", 2)]) := by
    decide +kernel
  obtain ⟨r, hp, hsum⟩ := (Option.any_eq_true _ _).1 hrun
  obtain ⟨hlisted, hinboxes⟩ := of_decide_eq_true hsum
  exact ⟨hs, r, hp, hlisted, hinboxes,
    dispatches_of_play ⟨"app", ""⟩ hs "" neighbours.registry lateSpawner hp circular⟩

end Engine

end ExtensionGraph
