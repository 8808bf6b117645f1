import ExtensionGraph.App
import ExtensionGraph.Proofs.GroupTable
import ExtensionGraph.Proofs.StartInterleaving

/-!
# Starts that are called off

A graph asks for the groups that its app hosts one after the other, and calls its start off at the
first whose addon is not registered. By then other groups are being built, and nobody can stop that.
But the engine has not taken any message yet, and so there is no thread. It closes in no time, with
nobody to wait for, and stops listening. A group may be finished while the engine still asks for
others, while it closes or long afterwards: nobody ever hears of it.

## Main definitions

* `ExtensionGraph.Registry.StopsAt` — the first group whose addon is unknown.
* `ExtensionGraph.Registry.Begins` — what addons begin to build.
* `ExtensionGraph.Engine.CallsOff` — a start that is called off, with any moves in between.
* `ExtensionGraph.Engine.Vanished` — an engine that has closed and has never had a thread.

## Main results

* `ExtensionGraph.Context.start_of_stopsAt` — what is asked for before a start is called off.
* `ExtensionGraph.Engine.CallsOff.vanished` — an engine whose start is called off has closed,
  without a thread.
* `ExtensionGraph.Engine.Vanished.play` — and so it stays.
* `ExtensionGraph.App.unknown_addon_aborts_start` — when a start is called off, and what is left
  of it.
-/

namespace ExtensionGraph

/-! ## Known and unknown addons -/

namespace Registry

variable {r : Registry} {infos before : List GroupInfo} {i : GroupInfo}

/-- Of some groups, the first whose addon is unknown, and those before. -/
structure StopsAt (r : Registry) (infos before : List GroupInfo) (i : GroupInfo) : Prop where
  split : ∃ after, infos = before ++ i :: after
  known : ∀ j ∈ before, r.hasGroup j.addon = true
  unknown : r.hasGroup i.addon = false

/-- The addons of some groups begin to build them. -/
def Begins (r : Registry) : List GroupInfo → List Creation → Prop :=
  List.Forall₂ fun i x => r.createGroup i.addon i.name = .ok x

/-- Either all addons are known, or there is a first one that is not. -/
lemma known_or_stopsAt (r : Registry) (infos : List GroupInfo) :
    (∀ i ∈ infos, r.hasGroup i.addon = true) ∨ ∃ before i, r.StopsAt infos before i := by
  cases hf : infos.find? fun i => !r.hasGroup i.addon with
  | none => exact .inl fun i hi => by simpa using List.find?_eq_none.1 hf i hi
  | some i =>
    obtain ⟨hi, before, after, hsplit, hbefore⟩ := List.find?_eq_some_iff_append.1 hf
    exact .inr ⟨before, i, ⟨after, hsplit⟩, fun j hj => by simpa using hbefore j hj,
      by simpa using hi⟩

/-- An addon that nobody has registered is not found, under whatever name a group is asked for. -/
lemma createGroup_of_unknown {addon : String} (h : r.hasGroup addon = false) (name : String) :
    r.createGroup addon name = .error (.addonNotFound addon) := by
  have hnone : r.group? addon = none := by
    unfold hasGroup at h
    simpa using h
  rw [createGroup, hnone]

/-- An addon that has been registered begins to build, whatever comes of it in the end. -/
lemma createGroup_of_known {addon : String} (h : r.hasGroup addon = true) (name : String) :
    ∃ x, r.createGroup addon name = .ok x := by
  obtain ⟨build, hbuild⟩ := Option.isSome_iff_exists.1 h
  rw [createGroup, hbuild]
  exact ⟨_, rfl⟩

/-- Known addons begin to build. -/
lemma exists_begins (h : ∀ i ∈ infos, r.hasGroup i.addon = true) : ∃ xs, r.Begins infos xs := by
  induction infos with
  | nil => exact ⟨[], .nil⟩
  | cons i infos ih =>
    obtain ⟨xs, hxs⟩ := ih fun j hj => h j (List.mem_cons_of_mem _ hj)
    obtain ⟨x, hx⟩ := createGroup_of_known (h i List.mem_cons_self) i.name
    exact ⟨x :: xs, .cons hx hxs⟩

end Registry

/-! ## Asking for groups -/

namespace Context

variable {link : Link} {before : List GroupInfo} {i : GroupInfo}

/-- What has been asked for is waited for, and then the others are asked for. -/
lemma request_append {xs : List Creation} (h : link.registry.Begins before xs)
    (infos : List GroupInfo) :
    request link (before ++ infos) =
      (xs.map Effect.await ++ (request link infos).1, (request link infos).2) := by
  induction h with
  | nil => rfl
  | cons hx _ ih => rw [List.cons_append, request, hx, ih, List.map_cons, List.cons_append]

/-- Without unknown addons the start is a success. -/
lemma start_of_known (watched : Bool)
    (h : ∀ i ∈ link.command.groupsOf link.app.uri, link.registry.hasGroup i.addon = true) :
    (create link watched).start.2.2 = .ok () := by
  by_cases hg : (create link watched).localGroups = []
  · rw [start_eq_of_no_groups _ hg rfl]
  · obtain ⟨xs, hxs⟩ := Registry.exists_begins h
    have hrequest := request_append hxs []
    rw [List.append_nil] at hrequest
    rw [start_eq_request _ hg]
    exact congrArg Prod.snd hrequest

/-- **A start is called off at the first unknown addon.** The groups before have been asked for, and
nothing else has been done.

**Proof sketch.** The groups of the app are those before the unknown addon, the one that asks for
it, and the rest. Asking for the first ones succeeds, so that the requests are theirs followed by
those of the others; and the others begin with a refusal, after which nothing is asked for. -/
theorem start_of_stopsAt (watched : Bool)
    (h : link.registry.StopsAt (link.command.groupsOf link.app.uri) before i) :
    ∃ xs, link.registry.Begins before xs ∧
      (create link watched).start =
        ({ create link watched with phase := .starting },
          xs.map Effect.await ++
            [.log (.groupRefused link.graph i.name i.addon (.addonNotFound i.addon))],
          .error (.addonNotFound i.addon)) := by
  obtain ⟨after, hsplit⟩ := h.split
  obtain ⟨xs, hxs⟩ := Registry.exists_begins h.known
  have hlocal : (create link watched).localGroups = before ++ i :: after := hsplit
  have hg : (create link watched).localGroups ≠ [] := by
    rw [hlocal]
    simp
  have hrefused : request link (i :: after) =
      ([.log (.groupRefused link.graph i.name i.addon (.addonNotFound i.addon))],
        .error (.addonNotFound i.addon)) := by
    rw [request, Registry.createGroup_of_unknown h.unknown]
  have hrequest := request_append hxs (i :: after)
  rw [hrefused] at hrequest
  refine ⟨xs, hxs, ?_⟩
  rw [start_eq_request _ hg, hlocal]
  exact congrArg (Prod.mk _) hrequest

/-- A graph that is being started has not made a thread, and somebody waits for its end. -/
lemma start_unnumbered (link : Link) :
    (create link true).start.1.nextThread = 1 ∧ (create link true).start.1.watched = true := by
  by_cases hg : (create link true).localGroups = []
  · rw [start_eq_of_no_groups _ hg rfl]
    exact ⟨rfl, rfl⟩
  · rw [start_eq_request _ hg]
    exact ⟨rfl, rfl⟩

end Context

/-! ## Engines without threads -/

namespace Engine

variable {link : Link} {e e' : Engine}

/-- Beside an engine without workers nothing goes on but that messages are posted. -/
lemma move_of_no_workers (hw : e.host.workers = []) {m : Move} (hm : e.move? m = some e')
    (hh : m ≠ .handle) :
    e'.context = e.context ∧ e'.host.workers = [] ∧ e'.host.announced = e.host.announced ∧
      ∃ ms, e'.host.mailbox = e.host.mailbox.postAll ms := by
  cases moves_of_move? hm with
  | handles => exact absurd rfl hh
  | completes => exact ⟨rfl, hw, rfl, [_], rfl⟩
  | works hplace | beats hplace | aborts hplace =>
    rw [hw] at hplace
    cases hplace
  | sends => exact ⟨rfl, hw, rfl, [_], rfl⟩
  | refuses => exact ⟨rfl, hw, rfl, [], rfl⟩
  | closes => exact ⟨rfl, hw, rfl, [_], rfl⟩

/-- A mild effect starts no worker, and the engine goes on listening. -/
lemma perform_of_no_workers (hw : e.host.workers = []) {x : Effect} (hx : x.IsMild) :
    (e.perform x).host.workers = [] ∧
      (e.perform x).host.mailbox.listening = e.host.mailbox.listening := by
  obtain ⟨hmail, hworkers, -⟩ := e.host.perform_of_tame e.context.link hx.1
    (fun l hl => by rw [hx.2] at hl; cases hl)
  rw [hx.2, hw] at hworkers
  rw [perform_workers, perform_mailbox, hmail, Mailbox.postAll_listening]
  exact ⟨List.map_eq_nil_iff.1 hworkers, rfl⟩

/-- The same for a decision that is carried out with moves in between.

**Proof sketch.** By induction on the steps. An effect of the decision adds its announcements, and a
move beside the engine adds at most messages to the mailbox. Neither brings a worker, so that the
hypothesis applies to the rest. -/
lemma amid_of_no_workers {steps : List (Effect ⊕ Move)} (hw : e.host.workers = [])
    (hx : ∀ x ∈ effectsOf steps, x.IsMild) (hh : ∀ m ∈ movesOf steps, m ≠ .handle)
    (hs : e.amid? steps = some e') :
    e'.context = e.context ∧ e'.host.workers = [] ∧
      e'.host.announced = e.host.announced + (effectsOf steps).countP Effect.announces ∧
      e'.host.mailbox.listening = e.host.mailbox.listening := by
  induction steps generalizing e with
  | nil =>
    cases hs
    exact ⟨rfl, hw, rfl, rfl⟩
  | cons step steps ih =>
    cases step with
    | inl x =>
      have heffects : effectsOf (.inl x :: steps) = x :: effectsOf steps := rfl
      rw [heffects] at hx ⊢
      obtain ⟨hworkers, hlistening⟩ := perform_of_no_workers hw (hx x List.mem_cons_self)
      obtain ⟨hc, hw', ha, hl⟩ := ih hworkers (fun y hy => hx y (List.mem_cons_of_mem _ hy)) hh hs
      refine ⟨hc.trans (e.perform_context x), hw', ?_, hl.trans hlistening⟩
      rw [ha, e.perform_announced, List.countP_cons]
      omega
    | inr m =>
      have hmoves : movesOf (.inr m :: steps) = m :: movesOf steps := rfl
      rw [hmoves] at hh
      obtain ⟨e₁, hm, hrest⟩ := Option.bind_eq_some_iff.1 hs
      obtain ⟨hcontext, hworkers, hannounced, ms, hmail⟩ :=
        move_of_no_workers hw hm (hh m List.mem_cons_self)
      obtain ⟨hc, hw', ha, hl⟩ :=
        ih hworkers hx (fun m' hm' => hh m' (List.mem_cons_of_mem _ hm')) hrest
      refine ⟨hc.trans hcontext, hw', ?_, ?_⟩
      · rw [ha, hannounced]
        rfl
      · rw [hl, hmail, Mailbox.postAll_listening]

/-- A decision that is carried out at once. -/
lemma amid_map_inl (e : Engine) (effects : List Effect) :
    e.amid? (effects.map .inl) = some (effects.foldl perform e) := by
  induction effects generalizing e with
  | nil => rfl
  | cons x effects ih => exact ih (e.perform x)

/-! ## Calling off -/

/-- A start that is called off. The engine asks for its groups, closes, and stops listening. All the
while the groups that it has asked for may be finished, and anything else may go on beside it. -/
inductive CallsOff (link : Link) : Engine → Prop
  | intro {asking closing : List (Effect ⊕ Move)} {e₁ e₂ : Engine}
      (hasks : effectsOf asking = (Context.create link true).start.2.1)
      (hbeside₁ : ∀ m ∈ movesOf asking, m ≠ .handle)
      (h₁ : ({ idle link with context := (Context.create link true).start.1 } :
        Engine).amid? asking = some e₁)
      (hcloses : effectsOf closing = e₁.context.close.2)
      (hbeside₂ : ∀ m ∈ movesOf closing, m ≠ .handle)
      (h₂ : ({ e₁ with context := e₁.context.close.1 } : Engine).amid? closing = some e₂) :
      CallsOff link e₂.retire

/-- The graph has closed and everybody is told so. No thread was ever made for a group or started,
and nobody listens any more. -/
structure Vanished (e : Engine) : Prop where
  phase : e.context.phase = .closed
  isClosed : e.isClosed = true
  threads : e.context.threads = []
  unnumbered : e.context.nextThread = 1
  workers : e.host.workers = []
  mailbox : e.host.mailbox = ⟨false, []⟩

/-- Asking for groups makes no thread, whatever goes on beside it.

**Proof sketch.** What is carried out are the effects of a start, and these are mild and announce
nothing. So the general statement about engines without workers applies, with no announcement
counted. -/
lemma asked_of_amid {steps : List (Effect ⊕ Move)}
    (hx : effectsOf steps = (Context.create link true).start.2.1)
    (hh : ∀ m ∈ movesOf steps, m ≠ .handle)
    (hs : ({ idle link with context := (Context.create link true).start.1 } : Engine).amid? steps =
      some e) :
    e.context = (Context.create link true).start.1 ∧ e.host.workers = [] ∧
      e.host.announced = 0 ∧ e.host.mailbox.listening = true := by
  obtain ⟨-, -, hmild⟩ := Context.start_mild link
  obtain ⟨hcontext, hworkers, hannounced, hlistening⟩ :=
    amid_of_no_workers rfl (fun x hx' => (hmild x (hx ▸ hx')).1) hh hs
  have hsilent : (effectsOf steps).countP Effect.announces = 0 := by
    rw [hx, List.countP_eq_zero]
    intro x hx'
    simp [(hmild x hx').2.1]
  rw [hsilent] at hannounced
  exact ⟨hcontext, hworkers, hannounced, hlistening⟩

/-- Closing without threads closes for good, whatever goes on beside it.

**Proof sketch.** Without threads the context concludes at once, and exactly one of its effects
announces the end. The general statement about engines without workers gives the rest. -/
lemma closed_of_amid {steps : List (Effect ⊕ Move)} (hopen : e.context.IsOpen)
    (hthreads : e.context.threads = []) (hwatched : e.context.watched = true)
    (hw : e.host.workers = []) (hx : effectsOf steps = e.context.close.2)
    (hh : ∀ m ∈ movesOf steps, m ≠ .handle)
    (hs : ({ e with context := e.context.close.1 } : Engine).amid? steps = some e') :
    e'.context = { e.context with envClosed := true, phase := .closed, watched := false } ∧
      e'.host.workers = [] ∧ e'.host.announced = e.host.announced + 1 ∧
      e'.host.mailbox.listening = e.host.mailbox.listening := by
  have hclose := Context.close_eq_concluded _ hopen hthreads
  obtain ⟨hcontext, hworkers, hannounced, hlistening⟩ := amid_of_no_workers
    (show ({ e with context := e.context.close.1 } : Engine).host.workers = [] from hw)
    (fun x hx' => e.context.close_mild x (hx ▸ hx')) hh hs
  have honce : (effectsOf steps).countP Effect.announces = 1 := by
    rw [hx, hclose, Context.countP_announces_concluded]
    exact if_pos hwatched
  rw [honce] at hannounced
  refine ⟨hcontext.trans ?_, hworkers, hannounced, hlistening⟩
  show e.context.close.1 = _
  rw [hclose]
  rfl

/-- **An engine whose start is called off closes without having had a thread**, whatever goes on
beside it.

**Proof sketch.** Asking for groups changes the phase and makes no thread; whatever goes on beside
it changes only what is being built and the mailbox. So the context closes at once, as one without
threads. This announces the end, and the engine stops listening. -/
theorem CallsOff.vanished (h : CallsOff link e) : e.Vanished := by
  cases h with
  | @intro _ _ e₁ e₂ hasks hbeside₁ h₁ hcloses hbeside₂ h₂ =>
    obtain ⟨hopen, hthreads, -⟩ := Context.start_mild link
    obtain ⟨hnext, hwatched⟩ := Context.start_unnumbered link
    -- Nothing beside the engine changes its context, so it closes as if it had been alone.
    obtain ⟨hcontext₁, hworkers₁, hannounced₁, hlistening₁⟩ := asked_of_amid hasks hbeside₁ h₁
    rw [← hcontext₁] at hopen hthreads hnext hwatched
    obtain ⟨hcontext, hworkers, hannounced, hlistening⟩ :=
      closed_of_amid hopen hthreads hwatched hworkers₁ hcloses hbeside₂ h₂
    rw [hannounced₁] at hannounced
    have hphase : e₂.context.phase = .closed := by rw [hcontext]
    have hretires : e₂.context.isClosed = true ∧ e₂.host.mailbox.listening = true :=
      ⟨by simp [Context.isClosed, hphase], hlistening.trans hlistening₁⟩
    constructor
    case phase => rw [retire_context, hphase]
    case isClosed =>
      rw [Engine.isClosed, retire_announced, hannounced]
      rfl
    case threads => rw [retire_context, hcontext, hthreads]
    case unnumbered => rw [retire_context, hcontext, hnext]
    case workers => rw [retire_workers, hworkers]
    case mailbox =>
      rw [retire_mailbox, if_pos hretires]
      rfl

/-- What is posted to nobody is lost. -/
lemma postAll_deaf (ms : List EngineMsg) :
    (⟨false, []⟩ : Mailbox EngineMsg).postAll ms = ⟨false, []⟩ := by
  induction ms with
  | nil => rfl
  | cons m ms ih => exact ih

/-- No move brings back an engine that has vanished.

**Proof sketch.** The engine takes no message, since it is closed. All other moves keep the context
of an engine without workers and add to its mailbox only, and a mailbox that nobody listens to takes
nothing. -/
lemma Vanished.move (h : e.Vanished) {m : Move} (hm : e.move? m = some e') :
    e'.Vanished ∧ e'.context = e.context ∧ e.taken? m = none := by
  -- A closed engine takes no message, and nobody else changes its context or starts a worker.
  have hh : m ≠ .handle := by
    rintro rfl
    cases moves_of_move? hm with
    | handles hopen => exact hopen h.phase
  obtain ⟨hcontext, hworkers, hannounced, ms, hmail⟩ := move_of_no_workers h.workers hm hh
  refine ⟨⟨?_, ?_, ?_, ?_, hworkers, ?_⟩, hcontext, taken?_eq_none hh⟩
  · rw [hcontext, h.phase]
  · rw [Engine.isClosed, hannounced]
    exact h.isClosed
  · rw [hcontext, h.threads]
  · rw [hcontext, h.unnumbered]
  · rw [hmail, h.mailbox, postAll_deaf]

/-- **An engine that has vanished stays so**, and takes no message. -/
theorem Vanished.play (h : e.Vanished) {moves : List Move} {taken : List EngineMsg}
    (hp : e.play moves = some (taken, e')) :
    e'.Vanished ∧ e'.context = e.context ∧ taken = [] := by
  induction moves generalizing e taken with
  | nil =>
    cases hp
    exact ⟨h, rfl, rfl⟩
  | cons m moves ih =>
    obtain ⟨e₁, taken₁, hm, hrest, rfl⟩ := play_cons.1 hp
    obtain ⟨h₁, hcontext, htaken⟩ := h.move hm
    obtain ⟨h₂, hcontext', rfl⟩ := ih h₁ hrest
    refine ⟨h₂, hcontext'.trans hcontext, ?_⟩
    rw [htaken]
    rfl

/-- A start that fails is called off, with nothing in between. -/
lemma start_callsOff {err : Error} (h : (Context.create link true).start.2.2 = .error err) :
    (start link).2 = .error err ∧ CallsOff link (start link).1 := by
  have hstart : start link =
      (((begun link).carryOut (begun link).context.close).retire, .error err) := by
    rw [start_eq, h]
  have heffects (effects : List Effect) :
      effectsOf (effects.map .inl) = effects ∧ ∀ m ∈ movesOf (effects.map .inl), m ≠ .handle := by
    simp [List.filterMap_map, Function.comp_def]
  rw [hstart]
  exact ⟨rfl, .intro (heffects _).1 (heffects _).2 (amid_map_inl _ _) (heffects _).1
    (heffects _).2 (amid_map_inl _ _)⟩

/-- What is promised of a graph whose start is called off at a group, after it has asked for those
before. -/
structure Aborts (link : Link) (before : List GroupInfo) (i : GroupInfo) : Prop where
  /-- A new context asks for the groups before, for each of them once and in their order, and for
  nothing else. Then it says which addon is unknown. -/
  context : ∀ watched, ∃ xs, link.registry.Begins before xs ∧
    (Context.create link watched).start.2 =
      (xs.map Effect.await ++
        [.log (.groupRefused link.graph i.name i.addon (.addonNotFound i.addon))],
        .error (.addonNotFound i.addon))
  /-- The engine says the same, and calls the start off. -/
  engine : (start link).2 = .error (.addonNotFound i.addon) ∧ CallsOff link (start link).1
  /-- Whenever the groups are finished, the graph closes without ever having had a thread. -/
  vanishes : ∀ e, CallsOff link e → ∀ moves taken e', e.play moves = some (taken, e') →
    e'.Vanished ∧ taken = []

/-- All parts of a start that has been called off, put together: what the context decides, what the
engine does at once, and what becomes of it whatever goes on beside it. -/
lemma aborts_of_stopsAt {before : List GroupInfo} {i : GroupInfo}
    (h : link.registry.StopsAt (link.command.groupsOf link.app.uri) before i) :
    Aborts link before i where
  context watched := by
    obtain ⟨xs, hxs, hstart⟩ := Context.start_of_stopsAt watched h
    exact ⟨xs, hxs, congrArg Prod.snd hstart⟩
  engine := by
    obtain ⟨xs, -, hstart⟩ := Context.start_of_stopsAt true h
    exact start_callsOff (congrArg (·.2.2) hstart)
  vanishes e he moves taken e' hp := by
    obtain ⟨hvanished, -, htaken⟩ := he.vanished.play hp
    exact ⟨hvanished, htaken⟩

end Engine

namespace App

/-- An app passes on why a start has failed, and does not hold the graph. -/
lemma start_of_engine_error {a : App} {g : GraphDefinition} {graph name : String} {s : StartGraph}
    {err : Error} (hs : StartGraph.ofDefinition g a.info.uri graph = .ok s)
    (he : (Engine.start (.ofStart a.info a.registry a.spawner (s.withName name))).2 = .error err) :
    (a.start graph name g).2 = .error err ∧ (a.start graph name g).1.held = a.held := by
  have hstart : a.start graph name g = ({ a with engines := a.engines ++
      [(Engine.start (.ofStart a.info a.registry a.spawner (s.withName name))).1] },
        .error err) := by
    simp only [start, hs]
    generalize Engine.start (.ofStart a.info a.registry a.spawner (s.withName name)) = r at he ⊢
    obtain ⟨e, result⟩ := r
    cases he
    rfl
  rw [hstart]
  exact ⟨rfl, rfl⟩

/-- **Unknown addons abort a start, and leave nothing behind.** A graph that is accepted can be
started exactly if the addons of all groups that the app hosts are registered. Otherwise there is a
first one that is not. Then the start is called off, as the context, the engine and the app say;
no thread is ever made or started, whenever the groups before are finished; and the app does not
hold the graph.

**Proof sketch.** Either all addons are registered or there is a first one that is not. In the first
case the start goes on, and in the second the context calls it off. The engine and the app only hand
on the failure, and the app takes the graph among those that it holds only after a success. -/
theorem unknown_addon_aborts_start (a : App) {g : GraphDefinition} {graph : String}
    {s : StartGraph} (hs : StartGraph.ofDefinition g a.info.uri graph = .ok s) (name : String) :
    let link := Link.ofStart a.info a.registry a.spawner (s.withName name)
    let hosted := s.groupsOf a.info.uri
    (∀ watched, (Context.create link watched).start.2.2 = .ok () ↔
      ∀ i ∈ hosted, a.registry.hasGroup i.addon = true) ∧
    ((∀ i ∈ hosted, a.registry.hasGroup i.addon = true) ∨
      ∃ before i, a.registry.StopsAt hosted before i) ∧
    ∀ before i, a.registry.StopsAt hosted before i →
      Engine.Aborts link before i ∧
      (a.start graph name g).2 = .error (.addonNotFound i.addon) ∧
      (a.start graph name g).1.held = a.held ∧
      (graph ∉ a.held → (a.start graph name g).1.held? graph = none) := by
  intro link hosted
  have hsome := a.registry.known_or_stopsAt hosted
  refine ⟨fun watched => ⟨fun hok => ?_, fun hall => Context.start_of_known watched hall⟩, hsome,
    fun before i hstops => ?_⟩
  · rcases hsome with hall | ⟨before, i, hstops⟩
    · exact hall
    · obtain ⟨xs, -, hstart⟩ := @Context.start_of_stopsAt link before i watched hstops
      rw [hstart] at hok
      cases hok
  · have haborts : Engine.Aborts link before i := Engine.aborts_of_stopsAt hstops
    obtain ⟨hresult, hheld⟩ := start_of_engine_error hs haborts.engine.1
    refine ⟨haborts, hresult, hheld, fun hnew => ?_⟩
    rw [held?, hheld]
    exact if_neg hnew

/-- A group on another app and three on this one, the second of which nobody can build. -/
def halfBuilt : GraphDefinition :=
  ⟨[.group ⟨"far", "unheard", some "elsewhere"⟩, .group ⟨"first", defaultGroupAddon, none⟩,
      .group ⟨"second", "missing", none⟩, .group ⟨"third", defaultGroupAddon, none⟩], []⟩

/-- The start is called off at the second group. The first one may be finished before the engine
knows of that, or after it has stopped. -/
theorem unknown_addon_aborts_start_halfBuilt :
    let a : App := ⟨⟨"app", ""⟩, .withDefaults, .willing, none, [], [], []⟩
    let s : StartGraph := ⟨.ofGraph "app" "1", none, halfBuilt.topology "app" "1"⟩
    let link := Link.ofStart a.info a.registry a.spawner (s.withName "")
    StartGraph.ofDefinition halfBuilt "app" "1" = .ok s ∧
    Engine.Aborts link [⟨.ofGraph "app" "1", "first", defaultGroupAddon⟩]
      ⟨.ofGraph "app" "1", "second", "missing"⟩ ∧
    (a.start "1" "" halfBuilt).2 = .error (.addonNotFound "missing") ∧
    (a.start "1" "" halfBuilt).1.held? "1" = none ∧
    (∃ e, Engine.CallsOff link e ∧ e.host.creations = [] ∧ e.Vanished) ∧
    ∃ e, (Engine.start link).1.play [.complete 0] = some ([], e) ∧ e.host.creations = [] ∧
      e.Vanished := by
  intro a s link
  have hs : StartGraph.ofDefinition halfBuilt "app" "1" = .ok s := rfl
  have hstops : a.registry.StopsAt (s.groupsOf "app")
      [⟨.ofGraph "app" "1", "first", defaultGroupAddon⟩]
      ⟨.ofGraph "app" "1", "second", "missing"⟩ :=
    ⟨⟨[⟨.ofGraph "app" "1", "third", defaultGroupAddon⟩], rfl⟩,
      fun j hj => by rw [List.mem_singleton.1 hj]; rfl, rfl⟩
  obtain ⟨haborts, hresult, -, hnew⟩ := (a.unknown_addon_aborts_start hs "").2.2 _ _ hstops
  refine ⟨hs, haborts, hresult, hnew List.not_mem_nil, ?_, ?_⟩
  · let asking := Engine.between [.await ⟨0, .ok (.create "first" defaultGroupAddon)⟩]
      [.complete 0] [.log (.groupRefused "1" "second" "missing" (.addonNotFound "missing"))]
    let closing := Engine.between [.log (.contextClosed "1"), .announce] [] []
    have hoff := @Engine.CallsOff.intro link asking closing _ _ rfl
      (by simp [asking, Engine.movesOf_between]) rfl rfl
      (by simp [closing, Engine.movesOf_between]) rfl
    exact ⟨_, hoff, rfl, (haborts.vanishes _ hoff [] [] _ rfl).1⟩
  · obtain ⟨e, hplay, hcreations⟩ : ∃ e, (Engine.start link).1.play [.complete 0] = some ([], e) ∧
        e.host.creations = [] := ⟨_, rfl, rfl⟩
    exact ⟨e, hplay, hcreations, (haborts.vanishes _ haborts.engine.2 _ _ e hplay).1⟩

end App

end ExtensionGraph
