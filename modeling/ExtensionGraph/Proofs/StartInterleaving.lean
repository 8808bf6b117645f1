import Mathlib.Tactic.Common
import ExtensionGraph.Proofs.ClosingThreads
import ExtensionGraph.Proofs.Evolution

/-!
# What goes on while threads are started

With the last group an engine starts one thread after the other. So the first of them are at work
while there are others to be started: they call their extensions, and these send messages. This
makes no difference. An engine that starts its threads one by one, with any moves in between, comes
to where it would have come if it had started all threads at once, and the same moves had been made
afterwards.

## Main definitions

* `ExtensionGraph.Effect.Starts` — what is done when threads are started.
* `ExtensionGraph.Engine.amid?` — what an engine does one by one, with moves in between.
* `ExtensionGraph.Engine.decided` — an engine that has not done yet what it has decided.
* `ExtensionGraph.Engine.grown` — an engine with more workers and a longer log.

## Main results

* `ExtensionGraph.Engine.move?_grown` — a move does not mind workers that have been added.
* `ExtensionGraph.Engine.play_of_amid?` — all threads are as good as started at once.
* `ExtensionGraph.Engine.Sound.play_of_start` — the same for the message that starts them.
* `ExtensionGraph.Engine.Sound.workers_of_start` — the workers after this message.
-/

namespace ExtensionGraph

/-- The effect starts a thread, or is a line in the log. -/
def Effect.Starts (x : Effect) : Prop :=
  (∃ id g topology, x = .spawn id g topology) ∨ ∃ event, x = .log event

/-- What an effect writes into the log. -/
def Effect.logged? : Effect → Option LogEvent
  | .log event => some event
  | _ => none

namespace Context

/-- A message that starts a thread does nothing but start threads, unless it panics over one of
them.

**Proof sketch.** By the message. Only a group that completes the set starts threads; then there are
their starts, entries of the log, and the panic that has been excluded. -/
lemma starts_of_launches (c : Context) {m : EngineMsg}
    (hl : (c.handle m).2.filterMap Effect.launch? ≠ []) (hcalm : .panic ∉ (c.handle m).2) :
    ∀ x ∈ (c.handle m).2, x.Starts := by
  cases m with
  | created result =>
    cases result with
    | ok g =>
      change (c.groupCreated g).2.filterMap Effect.launch? ≠ [] at hl
      change .panic ∉ (c.groupCreated g).2 at hcalm
      show ∀ x ∈ (c.groupCreated g).2, x.Starts
      have hr := c.receives g
      generalize c.groupCreated g = r at hr hl hcalm ⊢
      cases hr with
      | late | closing | early | twice => exact absurd rfl hl
      | ready =>
        intro x hx
        rcases List.mem_cons.1 hx with rfl | hx
        · exact .inr ⟨_, rfl⟩
        · rcases startThreads_effects _ x hx with hspawn | hlog | rfl
          · exact .inl hspawn
          · exact .inr hlog
          · exact absurd (List.mem_cons_of_mem _ hx) hcalm
      | strange =>
        rw [arrival, List.filterMap_cons_none rfl, List.filterMap_cons_none rfl,
          launches_close] at hl
        exact absurd rfl hl
    | error err =>
      exact absurd (c.handle_of_asksForEnd (m := .created (.error err)) trivial).2 hl
  | threadClosed id => exact absurd (Engine.launches_threadClosed c id) hl
  | route m =>
    exact absurd (Effect.launches_of_mild fun x hx => (c.dispatch_mild m x hx).1) hl
  | close => exact absurd c.launches_close hl

/-- A message over which an engine panics starts threads up to the one that cannot be made.

**Proof sketch.** A context panics over the last group only, while it starts the threads. Before the
panic there are the threads that could be started, and lines of the log. -/
lemma starts_until_panic {c : Context} (h : c.Sound) {m : EngineMsg}
    (hx : .panic ∈ (c.handle m).2) :
    (c.handle m).1.phase = .running ∧
      ∃ before, (c.handle m).2 = before ++ [.panic] ∧ ∀ x ∈ before, x.Starts := by
  obtain ⟨-, -, g, rfl, -⟩ := h.panics_handle hx
  obtain ⟨-, heq, hpanic⟩ := c.panics_groupCreated hx
  show (c.groupCreated g).1.phase = .running ∧
    ∃ before, (c.groupCreated g).2 = before ++ [.panic] ∧ _
  rw [heq]
  obtain ⟨before, hbefore, hcalm⟩ := Effect.untilPanic_of_mem
    ((Effect.untilPanic_prefix (c.opened g).told.starting).subset hpanic)
  refine ⟨rfl, c.arrival g :: before, congrArg (c.arrival g :: ·) hbefore, fun x hm => ?_⟩
  rcases List.mem_cons.1 hm with rfl | hm
  · exact .inr ⟨_, rfl⟩
  · have hmem : x ∈ (c.opened g).told.startThreads.2 := by
      rw [startThreads_snd, hbefore]
      exact List.mem_append_left _ hm
    rcases startThreads_effects _ x hmem with hspawn | hlog | rfl
    · exact .inl hspawn
    · exact .inr hlog
    · exact absurd hm hcalm

end Context

namespace Engine

variable {e e' : Engine} {heard : List EngineMsg}

/-! ## Engines that have grown -/

/-- An engine with more workers, behind those that it has, and a longer log. -/
def grown (e : Engine) (ws : List Worker) (events : List LogEvent) : Engine :=
  { e with host := { e.host with
    workers := e.host.workers ++ ws
    log := e.host.log ++ events } }

/-- Growing twice is growing. -/
lemma grown_grown (e : Engine) (ws ws' : List Worker) (events events' : List LogEvent) :
    (e.grown ws events).grown ws' events' = e.grown (ws ++ ws') (events ++ events') := by
  unfold grown
  rw [← List.append_assoc, ← List.append_assoc]

/-- The worker at one of the first places is found there, and put back there, as before. -/
lemma setWorker_grown {place : Nat} {w : Worker} (hw : e.host.workers[place]? = some w)
    (mailbox : Mailbox EngineMsg) (w' : Worker) (ws : List Worker) (events : List LogEvent) :
    (e.grown ws events).host.workers[place]? = some w ∧
      ({ e.grown ws events with host := { (e.grown ws events).host with
          mailbox, workers := (e.grown ws events).host.workers.set place w' } } : Engine) =
        ({ e with host := { e.host with
          mailbox, workers := e.host.workers.set place w' } } : Engine).grown ws events := by
  have hlt := (List.getElem?_eq_some_iff.1 hw).1
  refine ⟨(List.getElem?_append_left hlt).trans hw, ?_⟩
  unfold grown
  dsimp only
  rw [List.set_append_left _ _ hlt]

/-- **A move does not mind workers that have been added**, since it concerns one of the others.

**Proof sketch.** By the kinds of moves. A thread that moves is found at its place before the new
ones, and is put back there (`setWorker_grown`); the engine's own bookkeeping is not concerned. -/
theorem move?_grown {m : Move} (hm : e.move? m = some e') (hh : m ≠ .handle) (ws : List Worker)
    (events : List LogEvent) : (e.grown ws events).move? m = some (e'.grown ws events) := by
  cases m with
  | handle => exact absurd rfl hh
  | complete place =>
    simp only [move?] at hm ⊢
    split at hm
    · next hplace =>
      cases hm
      rw [if_pos (show place < (e.grown ws events).host.creations.length from hplace)]
      unfold Host.complete grown
      rw [List.getElem?_eq_getElem hplace]
    · cases hm
  | work place =>
    obtain ⟨w, hw, hm⟩ := Option.bind_eq_some_iff.1 hm
    obtain ⟨⟨mailbox, w'⟩, hs, hm⟩ := Option.bind_eq_some_iff.1 hm
    cases hm
    obtain ⟨hw', hset⟩ := setWorker_grown hw mailbox w' ws events
    exact Option.bind_eq_some_iff.2
      ⟨w, hw', Option.bind_eq_some_iff.2 ⟨(mailbox, w'), hs, congrArg some hset⟩⟩
  | beat place ticker =>
    simp only [move?] at hm
    obtain ⟨w, hw, hm⟩ := Option.bind_eq_some_iff.1 hm
    split at hm
    · next hk =>
      cases hm
      obtain ⟨hw', hset⟩ := setWorker_grown hw (w.beat e.host.mailbox ticker).1
        (w.beat e.host.mailbox ticker).2 ws events
      refine Option.bind_eq_some_iff.2 ⟨w, hw', ?_⟩
      rw [if_pos hk]
      unfold Host.beat
      rw [hw', hw]
      exact congrArg some hset
    · cases hm
  | abort place reason =>
    obtain ⟨w, hw, hm⟩ := Option.bind_eq_some_iff.1 hm
    obtain ⟨⟨mailbox, w'⟩, hs, hm⟩ := Option.bind_eq_some_iff.1 hm
    cases hm
    obtain ⟨hw', hset⟩ := setWorker_grown hw mailbox w' ws events
    exact Option.bind_eq_some_iff.2
      ⟨w, hw', Option.bind_eq_some_iff.2 ⟨(mailbox, w'), hs, congrArg some hset⟩⟩
  | send m =>
    cases hm
    show some _ = some _
    unfold send grown
    split
    · rfl
    · split
      · rfl
      · rfl
  | close =>
    cases hm
    rfl

/-- Starting threads with numbers of their own makes an engine grow.

**Proof sketch.** Induction on the effects. A thread with a number of its own is put behind the
others, and an entry of the log behind the former ones. -/
lemma foldl_perform_grown (e : Engine) (effects : List Effect) (hx : ∀ x ∈ effects, x.Starts)
    (hnd : (e.host.workers.map (·.id) ++
      (effects.filterMap Effect.launch?).map (·.id)).Nodup) :
    effects.foldl perform e =
      e.grown ((effects.filterMap Effect.launch?).map (Launch.worker e.context.link))
        (effects.filterMap Effect.logged?) := by
  induction effects generalizing e with
  | nil =>
    unfold grown
    rw [List.filterMap_nil, List.filterMap_nil, List.map_nil, List.append_nil, List.append_nil]
    rfl
  | cons x effects ih =>
    have hrest : ∀ y ∈ effects, y.Starts := fun y hy => hx y (List.mem_cons_of_mem _ hy)
    rw [List.foldl_cons]
    rcases hx x List.mem_cons_self with ⟨id, g, topology, rfl⟩ | ⟨event, rfl⟩
    · have hcons : (Effect.spawn id g topology :: effects).filterMap Effect.launch? =
          ⟨id, g, topology⟩ :: effects.filterMap Effect.launch? := List.filterMap_cons_some rfl
      have hlogs : (Effect.spawn id g topology :: effects).filterMap Effect.logged? =
          effects.filterMap Effect.logged? := List.filterMap_cons_none rfl
      rw [hcons, List.map_cons] at hnd
      -- The number is new, so that the thread is put behind the others.
      have hfresh : ∀ w ∈ e.host.workers, w.id ≠ id := by
        intro w hw hid
        exact (List.nodup_append.1 hnd).2.2 w.id (List.mem_map_of_mem hw) id
          List.mem_cons_self hid
      have hone : e.perform (.spawn id g topology) =
          e.grown [Launch.worker e.context.link ⟨id, g, topology⟩] [] := by
        have hplace : e.host.place? (Worker.create e.context.link id g topology).id = none :=
          e.host.place?_eq_none.2 hfresh
        show ({ e with host := e.host.spawn _ } : Engine) = _
        unfold Host.spawn grown
        rw [hplace, List.append_nil]
        rfl
      rw [hone, ih _ hrest, hcons, hlogs]
      · rw [grown_grown]
        rfl
      · show ((e.host.workers ++ [Launch.worker e.context.link ⟨id, g, topology⟩]).map (·.id) ++
          _).Nodup
        rw [List.map_append, List.append_assoc]
        exact hnd
    · have hone : e.perform (.log event) = e.grown [] [event] := by
        unfold grown
        rw [List.append_nil]
        rfl
      have hcons : (Effect.log event :: effects).filterMap Effect.launch? =
          effects.filterMap Effect.launch? := List.filterMap_cons_none rfl
      have hlogs : (Effect.log event :: effects).filterMap Effect.logged? =
          event :: effects.filterMap Effect.logged? := List.filterMap_cons_some rfl
      rw [hcons] at hnd
      rw [hone, ih _ hrest, hcons, hlogs]
      · rw [grown_grown]
        rfl
      · show ((e.host.workers ++ []).map Worker.id ++ _).Nodup
        rw [List.append_nil]
        exact hnd

/-! ## Moves in between -/

/-- What an engine does one by one, with moves in between, if these are possible. -/
def amid? (e : Engine) : List (Effect ⊕ Move) → Option Engine
  | [] => some e
  | .inl x :: steps => (e.perform x).amid? steps
  | .inr m :: steps => (e.move? m).bind (·.amid? steps)

/-- What the engine does. -/
abbrev effectsOf (steps : List (Effect ⊕ Move)) : List Effect := steps.filterMap Sum.getLeft?

/-- The moves in between. -/
abbrev movesOf (steps : List (Effect ⊕ Move)) : List Move := steps.filterMap Sum.getRight?

/-- Moves in a single gap. -/
def between (before : List Effect) (moves : List Move) (after : List Effect) :
    List (Effect ⊕ Move) :=
  before.map .inl ++ moves.map .inr ++ after.map .inl

/-- What is decided, without what goes on in between. -/
lemma effectsOf_between (before after : List Effect) (moves : List Move) :
    effectsOf (between before moves after) = before ++ after := by
  simp [effectsOf, between, List.filterMap_append, List.filterMap_map, Function.comp_def]

/-- What goes on in between. -/
lemma movesOf_between (before after : List Effect) (moves : List Move) :
    movesOf (between before moves after) = moves := by
  simp [movesOf, between, List.filterMap_append, List.filterMap_map, Function.comp_def]

/-- **All threads are as good as started at once**, whatever goes on in between.

**Proof sketch.** Induction on the steps. A start that comes first makes the engine grow by itself
and is merged with the later ones (`foldl_perform_grown`); a move that comes first happens on the
grown engine as well (`move?_grown`), and keeps the numbers of the threads. -/
theorem play_of_amid? {steps : List (Effect ⊕ Move)} (hx : ∀ x ∈ effectsOf steps, x.Starts)
    (hnd : (e.host.workers.map (·.id) ++
      ((effectsOf steps).filterMap Effect.launch?).map (·.id)).Nodup)
    (hh : ∀ m ∈ movesOf steps, m ≠ .handle) (hs : e.amid? steps = some e') :
    ((effectsOf steps).foldl perform e).play (movesOf steps) = some ([], e') := by
  induction steps generalizing e with
  | nil =>
    cases hs
    rfl
  | cons step steps ih =>
    cases step with
    | inl x =>
      have heffects : effectsOf (.inl x :: steps) = x :: effectsOf steps := rfl
      rw [heffects] at hx hnd ⊢
      have hrest : ∀ y ∈ effectsOf steps, y.Starts := fun y hy =>
        hx y (List.mem_cons_of_mem _ hy)
      refine ih hrest ?_ hh hs
      -- What has been done first has made the engine grow by itself.
      have hsplit : (x :: effectsOf steps).filterMap Effect.launch? =
          [x].filterMap Effect.launch? ++ (effectsOf steps).filterMap Effect.launch? :=
        List.filterMap_append (l := [x])
      rw [hsplit, List.map_append, ← List.append_assoc] at hnd
      have hone := e.foldl_perform_grown [x]
        (fun y hy => hx y (List.mem_singleton.1 hy ▸ List.mem_cons_self))
        (hnd.sublist (List.sublist_append_left _ _))
      rw [show e.perform x = [x].foldl perform e from rfl, hone]
      show ((e.host.workers ++ _).map (·.id) ++ _).Nodup
      rw [List.map_append, List.map_map]
      exact hnd
    | inr m =>
      have hmoves : movesOf (.inr m :: steps) = m :: movesOf steps := rfl
      have heffects : effectsOf (.inr m :: steps) = effectsOf steps := rfl
      rw [hmoves] at hh ⊢
      rw [heffects] at hx hnd ⊢
      obtain ⟨e₁, hm, hrest⟩ := Option.bind_eq_some_iff.1 hs
      have hother := hh m List.mem_cons_self
      have hids : e₁.host.workers.map (·.id) = e.host.workers.map (·.id) := by
        have hlabels := congrArg (List.map Prod.fst) (move_labels hm hother)
        rw [List.map_map, List.map_map] at hlabels
        exact hlabels
      have hnd₁ : (e₁.host.workers.map (·.id) ++
          ((effectsOf steps).filterMap Effect.launch?).map (·.id)).Nodup := by
        rw [hids]
        exact hnd
      have hplay := ih hx hnd₁ (fun m' hm' => hh m' (List.mem_cons_of_mem _ hm')) hrest
      refine play_cons.2 ⟨_, [], ?_, hplay, ?_⟩
      · rw [foldl_perform_grown e _ hx hnd, foldl_perform_grown e₁ _ hx hnd₁,
          (move_frame hm hother).1]
        exact move?_grown hm hother _ _
      · rw [taken?_eq_none hother]
        rfl

/-- An engine that has taken a message and decided what to do, but has not done anything yet. -/
def decided (e : Engine) (m : EngineMsg) (mailbox : Mailbox EngineMsg) : Engine :=
  { e with context := (e.context.handle m).1, host := { e.host with mailbox } }

variable {m : EngineMsg} {mailbox : Mailbox EngineMsg}

/-- The numbers of threads that a message starts are not in use. -/
lemma Sound.launch_ids_nodup (h : e.Sound heard)
    (htake : e.host.mailbox.take? = some (m, mailbox)) :
    (e.host.workers.map (·.id) ++
      ((e.context.handle m).2.filterMap Effect.launch?).map (·.id)).Nodup := by
  have hids := ids_of_touched (h.handle_touched htake)
  rw [List.map_append, List.map_map] at hids
  have hsound := (h.handle htake).idsNodup
  rw [hids] at hsound
  exact hsound

/-- When a message starts threads, nothing else is done. -/
lemma handle_of_start (hl : (e.context.handle m).2.filterMap Effect.launch? ≠ []) :
    ({ e with host := { e.host with mailbox } } : Engine).handle m =
      (e.context.handle m).2.foldl perform (e.decided m mailbox) := by
  have hrunning : (e.context.handle m).1.phase = .running := by
    by_contra hp
    exact hl (Context.launches_of_not_running hp)
  rw [Engine.handle, retire, if_neg]
  · rfl
  · rintro ⟨hclosed, -⟩
    rw [carryOut_context] at hclosed
    have hp : (e.context.handle m).1.phase = .closed := by
      simpa [Context.isClosed] using hclosed
    rw [hrunning] at hp
    cases hp

/-- **An engine that starts its threads one by one**, with any moves in between, comes to where it
would have come if it had started them all at once, and the same moves had been made afterwards.
The engine must not go down over one of them. -/
theorem Sound.play_of_start (h : e.Sound heard)
    (htake : e.host.mailbox.take? = some (m, mailbox))
    (hl : (e.context.handle m).2.filterMap Effect.launch? ≠ [])
    (hcalm : .panic ∉ (e.context.handle m).2) {steps : List (Effect ⊕ Move)}
    (hx : effectsOf steps = (e.context.handle m).2) (hh : ∀ m ∈ movesOf steps, m ≠ .handle)
    (hs : (e.decided m mailbox).amid? steps = some e') :
    (({ e with host := { e.host with mailbox } } : Engine).handle m).play (movesOf steps) =
      some ([], e') := by
  rw [handle_of_start hl, ← hx]
  refine play_of_amid? ?_ (by rw [hx]; exact h.launch_ids_nodup htake) hh hs
  rw [hx]
  exact e.context.starts_of_launches hl hcalm

/-- Threads that have been started are as they were created. -/
lemma Sound.workers_of_start (h : e.Sound heard)
    (htake : e.host.mailbox.take? = some (m, mailbox))
    (hl : (e.context.handle m).2.filterMap Effect.launch? ≠ [])
    (hcalm : .panic ∉ (e.context.handle m).2) :
    (({ e with host := { e.host with mailbox } } : Engine).handle m).host.workers =
      e.host.workers ++ ((e.context.handle m).2.filterMap Effect.launch?).map
        (Launch.worker (e.context.handle m).1.link) := by
  rw [handle_of_start hl, foldl_perform_grown (e.decided m mailbox) _
    (e.context.starts_of_launches hl hcalm) (h.launch_ids_nodup htake)]
  rfl

/-- An engine goes down over a message exactly if it panics.

**Proof sketch.** Without a panic the mailbox goes on listening. With one the mailbox is closed, and
the graph is running, not closed for good. -/
lemma Sound.isDown_handle_iff (h : e.Sound heard)
    (htake : e.host.mailbox.take? = some (m, mailbox)) :
    (({ e with host := { e.host with mailbox } } : Engine).handle m).IsDown ↔
      .panic ∈ (e.context.handle m).2 := by
  constructor
  · intro hd
    by_contra hcalm
    refine handle_not_isDown (e := { e with host := { e.host with mailbox } }) ?_ hcalm hd
    exact (Mailbox.take?_eq_some htake).2.trans (h.listening_of_take? htake)
  · intro hx
    obtain ⟨hrunning, before, heq, -⟩ := Context.starts_until_panic h.steady.context hx
    refine handle_isDown (e := { e with host := { e.host with mailbox } }) heq ?_
    show (e.context.handle m).1.phase ≠ .closed
    rw [hrunning]
    simp

/-- If an engine goes down over a thread, the threads before it are as they were created, except
that nobody can write to them.

**Proof sketch.** The effects before the panic start threads and do nothing else, and the panic
takes away the other ends of all inboxes. -/
lemma Sound.workers_of_panic (h : e.Sound heard)
    (htake : e.host.mailbox.take? = some (m, mailbox)) (hx : .panic ∈ (e.context.handle m).2) :
    (({ e with host := { e.host with mailbox } } : Engine).handle m).host.workers =
      (e.host.workers ++ ((e.context.handle m).2.filterMap Effect.launch?).map
        (Launch.worker (e.context.handle m).1.link)).map fun w => { w with hungUp := true } := by
  obtain ⟨-, before, heq, hstarts⟩ := Context.starts_until_panic h.steady.context hx
  have hlaunch : (e.context.handle m).2.filterMap Effect.launch? =
      before.filterMap Effect.launch? := by
    rw [heq, List.filterMap_append]
    exact List.append_nil _
  have hnd := h.launch_ids_nodup htake
  rw [hlaunch] at hnd ⊢
  rw [Engine.handle, retire_workers]
  show ((e.context.handle m).2.foldl perform (e.decided m mailbox)).host.workers = _
  rw [heq, foldl_perform_panic, foldl_perform_grown (e.decided m mailbox) _ hstarts hnd]
  rfl

end Engine

end ExtensionGraph
