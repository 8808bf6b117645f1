import Mathlib.Tactic.Common
import ExtensionGraph.Engine.Basic
import ExtensionGraph.Proofs.Keyed
import ExtensionGraph.Proofs.Lifecycle

/-!
# What the effects do to a host

A host carries out what a context has decided. Most effects leave the workers alone, apart from
their inboxes; the exceptions are the start of a worker and the wait for its end. Each effect is
described by what it does to the mailbox, to the workers, to the groups that are being built and to
the number of announcements.

## Main definitions

* `ExtensionGraph.Launch`, `ExtensionGraph.Effect.launch?`, `ExtensionGraph.Launch.worker` — the
  start of a worker, and the worker.
* `ExtensionGraph.Effect.IsTame`, `ExtensionGraph.Effect.IsMild` — effects that neither wait for a
  worker nor panic, and those that do not start one either.
* `ExtensionGraph.Effect.IsReap` — effects that wait for a worker.
* `ExtensionGraph.Effect.posted?`, `ExtensionGraph.Effect.creation?`,
  `ExtensionGraph.Effect.disturbs`, `ExtensionGraph.Effect.announces` — what an effect posts and
  asks for, whether it asks a thread to end, and whether it announces the end of the graph.
* `ExtensionGraph.AtPeace` — workers of which none has been asked to end.

## Main results

* `ExtensionGraph.Engine.foldl_perform_of_tame`, `ExtensionGraph.Engine.carryOut_announced` — what
  a decision does to an engine.
* `ExtensionGraph.Host.spawn_workers`, `ExtensionGraph.Host.reap_of_still` — the two exceptions.
-/

namespace ExtensionGraph

/-! ## Kinds of effects -/

/-- The start of a worker. -/
structure Launch where
  id : ThreadId
  group : Group
  topology : Topology

/-- The worker that is started. -/
def Launch.worker (link : Link) (l : Launch) : Worker :=
  Worker.create link l.id l.group l.topology

namespace Effect

/-- The worker that an effect starts. -/
def launch? : Effect → Option Launch
  | .spawn id g t => some ⟨id, g, t⟩
  | _ => none

/-- The effect neither waits for a worker nor panics. -/
def IsTame : Effect → Prop
  | .reap _ _ => False
  | .panic => False
  | _ => True

/-- The effect waits for a worker. -/
def IsReap : Effect → Prop
  | .reap _ _ => True
  | _ => False

/-- Waiting for a thread is not tame. -/
lemma IsTame.not_isReap {x : Effect} (h : x.IsTame) : ¬ x.IsReap := by
  cases x with
  | reap => exact h.elim
  | log | await | post | spawn | tell | announce | panic => exact id

/-- The effect is tame, and starts no worker either. -/
def IsMild (x : Effect) : Prop := x.IsTame ∧ x.launch? = none

/-- Mild effects start no thread. -/
lemma launches_of_mild {effects : List Effect} (hm : ∀ x ∈ effects, x.IsMild) :
    effects.filterMap launch? = [] :=
  List.filterMap_eq_nil_iff.2 fun x hx => (hm x hx).2

/-- The group that an effect waits for. -/
def creation? : Effect → Option Creation
  | .await creation => some creation
  | _ => none

/-- What an effect posts to the engine. -/
def posted? : Effect → Option EngineMsg
  | .post m => some m
  | _ => none

/-- Whether an effect asks a thread to end. -/
def disturbs : Effect → Bool
  | .tell _ .close _ => true
  | _ => false

/-- Whether an effect announces the end of the graph. -/
def announces : Effect → Bool
  | .announce => true
  | _ => false

end Effect

/-- Nobody has asked the workers to end, as far as somebody can write to them. -/
def AtPeace (ws : List Worker) : Prop := ∀ w ∈ ws, w.hungUp = false → w.Undisturbed

/-- Taking an inbox away leaves everybody else at peace. -/
lemma AtPeace.hangUpAt {ws : List Worker} (hp : AtPeace ws) (place : Nat) (w : Worker) :
    AtPeace (ws.set place { w with hungUp := true }) := by
  intro v hv hh
  rcases List.mem_or_eq_of_mem_set hv with hv | rfl
  · exact hp v hv hh
  · cases hh

namespace Host

variable (h : Host)

/-! ## Places of workers -/

/-- A thread is found nowhere exactly if none has this number. -/
lemma place?_eq_none {id : ThreadId} : h.place? id = none ↔ ∀ w ∈ h.workers, w.id ≠ id := by
  unfold place?
  rw [List.findRev?_eq_find?_reverse, List.find?_eq_none]
  constructor
  · intro hn w hw hid
    obtain ⟨k, hk, rfl⟩ := List.getElem_of_mem hw
    refine hn k (by simpa using hk) ?_
    simpa [List.getElem?_eq_getElem hk] using hid
  · intro hn k hk
    have hlt : k < h.workers.length := by simpa using hk
    simpa [List.getElem?_eq_getElem hlt] using hn _ (List.getElem_mem hlt)

/-- Where a thread is found there is one of this number. -/
lemma exists_of_place? {id : ThreadId} {place : Nat} (hp : h.place? id = some place) :
    ∃ w, h.workers[place]? = some w ∧ w.id = id := by
  unfold place? at hp
  rw [List.findRev?_eq_find?_reverse] at hp
  have hf := List.find?_some hp
  cases hw : h.workers[place]? with
  | none => simp [hw] at hf
  | some w => exact ⟨w, rfl, by simpa [hw] using hf⟩

/-- A thread is found by its number. -/
lemma exists_place? {w : Worker} (hw : w ∈ h.workers) : ∃ place, h.place? w.id = some place := by
  cases hp : h.place? w.id with
  | none => exact absurd rfl (h.place?_eq_none.1 hp w hw)
  | some place => exact ⟨place, rfl⟩

/-! ## What stays as it is -/

/-- Writing to an inbox changes inboxes only.

**Proof sketch.** Whether the receiver is there, is gone or never was, at most one inbox is written
to, and without the inboxes nothing has changed. -/
lemma tell_frame (id : ThreadId) (m : ThreadMsg) (unheard : Option LogEvent) :
    (h.tell id m unheard).mailbox = h.mailbox ∧
      (h.tell id m unheard).creations = h.creations ∧
      (h.tell id m unheard).announced = h.announced ∧
      (h.tell id m unheard).workers.map Worker.quiet = h.workers.map Worker.quiet := by
  unfold tell
  split
  · refine ⟨rfl, rfl, rfl, ?_⟩
    refine List.ext_getElem? fun k => ?_
    simp only [modify, List.getElem?_map, List.getElem?_modify]
    split
    · cases h.workers[k]? <;> rfl
    · cases h.workers[k]? <;> rfl
  · split
    · exact ⟨rfl, rfl, rfl, rfl⟩
    · exact ⟨rfl, rfl, rfl, rfl⟩

/-- Writing a message for an extension to a worker does not disturb it.

**Proof sketch.** Only one inbox changes, and what comes into it is not a request to end. -/
lemma tell_atPeace (hp : AtPeace h.workers) {m : ThreadMsg} (hm : m ≠ .close) (id : ThreadId)
    (unheard : Option LogEvent) : AtPeace (h.tell id m unheard).workers := by
  unfold tell
  split
  · next place _ _ =>
    intro w hw hh
    obtain ⟨k, hk⟩ := List.getElem?_of_mem hw
    simp only [modify, List.getElem?_modify] at hk
    obtain ⟨v, hv, hvw⟩ := Option.map_eq_some_iff.1 hk
    have hmem := List.mem_of_getElem? hv
    split at hvw
    · subst hvw
      have hu := hp v hmem hh
      refine ⟨fun hc => ?_, hu.stopping, hu.stopped⟩
      rcases List.mem_append.1 hc with hc | hc
      · exact hu.inbox hc
      · exact hm (List.mem_singleton.1 hc).symm
    · subst hvw
      exact hp v hmem hh
  · split
    · exact hp
    · exact hp

/-- Starting a thread posts nothing. -/
@[simp] lemma spawn_mailbox (w : Worker) : (h.spawn w).mailbox = h.mailbox := by
  unfold spawn
  split <;> rfl

/-- Starting a thread announces nothing. -/
@[simp] lemma spawn_announced (w : Worker) : (h.spawn w).announced = h.announced := by
  unfold spawn
  split <;> rfl

/-- Starting a thread asks for no group. -/
@[simp] lemma spawn_creations (w : Worker) : (h.spawn w).creations = h.creations := by
  unfold spawn
  split <;> rfl

/-- A worker with a number of its own is put behind the others. -/
lemma spawn_workers {w : Worker} (hw : ∀ w' ∈ h.workers, w'.id ≠ w.id) :
    (h.spawn w).workers = h.workers ++ [w] := by
  unfold spawn
  rw [h.place?_eq_none.2 hw]

/-- Running a thread announces nothing. -/
@[simp] lemma runWorker_announced (place : Nat) : (h.runWorker place).announced = h.announced := by
  unfold runWorker
  split <;> rfl

/-- Running a thread asks for no group. -/
@[simp] lemma runWorker_creations (place : Nat) :
    (h.runWorker place).creations = h.creations := by
  unfold runWorker
  split <;> rfl

/-- Waiting for a thread asks for no group. -/
@[simp] lemma reap_creations (id : ThreadId) (group : String) :
    (h.reap id group).creations = h.creations := by
  unfold reap
  split
  · rfl
  · next place _ =>
    dsimp only
    split
    · split
      · exact runWorker_creations _ place
      · exact runWorker_creations _ place
    · exact runWorker_creations _ place

/-- Waiting for a thread announces nothing. -/
@[simp] lemma reap_announced (id : ThreadId) (group : String) :
    (h.reap id group).announced = h.announced := by
  unfold reap
  split
  · rfl
  · next place _ =>
    dsimp only
    split
    · split
      · exact runWorker_announced _ place
      · exact runWorker_announced _ place
    · exact runWorker_announced _ place

/-- Waiting for a worker that cannot step any more only takes its inbox away.

**Proof sketch.** The thread is found by its number, which no other thread has. With its inbox gone
it takes no step, so running it until it rests leaves it as it is. -/
lemma reap_of_still {w : Worker} (hnd : (h.workers.map (·.id)).Nodup) (hw : w ∈ h.workers)
    (hstill : ({ w with hungUp := true } : Worker).step? h.mailbox = none)
    (hstage : w.stage ≠ .crashed) (group : String) :
    ∃ place, h.workers[place]? = some w ∧
      h.reap w.id group = { h with workers := h.workers.set place { w with hungUp := true } } := by
  obtain ⟨place, hp⟩ := h.exists_place? hw
  obtain ⟨w', hw', hid⟩ := h.exists_of_place? hp
  obtain rfl : w' = w :=
    List.inj_on_of_nodup_map hnd (List.mem_of_getElem? hw') hw hid
  refine ⟨place, hw', ?_⟩
  have hlt : place < h.workers.length := (List.getElem?_eq_some_iff.1 hw').1
  have hget : h.workers[place] = w' := (List.getElem?_eq_some_iff.1 hw').2
  have hset : h.workers.modify place (fun w => { w with hungUp := true }) =
      h.workers.set place { w' with hungUp := true } := by
    rw [List.modify_eq_set_getElem?, hw']
    rfl
  have hrun : ({ w' with hungUp := true } : Worker).run h.mailbox =
      (h.mailbox, { w' with hungUp := true }) := by
    rw [Worker.run]
    split
    · rfl
    · next hs => rw [hstill] at hs; simp at hs
  have hmod : (h.modify place fun w => { w with hungUp := true }).runWorker place =
      { h with workers := h.workers.set place { w' with hungUp := true } } := by
    unfold runWorker modify
    simp only [hset, List.getElem?_set_self hlt, hrun, List.set_set]
  unfold reap
  rw [hp]
  simp only [hmod, List.getElem?_set_self hlt, if_neg hstage]

/-! ## One effect on a host -/

/-- A thread that runs until it rests posts at most. -/
lemma run_extends (engine : Mailbox EngineMsg) (w : Worker) : engine.Extends (w.run engine).1 :=
  Worker.run_induction (P := fun engine' _ => engine.Extends engine')
    (fun h hs => h.trans (Worker.steps_of_step? hs).extends) (.refl engine)

/-- Running a thread posts at most. -/
lemma runWorker_extends (place : Nat) : h.mailbox.Extends (h.runWorker place).mailbox := by
  unfold runWorker
  split
  · exact .refl _
  · next w _ => exact run_extends h.mailbox w

variable (link : Link)

/-- Whatever is done but a panic, messages are posted at most.

**Proof sketch.** By cases on the effect. A message to a thread and the start of one leave the
mailbox alone, and a thread that is waited for runs on, which posts at most. -/
lemma perform_extends {x : Effect} (hx : x ≠ .panic) :
    h.mailbox.Extends (h.perform link x).mailbox := by
  cases x with
  | log | await | announce => exact .refl _
  | panic => exact absurd rfl hx
  | post m => exact .post _ m
  | spawn id g t =>
    show h.mailbox.Extends (h.spawn _).mailbox
    rw [spawn_mailbox]
    exact .refl _
  | tell id m unheard =>
    show h.mailbox.Extends (h.tell id m unheard).mailbox
    rw [(h.tell_frame id m unheard).1]
    exact .refl _
  | reap id group =>
    show h.mailbox.Extends (h.reap id group).mailbox
    unfold reap
    split
    · exact .refl _
    · next place _ =>
      have hrun := (h.modify place fun w => { w with hungUp := true }).runWorker_extends place
      dsimp only
      split
      · split
        · exact hrun
        · exact hrun
      · exact hrun

/-- A panic takes the reader of the mailbox away. -/
lemma perform_follows (x : Effect) : h.mailbox.Follows (h.perform link x).mailbox := by
  by_cases hx : x = .panic
  · subst hx
    exact .inr rfl
  · exact .inl (h.perform_extends link hx)

/-- What an effect adds to the announcements. -/
lemma perform_announced (effect : Effect) :
    (h.perform link effect).announced = h.announced + (if effect.announces then 1 else 0) := by
  cases effect with
  | log | await | post | announce | panic => rfl
  | spawn id g t => exact h.spawn_announced _
  | tell id m unheard => exact (h.tell_frame id m unheard).2.2.1
  | reap id group => exact h.reap_announced id group

/-- What an effect adds to the groups that are being built. -/
lemma perform_creations (effect : Effect) :
    (h.perform link effect).creations = h.creations ++ effect.creation?.toList := by
  cases effect with
  | await => rfl
  | log | post | announce | panic => exact (List.append_nil _).symm
  | spawn id g t => exact (h.spawn_creations _).trans (List.append_nil _).symm
  | tell id m unheard =>
    exact (h.tell_frame id m unheard).2.1.trans (List.append_nil _).symm
  | reap id group => exact (h.reap_creations id group).trans (List.append_nil _).symm

/-- Nobody has asked a new thread to end. -/
lemma undisturbed_create (id : ThreadId) (g : Group) (t : Topology) :
    (Worker.create link id g t).Undisturbed :=
  ⟨List.not_mem_nil, Worker.create_stage_ne link id g t rfl,
    Worker.create_stage_ne link id g t rfl⟩

/-- A tame effect posts what it posts, and adds the worker that it starts, if that has a number of
its own. The other workers stay as they are but for their inboxes, and are left at peace unless the
effect asks one of them to end.

**Proof sketch.** By cases on the effect. A thread that is started goes to the end, since its number
is new; a message goes into one inbox, which `quiet` does not look at. -/
lemma perform_of_tame {effect : Effect} (ht : effect.IsTame)
    (hfresh : ∀ l ∈ effect.launch?, ∀ w ∈ h.workers, w.id ≠ l.id) :
    (h.perform link effect).mailbox = h.mailbox.postAll effect.posted?.toList ∧
      (h.perform link effect).workers.map Worker.quiet =
        h.workers.map Worker.quiet ++ effect.launch?.toList.map (Launch.worker link) ∧
      (effect.disturbs = false → AtPeace h.workers →
        AtPeace (h.perform link effect).workers) := by
  cases effect with
  | log | await | post | announce => exact ⟨rfl, (List.append_nil _).symm, fun _ hp => hp⟩
  | reap | panic => exact ht.elim
  | tell id m unheard =>
    obtain ⟨hmail, -, -, hwork⟩ := h.tell_frame id m unheard
    refine ⟨hmail, hwork.trans (List.append_nil _).symm, fun hd hp => ?_⟩
    refine h.tell_atPeace hp (fun hm => ?_) id unheard
    rw [hm] at hd
    cases hd
  | spawn id g t =>
    have hw : ∀ w ∈ h.workers, w.id ≠ (Worker.create link id g t).id := hfresh ⟨id, g, t⟩ rfl
    have hworkers : (h.perform link (.spawn id g t)).workers =
        h.workers ++ [Worker.create link id g t] := h.spawn_workers hw
    rw [hworkers, List.map_append]
    refine ⟨h.spawn_mailbox _, rfl, fun _ hp w hm hh => ?_⟩
    rcases List.mem_append.1 hm with hm | hm
    · exact hp w hm hh
    · obtain rfl := List.mem_singleton.1 hm
      exact undisturbed_create link id g t

end Host

namespace Engine

variable (e : Engine)

/-! ## One effect on an engine -/

/-- Carrying out an effect leaves the decisions alone. -/
@[simp] lemma perform_context (effect : Effect) : (e.perform effect).context = e.context := by
  cases effect <;> rfl

/-- An effect does to the mailbox of an engine what it does to that of its host. -/
lemma perform_mailbox (effect : Effect) :
    (e.perform effect).host.mailbox = (e.host.perform e.context.link effect).mailbox := by
  cases effect <;> rfl

/-- An effect does to the threads of an engine what it does to those of its host. -/
lemma perform_workers (effect : Effect) :
    (e.perform effect).host.workers = (e.host.perform e.context.link effect).workers := by
  cases effect <;> rfl

/-- An effect announces the end of the graph once, or not at all. -/
lemma perform_announced (effect : Effect) :
    (e.perform effect).host.announced =
      e.host.announced + (if effect.announces then 1 else 0) := by
  rw [← e.host.perform_announced e.context.link effect]
  cases effect <;> rfl

/-! ## A decision of the context -/

/-- Carrying out effects leaves the decisions alone. -/
lemma foldl_perform_context (effects : List Effect) :
    (effects.foldl perform e).context = e.context := by
  induction effects generalizing e with
  | nil => rfl
  | cons effect effects ih => rw [List.foldl_cons, ih, perform_context]

/-- After doing what was decided on, the decisions are those that were made. -/
@[simp] lemma carryOut_context (r : Context × List Effect) : (e.carryOut r).context = r.1 :=
  foldl_perform_context _ r.2

/-- Effects announce the end of the graph as often as they say. -/
lemma foldl_perform_announced (effects : List Effect) :
    (effects.foldl perform e).host.announced =
      e.host.announced + effects.countP Effect.announces := by
  induction effects generalizing e with
  | nil => rfl
  | cons effect effects ih =>
    rw [List.foldl_cons, ih, perform_announced, List.countP_cons]
    omega

/-- The announcements of a decision. -/
lemma carryOut_announced (r : Context × List Effect) :
    (e.carryOut r).host.announced = e.host.announced + r.2.countP Effect.announces :=
  foldl_perform_announced _ r.2

/-- Effects ask for the groups that they ask for, after those that were asked for before. -/
lemma foldl_perform_creations (effects : List Effect) :
    (effects.foldl perform e).host.creations =
      e.host.creations ++ effects.filterMap Effect.creation? := by
  induction effects generalizing e with
  | nil => exact (List.append_nil _).symm
  | cons effect effects ih =>
    have hc : (e.perform effect).host.creations =
        e.host.creations ++ effect.creation?.toList := by
      rw [← e.host.perform_creations e.context.link effect]
      cases effect <;> rfl
    rw [List.foldl_cons, ih, hc, List.append_assoc, List.filterMap_cons]
    cases effect.creation? with
    | none => rfl
    | some creation => rfl

/-- Threads have their numbers whatever is in their inboxes. -/
lemma ids_of_quiet (ws : List Worker) :
    (ws.map Worker.quiet).map (·.id) = ws.map (·.id) := by
  rw [List.map_map]
  rfl

/-- Threads that differ in their inboxes only have the same numbers. -/
lemma ids_eq_of_quiet {ws ws' : List Worker} (h : ws.map Worker.quiet = ws'.map Worker.quiet) :
    ws.map (·.id) = ws'.map (·.id) := by
  rw [← ids_of_quiet ws, ← ids_of_quiet ws', h]

/-- **What tame effects do.** They post what they post, and they add the workers that they start,
if these have numbers of their own. The other workers stay as they are but for their inboxes, and
are left at peace unless one of them is asked to end.

**Proof sketch.** Induction on the effects, with `perform_of_tame` for the first one. The numbers of
all threads, those to be started included, are different; so the thread that the first effect starts
is new, and its number is among those of the threads that the others find. -/
lemma foldl_perform_of_tame {effects : List Effect} (ht : ∀ x ∈ effects, x.IsTame)
    (hnd : (e.host.workers.map (·.id) ++
      (effects.filterMap Effect.launch?).map (·.id)).Nodup) :
    (effects.foldl perform e).host.mailbox =
        e.host.mailbox.postAll (effects.filterMap Effect.posted?) ∧
      (effects.foldl perform e).host.workers.map Worker.quiet =
        e.host.workers.map Worker.quiet ++
          (effects.filterMap Effect.launch?).map (Launch.worker e.context.link) ∧
      ((∀ x ∈ effects, x.disturbs = false) → AtPeace e.host.workers →
        AtPeace (effects.foldl perform e).host.workers) := by
  induction effects generalizing e with
  | nil => exact ⟨rfl, (List.append_nil _).symm, fun _ hp => hp⟩
  | cons effect effects ih =>
    have hl : (effect :: effects).filterMap Effect.launch? =
        effect.launch?.toList ++ effects.filterMap Effect.launch? := by
      rw [List.filterMap_cons]
      cases effect.launch? with
      | none => rfl
      | some l => rfl
    have hp : (effect :: effects).filterMap Effect.posted? =
        effect.posted?.toList ++ effects.filterMap Effect.posted? := by
      rw [List.filterMap_cons]
      cases effect.posted? with
      | none => rfl
      | some m => rfl
    rw [hl, List.map_append, ← List.append_assoc] at hnd
    -- The thread that the first effect starts has a number that no worker has.
    have hfresh : ∀ l ∈ effect.launch?, ∀ w ∈ e.host.workers, w.id ≠ l.id := by
      intro l hlm w hw
      have hdisj := (List.nodup_append.1 (List.nodup_append.1 hnd).1).2.2
      refine hdisj _ (List.mem_map_of_mem hw) _ (List.mem_map_of_mem ?_)
      simpa using hlm
    obtain ⟨hmail, hwork, hpeace⟩ :=
      e.host.perform_of_tame e.context.link (ht effect List.mem_cons_self) hfresh
    rw [← perform_mailbox] at hmail
    rw [← perform_workers] at hwork hpeace
    -- The other effects find the numbers from before, and the new one.
    have hids : (e.perform effect).host.workers.map (·.id) =
        e.host.workers.map (·.id) ++ effect.launch?.toList.map (·.id) := by
      rw [← ids_of_quiet, hwork, List.map_append, ids_of_quiet, List.map_map]
      rfl
    obtain ⟨ihmail, ihwork, ihpeace⟩ :=
      ih (e.perform effect) (fun x hx => ht x (List.mem_cons_of_mem _ hx)) (by rwa [hids])
    rw [List.foldl_cons, hl, hp, List.map_append, ← List.append_assoc, ihmail, ihwork, hmail, hwork,
      perform_context]
    refine ⟨(Mailbox.postAll_append _ _ _).symm, rfl, fun hd hp => ?_⟩
    exact ihpeace (fun x hx => hd x (List.mem_cons_of_mem _ hx))
      (hpeace (hd effect List.mem_cons_self) hp)

/-- Carrying out effects posts to the mailbox or hangs it up. -/
lemma foldl_perform_follows (effects : List Effect) :
    e.host.mailbox.Follows (effects.foldl perform e).host.mailbox := by
  induction effects generalizing e with
  | nil => exact .inl (.refl _)
  | cons x effects ih =>
    refine Mailbox.Follows.trans ?_ (ih (e.perform x))
    rw [perform_mailbox]
    exact e.host.perform_follows _ x

/-- Without a panic an engine goes on listening. -/
lemma foldl_perform_listening {effects : List Effect} (hx : .panic ∉ effects) :
    (effects.foldl perform e).host.mailbox.listening = e.host.mailbox.listening := by
  induction effects generalizing e with
  | nil => rfl
  | cons x effects ih =>
    obtain ⟨hne, hrest⟩ := not_or.1 (mt List.mem_cons.2 hx)
    rw [List.foldl_cons, ih _ hrest, perform_mailbox]
    exact (e.host.perform_extends e.context.link (Ne.symm hne)).listening

/-- A panic comes after everything that is done before it. -/
lemma foldl_perform_panic (before : List Effect) :
    (before ++ [Effect.panic]).foldl perform e =
      { before.foldl perform e with host := (before.foldl perform e).host.collapse } := by
  rw [List.foldl_append]
  rfl

/-! ## The end of a step -/

/-- Retiring leaves the decisions alone. -/
@[simp] lemma retire_context : e.retire.context = e.context := by
  unfold retire
  split <;> rfl

/-- Retiring leaves the threads alone. -/
@[simp] lemma retire_workers : e.retire.host.workers = e.host.workers := by
  unfold retire
  split <;> rfl

/-- Retiring announces nothing. -/
@[simp] lemma retire_announced : e.retire.host.announced = e.host.announced := by
  unfold retire
  split <;> rfl

/-- The mailbox is given up as soon as the graph is closed. -/
lemma retire_mailbox :
    e.retire.host.mailbox =
      if e.context.isClosed ∧ e.host.mailbox.listening then e.host.mailbox.hangUp
      else e.host.mailbox := by
  unfold retire
  split <;> rfl

/-- Handling a message posts messages at most, unless the engine does not listen any more. -/
lemma handle_follows (m : EngineMsg) : e.host.mailbox.Follows (e.handle m).host.mailbox := by
  have hcarried : e.host.mailbox.Follows (e.carryOut (e.context.handle m)).host.mailbox :=
    foldl_perform_follows { e with context := (e.context.handle m).1 } _
  rw [handle, retire_mailbox]
  split
  · exact .inr rfl
  · exact hcarried

/-- An engine that handles a message decides on it as its context does. -/
lemma handle_context (m : EngineMsg) : (e.handle m).context = (e.context.handle m).1 := by
  rw [handle, retire_context, carryOut_context]

end Engine

end ExtensionGraph
