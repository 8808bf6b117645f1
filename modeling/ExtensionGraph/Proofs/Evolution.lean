import Mathlib.Logic.Relation
import ExtensionGraph.Proofs.EngineRun

/-!
# What becomes of a worker

A host keeps every worker that it has ever started. In the course of a run a worker is written to,
loses its inbox, makes steps and sends the beats of its tickers. So whatever a single change keeps
holds of a worker for the rest of the run.

## Main definitions

* `ExtensionGraph.Worker.Changes` — one change of a worker.
* `ExtensionGraph.Worker.Evolves` — any number of changes.
* `ExtensionGraph.Later` — each worker is still there, and has evolved.

## Main results

* `ExtensionGraph.Engine.play_later` — no worker is ever lost in a run.
* `ExtensionGraph.Worker.Evolves.roster`, `ExtensionGraph.Worker.Evolves.crashed` — the extensions
  of a worker stay the same, and a worker that has crashed stays so.
-/

namespace ExtensionGraph

namespace Worker

/-! ## One worker -/

/-- What can happen to a worker. Whether it may fail to begin is left open. -/
inductive Changes (aborts : Prop) (w : Worker) : Worker → Prop
  | written (inbox : List ThreadMsg) : Changes aborts w { w with inbox }
  | hungUp : Changes aborts w { w with hungUp := true }
  | steps {engine engine' : Mailbox EngineMsg} {w' : Worker}
      (h : w.step? engine = some (engine', w')) : Changes aborts w w'
  | beats (engine : Mailbox EngineMsg) (ticker : Nat) : Changes aborts w (w.beat engine ticker).2
  | aborted {reason : String} {engine engine' : Mailbox EngineMsg} {w' : Worker} (ha : aborts)
      (h : w.abort? reason engine = some (engine', w')) : Changes aborts w w'

/-- What becomes of a worker in any number of changes. -/
def Evolves (aborts : Prop) : Worker → Worker → Prop := Relation.ReflTransGen (Changes aborts)

variable {aborts : Prop} {w w' : Worker} {engine engine' : Mailbox EngineMsg}

/-- A step of a thread keeps its number and its roster, and a thread that has crashed stays so. -/
lemma Steps.frame (h : w.Steps engine engine' w') :
    w'.id = w.id ∧ w'.roster = w.roster ∧ (w.stage = .crashed → w'.stage = .crashed) := by
  have hne {s : Stage} (hs : w.stage = s) (hn : s ≠ .crashed) {p : Prop} :
      w.stage = .crashed → p := fun hc => absurd (hs.symm.trans hc) hn
  cases h with
  | goesOn _ ho => exact ⟨ho.id, ho.roster, fun hc => ho.stage.trans hc⟩
  | goesDown => exact ⟨rfl, rfl, fun _ => rfl⟩
  | @calls place hook rest =>
    obtain ⟨hid, hroster, hstage, -⟩ :=
      ({ w with agenda := rest } : Worker).call_frame place (.hook hook)
    exact ⟨hid, hroster, fun hc => hstage.trans hc⟩
  | opened _ _ hs => exact ⟨rfl, rfl, hne hs (by simp)⟩
  | @receives extension m rest =>
    obtain ⟨hid, hroster, hstage, -⟩ :=
      ({ w with inbox := rest } : Worker).receive_frame extension m
    exact ⟨hid, hroster, fun hc => hstage.trans hc⟩
  | obeys _ _ hs => exact ⟨rfl, rfl, hne hs (by simp)⟩
  | leaves _ _ hs => exact ⟨rfl, rfl, hne hs (by simp)⟩
  | closed _ _ hs => exact ⟨rfl, rfl, hne hs (by simp)⟩
  | reports _ _ hs => exact ⟨rfl, rfl, hne hs (by simp)⟩

/-- A change keeps the number of a worker, and a worker that has crashed stays so. -/
lemma Changes.frame (h : Changes aborts w w') :
    w'.id = w.id ∧ (w.stage = .crashed → w'.stage = .crashed) := by
  cases h with
  | written | hungUp => exact ⟨rfl, fun hc => hc⟩
  | steps h =>
    obtain ⟨hid, -, hc⟩ := (steps_of_step? h).frame
    exact ⟨hid, hc⟩
  | beats engine ticker =>
    have ho := (onCourse_beat w engine ticker).1
    exact ⟨ho.id, fun hc => ho.stage.trans hc⟩
  | aborted _ h =>
    obtain ⟨hs, -, -, -, hid, -⟩ := abort?_eq h
    refine ⟨hid, fun hc => ?_⟩
    rw [hc] at hs
    cases hs

/-- Unless it fails to begin, a worker keeps its extensions. -/
lemma Changes.roster (h : Changes False w w') : w'.roster = w.roster := by
  cases h with
  | written | hungUp => rfl
  | steps h => exact (steps_of_step? h).frame.2.1
  | beats engine ticker => exact (onCourse_beat w engine ticker).1.roster
  | aborted ha => exact ha.elim

/-- A thread evolves into itself. -/
lemma Evolves.refl (w : Worker) : Evolves aborts w w := Relation.ReflTransGen.refl

/-- One change is an evolution. -/
lemma Evolves.single (h : Changes aborts w w') : Evolves aborts w w' :=
  Relation.ReflTransGen.single h

/-- Evolutions follow upon each other. -/
lemma Evolves.trans {w'' : Worker} (h : Evolves aborts w w') (h' : Evolves aborts w' w'') :
    Evolves aborts w w'' :=
  Relation.ReflTransGen.trans h h'

/-- A thread keeps its number as it evolves. -/
theorem Evolves.id (h : Evolves aborts w w') : w'.id = w.id := by
  induction h with
  | refl => rfl
  | tail _ hc ih => exact hc.frame.1.trans ih

/-- A worker that has crashed stays so. -/
theorem Evolves.crashed (h : Evolves aborts w w') (hc : w.stage = .crashed) :
    w'.stage = .crashed := by
  induction h with
  | refl => exact hc
  | tail _ h ih => exact h.frame.2 ih

/-- The extensions of a worker stay the same. -/
theorem Evolves.roster (h : Evolves False w w') : w'.roster = w.roster := by
  induction h with
  | refl => rfl
  | tail _ hc ih => exact hc.roster.trans ih

/-- All steps until a worker has to wait are changes. -/
lemma run_evolves (engine : Mailbox EngineMsg) (w : Worker) :
    Evolves aborts w (w.run engine).2 :=
  run_induction (P := fun _ w' => Evolves aborts w w')
    (fun h hs => h.trans (Evolves.single (.steps hs))) (Evolves.refl w)

end Worker

/-! ## All workers of a host -/

/-- Each worker of the first list is still in the second one, and has evolved. -/
def Later (aborts : Prop) (ws ws' : List Worker) : Prop :=
  ∀ w ∈ ws, ∃ w' ∈ ws', Worker.Evolves aborts w w'

namespace Later

variable {aborts : Prop} {ws ws' ws'' : List Worker}

/-- Threads are later states of themselves. -/
lemma refl (ws : List Worker) : Later aborts ws ws := fun w hw => ⟨w, hw, Worker.Evolves.refl w⟩

/-- Later states of later states are later states. -/
lemma trans (h : Later aborts ws ws') (h' : Later aborts ws' ws'') : Later aborts ws ws'' := by
  intro w hw
  obtain ⟨w', hw', he⟩ := h w hw
  obtain ⟨w'', hw'', he'⟩ := h' w' hw'
  exact ⟨w'', hw'', he.trans he'⟩

/-- A new thread leaves the others as they are. -/
lemma concat (ws : List Worker) (w : Worker) : Later aborts ws (ws ++ [w]) :=
  fun v hv => ⟨v, List.mem_append_left _ hv, Worker.Evolves.refl v⟩

/-- If one thread evolves, all are in a later state. -/
lemma set {place : Nat} {w w' : Worker} (hw : ws[place]? = some w)
    (he : Worker.Evolves aborts w w') : Later aborts ws (ws.set place w') := by
  intro v hv
  obtain ⟨k, hk⟩ := List.getElem?_of_mem hv
  have hlt : place < ws.length := (List.getElem?_eq_some_iff.1 hw).1
  by_cases hkp : k = place
  · rw [hkp, hw] at hk
    cases hk
    exact ⟨w', List.mem_of_getElem? (i := place) (by rw [List.getElem?_set_self hlt]), he⟩
  · refine ⟨v, List.mem_of_getElem? (i := k) ?_, Worker.Evolves.refl v⟩
    rw [List.getElem?_set_ne (Ne.symm hkp)]
    exact hk

/-- If one thread changes, all are in a later state. -/
lemma modify (place : Nat) {f : Worker → Worker} (hf : ∀ w, Worker.Changes aborts w (f w)) :
    Later aborts ws (ws.modify place f) := by
  intro v hv
  obtain ⟨k, hk⟩ := List.getElem?_of_mem hv
  by_cases hkp : place = k
  · refine ⟨f v, List.mem_of_getElem? (i := k) ?_, Worker.Evolves.single (hf v)⟩
    rw [List.getElem?_modify, hk]
    simp [hkp]
  · refine ⟨v, List.mem_of_getElem? (i := k) ?_, Worker.Evolves.refl v⟩
    rw [List.getElem?_modify, hk]
    simp [hkp]

/-- If all threads change, all are in a later state. -/
lemma map {f : Worker → Worker} (hf : ∀ w, Worker.Changes aborts w (f w)) :
    Later aborts ws (ws.map f) :=
  fun v hv => ⟨f v, List.mem_map_of_mem hv, Worker.Evolves.single (hf v)⟩

end Later

namespace Host

variable {aborts : Prop} (h : Host)

/-- Running one thread until it rests leaves all in a later state. -/
lemma runWorker_later (place : Nat) : Later aborts h.workers (h.runWorker place).workers := by
  unfold runWorker
  split
  · exact Later.refl _
  · next w hw => exact Later.set hw (Worker.run_evolves h.mailbox w)

/-- Whatever effect of the engine is carried out, the threads are in a later state.

**Proof sketch.** Most effects leave the threads alone. A new thread goes to the end of the list, a
command only writes into an inbox, and a thread that is waited for is hung up and runs on. -/
lemma perform_later (link : Link) (effect : Effect) :
    Later aborts h.workers (h.perform link effect).workers := by
  cases effect with
  | log | await | post | announce => exact Later.refl _
  | panic => exact Later.map fun _ => .hungUp
  | spawn id g t =>
    show Later aborts h.workers (h.spawn (Worker.create link id g t)).workers
    unfold spawn
    split
    · exact (Later.modify _ fun w => .hungUp).trans (Later.concat _ _)
    · exact Later.concat _ _
  | tell id m unheard =>
    show Later aborts h.workers (h.tell id m unheard).workers
    unfold tell
    split
    · exact Later.modify _ fun w => .written _
    · split
      · exact Later.refl _
      · exact Later.refl _
  | reap id group =>
    show Later aborts h.workers (h.reap id group).workers
    unfold reap
    split
    · exact Later.refl _
    · next place _ =>
      have hrun : Later aborts h.workers
          ((h.modify place fun w => { w with hungUp := true }).runWorker place).workers :=
        (Later.modify place fun w => .hungUp).trans
          ((h.modify place fun w => { w with hungUp := true }).runWorker_later place)
      dsimp only
      split
      · split
        · exact hrun
        · exact hrun
      · exact hrun

end Host

namespace Engine

variable {aborts : Prop} {e e' : Engine}

/-- Carrying out one effect after the other leaves the threads in a later state. -/
lemma foldl_perform_later (e : Engine) (effects : List Effect) :
    Later aborts e.host.workers (effects.foldl perform e).host.workers := by
  induction effects generalizing e with
  | nil => exact Later.refl _
  | cons effect effects ih =>
    have hone : Later aborts e.host.workers (e.perform effect).host.workers := by
      rw [perform_workers]
      exact e.host.perform_later _ effect
    exact hone.trans (ih _)

/-- A move loses no worker. Without an aborting move, no worker fails to begin. -/
lemma move_later {m : Move} (hm : e.move? m = some e')
    (ha : ∀ place reason, m = .abort place reason → aborts) :
    Later aborts e.host.workers e'.host.workers := by
  cases moves_of_move? hm with
  | @handles m mailbox =>
    show Later aborts e.host.workers
      (({ e with host := { e.host with mailbox } } : Engine).handle m).host.workers
    rw [Engine.handle, retire_workers]
    exact foldl_perform_later
      { e with host := { e.host with mailbox }, context := (e.context.handle m).1 } _
  | works hw hs => exact Later.set hw (.single (.steps hs))
  | beats hw => exact Later.set hw (.single (.beats _ _))
  | aborts hw hs => exact Later.set hw (.single (.aborted (ha _ _ rfl) hs))
  | completes | sends | refuses | closes => exact Later.refl _

/-- **No worker is ever lost**, and what becomes of it are the changes of a worker.

**Proof sketch.** By induction over the moves: what one move does to the workers, followed by what
the rest of the run does. -/
theorem play_later (aborts : Prop) {moves : List Move} {taken : List EngineMsg}
    (hp : e.play moves = some (taken, e'))
    (ha : ∀ place reason, Move.abort place reason ∈ moves → aborts) :
    Later aborts e.host.workers e'.host.workers := by
  induction moves generalizing e taken with
  | nil =>
    cases hp
    exact Later.refl _
  | cons m moves ih =>
    obtain ⟨e₁, taken₁, hm, hrest, rfl⟩ := play_cons.1 hp
    have hone : Later aborts e.host.workers e₁.host.workers :=
      move_later hm fun place reason hmove =>
        ha place reason (by rw [hmove]; exact List.mem_cons_self)
    exact hone.trans (ih hrest fun place reason hmem =>
      ha place reason (List.mem_cons_of_mem _ hmem))

end Engine

end ExtensionGraph
