import ExtensionGraph.App
import ExtensionGraph.Proofs.GroupOrigins
import ExtensionGraph.Proofs.MailboxOrder

/-!
# What an app does, and time passing

An app starts graphs, lists them and closes them, one call after the other. While a call waits, and
between two calls, the graphs make moves of their own, as many as they like: an extension may never
let its graph close. A call that waits for a graph returns when the graph has closed, or when the
engine that ran it is gone. If the time is bounded it also returns when the time is up, however
little the graph has done by then.

The operations of apps let every graph make all moves that it can make. They are among the calls
that are described here.

## Main definitions

* `ExtensionGraph.Engine.Proceeds` — a graph makes moves.
* `ExtensionGraph.App.Passes` — time passes.
* `ExtensionGraph.App.Waits`, `ExtensionGraph.App.WaitsAll` — waiting for one graph, and for
  several.
* `ExtensionGraph.App.Call`, `ExtensionGraph.App.Does` — calls with what they return.
* `ExtensionGraph.App.Runs` — the states that an app can come to, with the calls up to there.

## Main results

* `ExtensionGraph.Engine.Proceeds.isClosed` — a graph that has closed stays closed.
* `ExtensionGraph.Engine.Proceeds.isOver` — an engine that is gone does not come back.
* `ExtensionGraph.App.closeGraph_does`, `ExtensionGraph.App.close_does` — the operations of apps are
  such calls.
-/

namespace ExtensionGraph

/-! ## One graph -/

namespace Engine

variable {e e' e'' : Engine}

/-- A graph makes moves. -/
def Proceeds (e e' : Engine) : Prop := ∃ moves taken, e.play moves = some (taken, e')

/-- A graph may do nothing. -/
lemma Proceeds.refl (e : Engine) : e.Proceeds e := ⟨[], [], rfl⟩

/-- What a graph does in two steps it does in one run. -/
lemma Proceeds.trans (h : e.Proceeds e') (h' : e'.Proceeds e'') : e.Proceeds e'' := by
  obtain ⟨moves, taken, hp⟩ := h
  obtain ⟨moves', taken', hp'⟩ := h'
  exact ⟨_, _, play_append.2 ⟨taken, e', taken', hp, hp', rfl⟩⟩

/-- A single move is a run. -/
lemma Proceeds.move {m : Move} (hm : e.move? m = some e') : e.Proceeds e' :=
  ⟨[m], _, play_cons.2 ⟨e', [], hm, rfl, rfl⟩⟩

/-- A move changes neither the id of a graph nor takes back that it has closed. -/
lemma move_closed {m : Move} (hm : e.move? m = some e') :
    e'.graph = e.graph ∧ e.host.announced ≤ e'.host.announced := by
  cases moves_of_move? hm with
  | @handles m mailbox =>
    constructor
    · exact congrArg Link.graph ((congrArg Context.link (handle_context _ m)).trans
        (e.context.handle_link m))
    · rw [handle, retire_announced, carryOut_announced]
      exact Nat.le_add_right _ _
  | completes | works | beats | aborts | sends | refuses | closes => exact ⟨rfl, Nat.le_refl _⟩

/-- In the course of a run a graph keeps its id, and no announcement is taken back. -/
lemma Proceeds.graph_and_announced (h : e.Proceeds e') :
    e'.graph = e.graph ∧ e.host.announced ≤ e'.host.announced := by
  obtain ⟨moves, taken, hp⟩ := h
  refine induction_of_play (P := fun _ e' =>
    e'.graph = e.graph ∧ e.host.announced ≤ e'.host.announced) ⟨rfl, Nat.le_refl _⟩ ?_ hp
  rintro - - e₁ e₂ m - ⟨hgraph, hle⟩ hm
  obtain ⟨hgraph', hle'⟩ := move_closed hm
  exact ⟨hgraph'.trans hgraph, Nat.le_trans hle hle'⟩

/-- A graph keeps its id. -/
lemma Proceeds.graph (h : e.Proceeds e') : e'.graph = e.graph := h.graph_and_announced.1

/-- **A graph that has closed stays closed.** -/
theorem Proceeds.isClosed (h : e.Proceeds e') (hc : e.isClosed = true) : e'.isClosed = true := by
  have hle := h.graph_and_announced.2
  simp only [Engine.isClosed, decide_eq_true_eq] at hc ⊢
  omega

/-- **An engine that is gone does not come back**, so nobody has to wait for a graph again that was
not to be waited for before. -/
theorem Proceeds.isOver (h : e.Proceeds e') (ho : e.isOver = true) : e'.isOver = true := by
  simp only [Engine.isOver, Bool.or_eq_true, Bool.not_eq_true'] at ho ⊢
  rcases ho with hc | hgone
  · exact .inl (h.isClosed hc)
  · obtain ⟨moves, taken, hp⟩ := h
    refine .inr (Bool.eq_false_iff.2 fun hl => ?_)
    exact Bool.eq_false_iff.1 hgone (listening_of_play hp hl)

/-- Running until nothing is left to do is making moves. -/
lemma settle_proceeds (fuel : Nat) (e : Engine) : e.Proceeds (e.settle fuel) := by
  induction fuel generalizing e with
  | zero => exact .refl e
  | succ fuel ih =>
    rw [settle]
    split
    · next e' h =>
      obtain ⟨m, -, hm⟩ := Option.bind_eq_some_iff.1 h
      exact (Proceeds.move hm).trans (ih e')
    · exact .refl e

/-- To be asked for its end is one of the moves of a graph. -/
lemma requestClose_proceeds (e : Engine) : e.Proceeds e.requestClose :=
  Proceeds.move (m := .close) rfl

end Engine

namespace App

/-! ## Time -/

/-- Time passes: every graph makes moves, and things may be logged. -/
structure Passes (a a' : App) : Prop where
  info : a'.info = a.info
  registry : a'.registry = a.registry
  spawner : a'.spawner = a.spawner
  closeTimeout : a'.closeTimeout = a.closeTimeout
  held : a'.held = a.held
  engines : List.Forall₂ Engine.Proceeds a.engines a'.engines

variable {a a' a'' : App} {graph : String} {graphs : List String} {r r' : Except Error Unit}

/-- No time may pass. -/
lemma Passes.refl (a : App) : a.Passes a :=
  ⟨rfl, rfl, rfl, rfl, rfl, List.forall₂_same.2 fun e _ => .refl e⟩

/-- Logging takes no time. -/
lemma passes_record (a : App) (event : LogEvent) : a.Passes (a.record event) :=
  ⟨rfl, rfl, rfl, rfl, rfl, List.forall₂_same.2 fun e _ => .refl e⟩

/-- Time that passes in two steps passes in one.

**Proof sketch.** The graphs of an app stay in their places, so that the runs of the first step and
those of the second can be put together one after the other along the three lists. -/
lemma Passes.trans (h : a.Passes a') (h' : a'.Passes a'') : a.Passes a'' where
  info := h'.info.trans h.info
  registry := h'.registry.trans h.registry
  spawner := h'.spawner.trans h.spawner
  closeTimeout := h'.closeTimeout.trans h.closeTimeout
  held := h'.held.trans h.held
  engines := by
    have hboth := h'.engines
    generalize a''.engines = es'' at hboth ⊢
    have hfirst := h.engines
    generalize a'.engines = es' at hboth hfirst
    generalize a.engines = es at hfirst ⊢
    induction hfirst generalizing es'' with
    | nil =>
      cases hboth
      exact .nil
    | cons hp _ ih =>
      cases hboth with
      | cons hp' hrest => exact .cons (hp.trans hp') (ih _ hrest)

/-- Changing graphs by moves is letting time pass. -/
lemma passes_map (a : App) {f : Engine → Engine} (hf : ∀ e : Engine, e.Proceeds (f e)) :
    a.Passes { a with engines := a.engines.map f } := by
  refine ⟨rfl, rfl, rfl, rfl, rfl, ?_⟩
  show List.Forall₂ Engine.Proceeds a.engines (a.engines.map f)
  rw [List.forall₂_map_right_iff]
  exact List.forall₂_same.2 fun e _ => hf e

/-- A graph keeps its id, and makes moves. -/
lemma Passes.engine?_rel (h : a.Passes a') (graph : String) :
    Option.Rel Engine.Proceeds (a.engine? graph) (a'.engine? graph) := by
  have hall := h.engines
  unfold engine?
  generalize a.engines = es at hall ⊢
  generalize a'.engines = es' at hall ⊢
  induction hall with
  | nil => exact .none
  | @cons e e' es es' hp _ ih =>
    rw [List.find?_cons, List.find?_cons, hp.graph]
    cases decide (e.graph = graph) with
    | true => exact .some hp
    | false => exact ih

/-- **A graph that is live was live before.** -/
lemma Passes.isClosed_eq_false (h : a.Passes a') (hlive : a'.isClosed graph = false) :
    a.isClosed graph = false := by
  have hrel := h.engine?_rel graph
  unfold isClosed at hlive ⊢
  generalize a.engine? graph = e at hrel ⊢
  generalize a'.engine? graph = e' at hrel hlive
  cases hrel with
  | none => exact hlive
  | some hp => exact Bool.eq_false_iff.2 fun hc => Bool.eq_false_iff.1 hlive (hp.isClosed hc)

/-- A graph that is to be waited for had to be waited for before. -/
lemma Passes.isOver_eq_false (h : a.Passes a') (hlive : a'.isOver graph = false) :
    a.isOver graph = false := by
  have hrel := h.engine?_rel graph
  unfold isOver at hlive ⊢
  generalize a.engine? graph = e at hrel ⊢
  generalize a'.engine? graph = e' at hrel hlive
  cases hrel with
  | none => exact hlive
  | some hp => exact Bool.eq_false_iff.2 fun ho => Bool.eq_false_iff.1 hlive (hp.isOver ho)

/-- Letting every graph make all moves that it can make is letting time pass. -/
lemma passes_settle (a : App) : a.Passes a.settle := a.passes_map (Engine.settle_proceeds patience)

/-- Asking for the end of a graph is letting time pass. -/
lemma passes_requestClose (a : App) (graph : String) : a.Passes (a.requestClose graph) := by
  refine a.passes_map fun e => ?_
  split
  · exact e.requestClose_proceeds
  · exact .refl e

/-- So is asking for the end of several graphs. -/
lemma passes_foldl_requestClose (a : App) (graphs : List String) :
    a.Passes (graphs.foldl requestClose a) := by
  induction graphs generalizing a with
  | nil => exact .refl a
  | cons graph graphs ih => exact (a.passes_requestClose graph).trans (ih _)

/-! ## Waiting -/

/-- The answer of a call that has waited for too long. -/
def tooLate (graph : String) (d : Duration) : Error :=
  .timeout ("graph " ++ graph ++ " did not close within " ++ d.text)

/-- Waiting for a graph: it has closed, or its engine is gone, or the time is up. -/
def Waits (a : App) (graph : String) (a' : App) (r : Except Error Unit) : Prop :=
  a.Passes a' ∧ (a'.isOver graph = true ∧ r = .ok () ∨
    a'.isOver graph = false ∧ ∃ d, a.closeTimeout = some d ∧ r = .error (tooLate graph d))

/-- Waiting for several graphs one after the other; the answer is the first failure. -/
inductive WaitsAll : App → List String → App → Except Error Unit → Prop
  | nil {a a' : App} (h : a.Passes a') : WaitsAll a [] a' (.ok ())
  | closes {a a' a'' : App} {graph : String} {graphs : List String} {r : Except Error Unit}
      (h : a.Waits graph a' (.ok ())) (hrest : WaitsAll a' graphs a'' r) :
      WaitsAll a (graph :: graphs) a'' r
  | fails {a a' a'' : App} {graph : String} {graphs : List String} {r : Except Error Unit}
      {err : Error} (h : a.Waits graph a' (.error err)) (hrest : WaitsAll a' graphs a'' r) :
      WaitsAll a (graph :: graphs) a'' (.error err)

/-- Time that passes before a wait is part of the wait. -/
lemma Waits.of_passes (hp : a.Passes a') (h : a'.Waits graph a'' r) : a.Waits graph a'' r := by
  obtain ⟨hp', hr⟩ := h
  rw [hp.closeTimeout] at hr
  exact ⟨hp.trans hp', hr⟩

/-- Time that passes before several waits is part of the first of them. -/
lemma WaitsAll.of_passes (hp : a.Passes a') (h : a'.WaitsAll graphs a'' r) :
    a.WaitsAll graphs a'' r := by
  cases h with
  | nil hp' => exact .nil (hp.trans hp')
  | closes h hrest => exact .closes (h.of_passes hp) hrest
  | fails h hrest => exact .fails (h.of_passes hp) hrest

/-- While several graphs are waited for, time passes, and nothing else happens. -/
lemma WaitsAll.passes (h : a.WaitsAll graphs a' r) : a.Passes a' := by
  induction h with
  | nil hp => exact hp
  | closes h _ ih => exact h.1.trans ih
  | fails h _ ih => exact h.1.trans ih

/-- Time that passes after the last wait may be counted with the waits. -/
lemma WaitsAll.then_passes (h : a.WaitsAll graphs a' r) (hp : a'.Passes a'') :
    a.WaitsAll graphs a'' r := by
  induction h with
  | nil hp' => exact .nil (hp'.trans hp)
  | closes h _ ih => exact .closes h (ih hp)
  | fails h _ ih => exact .fails h (ih hp)

/-- Letting every graph make all moves that it can make is one way to wait.

**Proof sketch.** To settle the app is to let time pass, unless there is no time at all. Whether the
graph is over after that decides the answer on both sides. -/
lemma waitClosed_waits (h : a.waitClosed graph a.closeTimeout = (a', some r)) :
    a.Waits graph a' r := by
  unfold waitClosed at h
  have hpasses : a.Passes (if a.closeTimeout = some ⟨0⟩ then a else a.settle) := by
    split
    · exact .refl a
    · exact a.passes_settle
  generalize (if a.closeTimeout = some ⟨0⟩ then a else a.settle) = b at h hpasses
  obtain ⟨rfl, hr⟩ := Prod.mk.inj h
  refine ⟨hpasses, ?_⟩
  by_cases ho : b.isOver graph = true
  · rw [if_pos ho] at hr
    exact .inl ⟨ho, (Option.some.inj hr).symm⟩
  · rw [if_neg ho] at hr
    obtain ⟨d, hd, hrd⟩ := Option.map_eq_some_iff.1 hr
    exact .inr ⟨by simpa using ho, d, hd, hrd.symm⟩

/-- So it is for several graphs.

**Proof sketch.** By induction over the graphs. A failure is recorded before the next graph is
waited for, and that is no move of an engine. -/
lemma waitAll_waits (h : waitAll a graphs = (a', some r)) : a.WaitsAll graphs a' r := by
  induction graphs generalizing a r with
  | nil =>
    cases h
    exact .nil (.refl _)
  | cons graph graphs ih =>
    rw [waitAll] at h
    split at h
    · cases h
    · next a₁ hw => exact .closes (waitClosed_waits hw) (ih h)
    · next a₁ err hw =>
      generalize hrest : waitAll (a₁.record (.graphNotClosed graph err)) graphs = rest at h
      obtain ⟨a₂, others⟩ := rest
      obtain ⟨rfl, hothers⟩ := Prod.mk.inj h
      obtain ⟨r', rfl, hr⟩ := Option.map_eq_some_iff.1 hothers
      cases hr
      exact .fails (waitClosed_waits hw) ((ih hrest).of_passes (a₁.passes_record _))

/-! ## Calls -/

/-- A call that has returned, with its answer. -/
inductive Call where
  | started (graph : String)
  | startFailed (graph : String) (err : Error)
  | listed (graphs : List String)
  | closedGraph (graph : String) (r : Except Error Unit)
  | closedAll (r : Except Error Unit)

/-- What a call makes of an app. -/
inductive Does (a : App) : Call → App → Prop
  /-- A graph is started under a new id. -/
  | starts {graph name : String} {g : GraphDefinition} {a' : App} (hnew : a.engine? graph = none)
      (h : a.start graph name g = (a', .ok ())) : Does a (.started graph) a'
  /-- A graph cannot be started. -/
  | refuses {graph name : String} {g : GraphDefinition} {a' : App} {err : Error}
      (hnew : a.engine? graph = none) (h : a.start graph name g = (a', .error err)) :
      Does a (.startFailed graph err) a'
  /-- The running graphs are listed. -/
  | lists : Does a (.listed a.running.2) a.running.1
  /-- A graph is let go of and asked to close, and the call waits for it. -/
  | closes {graph : String} {e : Engine} {a' : App} {r : Except Error Unit}
      (hheld : a.held? graph = some e)
      (h : ({ a with held := a.held.erase graph }.requestClose graph).Waits graph a' r) :
      Does a (.closedGraph graph r) a'
  /-- A graph is to be closed that is not held. -/
  | misses {graph : String} (hheld : a.held? graph = none) :
      Does a (.closedGraph graph (notFound graph)) a
  /-- All graphs are let go of and asked to close, and the call waits for them in some order. -/
  | closesAll {graphs : List String} {a' : App} {r : Except Error Unit} (hall : graphs.Perm a.held)
      (h : (graphs.foldl requestClose { a with held := [] }).WaitsAll graphs a' r) :
      Does a (.closedAll r) a'

/-- **Closing a graph** is such a call, if it returns. -/
theorem closeGraph_does (h : a.closeGraph graph = (a', some r)) :
    a.Does (.closedGraph graph r) a' := by
  unfold closeGraph at h
  split at h
  · next hheld =>
    cases h
    exact .misses hheld
  · next e hheld => exact .closes hheld (waitClosed_waits h)

/-- **Closing all graphs** is such a call, if it returns. -/
theorem close_does (h : a.close = (a', some r)) : a.Does (.closedAll r) a' := by
  unfold close at h
  dsimp only at h
  split at h
  · cases h
  · next a₁ result hw =>
    cases h
    exact .closesAll (.refl _) ((waitAll_waits hw).then_passes (a₁.passes_record _))

/-- The states that an app can come to, with the calls that have returned by then. -/
inductive Runs (config : Config) (registry : Registry) (spawner : Spawner) :
    List Call → App → Prop
  | created : Runs config registry spawner [] (create config registry spawner)
  | passes {history : List Call} {a a' : App} (h : Runs config registry spawner history a)
      (hp : a.Passes a') : Runs config registry spawner history a'
  | does {history : List Call} {a a' : App} {call : Call}
      (h : Runs config registry spawner history a) (hd : a.Does call a') :
      Runs config registry spawner (history ++ [call]) a'

end App

end ExtensionGraph
