import ExtensionGraph.Proofs.LiveGraphs

/-!
# Closing everything that is held

An app that is closed lets go of all graphs at once, asks each of them to close, and then waits for
one after the other. It does not matter in which order: when the first wait begins, every graph has
been asked. A graph that does not close in time makes the call fail in the end, but the other graphs
are waited for all the same. The answer is that of the first wait that has failed. A graph whose
engine is gone is like one that has closed.

## Main definitions

* `ExtensionGraph.App.askAll` — all graphs have been let go of and asked to close.
* `ExtensionGraph.App.Waited`, `ExtensionGraph.App.firstFailure` — waits with their answers, and
  what they come to.
* `ExtensionGraph.App.WaitedForAll` — a call that has closed all graphs.

## Main results

* `ExtensionGraph.App.foldl_requestClose_eq_askAll` — graphs may be asked in any order.
* `ExtensionGraph.App.waitsAll_iff` — waiting for several graphs as a list of waits.
* `ExtensionGraph.App.live_of_waitAll_eq_none` — when a call waits for ever.
* `ExtensionGraph.App.close_waits_for_all` — what closing an app does.
-/

namespace ExtensionGraph

namespace App

variable {a a' : App} {graph : String} {graphs : List String} {r : Except Error Unit}
  {waits : List (String × Except Error Unit)} {err : Error}

/-- A graph that has closed stays so, and an engine that is gone does not come back. -/
lemma Passes.isOver (h : a.Passes a') (ho : a.isOver graph = true) : a'.isOver graph = true := by
  refine Bool.of_not_eq_false fun hlive => ?_
  rw [h.isOver_eq_false hlive] at ho
  cases ho

/-- Nobody has to wait for a graph that has closed. -/
lemma isOver_of_isClosed (h : a.isClosed graph = true) : a.isOver graph = true := by
  refine Bool.of_not_eq_false fun hlive => ?_
  rw [isClosed_of_isOver_eq_false hlive] at h
  cases h

/-! ## Asking -/

/-- All graphs have been let go of, and each of them has been asked to close. -/
def askAll (a : App) : App :=
  { a with
    held := []
    engines := a.engines.map fun e => if e.graph ∈ a.held then e.requestClose else e }

/-- Each of several graphs is asked once.

**Proof sketch.** By induction over the graphs. The first graph is not among the others, so that its
engine is asked once and the others are left to the induction hypothesis. -/
lemma foldl_requestClose_eq (hnodup : graphs.Nodup) (a : App) :
    graphs.foldl requestClose a =
      { a with engines := a.engines.map fun e =>
          if e.graph ∈ graphs then e.requestClose else e } := by
  induction graphs generalizing a with
  | nil => simp
  | cons graph graphs ih =>
    obtain ⟨hnew, hnodup⟩ := List.nodup_cons.1 hnodup
    rw [List.foldl_cons, ih hnodup, requestClose, modify]
    dsimp only
    rw [List.map_map]
    congr 1
    refine List.map_congr_left fun e _ => ?_
    rw [Function.comp_apply]
    by_cases he : e.graph = graph
    · have hgraph : e.requestClose.graph ∉ graphs := he.symm ▸ hnew
      rw [if_pos he, if_neg hgraph, if_pos (List.mem_cons.2 (.inl he))]
    · rw [if_neg he]
      simp only [List.mem_cons, he, false_or]

/-- **Graphs may be asked in any order.** -/
theorem foldl_requestClose_eq_askAll (hheld : a.held.Nodup) (hall : graphs.Perm a.held) :
    graphs.foldl requestClose { a with held := [] } = a.askAll := by
  rw [foldl_requestClose_eq (hall.nodup_iff.2 hheld), askAll]
  simp only [hall.mem_iff]

/-- Asking takes some of the time of an app that has let go of its graphs. -/
lemma passes_askAll (a : App) : Passes { a with held := [] } a.askAll := by
  refine passes_map { a with held := [] } fun e => ?_
  split
  · exact e.requestClose_proceeds
  · exact .refl e

/-! ## Waiting -/

/-- Graphs are waited for one after the other, each with an answer of its own. -/
inductive Waited : App → List (String × Except Error Unit) → App → Prop
  | nil {a a' : App} (h : a.Passes a') : Waited a [] a'
  | cons {a a₁ a' : App} {graph : String} {r : Except Error Unit}
      {waits : List (String × Except Error Unit)} (h : a.Waits graph a₁ r)
      (hrest : Waited a₁ waits a') : Waited a ((graph, r) :: waits) a'

/-- What waits come to: the answer of the first that has failed, if one has. -/
def firstFailure : List (String × Except Error Unit) → Except Error Unit
  | [] => .ok ()
  | (_, .ok ()) :: waits => firstFailure waits
  | (_, .error err) :: _ => .error err

/-- Waits come to a success if every one of them does. -/
lemma firstFailure_eq_ok_iff : firstFailure waits = .ok () ↔ ∀ w ∈ waits, w.2 = .ok () := by
  induction waits with
  | nil => exact iff_of_true rfl fun _ hw => absurd hw List.not_mem_nil
  | cons w waits ih =>
    obtain ⟨graph, r⟩ := w
    rw [List.forall_mem_cons]
    cases r with
    | ok u => exact ih.trans (and_iff_right rfl).symm
    | error err => exact iff_of_false nofun fun h => nomatch h.1

/-- Waits come to a failure if it is the answer of one of them, and all before it have succeeded.

**Proof sketch.** Both directions go along the list. A wait that has succeeded is passed over, and
belongs to those before the failure; the first one that has failed gives the answer, whatever comes
after it. -/
lemma firstFailure_eq_error_iff :
    firstFailure waits = .error err ↔
      ∃ before graph after, waits = before ++ (graph, .error err) :: after ∧
        ∀ w ∈ before, w.2 = .ok () := by
  constructor
  · intro h
    induction waits with
    | nil => cases h
    | cons w waits ih =>
      obtain ⟨graph, r⟩ := w
      cases r with
      | ok u =>
        obtain ⟨before, graph', after, rfl, hbefore⟩ := ih h
        exact ⟨(graph, .ok u) :: before, graph', after, rfl,
          List.forall_mem_cons.2 ⟨rfl, hbefore⟩⟩
      | error err' =>
        cases h
        exact ⟨[], graph, waits, rfl, fun _ hw => absurd hw List.not_mem_nil⟩
  · rintro ⟨before, graph, after, rfl, hbefore⟩
    induction before with
    | nil => rfl
    | cons w before ih =>
      obtain ⟨hw, hrest⟩ := List.forall_mem_cons.1 hbefore
      obtain ⟨graph', r⟩ := w
      change r = .ok () at hw
      subst hw
      exact ih hrest

/-- **Waiting for several graphs** is a list of waits, one for each graph and also for those after a
failure, and the answer is what they come to.

**Proof sketch.** Each way is an induction over the other description: a call that waits on after a
failure is one more wait whose result is an error. -/
theorem waitsAll_iff :
    a.WaitsAll graphs a' r ↔
      ∃ waits, a.Waited waits a' ∧ waits.map Prod.fst = graphs ∧ r = firstFailure waits := by
  constructor
  · intro h
    induction h with
    | nil hp => exact ⟨[], .nil hp, rfl, rfl⟩
    | @closes _ _ _ graph _ _ h _ ih =>
      obtain ⟨waits, hwaited, rfl, rfl⟩ := ih
      exact ⟨(graph, .ok ()) :: waits, .cons h hwaited, rfl, rfl⟩
    | @fails _ _ _ graph _ _ err h _ ih =>
      obtain ⟨waits, hwaited, rfl, rfl⟩ := ih
      exact ⟨(graph, .error err) :: waits, .cons h hwaited, rfl, rfl⟩
  · rintro ⟨waits, hwaited, rfl, rfl⟩
    induction hwaited with
    | nil hp => exact .nil hp
    | @cons _ _ _ _ r _ h _ ih =>
      cases r with
      | ok u => exact .closes h ih
      | error err => exact .fails h ih

namespace Waited

/-- While graphs are waited for, time passes, and nothing else happens. -/
lemma passes (h : a.Waited waits a') : a.Passes a' :=
  (waitsAll_iff.2 ⟨waits, h, rfl, rfl⟩).passes

/-- A wait fails only by lasting too long. -/
lemma tooLate_of_error (h : a.Waited waits a') :
    ∀ w ∈ waits, ∀ err, w.2 = .error err →
      ∃ d, a.closeTimeout = some d ∧ err = tooLate w.1 d := by
  induction h with
  | nil => exact fun _ hw => absurd hw List.not_mem_nil
  | cons h _ ih =>
    obtain ⟨hpasses, hr⟩ := h
    refine List.forall_mem_cons.2 ⟨fun err herr => ?_, fun w hw err herr => ?_⟩
    · rcases hr with ⟨-, rfl⟩ | ⟨-, d, hd, rfl⟩
      · cases herr
      · cases herr
        exact ⟨d, hd, rfl⟩
    · rw [← hpasses.closeTimeout]
      exact ih w hw err herr

/-- A graph that has closed already, or whose engine is gone, is waited for without complaint. -/
lemma ok_of_isOver (h : a.Waited waits a') (ho : a.isOver graph = true) :
    ∀ w ∈ waits, w.1 = graph → w.2 = .ok () := by
  induction h with
  | nil => exact fun _ hw => absurd hw List.not_mem_nil
  | cons h _ ih =>
    obtain ⟨hpasses, hr⟩ := h
    have hstill := hpasses.isOver ho
    refine List.forall_mem_cons.2 ⟨?_, ih hstill⟩
    rintro rfl
    rcases hr with ⟨-, hok⟩ | ⟨hlive, -⟩
    · exact hok
    · rw [hstill] at hlive
      cases hlive

/-- A graph that has been waited for without complaint has closed, or its engine is gone. -/
lemma isOver_of_ok (h : a.Waited waits a') :
    ∀ w ∈ waits, w.2 = .ok () → a'.isOver w.1 = true := by
  induction h with
  | nil => exact fun _ hw => absurd hw List.not_mem_nil
  | cons h hrest ih =>
    refine List.forall_mem_cons.2 ⟨fun hok => ?_, ih⟩
    rcases h.2 with ⟨ho, -⟩ | ⟨-, d, -, hr⟩
    · exact hrest.passes.isOver ho
    · rw [hr] at hok
      cases hok

end Waited

/-! ## Waiting for ever -/

/-- A wait takes time, whatever comes of it. -/
lemma waitClosed_passes (a : App) (graph : String) (timeout : Option Duration) :
    a.Passes (a.waitClosed graph timeout).1 := by
  unfold waitClosed
  dsimp only
  split
  · exact .refl a
  · exact a.passes_settle

/-- Waiting takes time, also if it does not end. -/
lemma waitAll_passes (a : App) (graphs : List String) : a.Passes (a.waitAll graphs).1 := by
  induction graphs generalizing a with
  | nil => exact .refl a
  | cons graph graphs ih =>
    have hfirst := a.waitClosed_passes graph a.closeTimeout
    rw [waitAll]
    generalize a.waitClosed graph a.closeTimeout = first at hfirst ⊢
    obtain ⟨a₁, _ | (err | u)⟩ := first
    · exact hfirst
    · exact hfirst.trans ((a₁.passes_record _).trans (ih _))
    · exact hfirst.trans (ih a₁)

/-- A wait does not come back only if it has no bound on the time and the graph stays live with its
engine. -/
lemma live_of_waitClosed_eq_none {timeout : Option Duration}
    (h : (a.waitClosed graph timeout).2 = none) :
    timeout = none ∧ (a.waitClosed graph timeout).1.isOver graph = false := by
  unfold waitClosed at h ⊢
  dsimp only at h ⊢
  generalize (if timeout = some ⟨0⟩ then a else a.settle) = b at h ⊢
  by_cases ho : b.isOver graph = true
  · rw [if_pos ho] at h
    cases h
  · rw [if_neg ho] at h
    exact ⟨Option.map_eq_none_iff.1 h, by simpa using ho⟩

/-- **A call waits for ever** only if it has no bound on the time and some graph stays live, with
its engine, whatever moves are made.

**Proof sketch.** By induction over the graphs. The first wait that never ends leaves its graph live
with no bound on the time; the waits before it have not changed the bound. -/
theorem live_of_waitAll_eq_none (h : (a.waitAll graphs).2 = none) :
    a.closeTimeout = none ∧ ∃ graph ∈ graphs, (a.waitAll graphs).1.isOver graph = false := by
  induction graphs generalizing a with
  | nil => cases h
  | cons graph graphs ih =>
    have htimeout := (a.waitClosed_passes graph a.closeTimeout).closeTimeout
    have hlive (hnone : (a.waitClosed graph a.closeTimeout).2 = none) :=
      live_of_waitClosed_eq_none hnone
    rw [waitAll] at h ⊢
    generalize a.waitClosed graph a.closeTimeout = first at h htimeout hlive ⊢
    obtain ⟨a₁, _ | (err | u)⟩ := first
    · exact ⟨(hlive rfl).1, graph, List.mem_cons_self, (hlive rfl).2⟩
    · obtain ⟨hnone, graph', hg, hlive'⟩ := ih (Option.map_eq_none_iff.1 h)
      exact ⟨htimeout.symm.trans hnone, graph', List.mem_cons_of_mem _ hg, hlive'⟩
    · obtain ⟨hnone, graph', hg, hlive'⟩ := ih h
      exact ⟨htimeout.symm.trans hnone, graph', List.mem_cons_of_mem _ hg, hlive'⟩

/-! ## Closing an app -/

/-- A call has closed all graphs, and these are its waits, each with its answer. -/
structure WaitedForAll (a : App) (waits : List (String × Except Error Unit)) (a' : App)
    (r : Except Error Unit) : Prop where
  /-- No graph is held any more. -/
  held : a'.held = []
  /-- Every graph that was held has been waited for, also after a failure. -/
  each : (waits.map Prod.fst).Perm a.held
  /-- Every graph had been asked to close before the first wait began. -/
  asked : a.askAll.Waited waits a'
  ok_iff : r = .ok () ↔ ∀ w ∈ waits, w.2 = .ok ()
  /-- A failure is the first of those that came. -/
  error_iff : ∀ err, r = .error err ↔
    ∃ before graph after, waits = before ++ (graph, .error err) :: after ∧
      ∀ w ∈ before, w.2 = .ok ()
  /-- A wait fails only by lasting too long. -/
  tooLate_of_error : ∀ w ∈ waits, ∀ err, w.2 = .error err →
    ∃ d, a.closeTimeout = some d ∧ err = tooLate w.1 d
  /-- A graph that had closed already is waited for without complaint. -/
  ok_of_isClosed : ∀ w ∈ waits, a.isClosed w.1 = true → w.2 = .ok ()
  /-- So is a graph whose engine was gone. -/
  ok_of_isOver : ∀ w ∈ waits, a.isOver w.1 = true → w.2 = .ok ()
  /-- A graph that has been waited for without complaint has closed, or its engine is gone. -/
  isOver_of_ok : ∀ w ∈ waits, w.2 = .ok () → a'.isOver w.1 = true

/-- Waits for all graphs, begun after everybody has been asked, are what closing an app comes to.
Each part of that is a lemma about waits. -/
lemma waitedForAll_of_waited (hall : (waits.map Prod.fst).Perm a.held)
    (h : a.askAll.Waited waits a') : a.WaitedForAll waits a' (firstFailure waits) where
  held := h.passes.held
  each := hall
  asked := h
  ok_iff := firstFailure_eq_ok_iff
  error_iff _ := firstFailure_eq_error_iff
  tooLate_of_error := h.tooLate_of_error
  ok_of_isClosed w hw hc := h.ok_of_isOver (a.passes_askAll.isOver (isOver_of_isClosed hc)) w hw rfl
  ok_of_isOver w hw ho := h.ok_of_isOver (a.passes_askAll.isOver ho) w hw rfl
  isOver_of_ok := h.isOver_of_ok

/-- The answer follows from the waits. -/
lemma WaitedForAll.eq_firstFailure (h : a.WaitedForAll waits a' r) : r = firstFailure waits := by
  cases r with
  | ok u => exact (firstFailure_eq_ok_iff.2 (h.ok_iff.1 rfl)).symm
  | error err => exact (firstFailure_eq_error_iff.2 ((h.error_iff err).1 rfl)).symm

/-- The operation of apps asks all graphs, waits for them as they are held, and logs that. -/
lemma close_waitAll (hheld : a.held.Nodup) :
    a.close.2 = (a.askAll.waitAll a.held).2 ∧
      a.close.1.held = (a.askAll.waitAll a.held).1.held ∧
      ∀ graph, a.close.1.isOver graph = (a.askAll.waitAll a.held).1.isOver graph := by
  rw [close, foldl_requestClose_eq_askAll hheld (.refl _)]
  generalize a.askAll.waitAll a.held = waited
  obtain ⟨a₁, _ | r⟩ := waited
  · exact ⟨rfl, rfl, fun _ => rfl⟩
  · exact ⟨rfl, rfl, fun _ => rfl⟩

/-- **Closing an app waits for everything that it holds.** Let an app hold any graphs, each of them
once, and let them do whatever they want while it waits. A call that closes all graphs lets go of
them, asks every one to close before it waits for the first, and waits for every one, even after one
that has failed. It succeeds if every wait does, and else fails as the first wait has that failed,
for lasting too long. Graphs that had closed before do not fail. Whatever waits of this kind there
are, in any order, the call may have them. The operation of apps is such a call. It returns always
if the time is bounded, and otherwise unless some graph that was held stays live with its engine.

**Proof sketch.** In whatever order the graphs are asked, it comes to the same, so that a call is
the asking and a list of waits, and its answer is what these come to. The operation waits in the
order in which the graphs are held. It does not come back only when one of its waits does not. -/
theorem close_waits_for_all (hheld : a.held.Nodup) :
    (∀ r a', a.Does (.closedAll r) a' ↔ ∃ waits, a.WaitedForAll waits a' r) ∧
    a.close.1.held = [] ∧
    (∀ r, a.close.2 = some r → ∃ waits, a.WaitedForAll waits a.close.1 r) ∧
    (a.close.2 = none →
      a.closeTimeout = none ∧ ∃ graph ∈ a.held, a.close.1.isOver graph = false) := by
  have hdoes (r : Except Error Unit) (a' : App) :
      a.Does (.closedAll r) a' ↔ ∃ waits, a.WaitedForAll waits a' r := by
    constructor
    · intro h
      cases h with
      | closesAll hall hw =>
        rw [foldl_requestClose_eq_askAll hheld hall] at hw
        obtain ⟨waits, hwaited, rfl, rfl⟩ := waitsAll_iff.1 hw
        exact ⟨waits, waitedForAll_of_waited hall hwaited⟩
    · rintro ⟨waits, h⟩
      refine .closesAll h.each ?_
      rw [foldl_requestClose_eq_askAll hheld h.each]
      exact waitsAll_iff.2 ⟨waits, h.asked, rfl, h.eq_firstFailure⟩
  obtain ⟨hanswer, hnothing, hover⟩ := close_waitAll hheld
  refine ⟨hdoes, hnothing.trans (a.askAll.waitAll_passes a.held).held,
    fun r hr => (hdoes r _).1 (close_does (Prod.ext rfl hr)), fun hnone => ?_⟩
  obtain ⟨htimeout, graph, hg, hlive⟩ := live_of_waitAll_eq_none (hanswer.symm.trans hnone)
  exact ⟨htimeout, graph, hg, (hover graph).trans hlive⟩

/-- An app that holds a graph that never closes, one that does, and one that has closed. -/
def mixedApp : App :=
  let first := ((create hasty stubbornAddons .willing).start "1" "" stubbornGraph).1
  let both := (first.start "2" "" ⟨[], []⟩).1
  ((both.start "3" "" ⟨[], []⟩).1.requestClose "3").settle

/-- The app closes as its graphs do, computed step by step. -/
lemma mixedApp_close :
    (mixedApp.held = ["1", "2", "3"] ∧ mixedApp.isClosed "1" = false ∧
      mixedApp.isClosed "2" = false ∧ mixedApp.isClosed "3" = true) ∧
    mixedApp.close.2 = some (.error (tooLate "1" (.ofMillis 100))) ∧
      mixedApp.close.1.isClosed "2" = true := by
  decide +kernel

/-- The first graph does not close in time, and still the others are waited for. -/
theorem close_waits_for_all_mixed :
    let late := .error (tooLate "1" (.ofMillis 100))
    mixedApp.held = ["1", "2", "3"] ∧
    (mixedApp.isClosed "1" = false ∧ mixedApp.isClosed "2" = false ∧
      mixedApp.isClosed "3" = true) ∧
    mixedApp.close.2 = some late ∧
    ∃ waits, mixedApp.WaitedForAll waits mixedApp.close.1 late ∧ waits.length = 3 := by
  intro late
  obtain ⟨⟨hheld, hlive⟩, hr, -⟩ := mixedApp_close
  have hnodup : mixedApp.held.Nodup := by
    rw [hheld]
    decide
  obtain ⟨waits, hwaits⟩ := (close_waits_for_all hnodup).2.2.1 late hr
  have hlen := hwaits.each.length_eq
  rw [List.length_map, hheld] at hlen
  exact ⟨hheld, hlive, hr, waits, hwaits, hlen⟩

end App

end ExtensionGraph
