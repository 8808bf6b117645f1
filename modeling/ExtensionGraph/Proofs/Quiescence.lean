import ExtensionGraph.Proofs.Evolution

/-!
# A closed graph is quiet

Whoever is told that a graph is closed may rely on it that nothing of the graph goes on any more.
Every thread that was ever started has taken its extensions through their whole lifecycle, has
reported and has been waited for, and from then on no move of anybody changes a worker or starts
another one. The threads of a closed graph may have been running, waiting or late, but each of them
had to leave the list, and the ledger says what that takes.

## Main definitions

* `ExtensionGraph.Worker.Finished` — a thread that has come to its end and has been waited for.
* `ExtensionGraph.Engine.Quiet` — an engine none of whose threads is at work.

## Main results

* `ExtensionGraph.Engine.Sound.quiet` — the threads of a closed graph have come to their ends.
* `ExtensionGraph.Engine.Sound.isOver_iff` — when nobody waits for a graph any more.
* `ExtensionGraph.Engine.Sound.final` — no move changes a closed graph.
* `ExtensionGraph.Engine.closed_quiescent` — both, for every run.
-/

namespace ExtensionGraph

/-- The thread has made all lifecycle calls of its extensions, none of which is still being made,
has ended and has been waited for. -/
structure Worker.Finished (w : Worker) : Prop where
  ended : w.stage = .ended
  joined : w.hungUp = true
  idle : w.active = none
  tickers : w.tickers = []
  calls : w.hookCalls = Worker.lifecycle w.roster

namespace Engine

/-- No thread is listed, and every thread that was started has come to its end and has been heard of
once. -/
structure Quiet (heard : List EngineMsg) (e : Engine) : Prop where
  threads : e.context.threads = []
  finished : ∀ w ∈ e.host.workers, w.Finished
  reported : ∀ w ∈ e.host.workers, reportsOf w.id heard = 1

variable {e e' : Engine} {heard : List EngineMsg}

/-- The threads of a closed graph have come to their ends. -/
theorem Sound.quiet (h : e.Sound heard) (hc : e.context.phase = .closed) : e.Quiet heard := by
  have hthreads : e.context.threads = [] := h.steady.context.threads_eq_nil hc
  have hgone : ∀ w ∈ e.host.workers,
      w.stage = .ended ∧ w.hungUp = true ∧ reportsOf w.id heard = 1 := by
    intro w hw
    have hacc := h.ledger (not_isDown_of_closed hc) w.id
    rw [Context.handle?, hthreads, atKey?_nil, atKey?_of_mem h.idsNodup hw] at hacc
    obtain ⟨-, hended, hhung, hheard, -⟩ := hacc
    exact ⟨hended, hhung, hheard⟩
  refine ⟨hthreads, fun w hw => ?_, fun w hw => (hgone w hw).2.2⟩
  obtain ⟨hended, hhung, -⟩ := hgone w hw
  obtain ⟨hcalls, hactive, -, htickers⟩ := (h.workers w hw).hookCalls_of_ended hended
  exact ⟨hended, hhung, hactive, htickers, hcalls⟩

/-- Whoever waits for the end of a graph is told when it comes. -/
lemma Sound.isClosed_iff (h : e.Sound heard) : e.context.phase = .closed ↔ e.isClosed = true := by
  unfold isClosed
  rw [h.steady.announced, Context.ended, Context.isClosed]
  by_cases hc : e.context.phase = .closed
  · simp [hc]
  · simp [hc]

/-- Somebody who waits for the end of a graph stops waiting when it comes, and otherwise only when
the engine goes down. An engine that has stopped listening has either closed its graph or gone down
before that. -/
lemma Sound.isOver_iff (h : e.Sound heard) : e.isOver = true ↔ e.isClosed = true ∨ e.IsDown := by
  unfold isOver
  rw [Bool.or_eq_true, Bool.not_eq_true', ← h.isClosed_iff]
  constructor
  · rintro (hc | hdeaf)
    · exact .inl hc
    · by_cases hc : e.context.phase = .closed
      · exact .inl hc
      · exact .inr ⟨hdeaf, hc⟩
  · exact Or.imp_right And.left

/-- No move changes the context or a worker of a closed graph, or takes a message.

**Proof sketch.** The engine does not take messages any more. A worker that has ended makes no step,
cannot fail to begin, and has no ticker. Groups that are finished and wishes from outside end at the
mailbox. -/
lemma Sound.final_move (h : e.Sound heard) (hc : e.context.phase = .closed) {m : Move}
    (hm : e.move? m = some e') :
    e'.context = e.context ∧ e'.host.workers = e.host.workers ∧ e.taken? m = none := by
  have hquiet := h.quiet hc
  have hgone : ∀ w ∈ e.host.workers, w.isGone = true := by
    intro w hw
    simp [Worker.isGone, (hquiet.finished w hw).ended]
  cases moves_of_move? hm with
  | handles hopen => exact absurd hc hopen
  | works hw hs =>
    have hmem := List.mem_of_getElem? hw
    rw [(h.workers _ hmem).step?_of_gone (hgone _ hmem)] at hs
    cases hs
  | beats hw hk =>
    rw [(hquiet.finished _ (List.mem_of_getElem? hw)).tickers] at hk
    exact absurd hk (Nat.not_lt_zero _)
  | aborts hw hs =>
    have hfirst := (Worker.abort?_eq hs).1
    rw [(hquiet.finished _ (List.mem_of_getElem? hw)).ended] at hfirst
    cases hfirst
  | completes | sends | refuses | closes => exact ⟨rfl, rfl, rfl⟩

/-- Whatever goes on after a graph has closed changes nothing of it. -/
theorem Sound.final (h : e.Sound heard) (hc : e.context.phase = .closed) {moves : List Move}
    {taken : List EngineMsg} (hp : e.play moves = some (taken, e')) :
    e'.context = e.context ∧ e'.host.workers = e.host.workers ∧ taken = [] := by
  induction moves generalizing e heard taken with
  | nil =>
    cases hp
    exact ⟨rfl, rfl, rfl⟩
  | cons m moves ih =>
    obtain ⟨e₁, taken₁, hm, hrest, rfl⟩ := play_cons.1 hp
    obtain ⟨hcontext, hworkers, htaken⟩ := h.final_move hc hm
    obtain ⟨hcontext', hworkers', htaken'⟩ := ih (h.move hm) (by rw [hcontext]; exact hc) hrest
    refine ⟨hcontext'.trans hcontext, hworkers'.trans hworkers, ?_⟩
    rw [htaken, htaken']
    rfl

/-- **Closed means quiescent.** Take any run in which every thread finds its runtime. The graph is
closed exactly when whoever waits for that has been told. Once it is closed, every thread that was
started at any time of the run is still among the workers with the extensions that it had, has taken
all of them through their whole lifecycle and has been waited for. Whatever goes on afterwards, the
engine takes no message, no worker changes, which is to say that no extension is called, and no
other worker is started.

**Proof sketch.** A closed engine has an empty list of threads, so that its ledger says of every
worker that it has ended and has been waited for. A worker that has ended takes no step, and nobody
posts to an engine that does not listen. That the earlier threads are still there is
`play_later`. -/
theorem closed_quiescent {link : Link} {moves : List Move} {taken : List EngineMsg}
    (hp : (start link).1.play moves = some (taken, e))
    (hruntime : ∀ place reason, Move.abort place reason ∉ moves) :
    (e.context.phase = .closed ↔ e.isClosed = true) ∧
    (e.context.phase = .closed →
      e.Quiet taken ∧
      (∀ before after taken₁ e₁, moves = before ++ after →
        (start link).1.play before = some (taken₁, e₁) → ∀ w₁ ∈ e₁.host.workers,
          ∃ w ∈ e.host.workers, w.id = w₁.id ∧ w.roster = w₁.roster) ∧
      ∀ moves' taken' e', e.play moves' = some (taken', e') →
        e'.context = e.context ∧ e'.host.workers = e.host.workers ∧ taken' = []) := by
  have hs := sound_of_play hp
  refine ⟨hs.isClosed_iff, fun hc => ⟨hs.quiet hc, ?_, fun moves' taken' e' hp' => hs.final hc hp'⟩⟩
  intro before after taken₁ e₁ hmoves h₁ w₁ hw₁
  subst hmoves
  obtain ⟨taken₂, e₂, taken₃, h₂, h₃, -⟩ := play_append.1 hp
  rw [h₁] at h₂
  cases h₂
  have hlater := play_later False h₃ fun place reason hmem =>
    hruntime place reason (List.mem_append_right _ hmem)
  obtain ⟨w, hw, hev⟩ := hlater w₁ hw₁
  exact ⟨w, hw, hev.id, hev.roster⟩

/-- A run of a graph with one extension, from its start to the report of its thread. -/
def oneExtensionRun : List Move :=
  [.complete 0, .handle] ++ List.replicate 5 (.work 0) ++ [.close, .handle] ++
    List.replicate 7 (.work 0)

set_option maxRecDepth 4000 in
/-- When the engine takes the report, the graph is closed, and the extension has gone through its
lifecycle. -/
theorem closed_quiescent_oneExtension :
    ∃ taken e,
      (start (oneExtension .idle)).1.play (oneExtensionRun ++ [.handle]) = some (taken, e) ∧
      e.context.phase = .closed ∧ e.Quiet taken ∧
      ∃ w ∈ e.host.workers, w.hookCalls =
        [("only", .init), ("only", .start), ("only", .stop), ("only", .deinit)] := by
  have hbefore : ((start (oneExtension .idle)).1.play oneExtensionRun).map (fun r =>
      (r.2.context.phase, r.2.context.threads.map (·.id), r.2.host.mailbox.messages.map
        EngineMsg.report?, r.2.host.workers.map Worker.roster)) =
      some (.closing, [⟨1⟩], [some ⟨1⟩], [["only"]]) := by rfl
  obtain ⟨⟨taken₀, e₀⟩, h₀, hsum⟩ := Option.map_eq_some_iff.1 hbefore
  simp only [Prod.mk.injEq] at hsum
  obtain ⟨hphase, hids, hreports, hrosters⟩ := hsum
  obtain ⟨t, hthreads, hid⟩ := List.map_eq_singleton_iff.1 hids
  obtain ⟨m, hmessages, hreport⟩ := List.map_eq_singleton_iff.1 hreports
  obtain ⟨w₀, hworkers, hroster⟩ := List.map_eq_singleton_iff.1 hrosters
  obtain rfl : m = .threadClosed t.id := by
    cases m with
    | threadClosed id =>
      rw [hid]
      exact congrArg EngineMsg.threadClosed (Option.some.inj hreport)
    | created | route | close => cases hreport
  -- The engine takes the report, which is the last thing that happens.
  have htake : e₀.host.mailbox.take? =
      some (.threadClosed t.id, { e₀.host.mailbox with messages := [] }) := by
    unfold Mailbox.take?
    rw [hmessages]
  have hopen : e₀.context.phase ≠ .closed := by
    rw [hphase]
    simp
  obtain ⟨e, hmove, hcontext⟩ : ∃ e, e₀.move? .handle = some e ∧
      e.context = (e₀.context.handle (.threadClosed t.id)).1 := by
    refine ⟨_, ?_, handle_context
      { e₀ with host := { e₀.host with mailbox := { e₀.host.mailbox with messages := [] } } } _⟩
    simp only [move?, htake, Context.isClosed_eq_false hopen]
    rfl
  have hplay : (start (oneExtension .idle)).1.play (oneExtensionRun ++ [.handle]) =
      some (taken₀ ++ ((e₀.taken? .handle).toList ++ []), e) :=
    play_append.2 ⟨taken₀, e₀, _, h₀, play_cons.2 ⟨e, [], hmove, rfl, rfl⟩, rfl⟩
  have hclosed : e.context.phase = .closed := by
    rw [hcontext]
    refine ((sound_of_play h₀).steady.context.closed_handle_iff hopen _).2
      (.inr ⟨t, rfl, hphase, ?_⟩)
    exact hthreads
  have hruntime : ∀ place reason, Move.abort place reason ∉ oneExtensionRun ++ [.handle] := by
    intro place reason hmem
    simp [oneExtensionRun] at hmem
  obtain ⟨-, hall⟩ := closed_quiescent hplay hruntime
  obtain ⟨hquiet, hkept, -⟩ := hall hclosed
  refine ⟨_, e, hplay, hclosed, hquiet, ?_⟩
  obtain ⟨w, hw, -, hr⟩ := hkept oneExtensionRun [.handle] taken₀ e₀ rfl h₀ w₀
    (by rw [hworkers]; exact List.mem_singleton_self _)
  refine ⟨w, hw, ?_⟩
  rw [(hquiet.finished w hw).calls, hr, hroster]
  rfl

end Engine

end ExtensionGraph
