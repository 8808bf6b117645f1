import ExtensionGraph.Proofs.AppRuns
import ExtensionGraph.Proofs.Quiescence

/-!
# Graphs that an app loses sight of

An app lists the graphs that it holds and that have not closed. A call that closes a graph lets go
of it before it waits for it. If the graph does not close in time, the call tells so, but the graph
is live and not listed any more, and a later call that closes all graphs does not wait for it.

This is the only way in which an app loses sight of a live graph, as long as the engine of the graph
is up. Nobody waits for a graph whose engine has gone down with a panic: a call that closes such a
graph lets go of it and succeeds, and until then the app lists it.

## Main definitions

* `ExtensionGraph.App.Call.LetsGo`, `ExtensionGraph.App.Call.TimesOut` — calls that let go of a
  graph, and calls that have waited for too long.
* `ExtensionGraph.App.Lost` — a graph has been lost sight of.
* `ExtensionGraph.App.Faithful` — what an app knows about the graphs that were started.

## Main results

* `ExtensionGraph.App.sound_of_runs` — every graph of an app runs in good order.
* `ExtensionGraph.App.faithful_of_runs` — no call makes an app hold the wrong graphs.
* `ExtensionGraph.App.Runs.in_sight_unless_lost` — which graphs are listed, and which may be live
  after all of them have been closed.
* `ExtensionGraph.App.out_of_sight` — a live graph that is not listed, and not waited for.
-/

namespace ExtensionGraph

namespace App

variable {config : Config} {registry : Registry} {spawner : Spawner}
  {history later more mid rest : List Call} {a a' : App} {call : Call} {graph name : String}
  {graphs : List String} {g : GraphDefinition} {r : Except Error Unit} {d : Duration}
  {timeout : Option Duration}

/-! ## Calls that let go of graphs -/

/-- A call after which the app does not hold a graph. -/
def Call.LetsGo (graph : String) : Call → Prop
  | .closedGraph graph' _ => graph' = graph
  | .closedAll _ => True
  | .started _ | .startFailed _ _ | .listed _ => False

/-- A call that has waited for too long. -/
def Call.TimesOut (d : Duration) : Call → Prop
  | .closedGraph graph r => r = .error (tooLate graph d)
  | .closedAll r => ∃ graph, r = .error (tooLate graph d)
  | .started _ | .startFailed _ _ | .listed _ => False

/-- A graph has been lost sight of: the first call that lets go of it has waited for too long. -/
inductive Lost (timeout : Option Duration) (graph : String) : List Call → Prop
  | timesOut {call : Call} {later : List Call} {d : Duration} (hgo : call.LetsGo graph)
      (hd : timeout = some d) (hout : call.TimesOut d) : Lost timeout graph (call :: later)
  | later {call : Call} {later : List Call} (hkeep : ¬ call.LetsGo graph)
      (h : Lost timeout graph later) : Lost timeout graph (call :: later)

/-- What is lost remains lost. -/
lemma Lost.append (h : Lost timeout graph later) (more : List Call) :
    Lost timeout graph (later ++ more) := by
  induction h with
  | timesOut hgo hd hout => exact .timesOut hgo hd hout
  | later hkeep _ ih => exact .later hkeep ih

/-- What is lost after calls that have not let go of it is lost. -/
lemma Lost.of_kept (h : Lost timeout graph more) (hkept : ∀ call ∈ later, ¬ call.LetsGo graph) :
    Lost timeout graph (later ++ more) := by
  induction later with
  | nil => exact h
  | cons call later ih =>
    obtain ⟨hkeep, hkept⟩ := List.forall_mem_cons.1 hkept
    exact .later hkeep (ih hkept)

/-- A call that has closed all graphs loses none: what is lost was lost before it. -/
lemma Lost.before_close (h : Lost timeout graph (mid ++ .closedAll (.ok ()) :: rest)) :
    Lost timeout graph mid := by
  induction mid with
  | nil =>
    cases h with
    | @timesOut _ _ d _ _ hout =>
      obtain ⟨graph', hr⟩ : ∃ graph', Except.ok () = .error (tooLate graph' d) := hout
      cases hr
    | later hkeep => exact absurd trivial hkeep
  | cons call mid ih =>
    cases h with
    | timesOut hgo hd hout => exact .timesOut hgo hd hout
    | later hkeep h => exact .later hkeep (ih h)

/-- A graph that no call has let go of before is lost with a call that does and takes too long. -/
lemma lost_of_timesOut (hkept : ∀ call ∈ later, ¬ call.LetsGo graph) (hgo : call.LetsGo graph)
    (hd : timeout = some d) (hout : call.TimesOut d) : Lost timeout graph (later ++ [call]) :=
  (Lost.timesOut hgo hd hout).of_kept hkept

/-! ## Graphs through calls -/

/-- Every graph is still there, and has made moves; there may be new ones. -/
def Keeps (a a' : App) : Prop :=
  ∀ graph e, a.engine? graph = some e → ∃ e', a'.engine? graph = some e' ∧ e.Proceeds e'

/-- An app that only lets its engines move on keeps them. -/
lemma Passes.keeps (h : a.Passes a') : a.Keeps a' := by
  intro graph e he
  have hrel := h.engine?_rel graph
  rw [he] at hrel
  generalize a'.engine? graph = e' at hrel
  cases hrel with
  | some hp => exact ⟨_, rfl, hp⟩

/-- A new engine leaves the former ones as they are. -/
lemma keeps_concat {es : List Engine} (h : a'.engines = a.engines ++ es) : a.Keeps a' := by
  intro graph e he
  refine ⟨e, ?_, .refl e⟩
  unfold engine? at he ⊢
  rw [h, List.find?_append, he, Option.some_or]

/-- A graph that an app has known remains known. -/
lemma Keeps.isSome (h : a.Keeps a') (hknown : (a.engine? graph).isSome) :
    (a'.engine? graph).isSome := by
  obtain ⟨e, he⟩ := Option.isSome_iff_exists.1 hknown
  obtain ⟨e', he', -⟩ := h graph e he
  exact Option.isSome_iff_exists.2 ⟨e', he'⟩

/-- A graph is not closed exactly if there is an engine for it which is not closed. -/
lemma isClosed_eq_false_iff :
    a.isClosed graph = false ↔ ∃ e, a.engine? graph = some e ∧ e.isClosed = false := by
  unfold isClosed
  cases a.engine? graph <;> simp

/-- A graph that was there and is live was live before. -/
lemma Keeps.isClosed_eq_false (h : a.Keeps a') (hknown : (a.engine? graph).isSome)
    (hlive : a'.isClosed graph = false) : a.isClosed graph = false := by
  obtain ⟨e, he⟩ := Option.isSome_iff_exists.1 hknown
  obtain ⟨e', he', hp⟩ := h graph e he
  obtain ⟨e'', he'', hlive⟩ := isClosed_eq_false_iff.1 hlive
  obtain rfl := Option.some.inj (he'.symm.trans he'')
  refine isClosed_eq_false_iff.2 ⟨e, he, Bool.eq_false_iff.2 fun hc => ?_⟩
  exact Bool.eq_false_iff.1 hlive (hp.isClosed hc)

/-- A graph is to be waited for if it is live and its engine listens. -/
lemma isOver_eq_false_iff :
    a.isOver graph = false ↔
      ∃ e, a.engine? graph = some e ∧ e.isClosed = false ∧ e.host.mailbox.listening = true := by
  unfold isOver Engine.isOver
  cases a.engine? graph <;> simp

/-- A graph that is not over is not closed. -/
lemma isClosed_of_isOver_eq_false (h : a.isOver graph = false) : a.isClosed graph = false := by
  obtain ⟨e, he, hopen, -⟩ := isOver_eq_false_iff.1 h
  exact isClosed_eq_false_iff.2 ⟨e, he, hopen⟩

/-- A graph that was there and is to be waited for had to be waited for before. -/
lemma Keeps.isOver_eq_false (h : a.Keeps a') (hknown : (a.engine? graph).isSome)
    (hlive : a'.isOver graph = false) : a.isOver graph = false := by
  obtain ⟨e, he⟩ := Option.isSome_iff_exists.1 hknown
  obtain ⟨e', he', hp⟩ := h graph e he
  unfold isOver at hlive ⊢
  rw [he'] at hlive
  rw [he]
  exact Bool.eq_false_iff.2 fun ho => Bool.eq_false_iff.1 hlive (hp.isOver ho)

/-- Waiting for a graph that is to be waited for even afterwards has taken too long. -/
lemma Waits.timesOut (h : a.Waits graph a' r) (hlive : a'.isOver graph = false) :
    ∃ d, a.closeTimeout = some d ∧ r = .error (tooLate graph d) := by
  obtain ⟨-, ⟨ho, -⟩ | ⟨-, hd⟩⟩ := h
  · rw [hlive] at ho
    cases ho
  · exact hd

/-- So has waiting for several graphs if one of them is to be waited for afterwards.

**Proof sketch.** By induction over the waits. The graph in question cannot have been waited for
with success, and the first failure is what counts. -/
lemma WaitsAll.timesOut (h : a.WaitsAll graphs a' r) (hmem : graph ∈ graphs)
    (hlive : a'.isOver graph = false) :
    ∃ d, a.closeTimeout = some d ∧ ∃ graph', r = .error (tooLate graph' d) := by
  induction h with
  | nil => cases hmem
  | @closes a a₁ a' graph' graphs r hw hrest ih =>
    rcases List.mem_cons.1 hmem with rfl | hmem
    · obtain ⟨d, -, hr⟩ := hw.timesOut (hrest.passes.isOver_eq_false hlive)
      cases hr
    · obtain ⟨d, hd, hr⟩ := ih hmem hlive
      exact ⟨d, hw.1.closeTimeout.symm.trans hd, hr⟩
  | @fails a a₁ a' graph' graphs r err hw _ _ =>
    obtain ⟨-, ⟨-, hr⟩ | ⟨-, d, hd, hr⟩⟩ := hw
    · cases hr
    · exact ⟨d, hd, graph', hr⟩

/-- A start adds at most one engine, which has just been started, and changes no other. Whether it
succeeds or fails is all the same for that: the engine of a failed start goes on until it has closed
its graph.

**Proof sketch.** A graph that is refused adds nothing. Otherwise there is a new engine, whether its
start succeeds or fails. -/
lemma start_engines (h : a.start graph name g = (a', r)) :
    a'.engines = a.engines ∨ ∃ link, a'.engines = a.engines ++ [(Engine.start link).1] := by
  unfold start at h
  split at h
  · cases h
    exact .inl rfl
  · next s hs =>
    right
    refine ⟨.ofStart a.info a.registry a.spawner (s.withName name), ?_⟩
    split at h
    · next he =>
      cases h
      rw [he]
    · next he =>
      cases h
      rw [he]
      rfl

/-- A graph that has been started is held, with the ones that were held and have not closed.

**Proof sketch.** Only a start that succeeds gives a held graph, and the new engine has the id under
which the graph was started. -/
lemma start_eq_ok (h : a.start graph name g = (a', .ok ())) :
    ∃ e, e.graph = graph ∧ a'.engines = a.engines ++ [e] ∧ a'.closeTimeout = a.closeTimeout ∧
      a'.held = (a.held.filter fun graph => !a'.isClosed graph) ++ [graph] := by
  unfold start at h
  split at h
  · cases h
  · next s hs =>
    split at h
    · cases h
    · next e he =>
      cases h
      refine ⟨e, ?_, rfl, rfl, rfl⟩
      have hlink := (Engine.start_frame (.ofStart a.info a.registry a.spawner (s.withName name))).1
      rw [he] at hlink
      obtain ⟨-, rfl⟩ := StartGraph.ofDefinition_eq_ok hs
      exact congrArg Link.graph hlink

/-- A start that fails leaves the graphs that are held as they are. -/
lemma start_eq_error {err : Error} (h : a.start graph name g = (a', .error err)) :
    a'.held = a.held ∧ a'.closeTimeout = a.closeTimeout ∧ a.Keeps a' := by
  unfold start at h
  split at h
  · cases h
    exact ⟨rfl, rfl, (Passes.refl a).keeps⟩
  · split at h
    · cases h
      exact ⟨rfl, rfl, keeps_concat rfl⟩
    · cases h

/-! ## The engines of an app -/

/-- Moves keep an engine in order. -/
lemma Passes.sound (h : a.Passes a') (hs : ∀ e ∈ a.engines, ∃ heard, e.Sound heard) :
    ∀ e ∈ a'.engines, ∃ heard, e.Sound heard := by
  have hall := h.engines
  generalize a.engines = es at hall hs
  generalize a'.engines = es' at hall ⊢
  induction hall with
  | nil => exact hs
  | cons hp _ ih =>
    obtain ⟨⟨heard, hsound⟩, hs⟩ := List.forall_mem_cons.1 hs
    obtain ⟨moves, taken, hp⟩ := hp
    exact List.forall_mem_cons.2 ⟨⟨_, hsound.play hp⟩, ih hs⟩

/-- No call brings an engine out of order.

**Proof sketch.** By the kind of the call. A start adds an engine in order, and to wait is to make
moves, which keep engines in order. -/
lemma Does.sound (h : a.Does call a') (hs : ∀ e ∈ a.engines, ∃ heard, e.Sound heard) :
    ∀ e ∈ a'.engines, ∃ heard, e.Sound heard := by
  have hstart {graph name : String} {g : GraphDefinition} {r : Except Error Unit}
      (h : a.start graph name g = (a', r)) : ∀ e ∈ a'.engines, ∃ heard, e.Sound heard := by
    rcases start_engines h with hengines | ⟨link, hengines⟩
    · rwa [hengines]
    · rw [hengines]
      exact List.forall_mem_append.2
        ⟨hs, List.forall_mem_singleton.2 ⟨[], Engine.sound_start link⟩⟩
  cases h with
  | starts _ h => exact hstart h
  | refuses _ h => exact hstart h
  | lists => exact hs
  | @closes graph _ _ _ _ hw =>
    have hasked := { a with held := a.held.erase graph }.passes_requestClose graph
    exact (hasked.trans hw.1).sound hs
  | misses => exact hs
  | @closesAll graphs _ _ _ hw =>
    have hasked := passes_foldl_requestClose { a with held := [] } graphs
    exact (hasked.trans hw.passes).sound hs

/-- **Every graph of an app runs in good order**, whatever the app has been called for. -/
theorem sound_of_runs (h : Runs config registry spawner history a) :
    ∀ e ∈ a.engines, ∃ heard, e.Sound heard := by
  induction h with
  | created => exact fun e he => nomatch he
  | passes _ hp ih => exact hp.sound ih
  | does _ hd ih => exact hd.sound ih

/-! ## What an app knows -/

/-- The last of some calls was made after a graph was started, or it has started the graph. -/
lemma concat_eq_append_cons {before : List Call} {first : Call}
    (h : history ++ [call] = before ++ first :: later) :
    (history = before ∧ call = first ∧ later = []) ∨
      ∃ later', later = later' ++ [call] ∧ history = before ++ first :: later' := by
  rcases later.eq_nil_or_concat with rfl | ⟨later', last, rfl⟩
  · obtain ⟨hb, hc⟩ := List.append_inj' h rfl
    exact .inl ⟨hb, List.singleton_inj.1 hc, rfl⟩
  · rw [List.concat_eq_append, ← List.cons_append, ← List.append_assoc] at h
    obtain ⟨hb, hc⟩ := List.append_inj' h rfl
    obtain rfl := List.singleton_inj.1 hc
    exact .inr ⟨later', List.concat_eq_append, hb⟩

/-- What an app knows about the graphs that have been started: it holds no others, and it holds each
of them that is live until a call lets go of it. That call has taken too long, unless the graph is
not to be waited for. -/
structure Faithful (config : Config) (history : List Call) (a : App) : Prop where
  closeTimeout : a.closeTimeout = config.closeTimeout
  nodup : a.held.Nodup
  started : ∀ graph ∈ a.held, .started graph ∈ history
  known : ∀ graph, .started graph ∈ history → (a.engine? graph).isSome
  kept : ∀ before graph later, history = before ++ .started graph :: later →
    a.isClosed graph = false → (graph ∈ a.held ↔ ∀ call ∈ later, ¬ call.LetsGo graph)
  lost : ∀ before graph later, history = before ++ .started graph :: later →
    a.isOver graph = false → graph ∉ a.held → Lost config.closeTimeout graph later

namespace Faithful

/-- A new app has started nothing and lists nothing. -/
lemma created (config : Config) (registry : Registry) (spawner : Spawner) :
    Faithful config [] (create config registry spawner) where
  closeTimeout := rfl
  nodup := .nil
  started _ hg := nomatch hg
  known _ hg := nomatch hg
  kept before _ _ hh := by cases before <;> cases hh
  lost before _ _ hh := by cases before <;> cases hh

/-- Time passing changes nothing about it. -/
lemma passes (h : Faithful config history a) (hp : a.Passes a') : Faithful config history a' where
  closeTimeout := hp.closeTimeout.trans h.closeTimeout
  nodup := hp.held.symm ▸ h.nodup
  started := hp.held.symm ▸ h.started
  known graph hg := hp.keeps.isSome (h.known graph hg)
  kept before graph later hh hlive :=
    hp.held.symm ▸ h.kept before graph later hh (hp.isClosed_eq_false hlive)
  lost before graph later hh hlive :=
    hp.held.symm ▸ h.lost before graph later hh (hp.isOver_eq_false hlive)

/-- A call that starts no graph leaves an app faithful if it takes away exactly the live graphs that
it lets go of, and has taken too long when one of them is to be waited for.

**Proof sketch.** A graph that is held after the call was held before it, so no earlier call has let
go of it. If the graph is not held after the call, then either it was not held before it and is lost
already, or this is the first call that lets go of it. -/
lemma next (h : Faithful config history a) (hcall : ∀ graph, call ≠ .started graph)
    (htimeout : a'.closeTimeout = a.closeTimeout) (hkeeps : a.Keeps a')
    (hsub : a'.held.Sublist a.held)
    (hheld : ∀ graph ∈ a.held, a'.isClosed graph = false →
      (graph ∈ a'.held ↔ ¬ call.LetsGo graph))
    (hlate : ∀ graph ∈ a.held, a'.isOver graph = false → call.LetsGo graph →
      ∃ d, a.closeTimeout = some d ∧ call.TimesOut d) :
    Faithful config (history ++ [call]) a' where
  closeTimeout := htimeout.trans h.closeTimeout
  nodup := h.nodup.sublist hsub
  started graph hg := List.mem_append_left _ (h.started graph (hsub.subset hg))
  known graph hg := by
    rcases List.mem_append.1 hg with hg | hg
    · exact hkeeps.isSome (h.known graph hg)
    · exact absurd (List.mem_singleton.1 hg).symm (hcall graph)
  kept before graph later hh hlive := by
    rcases concat_eq_append_cons hh with ⟨-, hc, -⟩ | ⟨later, rfl, hb⟩
    · exact absurd hc (hcall graph)
    · have hknown := h.known graph (by rw [hb]; simp)
      have hkept := h.kept before graph later hb (hkeeps.isClosed_eq_false hknown hlive)
      rw [List.forall_mem_append, List.forall_mem_singleton, ← hkept]
      constructor
      · exact fun hg => ⟨hsub.subset hg, (hheld graph (hsub.subset hg) hlive).1 hg⟩
      · exact fun ⟨hg, hkeep⟩ => (hheld graph hg hlive).2 hkeep
  lost before graph later hh hlive hg := by
    rcases concat_eq_append_cons hh with ⟨-, hc, -⟩ | ⟨later, rfl, hb⟩
    · exact absurd hc (hcall graph)
    · have hknown := h.known graph (by rw [hb]; simp)
      have hlive₀ := hkeeps.isOver_eq_false hknown hlive
      by_cases hg₀ : graph ∈ a.held
      · have hgo : call.LetsGo graph := by
          by_contra hkeep
          exact hg ((hheld graph hg₀ (isClosed_of_isOver_eq_false hlive)).2 hkeep)
        obtain ⟨d, hd, hout⟩ := hlate graph hg₀ hlive hgo
        have hkept := (h.kept before graph later hb (isClosed_of_isOver_eq_false hlive₀)).1 hg₀
        exact lost_of_timesOut hkept hgo (h.closeTimeout.symm.trans hd) hout
      · exact (h.lost before graph later hb hlive₀ hg₀).append _

/-- A call that lets go of nothing leaves an app faithful if every live graph stays held. -/
lemma next_of_keeps (h : Faithful config history a) (hcall : ∀ graph, call ≠ .started graph)
    (htimeout : a'.closeTimeout = a.closeTimeout) (hkeeps : a.Keeps a')
    (hsub : a'.held.Sublist a.held)
    (hheld : ∀ graph ∈ a.held, a'.isClosed graph = false → graph ∈ a'.held)
    (hgo : ∀ graph ∈ a.held, ¬ call.LetsGo graph) : Faithful config (history ++ [call]) a' :=
  h.next hcall htimeout hkeeps hsub
    (fun graph hg hlive => iff_of_true (hheld graph hg hlive) (hgo graph hg))
    fun graph hg _ hgo' => absurd hgo' (hgo graph hg)

/-- A graph that is started is new to the app, which follows it from then on.

**Proof sketch.** The graph was not known, so no former call has started it: it comes last in the
history and in the list. For all other graphs, being listed and being lost are what they were
before, since only closed graphs are dropped from the list. -/
lemma starts (h : Faithful config history a)
    (hnew : a.engine? graph = none) (hs : a.start graph name g = (a', .ok ())) :
    Faithful config (history ++ [.started graph]) a' := by
  obtain ⟨e, he, hengines, htimeout, hheld⟩ := start_eq_ok hs
  have hkeeps : a.Keeps a' := keeps_concat hengines
  -- No former call has started this graph.
  have hother : ∀ graph', .started graph' ∈ history → graph' ≠ graph := by
    rintro graph' hg rfl
    have hknown := h.known graph' hg
    rw [hnew] at hknown
    cases hknown
  have hkept : ∀ graph' ∈ a'.held, graph' ≠ graph → graph' ∈ a.held := by
    intro graph' hg hne
    rw [hheld] at hg
    rcases List.mem_append.1 hg with hg | hg
    · exact (List.mem_filter.1 hg).1
    · exact absurd (List.mem_singleton.1 hg) hne
  constructor
  case closeTimeout => exact htimeout.trans h.closeTimeout
  case nodup =>
    rw [hheld, List.nodup_append_comm, List.singleton_append]
    refine (h.nodup.filter _).cons fun hg => ?_
    exact hother graph (h.started graph (List.mem_filter.1 hg).1) rfl
  case started =>
    intro graph' hg
    rcases eq_or_ne graph' graph with rfl | hne
    · exact List.mem_append_right _ (List.mem_singleton_self _)
    · exact List.mem_append_left _ (h.started graph' (hkept graph' hg hne))
  case known =>
    intro graph' hg
    rcases List.mem_append.1 hg with hg | hg
    · exact hkeeps.isSome (h.known graph' hg)
    · obtain ⟨⟩ := List.mem_singleton.1 hg
      unfold engine? at hnew ⊢
      rw [hengines, List.find?_append, hnew, Option.none_or, List.find?_isSome]
      exact ⟨e, List.mem_singleton_self e, decide_eq_true he⟩
  case kept =>
    intro before graph' later hh hlive
    rcases concat_eq_append_cons hh with ⟨-, hc, rfl⟩ | ⟨later, rfl, hb⟩
    · cases hc
      rw [hheld]
      exact iff_of_true (List.mem_append_right _ (List.mem_singleton_self _)) fun _ hc => nomatch hc
    · have hstarted : .started graph' ∈ history := by rw [hb]; simp
      have hkept' := h.kept before graph' later hb
        (hkeeps.isClosed_eq_false (h.known graph' hstarted) hlive)
      rw [List.forall_mem_append, List.forall_mem_singleton, ← hkept']
      refine ⟨fun hg => ⟨hkept graph' hg (hother graph' hstarted), id⟩, fun hg => ?_⟩
      rw [hheld]
      exact List.mem_append_left _ (List.mem_filter.2 ⟨hg.1, by rw [hlive]; rfl⟩)
  case lost =>
    intro before graph' later hh hlive hg
    rcases concat_eq_append_cons hh with ⟨-, hc, rfl⟩ | ⟨later, rfl, hb⟩
    · cases hc
      rw [hheld] at hg
      exact absurd (List.mem_append_right _ (List.mem_singleton_self _)) hg
    · have hstarted : .started graph' ∈ history := by rw [hb]; simp
      have hlive₀ := hkeeps.isOver_eq_false (h.known graph' hstarted) hlive
      refine (h.lost before graph' later hb hlive₀ fun hg₀ => hg ?_).append _
      rw [hheld]
      refine List.mem_append_left _ (List.mem_filter.2 ⟨hg₀, ?_⟩)
      rw [isClosed_of_isOver_eq_false hlive]
      rfl

/-- Whoever asks for a list lets the app forget the graphs that have closed. -/
lemma lists (h : Faithful config history a) :
    Faithful config (history ++ [.listed a.running.2]) a.running.1 := by
  refine h.next_of_keeps (fun _ => nofun) rfl (keeps_concat (List.append_nil _).symm)
    List.filter_sublist (fun graph hg hlive => ?_) fun _ _ => id
  change a.isClosed graph = false at hlive
  exact List.mem_filter.2 ⟨hg, by rw [hlive]; rfl⟩

/-- A graph that is closed is not held any more, and if it is to be waited for even then, that took
too long. -/
lemma closes (h : Faithful config history a)
    (hw : ({ a with held := a.held.erase graph }.requestClose graph).Waits graph a' r) :
    Faithful config (history ++ [.closedGraph graph r]) a' := by
  have hheld : a'.held = a.held.erase graph := hw.1.held
  have hasked := { a with held := a.held.erase graph }.passes_requestClose graph
  have hpasses := hasked.trans hw.1
  refine h.next (fun _ => nofun) hpasses.closeTimeout hpasses.keeps
    (hheld ▸ List.erase_sublist) (fun graph' hg hlive => ?_) ?_
  · rw [hheld, h.nodup.mem_erase_iff]
    exact ⟨fun hg' hgo => hg'.1 hgo.symm, fun hkeep => ⟨fun heq => hkeep heq.symm, hg⟩⟩
  · rintro _ - hlive rfl
    obtain ⟨d, hd, hr⟩ := hw.timesOut hlive
    exact ⟨d, hasked.closeTimeout.symm.trans hd, hr⟩

/-- A graph that is not found is not one that is held. -/
lemma misses (h : Faithful config history a) (hheld : a.held? graph = none) :
    Faithful config (history ++ [.closedGraph graph (notFound graph)]) a := by
  refine h.next_of_keeps (fun _ => nofun) rfl (Passes.refl a).keeps (.refl _)
    (fun _ hg _ => hg) ?_
  rintro _ hg rfl
  rw [held?, if_pos hg] at hheld
  have hknown := h.known _ (h.started _ hg)
  rw [hheld] at hknown
  cases hknown

/-- When all graphs have been closed none is held, and if one is to be waited for even then, some
graph took too long. -/
lemma closesAll (h : Faithful config history a) (hall : graphs.Perm a.held)
    (hw : (graphs.foldl requestClose { a with held := [] }).WaitsAll graphs a' r) :
    Faithful config (history ++ [.closedAll r]) a' := by
  have hasked := passes_foldl_requestClose { a with held := [] } graphs
  have hpasses := hasked.trans hw.passes
  have hheld : a'.held = [] := hpasses.held
  refine h.next (fun _ => nofun) hpasses.closeTimeout hpasses.keeps
    (hheld ▸ List.nil_sublist _) (fun graph hg hlive => ?_) fun graph hg hlive _ => ?_
  · rw [hheld]
    exact iff_of_false List.not_mem_nil (not_not_intro trivial)
  · obtain ⟨d, hd, hr⟩ := hw.timesOut (hall.mem_iff.2 hg) hlive
    exact ⟨d, hasked.closeTimeout.symm.trans hd, hr⟩

/-- No call makes an app unfaithful. -/
lemma does (h : Faithful config history a) (hd : a.Does call a') :
    Faithful config (history ++ [call]) a' := by
  cases hd with
  | starts hnew hs => exact h.starts hnew hs
  | refuses _ hs =>
    obtain ⟨hheld, htimeout, hkeeps⟩ := start_eq_error hs
    exact h.next_of_keeps (fun _ => nofun) htimeout hkeeps (hheld ▸ .refl _)
      (fun graph hg _ => hheld.symm ▸ hg) fun _ _ => id
  | lists => exact h.lists
  | closes _ hw => exact h.closes hw
  | misses hheld => exact h.misses hheld
  | closesAll hall hw => exact h.closesAll hall hw

end Faithful

/-- **An app is faithful**, whatever it has been called for. -/
theorem faithful_of_runs (h : Runs config registry spawner history a) :
    Faithful config history a := by
  induction h with
  | created => exact .created config registry spawner
  | passes _ hp ih => exact ih.passes hp
  | does _ hd ih => exact ih.does hd

/-- The graphs in sight are those that the app holds and that are not closed. -/
lemma mem_running_iff : graph ∈ a.running.2 ↔ graph ∈ a.held ∧ a.isClosed graph = false := by
  unfold running
  rw [List.mem_mergeSort, retain, List.mem_filter, Bool.not_eq_true']

/-! ## A graph that does not close in time -/

/-- An extension that never gets over being stopped. -/
def stubborn : Extension :=
  ⟨.null, fun memory _ callback =>
    match callback with
    | .hook .stop => .hang
    | _ => .done (.ok ()) memory⟩

/-- A graph with such an extension. -/
def stubbornGraph : GraphDefinition := ⟨[.extension ⟨"e", "stubborn", none, none, none⟩], []⟩

/-- Its addons. -/
def stubbornAddons : Registry :=
  ⟨[("stubborn", fun _ _ => .made stubborn)], [(defaultGroupAddon, Registry.defaultGroup)]⟩

/-- Settings by which nobody waits for longer than a tenth of a second. -/
def hasty : Config := { Config.default with closeTimeoutMs := some 100 }

/-- The graph comes up, is closed, and the call gives up. Then all graphs are closed. -/
lemma stubborn_run :
    let started := (create hasty stubbornAddons .willing).start "1" "" stubbornGraph
    let left := started.1.settle.closeGraph "1"
    let ended := left.1.close
    (started.2 = .ok () ∧ left.2 = some (.error (tooLate "1" (.ofMillis 100))) ∧
      left.1.isOver "1" = false ∧ left.1.held = []) ∧
    ended.2 = some (.ok ()) ∧ ended.1.isOver "1" = false := by
  decide +kernel

/-- An app whose only graph does not stop: closing it takes too long, and closing the app finds
nothing to close. -/
lemma stubborn_runs :
    ∃ a a', Runs hasty stubbornAddons .willing
        [.started "1", .closedGraph "1" (.error (tooLate "1" (.ofMillis 100)))] a ∧
      a.isOver "1" = false ∧ a.held = [] ∧
      a.Does (.closedAll (.ok ())) a' ∧ a'.isOver "1" = false := by
  have hrun := stubborn_run
  dsimp only at hrun
  generalize hstart : (create hasty stubbornAddons .willing).start "1" "" stubbornGraph = started
    at hrun
  obtain ⟨a₁, r₁⟩ := started
  generalize hleave : a₁.settle.closeGraph "1" = left at hrun
  obtain ⟨a, r₂⟩ := left
  generalize hend : a.close = ended at hrun
  obtain ⟨a', r₃⟩ := ended
  obtain ⟨⟨rfl, rfl, hlive, hheld⟩, rfl, hlive'⟩ := hrun
  have hcreated : Runs hasty stubbornAddons .willing [] (create hasty stubbornAddons .willing) :=
    .created
  have hup := (hcreated.does (.starts rfl hstart)).passes a₁.passes_settle
  exact ⟨a, a', hup.does (closeGraph_does hleave), hlive, hheld, close_does hend, hlive'⟩

/-- **Which graphs are in sight.** The graphs that an app lists are live, and have been started by
it. A live graph that was started is listed exactly if no later call lets go of it. As long as its
engine has not gone down, the first call that does so has waited for too long, which it cannot
unless the time is bounded. And if the app was closed without complaint after the graph was started,
then the graph had been lost before.

**Proof sketch.** `faithful_of_runs` follows the list through the history. A graph that is not
closed and whose engine has not gone down is not over, by `Sound.isOver_iff`; so a call that waits
for it cannot return with success. -/
theorem Runs.in_sight_unless_lost (h : Runs config registry spawner history a) :
    (∀ graph ∈ a.running.2, .started graph ∈ history ∧ a.isClosed graph = false) ∧
    ∀ before graph later, history = before ++ .started graph :: later →
      ∃ e, a.engine? graph = some e ∧ (e.isClosed = false →
        (graph ∈ a.running.2 ↔ ∀ call ∈ later, ¬ call.LetsGo graph) ∧ (¬ e.IsDown →
          (graph ∈ a.running.2 ∧ (∀ call ∈ later, ¬ call.LetsGo graph) ∨
            graph ∉ a.running.2 ∧ Lost config.closeTimeout graph later) ∧
          ∀ mid rest, later = mid ++ .closedAll (.ok ()) :: rest →
            Lost config.closeTimeout graph mid)) := by
  have hf := faithful_of_runs h
  refine ⟨fun graph hg => ?_, fun before graph later hh => ?_⟩
  · obtain ⟨hheld, hlive⟩ := mem_running_iff.1 hg
    exact ⟨hf.started graph hheld, hlive⟩
  obtain ⟨e, he⟩ := Option.isSome_iff_exists.1 (hf.known graph (by rw [hh]; simp))
  refine ⟨e, he, fun hopen => ?_⟩
  have hlive : a.isClosed graph = false := isClosed_eq_false_iff.2 ⟨e, he, hopen⟩
  have hlisted : graph ∈ a.running.2 ↔ graph ∈ a.held :=
    mem_running_iff.trans (and_iff_left hlive)
  have hkept := hf.kept before graph later hh hlive
  refine ⟨hlisted.trans hkept, fun hup => ?_⟩
  have hwaited : a.isOver graph = false := by
    obtain ⟨heard, hsound⟩ := sound_of_runs h e (List.mem_of_find?_eq_some he)
    unfold isOver
    rw [he]
    refine Bool.eq_false_iff.2 fun ho => ?_
    rcases hsound.isOver_iff.1 ho with hc | hd
    · exact Bool.eq_false_iff.1 hopen hc
    · exact hup hd
  have hlost := hf.lost before graph later hh hwaited
  rw [hlisted]
  constructor
  · by_cases hg : graph ∈ a.held
    · exact .inl ⟨hg, hkept.1 hg⟩
    · exact .inr ⟨hg, hlost hg⟩
  · rintro mid rest rfl
    refine (hlost fun hg => ?_).before_close
    exact hkept.1 hg (.closedAll (.ok ())) (by simp) trivial

/-- A live graph that is lost when all graphs have been closed, although its engine is up. -/
theorem in_sight_unless_lost_stubborn :
    let late := .error (tooLate "1" (.ofMillis 100))
    ∃ a, Runs hasty stubbornAddons .willing
        [.started "1", .closedGraph "1" late, .closedAll (.ok ())] a ∧
      (∃ e, a.engine? "1" = some e ∧ e.isClosed = false ∧ ¬ e.IsDown) ∧ "1" ∉ a.running.2 ∧
      Lost (some (.ofMillis 100)) "1" [.closedGraph "1" late] := by
  intro late
  obtain ⟨a, a', hruns, -, -, hdoes, hlive⟩ := stubborn_runs
  have hruns' := hruns.does hdoes
  obtain ⟨e, he, hopen, hlistening⟩ := isOver_eq_false_iff.1 hlive
  have hup := Engine.not_isDown_of_listening hlistening
  obtain ⟨e', he', hsight⟩ := hruns'.in_sight_unless_lost.2 [] "1" _ rfl
  obtain rfl := Option.some.inj (he.symm.trans he')
  obtain ⟨⟨-, hkept⟩ | ⟨hlisted, -⟩, hlost⟩ := (hsight hopen).2 hup
  · exact absurd rfl (hkept (.closedGraph "1" late) (List.mem_cons_self ..))
  · exact ⟨a', hruns', ⟨e, he, hopen, hup⟩, hlisted, hlost _ [] rfl⟩

/-- **A live graph out of sight.** After a call that has waited for too long, the graph is live and
not listed, and closing all graphs succeeds while it is live. All the time its engine listens. -/
theorem out_of_sight :
    ∃ a a', Runs hasty stubbornAddons .willing
        [.started "1", .closedGraph "1" (.error (tooLate "1" (.ofMillis 100)))] a ∧
      (∃ e, a.engine? "1" = some e ∧ e.isClosed = false ∧ e.host.mailbox.listening = true) ∧
      a.running.2 = [] ∧ a.Does (.closedAll (.ok ())) a' ∧
      ∃ e, a'.engine? "1" = some e ∧ e.isClosed = false ∧ e.host.mailbox.listening = true := by
  obtain ⟨a, a', hruns, hlive, hheld, hdoes, hlive'⟩ := stubborn_runs
  refine ⟨a, a', hruns, isOver_eq_false_iff.1 hlive, ?_, hdoes, isOver_eq_false_iff.1 hlive'⟩
  refine List.eq_nil_iff_forall_not_mem.2 fun graph hg => ?_
  have hmem := (mem_running_iff.1 hg).1
  rw [hheld] at hmem
  cases hmem

end App

end ExtensionGraph
