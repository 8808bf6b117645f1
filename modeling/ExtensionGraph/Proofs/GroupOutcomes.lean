import Mathlib.Data.List.Perm.Subperm
import ExtensionGraph.Proofs.ComingUp
import ExtensionGraph.Proofs.Evolution
import ExtensionGraph.Proofs.GroupTable

/-!
# What comes of the groups that were asked for

A graph asks for its groups once, at its start. What comes of a group travels through the mailbox to
the engine, and is lost there if the engine has stopped listening in the meantime. Nobody else can
bring a group. So the outcomes that an engine has taken, those that wait for it and those that are
still to come are outcomes of groups that were asked for, each of them once, and the groups among
them have the names that were asked for.

## Main definitions

* `ExtensionGraph.outcomesIn` — the outcomes that messages bring.
* `ExtensionGraph.Effect.concernsGroups` — effects that ask for a group or bring one.
* `ExtensionGraph.Engine.owed` — the outcomes that have been taken, those that wait and those that
  are still to come.
* `ExtensionGraph.Engine.Owes` — each outcome comes once at most.

## Main results

* `ExtensionGraph.Context.handle_concernsGroups` — a message makes an engine ask for no group.
* `ExtensionGraph.Engine.owed_of_move` — no outcome is lost as long as the engine listens.
* `ExtensionGraph.Engine.Owes.play` — each outcome comes once at most in any run.
* `ExtensionGraph.Engine.requested_names` — the names of the groups that come.
-/

namespace ExtensionGraph

/-- What a message says of a group that was asked for. -/
def EngineMsg.outcome? : EngineMsg → Option (Except Error Group)
  | .created result => some result
  | _ => none

/-- The outcomes that messages bring. -/
abbrev outcomesIn (ms : List EngineMsg) : List (Except Error Group) :=
  ms.filterMap EngineMsg.outcome?

/-- The name of a group that has been built. -/
def builtName? : Except Error Group → Option String
  | .ok g => some g.name
  | .error _ => none

/-- The outcomes among messages, one part after the other. -/
lemma outcomesIn_append (ms ms' : List EngineMsg) :
    outcomesIn (ms ++ ms') = outcomesIn ms ++ outcomesIn ms' :=
  List.filterMap_append

/-- The names of the groups among messages are those that were built. -/
lemma names_groupsIn (ms : List EngineMsg) :
    (groupsIn ms).map (·.name) = (outcomesIn ms).filterMap builtName? := by
  rw [groupsIn, outcomesIn, List.map_filterMap, List.filterMap_filterMap]
  refine List.filterMap_congr fun m _ => ?_
  cases m with
  | created result => cases result <;> rfl
  | threadClosed | route | close => rfl

/-- The groups among messages, after one more message. -/
lemma groupsIn_concat (ms : List EngineMsg) (m : EngineMsg) :
    groupsIn (ms ++ [m]) = groupsIn ms ++ m.group?.toList := by
  rw [groupsIn, List.filterMap_append, List.filterMap_cons, List.filterMap_nil]
  cases m.group? <;> rfl

/-- A wish is not the outcome of a request. -/
lemma EngineMsg.IsWish.outcome? {m : EngineMsg} (h : m.IsWish) : m.outcome? = none := by
  cases m with
  | created | threadClosed => exact h.elim
  | route | close => rfl

/-- Posting what is no outcome adds none. -/
lemma outcomesIn_postAll (mailbox : Mailbox EngineMsg) {ms : List EngineMsg}
    (h : ∀ m ∈ ms, m.outcome? = none) :
    outcomesIn (mailbox.postAll ms).messages = outcomesIn mailbox.messages := by
  have hnone : outcomesIn ms = [] := List.filterMap_eq_nil_iff.2 h
  rw [Mailbox.postAll_messages, outcomesIn_append]
  split
  · rw [hnone, List.append_nil]
  · exact List.append_nil _

/-- Posting a message that is no outcome leaves the outcomes. -/
lemma outcomesIn_post (mailbox : Mailbox EngineMsg) {m : EngineMsg} (h : m.outcome? = none) :
    outcomesIn (mailbox.post m).messages = outcomesIn mailbox.messages :=
  outcomesIn_postAll mailbox fun _ hm => (List.mem_singleton.1 hm).symm ▸ h

namespace Worker

variable {w w' : Worker} {engine engine' : Mailbox EngineMsg}

/-- A worker brings no group. -/
lemma Steps.outcomes (h : w.Steps engine engine' w') :
    outcomesIn engine'.messages = outcomesIn engine.messages := by
  cases h with
  | goesOn _ _ hm => exact outcomesIn_postAll engine fun m hmem => (hm m hmem).outcome?
  | reports => exact outcomesIn_post engine rfl
  | goesDown | calls | opened | receives | obeys | leaves | closed => rfl

/-- A thread that runs until it rests brings no outcome. -/
lemma run_outcomes (engine : Mailbox EngineMsg) (w : Worker) :
    outcomesIn (w.run engine).1.messages = outcomesIn engine.messages :=
  run_induction (P := fun engine' _ => outcomesIn engine'.messages = outcomesIn engine.messages)
    (fun h hs => (steps_of_step? hs).outcomes.trans h) rfl

end Worker

/-! ## Effects that concern groups -/

/-- Whether an effect asks for a group, or brings what has come of one. -/
def Effect.concernsGroups : Effect → Bool
  | .await _ => true
  | .post m => m.outcome?.isSome
  | _ => false

/-- An effect that does not concern groups asks for none. -/
lemma Effect.creation?_eq_none {x : Effect} (h : x.concernsGroups = false) :
    x.creation? = none := by
  cases x with
  | await => cases h
  | log | post | spawn | tell | reap | announce | panic => rfl

namespace Host

variable (h : Host)

/-- The outcomes that wait for an engine do not change, unless an effect brings one, or there is a
panic.

**Proof sketch.** By cases on the effect. Threads post wishes and reports, which are no outcomes; a
command that is sent leaves the mailbox alone. -/
lemma perform_outcomes (link : Link) {x : Effect} (hx : x.concernsGroups = false) :
    outcomesIn (h.perform link x).mailbox.messages = outcomesIn h.mailbox.messages ∨
      (h.perform link x).mailbox = h.mailbox.hangUp := by
  cases x with
  | await => cases hx
  | log | announce => exact .inl rfl
  | panic => exact .inr rfl
  | post m => exact .inl (outcomesIn_post h.mailbox (by simpa [Effect.concernsGroups] using hx))
  | spawn id g t =>
    refine .inl ?_
    show outcomesIn (h.spawn _).mailbox.messages = _
    rw [spawn_mailbox]
  | tell id m unheard =>
    refine .inl ?_
    show outcomesIn (h.tell id m unheard).mailbox.messages = _
    rw [(h.tell_frame id m unheard).1]
  | reap id group =>
    refine .inl ?_
    have hrun (h : Host) (place : Nat) :
        outcomesIn (h.runWorker place).mailbox.messages = outcomesIn h.mailbox.messages := by
      unfold runWorker
      split
      · rfl
      · next w _ => exact Worker.run_outcomes h.mailbox w
    show outcomesIn (h.reap id group).mailbox.messages = _
    unfold reap
    split
    · rfl
    · next place _ =>
      have hrun' := hrun (h.modify place fun w => { w with hungUp := true }) place
      dsimp only
      split
      · split
        · exact hrun'
        · exact hrun'
      · exact hrun'

end Host

namespace Context

variable (c : Context)

/-- None of the effects asks for a group or brings one. -/
abbrev Groupless (effects : List Effect) : Prop := ∀ x ∈ effects, x.concernsGroups = false

/-- **Groups are asked for at the start only**: no message makes an engine ask for one, or bring one
itself. -/
theorem handle_concernsGroups (m : EngineMsg) : Groupless (c.handle m).2 := by
  intro x hx
  cases c.causes_of_handle m x hx with
  | logs | announces | tells | posts | spawns | reaps | panics => rfl

/-- A graph that asks for groups asks for each of them once at most, and none comes under another
name.

**Proof sketch.** Induction on the declared groups; the requests end with the first group whose
addon is missing. The registry refuses a group of another name, so that what is built has the
declared name. -/
lemma request_creations (link : Link) (infos : List GroupInfo) :
    let creations := (request link infos).1.filterMap Effect.creation?
    creations.length ≤ infos.length ∧
      (creations.filterMap fun x => builtName? x.result).Sublist (infos.map (·.name)) := by
  induction infos with
  | nil => exact ⟨Nat.le_refl _, List.Sublist.refl _⟩
  | cons info infos ih =>
    obtain ⟨hlen, hnames⟩ := ih
    unfold request
    split
    · next creation hc =>
      refine ⟨Nat.succ_le_succ hlen, ?_⟩
      show (List.filterMap _ (creation :: (request link infos).1.filterMap _)).Sublist _
      rw [List.map_cons]
      cases hr : creation.result with
      | error err =>
        rw [List.filterMap_cons_none (by rw [hr]; rfl)]
        exact hnames.cons _
      | ok g =>
        have hname : g.name = info.name :=
          Registry.Builds.name_eq (r := link.registry) ⟨creation.delay, by rw [hc, ← hr]⟩
        rw [List.filterMap_cons_some (b := info.name) (by rw [hr, ← hname]; rfl)]
        exact hnames.cons_cons _
    · exact ⟨Nat.zero_le _, List.nil_sublist _⟩

end Context

namespace Engine

variable {e e' : Engine} {heard : List EngineMsg} {asked : List (Except Error Group)}

/-! ## Outcomes in a run -/

/-- The outcomes that the engine has taken, those that wait for it and those that are still to
come. -/
def owed (heard : List EngineMsg) (e : Engine) : List (Except Error Group) :=
  outcomesIn heard ++ outcomesIn e.host.mailbox.messages ++ e.host.creations.map (·.result)

/-- The outcomes that the engine has taken, those that wait for it and those that are still to come
were asked for, each of them once. -/
def Owes (asked : List (Except Error Group)) (heard : List EngineMsg) (e : Engine) : Prop :=
  (outcomesIn heard ++ outcomesIn e.host.mailbox.messages ++
    e.host.creations.map (·.result)).Subperm asked

/-- Doing what was decided on brings no outcome, and loses one only with the mailbox.

**Proof sketch.** Effect by effect: each keeps the outcomes or hangs the mailbox up. Once it is hung
up it stays empty, whatever is done afterwards. -/
lemma carryOut_outcomes (e : Engine) {r : Context × List Effect} (hr : Context.Groupless r.2) :
    (outcomesIn (e.carryOut r).host.mailbox.messages = outcomesIn e.host.mailbox.messages ∨
        (e.carryOut r).host.mailbox = e.host.mailbox.hangUp) ∧
      (e.carryOut r).host.creations = e.host.creations := by
  constructor
  · have hall (effects : List Effect) (hx : Context.Groupless effects) (e : Engine) :
        outcomesIn (effects.foldl perform e).host.mailbox.messages =
            outcomesIn e.host.mailbox.messages ∨
          (effects.foldl perform e).host.mailbox = e.host.mailbox.hangUp := by
      induction effects generalizing e with
      | nil => exact .inl rfl
      | cons x effects ih =>
        have hone : outcomesIn (e.perform x).host.mailbox.messages =
              outcomesIn e.host.mailbox.messages ∨
            (e.perform x).host.mailbox = e.host.mailbox.hangUp := by
          rw [perform_mailbox]
          exact e.host.perform_outcomes _ (hx x List.mem_cons_self)
        rcases hone with hkept | hlost
        · exact (ih (fun y hy => hx y (List.mem_cons_of_mem _ hy)) _).imp (·.trans hkept) id
        · have hrest := foldl_perform_follows (e.perform x) effects
          rw [hlost] at hrest
          exact .inr hrest.eq_hangUp
    exact hall r.2 hr { e with context := r.1 }
  · have hnone : r.2.filterMap Effect.creation? = [] :=
      List.filterMap_eq_nil_iff.2 fun x hx => Effect.creation?_eq_none (hr x hx)
    have hc : (e.carryOut r).host.creations = e.host.creations ++ r.2.filterMap Effect.creation? :=
      foldl_perform_creations { e with context := r.1 } r.2
    rw [hc, hnone, List.append_nil]

/-- What is owed depends on the outcomes that wait and on the requests that are under way. -/
lemma owed_congr (hm : outcomesIn e'.host.mailbox.messages = outcomesIn e.host.mailbox.messages)
    (hc : e'.host.creations = e.host.creations) : e'.owed heard = e.owed heard := by
  rw [owed, owed, hm, hc]

/-- What is owed without what waits for the engine is not more. -/
lemma owed_of_deaf (hm : e'.host.mailbox = e.host.mailbox.hangUp)
    (hc : e'.host.creations = e.host.creations) : (e'.owed heard).Sublist (e.owed heard) := by
  rw [owed, owed, hm, hc]
  exact ((List.nil_sublist _).append_left _).append_right _

/-- When the graph is closed, the outcomes that wait are given up. -/
lemma retire_owed (e : Engine) (heard : List EngineMsg) :
    (e.retire.owed heard).Sublist (e.owed heard) := by
  unfold retire
  split
  · exact owed_of_deaf rfl rfl
  · exact List.Sublist.refl _

/-- A message leaves all other outcomes waiting, unless the engine does not listen any more. -/
lemma handle_outcomes (e : Engine) (m : EngineMsg) :
    (outcomesIn (e.handle m).host.mailbox.messages = outcomesIn e.host.mailbox.messages ∨
        (e.handle m).host.mailbox = e.host.mailbox.hangUp) ∧
      (e.handle m).host.creations = e.host.creations := by
  obtain ⟨hmail, hcreations⟩ := e.carryOut_outcomes (e.context.handle_concernsGroups m)
  unfold handle retire
  split
  · exact ⟨.inr rfl, hcreations⟩
  · exact ⟨hmail, hcreations⟩

/-- Taking a message up does not change what is owed, unless the mailbox is lost.

**Proof sketch.** The message goes from the mailbox to what was heard, which changes nothing. What
the engine then does brings no outcome, and loses what waits only together with the mailbox. -/
lemma owed_handle (heard : List EngineMsg) {m : EngineMsg} {mailbox : Mailbox EngineMsg}
    (hm : e.host.mailbox.take? = some (m, mailbox)) :
    let e' := ({ e with host := { e.host with mailbox } } : Engine).handle m
    (e'.owed (heard ++ [m])).Sublist (e.owed heard) ∧
      (e'.host.mailbox.listening = true → e'.owed (heard ++ [m]) = e.owed heard) := by
  have hsplit : outcomesIn e.host.mailbox.messages =
      outcomesIn [m] ++ outcomesIn mailbox.messages := by
    rw [(Mailbox.take?_eq_some hm).1]
    exact outcomesIn_append [m] _
  have htaken : ({ e with host := { e.host with mailbox } } : Engine).owed (heard ++ [m]) =
      e.owed heard := by
    rw [owed, owed, hsplit, outcomesIn_append, List.append_assoc (outcomesIn heard)]
  obtain ⟨hmail, hcreations⟩ :=
    ({ e with host := { e.host with mailbox } } : Engine).handle_outcomes m
  dsimp only
  rw [← htaken]
  rcases hmail with hkept | hlost
  · rw [owed_congr hkept hcreations]
    exact ⟨.refl _, fun _ => rfl⟩
  · refine ⟨owed_of_deaf hlost hcreations, fun hl => ?_⟩
    rw [hlost] at hl
    cases hl

/-- What has come of a group waits for the engine now, unless it is lost.

**Proof sketch.** The outcome goes from the requests under way to the end of the mailbox, which is a
permutation. A deaf mailbox does not take it. -/
lemma owed_complete (heard : List EngineMsg) {place : Nat} {creation : Creation}
    (hc : e.host.creations[place]? = some creation) :
    let e' : Engine := { e with host := { e.host with
      creations := e.host.creations.eraseIdx place
      mailbox := e.host.mailbox.post (.created creation.result) } }
    (e'.owed heard).Subperm (e.owed heard) ∧
      (e'.host.mailbox.listening = true → (e'.owed heard).Perm (e.owed heard)) := by
  obtain ⟨hlt, rfl⟩ := List.getElem?_eq_some_iff.1 hc
  have herase : (e.host.creations[place].result ::
      (e.host.creations.eraseIdx place).map (·.result)).Perm
        (e.host.creations.map (·.result)) :=
    (List.getElem_cons_eraseIdx_perm hlt).map _
  have hmessages := e.host.mailbox.post_messages (.created e.host.creations[place].result)
  intro e'
  by_cases hl : e.host.mailbox.listening = true
  · have hperm : (e'.owed heard).Perm (e.owed heard) := by
      rw [if_pos hl] at hmessages
      unfold owed
      rw [hmessages, outcomesIn_append, ← List.append_assoc, List.append_assoc _ (outcomesIn [_])]
      exact herase.append_left _
    exact ⟨hperm.subperm, fun _ => hperm⟩
  · refine ⟨?_, fun h => absurd ((Mailbox.post_listening _ _).symm.trans h) hl⟩
    rw [if_neg hl, List.append_nil] at hmessages
    unfold owed
    rw [hmessages]
    exact (((List.eraseIdx_sublist _ _).map _).append_left _).subperm

/-- **Each outcome is owed until it is taken.** None comes from nowhere, and none is lost as long as
the engine listens.

**Proof sketch.** By the kinds of moves. Only two of them touch outcomes, the ones of `owed_handle`
and `owed_complete`; with all others the outcomes and the requests stay. -/
theorem owed_of_move {m : Move} (hm : e.move? m = some e') (heard : List EngineMsg) :
    (e'.owed (heard ++ (e.taken? m).toList)).Subperm (e.owed heard) ∧
      (e'.host.mailbox.listening = true →
        (e'.owed (heard ++ (e.taken? m).toList)).Perm (e.owed heard)) := by
  have hsame {e'' : Engine} (hh : m ≠ .handle)
      (hmail : outcomesIn e''.host.mailbox.messages = outcomesIn e.host.mailbox.messages)
      (hc : e''.host.creations = e.host.creations) :
      (e''.owed (heard ++ (e.taken? m).toList)).Subperm (e.owed heard) ∧
        (e''.host.mailbox.listening = true →
          (e''.owed (heard ++ (e.taken? m).toList)).Perm (e.owed heard)) := by
    rw [append_taken? hh, owed_congr hmail hc]
    exact ⟨List.Subperm.refl _, fun _ => .refl _⟩
  cases moves_of_move? hm with
  | handles _ htake =>
    obtain ⟨hsub, hkept⟩ := owed_handle heard htake
    rw [taken?_handle htake]
    exact ⟨hsub.subperm, fun hl => .of_eq (hkept hl)⟩
  | completes hc =>
    obtain ⟨hsub, hkept⟩ := owed_complete heard hc
    rw [append_taken? (by simp)]
    exact ⟨hsub, hkept⟩
  | works hw hs => exact hsame (by simp) (Worker.steps_of_step? hs).outcomes rfl
  | @beats place ticker w hw hk =>
    obtain ⟨-, ms, hwish, hmail⟩ := Worker.onCourse_beat w e.host.mailbox ticker
    refine hsame (by simp) ?_ rfl
    show outcomesIn (w.beat e.host.mailbox ticker).1.messages = _
    rw [hmail]
    exact outcomesIn_postAll _ fun m hmem => (hwish m hmem).outcome?
  | aborts hw hs =>
    obtain ⟨-, rfl, -⟩ := Worker.abort?_eq hs
    exact hsame (by simp) (outcomesIn_post _ rfl) rfl
  | sends => exact hsame (by simp) (outcomesIn_post _ rfl) rfl
  | refuses => exact hsame (by simp) rfl rfl
  | closes => exact hsame (by simp) (outcomesIn_post _ rfl) rfl

/-- Taking a message up keeps an engine to what it owes. -/
lemma Owes.handle (h : e.Owes asked heard) {m : EngineMsg} {mailbox : Mailbox EngineMsg}
    (hm : e.host.mailbox.take? = some (m, mailbox)) :
    (({ e with host := { e.host with mailbox } } : Engine).handle m).Owes asked (heard ++ [m]) :=
  (owed_handle heard hm).1.subperm.trans h

/-- Every move keeps account of the groups that were asked for. -/
theorem Owes.move (h : e.Owes asked heard) {m : Move} (hm : e.move? m = some e') :
    e'.Owes asked (heard ++ (e.taken? m).toList) :=
  (owed_of_move hm heard).1.trans h

/-- Each outcome comes once at most in any run. -/
theorem Owes.play (h : e.Owes asked heard) {moves : List Move} {taken : List EngineMsg}
    (hp : e.play moves = some (taken, e')) : e'.Owes asked (heard ++ taken) :=
  play_induction (fun h hm => h.move hm) h hp

/-! ## The start -/

/-- What will come of the groups that a graph asks for at its start. -/
def requested (link : Link) : List (Except Error Group) :=
  ((Context.create link true).start.2.1.filterMap Effect.creation?).map (·.result)

/-- The groups of a graph are asked for once at most, and none comes under another name.

**Proof sketch.** Without groups nothing is asked for. Otherwise the groups are asked for in the
order of the table, up to the first one whose addon is missing. -/
lemma requested_names (link : Link) :
    (requested link).length ≤ link.command.groupCount link.app.uri ∧
      ((requested link).filterMap builtName?).Sublist
        ((link.command.groupsOf link.app.uri).map (·.name)) := by
  unfold requested
  rw [List.length_map, List.filterMap_map]
  by_cases hg : (Context.create link true).localGroups = []
  · have hnone : (Context.create link true).start.2.1.filterMap Effect.creation? = [] := by
      rw [Context.start_eq_of_no_groups _ hg rfl, List.filterMap_cons_none rfl]
      refine List.filterMap_eq_nil_iff.2 fun x hx => ?_
      rcases Context.startThreads_effects _ x hx with ⟨id, g, topology, rfl⟩ | ⟨event, rfl⟩ | rfl
      · rfl
      · rfl
      · rfl
    rw [hnone]
    exact ⟨Nat.zero_le _, List.nil_sublist _⟩
  · rw [Context.start_eq_request _ hg]
    exact Context.request_creations link _

/-- An engine whose start has succeeded has asked for its groups, and that is all. -/
lemma start_eq_of_ok {link : Link} (hok : (start link).2 = .ok ()) :
    (start link).1 = (begun link).retire := by
  rw [start_eq] at hok ⊢
  split
  · rfl
  · next herr =>
    rw [herr] at hok
    cases hok

/-- At first all is owed that has been asked for. -/
lemma begun_owed (link : Link) : (begun link).owed [] = requested link := by
  have hcreations : (begun link).host.creations.map (·.result) = requested link :=
    congrArg (List.map (·.result)) (foldl_perform_creations _ _)
  rw [owed, (begun_host link).2, hcreations]
  rfl

/-- A graph whose start has succeeded owes what it has asked for. -/
lemma owes_start {link : Link} (hok : (start link).2 = .ok ()) :
    (start link).1.Owes (requested link) [] := by
  rw [start_eq_of_ok hok]
  exact begun_owed link ▸ ((begun link).retire_owed []).subperm

end Engine

end ExtensionGraph
