import Mathlib.Data.List.Infix
import Mathlib.Data.List.TakeWhile
import ExtensionGraph.Proofs.HostedExtensions
import ExtensionGraph.Proofs.ReadyTraffic
import ExtensionGraph.Proofs.Serving

/-!
# Extensions are handed their messages in order

From the time when the last group has come until the end is asked for, every message to extensions
that an engine takes becomes due to the extensions that are among its destinations, each of them as
often as it is named. Each of these extensions is handed what is due to it, in the order in which
the engine has taken it, without a gap, and nothing else. Since an engine takes messages in the
order in which they were posted, this is also the order in which they were sent.

## Main definitions

* `ExtensionGraph.Engine.afterGroups`, `ExtensionGraph.Engine.EndAsked`,
  `ExtensionGraph.Engine.whileUp` — what an engine takes after the last group, whether the end has
  been asked for, and the messages that it takes while its graph is up.
* `ExtensionGraph.Engine.copies` — messages as often as they name a destination.
* `ExtensionGraph.Engine.due` — what is due to an extension.
* `ExtensionGraph.Engine.AllServe` — all threads have come as far as they say.
* `ExtensionGraph.Engine.HandedInOrder` — what is promised of the messages of an extension.

## Main results

* `ExtensionGraph.Engine.serves_of_play` — every thread has come as far as it says.
* `ExtensionGraph.Engine.unwritten_of_play` — an engine that has gone down has written to none.
* `ExtensionGraph.Engine.handed_in_order` — the promise is kept, at any time of any run.
-/

namespace ExtensionGraph

namespace Engine

/-! ## What an engine takes while its graph is up -/

/-- What an engine hears once a number of groups have come. -/
def afterGroups : Nat → List EngineMsg → List EngineMsg
  | 0, heard => heard
  | _ + 1, [] => []
  | n + 1, m :: heard =>
    if m.group?.isSome then afterGroups n heard else afterGroups (n + 1) heard

/-- The messages to extensions that an engine takes once a number of groups have come and before the
end is asked for. -/
def whileUp (n : Nat) (heard : List EngineMsg) : List Msg :=
  ((afterGroups n heard).takeWhile fun m => ¬ m.AsksForEnd).filterMap EngineMsg.routed?

/-- The end has been asked for once a number of groups had come. -/
def EndAsked (n : Nat) (heard : List EngineMsg) : Prop := ∃ m ∈ afterGroups n heard, m.AsksForEnd

section Hearing

variable {n : Nat} {heard heard' : List EngineMsg} {m : EngineMsg}

/-- A graph without groups routes from the first message on. -/
@[simp] lemma afterGroups_zero (heard : List EngineMsg) : afterGroups 0 heard = heard := by
  cases heard <;> rfl

/-- Before the first message there is nothing to route. -/
@[simp] lemma afterGroups_nil (n : Nat) : afterGroups n [] = [] := by
  cases n <;> rfl

/-- With each group, there is one less to come. -/
lemma groupsIn_cons (m : EngineMsg) (heard : List EngineMsg) :
    (groupsIn (m :: heard)).length =
      if m.group?.isSome then (groupsIn heard).length + 1 else (groupsIn heard).length := by
  unfold groupsIn
  cases hg : m.group? with
  | none =>
    rw [List.filterMap_cons_none hg]
    rfl
  | some g =>
    rw [List.filterMap_cons_some hg]
    rfl

/-- When the groups have come, everything counts.

**Proof sketch.** By induction over what has been heard, counting down the groups that are still to
come. -/
lemma afterGroups_append (hn : n ≤ (groupsIn heard).length) (ms : List EngineMsg) :
    afterGroups n (heard ++ ms) = afterGroups n heard ++ ms := by
  induction heard generalizing n with
  | nil =>
    obtain rfl : n = 0 := Nat.le_zero.1 hn
    rw [afterGroups_zero, afterGroups_zero]
  | cons m heard ih =>
    cases n with
    | zero => rw [afterGroups_zero, afterGroups_zero]
    | succ n =>
      rw [groupsIn_cons] at hn
      rw [List.cons_append, afterGroups, afterGroups]
      split at hn
      · next hg => rw [if_pos hg, if_pos hg, ih (by omega)]
      · next hg => rw [if_neg hg, if_neg hg, ih hn]

/-- While groups are to come, nothing counts. -/
lemma afterGroups_append_of_lt (hn : (groupsIn heard).length < n) (ms : List EngineMsg) :
    afterGroups n (heard ++ ms) = afterGroups (n - (groupsIn heard).length) ms := by
  induction heard generalizing n with
  | nil => rfl
  | cons m heard ih =>
    cases n with
    | zero => cases hn
    | succ n =>
      rw [groupsIn_cons] at hn ⊢
      rw [List.cons_append, afterGroups]
      split at hn
      · next hg => rw [if_pos hg, if_pos hg, ih (by omega), Nat.add_sub_add_right]
      · next hg => rw [if_neg hg, if_neg hg, ih hn]

/-- As long as a group is missing there is nothing to route. -/
lemma afterGroups_eq_nil (hn : (groupsIn heard).length < n) : afterGroups n heard = [] := by
  have h := afterGroups_append_of_lt hn []
  rwa [List.append_nil, afterGroups_nil] at h

/-- The message with the last group does not count either. -/
lemma afterGroups_concat_eq_nil (hn : (groupsIn heard).length < n) (m : EngineMsg) :
    afterGroups n (heard ++ [m]) = [] := by
  obtain ⟨k, hk⟩ := Nat.exists_eq_succ_of_ne_zero (Nat.sub_ne_zero_of_lt hn)
  rw [afterGroups_append_of_lt hn, hk, afterGroups]
  split
  · exact afterGroups_nil k
  · rfl

/-- What comes after the groups only grows. -/
lemma afterGroups_mono (n : Nat) (h : heard <+: heard') :
    afterGroups n heard <+: afterGroups n heard' := by
  obtain ⟨ms, rfl⟩ := h
  rcases Nat.lt_or_ge (groupsIn heard).length n with hn | hn
  · rw [afterGroups_eq_nil hn]
    exact List.nil_prefix
  · rw [afterGroups_append hn]
    exact List.prefix_append _ _

/-- What comes after the groups is the end of what was heard. -/
lemma afterGroups_suffix (n : Nat) (heard : List EngineMsg) : afterGroups n heard <:+ heard := by
  induction heard generalizing n with
  | nil =>
    rw [afterGroups_nil]
  | cons m heard ih =>
    cases n with
    | zero =>
      rw [afterGroups_zero]
    | succ n =>
      rw [afterGroups]
      split
      · exact (ih n).trans (List.suffix_cons m heard)
      · exact (ih (n + 1)).trans (List.suffix_cons m heard)

/-- The end has been asked for before, or with the last message. -/
lemma endAsked_concat (hn : n ≤ (groupsIn heard).length) :
    EndAsked n (heard ++ [m]) ↔ EndAsked n heard ∨ m.AsksForEnd := by
  unfold EndAsked
  rw [afterGroups_append hn]
  simp only [List.mem_append, List.mem_singleton, or_and_right, exists_or, exists_eq_left]

/-- Only a message that asks for the end does so. -/
lemma endAsked_concat_of_not (hn : n ≤ (groupsIn heard).length) (hm : ¬ m.AsksForEnd) :
    EndAsked n (heard ++ [m]) ↔ EndAsked n heard :=
  (endAsked_concat hn).trans (or_iff_left hm)

/-- What comes before the end is asked for counts. -/
lemma whileUp_concat (hn : n ≤ (groupsIn heard).length) (ha : ¬ EndAsked n heard) :
    whileUp n (heard ++ [m]) = whileUp n heard ++ m.routed?.toList := by
  have hquiet : ∀ x ∈ afterGroups n heard, (decide ¬ x.AsksForEnd) = true :=
    fun x hx => decide_eq_true fun hx' => ha ⟨x, hx, hx'⟩
  unfold whileUp
  rw [afterGroups_append hn, List.takeWhile_append_of_pos hquiet,
    List.takeWhile_eq_self_iff.2 hquiet, List.filterMap_append]
  congr 1
  cases m with
  | route m => rfl
  | threadClosed id => rfl
  | close => rfl
  | created result => cases result <;> rfl

/-- What comes later does not. -/
lemma whileUp_concat_of_asked (hn : n ≤ (groupsIn heard).length) (ha : EndAsked n heard) :
    whileUp n (heard ++ [m]) = whileUp n heard := by
  obtain ⟨x, hx, hend⟩ := ha
  unfold whileUp
  rw [afterGroups_append hn, List.takeWhile_append, if_neg]
  intro hlen
  have hself := (List.takeWhile_prefix _).eq_of_length hlen
  have hx' := List.takeWhile_eq_self_iff.1 hself x hx
  simp [hend] at hx'

/-- What is routed while the graph is up only grows. -/
lemma whileUp_mono (n : Nat) (h : heard <+: heard') : whileUp n heard <+: whileUp n heard' := by
  obtain ⟨ms, hms⟩ := afterGroups_mono n h
  refine List.IsPrefix.filterMap _ ?_
  rw [← hms, List.takeWhile_append]
  split
  · exact (List.takeWhile_prefix _).trans (List.prefix_append _ _)
  · exact List.prefix_rfl

/-- What is routed while the graph is up is a segment of what was posted. -/
lemma whileUp_within (n : Nat) (heard : List EngineMsg) :
    whileUp n heard <:+: heard.filterMap EngineMsg.routed? :=
  ((List.takeWhile_prefix _).isInfix.trans (afterGroups_suffix n heard).isInfix).filterMap _

end Hearing

/-! ## What is due -/

/-- Messages as often as they name a destination. -/
def copies (d : Loc) (ms : List Msg) : List Msg :=
  ms.flatMap fun m => List.replicate (m.dest.count d) m

/-- A message comes once for each time that it names the destination. -/
lemma copies_singleton (d : Loc) (m : Msg) : copies d [m] = List.replicate (m.dest.count d) m :=
  List.append_nil _

variable (link : Link) (g : GraphDefinition)

/-- What is due to the extension with an address, on the thread of a group: copies of all messages
that the engine takes while the graph is up, if the group has an extension with this address. -/
def due (group : String) (d : Loc) (heard : List EngineMsg) : List Msg :=
  if d ∈ g.addresses link.app.uri link.graph group then
    copies d (whileUp (link.command.groupCount link.app.uri) heard)
  else []

/-- Every thread has come as far with its extensions as it says. -/
def AllServe (heard : List EngineMsg) (e : Engine) : Prop :=
  ∀ w ∈ e.host.workers, ∀ name ∈ w.roster,
    w.Serves name (due link g w.group (.ofExtension link.app.uri link.graph name) heard)
      (EndAsked (link.command.groupCount link.app.uri) heard)

variable {link g} {e e' : Engine} {heard heard' : List EngineMsg} {group : String} {d : Loc}

/-- What is due only grows. -/
lemma due_mono (h : heard <+: heard') : due link g group d heard <+: due link g group d heard' := by
  unfold due
  split
  · exact (whileUp_mono _ h).flatMap _
  · exact List.prefix_rfl

/-- What is due is a part of what the engine takes, without a gap. -/
lemma due_within (heard : List EngineMsg) :
    due link g group d heard <:+: copies d (heard.filterMap EngineMsg.routed?) := by
  unfold due
  split
  · exact (whileUp_within _ heard).flatMap _
  · exact List.nil_infix

section Hear

variable {m : EngineMsg} (hn : link.command.groupCount link.app.uri ≤ (groupsIn heard).length)
include hn

/-- After the end has been asked for nothing more becomes due. -/
lemma due_concat_of_asked (ha : EndAsked (link.command.groupCount link.app.uri) heard) :
    due link g group d (heard ++ [m]) = due link g group d heard := by
  unfold due
  rw [whileUp_concat_of_asked hn ha]

/-- While the graph is up a message becomes due to the extensions that it names. -/
lemma due_concat (ha : ¬ EndAsked (link.command.groupCount link.app.uri) heard) :
    due link g group d (heard ++ [m]) = due link g group d heard ++
      if d ∈ g.addresses link.app.uri link.graph group then copies d m.routed?.toList else [] := by
  unfold due
  rw [whileUp_concat hn ha]
  split
  · exact List.flatMap_append
  · rfl

/-- Only messages to extensions become due. -/
lemma due_concat_of_unrouted (hm : m.routed? = none) :
    due link g group d (heard ++ [m]) = due link g group d heard := by
  by_cases ha : EndAsked (link.command.groupCount link.app.uri) heard
  · exact due_concat_of_asked hn ha
  · rw [due_concat hn ha, hm]
    split
    · exact List.append_nil _
    · exact List.append_nil _

end Hear

/-! ## Every thread serves -/

/-- Changing a worker in a way that leaves it serving. -/
lemma AllServe.setWorker (h : e.AllServe link g heard) {place : Nat} {w w' : Worker}
    (hw : e.host.workers[place]? = some w) (hgroup : w'.group = w.group)
    (hserves : ∀ name ∈ w'.roster, name ∈ w.roster ∧ ∀ {due asked}, w.Serves name due asked →
      w'.Serves name due asked)
    (mailbox : Mailbox EngineMsg) :
    ({ e with host := { e.host with mailbox, workers := e.host.workers.set place w' } } :
      Engine).AllServe link g heard := by
  intro v hv name hname
  rcases List.mem_or_eq_of_mem_set hv with hv | rfl
  · exact h v hv name hname
  · obtain ⟨hin, hkeeps⟩ := hserves name hname
    rw [hgroup]
    exact hkeeps (h w (List.mem_of_getElem? hw) name hin)

/-- What threads do themselves leaves them serving.

**Proof sketch.** By the kinds of moves. As long as the engine is up, a thread at work is listed and
its inbox has not been taken away, so that its step takes up the next message or none; a turn of a
ticker takes up nothing. -/
lemma AllServe.move (h : e.AllServe link g heard) (hsound : e.Sound heard) (hup : ¬ e.IsDown)
    {m : Move} (hm : e.move? m = some e') (hh : m ≠ .handle) : e'.AllServe link g heard := by
  cases moves_of_move? hm with
  | handles => exact absurd rfl hh
  | @works place w w' mailbox hw hs =>
    have hmem := List.mem_of_getElem? hw
    obtain ⟨⟨-, hroster, -⟩, hgone, -⟩ :=
      (hsound.workers w hmem).outcome (Worker.steps_of_step? hs)
    obtain ⟨t, hth⟩ := hsound.exists_listed hup hmem (Worker.not_ended_of_not_gone hgone)
    have hhung := (hsound.wired_of_listed hup hmem hth).2
    refine h.setWorker hw (Worker.step?_group hs) (fun name hname => ?_) _
    rw [hroster] at hname
    exact ⟨hname, fun hserves => hserves.step? hname hhung hs⟩
  | @beats place ticker w hw hk =>
    obtain ⟨ho, -⟩ := Worker.onCourse_beat w e.host.mailbox ticker
    refine h.setWorker hw (Worker.beat_group _ _ _) (fun name hname => ?_) _
    rw [ho.roster] at hname
    exact ⟨hname, fun hserves => hserves.beat _ _⟩
  | aborts hw hs =>
    obtain ⟨-, -, -, -, -, -, hroster, -⟩ := Worker.abort?_eq hs
    refine h.setWorker hw (Worker.abort?_group hs) (fun name hname => ?_) _
    rw [hroster] at hname
    cases hname
  | completes | sends | refuses | closes => exact h

/-- With the last group, nothing is due yet, and nobody has asked for the end. -/
lemma due_eq_nil {m : EngineMsg}
    (hn : (groupsIn heard).length < link.command.groupCount link.app.uri) (group : String)
    (d : Loc) :
    due link g group d (heard ++ [m]) = [] := by
  unfold due whileUp
  rw [afterGroups_concat_eq_nil hn m]
  exact ite_self _

/-- **With the last group, threads begin to serve.** Nothing is due to their extensions yet.

**Proof sketch.** Only the last group starts threads, and the groups have just come: nothing has
been due yet and the end has not been asked for. A new thread has an empty inbox and has yet to open
its extensions. -/
lemma AllServe.begin (hk : (link.command.topology.groups.map GroupInfo.key).Nodup)
    {moves : List Move} (hp : (start link).1.play moves = some (heard, e))
    (hopen : e.context.phase ≠ .closed) {m : EngineMsg} {mailbox : Mailbox EngineMsg}
    (htake : e.host.mailbox.take? = some (m, mailbox))
    (hl : (e.context.handle m).2.filterMap Effect.launch? ≠ [])
    (hcalm : .panic ∉ (e.context.handle m).2) :
    (({ e with host := { e.host with mailbox } } : Engine).handle m).AllServe link g
      (heard ++ [m]) := by
  have hsound := sound_of_play hp
  have hsettled (hs : e.IsSettled) {p : Prop} : p := absurd (hs.2.handle m).2 hl
  cases (course_of_play hk hp).1 with
  | empty _ hs | ended _ _ _ hs | up _ _ _ hs => exact hsettled hs
  | refused _ _ hc => exact absurd hc hopen
  | down _ _ _ hd =>
    exact absurd hd (not_isDown_of_listening (hsound.listening_of_take? htake))
  | waits _ hn _ hg =>
    intro w hw name hname
    rw [hsound.workers_of_start htake hl hcalm, List.map_eq_nil_iff.1 hg, List.nil_append] at hw
    obtain ⟨l, -, rfl⟩ := List.mem_map.1 hw
    have hasked : ¬ EndAsked (link.command.groupCount link.app.uri) (heard ++ [m]) := by
      rintro ⟨x, hx, -⟩
      rw [afterGroups_concat_eq_nil hn m] at hx
      cases hx
    rw [due_eq_nil hn]
    -- A thread with extensions has asked all their addons, so that it opens them next.
    have hopening : (Launch.worker (e.context.handle m).1.link l).stage = .opening := by
      rcases Worker.create_stage (e.context.handle m).1.link l.id l.group l.topology with
        ⟨-, -, -, hnone⟩ | ⟨-, hstage⟩
      · rw [Worker.roster, Launch.worker, hnone] at hname
        cases hname
      · exact hstage
    exact .fresh (Worker.handled_create _ _ _ _) hopening rfl hasked

/-- Once all groups have come in time, a graph is open until the end is asked for. -/
lemma open_of_not_asked (hk : (link.command.topology.groups.map GroupInfo.key).Nodup)
    (hok : (start link).2 = .ok ()) {moves : List Move}
    (hp : (start link).1.play moves = some (heard, e))
    (hin : CameInTime (link.command.groupCount link.app.uri) heard)
    (ha : ¬ EndAsked (link.command.groupCount link.app.uri) heard) : e.context.IsOpen := by
  refine open_of_quiet hk hok hp fun x hx hend => ?_
  obtain ⟨before, after, rfl, hn, hquiet⟩ := hin
  rcases List.mem_append.1 hx with hx | hx
  · exact hquiet x hx hend
  · refine ha ⟨x, ?_, hend⟩
    rw [afterGroups_append (Nat.le_of_eq hn.symm)]
    exact List.mem_append_right _ hx

/-- Closing an open graph writes the request to end to every thread that takes messages. -/
lemma Sound.write_close (h : e.Sound heard) (hup : ¬ e.IsDown) (ho : e.context.IsOpen) {w : Worker}
    (hw : w ∈ e.host.workers) :
    w.write (writtenTo w.id e.context.close.2) = w.write [.close] := by
  cases hr : w.isReceiving with
  | false => rw [w.write_of_not_receiving _ hr, w.write_of_not_receiving _ hr]
  | true =>
    obtain ⟨t, hth⟩ := h.exists_listed hup hw (Worker.not_ended_of_receiving hr)
    obtain ⟨hmem, hid⟩ := h.steady.context.handle?_eq_some_iff.1 hth
    rw [← hid, Context.writtenTo_close h.steady.context.idsNodup ho hmem
      (h.working_of_listed hup ho hw hth)]

/-- Writing to the inboxes leaves all threads serving if it leaves each of them so. -/
lemma AllServe.written (h : e.AllServe link g heard) {ms : Worker → List ThreadMsg}
    (hworkers : e'.host.workers = e.host.workers.map fun w => w.write (ms w))
    (hserves : ∀ w ∈ e.host.workers, ∀ name,
      w.Serves name (due link g w.group (.ofExtension link.app.uri link.graph name) heard)
          (EndAsked (link.command.groupCount link.app.uri) heard) →
        (w.write (ms w)).Serves name
          (due link g w.group (.ofExtension link.app.uri link.graph name) heard')
          (EndAsked (link.command.groupCount link.app.uri) heard')) :
    e'.AllServe link g heard' := by
  intro w' hw' name hname
  rw [hworkers] at hw'
  obtain ⟨w, hw, rfl⟩ := List.mem_map.1 hw'
  rw [Worker.write_roster] at hname
  rw [Worker.write_group]
  exact hserves w hw name (h w hw name hname)

/-- **A message leaves every thread serving**: what it writes to the inbox of a thread is what
becomes due to the extensions on it.

**Proof sketch.** By the message. A route writes to each inbox what it brings for the extensions
there, which is what becomes due as long as the end has not been asked for; afterwards a thread has
its request and reads no further. A close writes the request. -/
lemma AllServe.handle (h : e.AllServe link g heard) (hg : link.Accepts g)
    (hok : (start link).2 = .ok ()) {moves : List Move}
    (hp : (start link).1.play moves = some (heard, e))
    (hin : CameInTime (link.command.groupCount link.app.uri) heard) {m : EngineMsg}
    {mailbox : Mailbox EngineMsg} (htake : e.host.mailbox.take? = some (m, mailbox)) :
    (({ e with host := { e.host with mailbox } } : Engine).handle m).AllServe link g
      (heard ++ [m]) := by
  have hsound := sound_of_play hp
  have hup := not_isDown_of_listening (hsound.listening_of_take? htake)
  have hn := hin.le
  cases m with
  | created result =>
    -- All groups have come, so that no outcome is left to come.
    have hnone := (((owes_start hok).play hp).handle htake).outcome?_eq_none hin
    cases hnone
  | threadClosed id =>
    intro w' hw' name hname
    rw [due_concat_of_unrouted hn rfl, endAsked_concat_of_not hn (m := .threadClosed id) not_false]
    obtain ⟨w, hw, rfl | rfl⟩ := hsound.threadClosed_workers htake w' hw'
    · exact h w' hw name hname
    · exact (h w hw name hname).congr rfl rfl rfl
  | route m =>
    refine h.written ((staffed_of_play hg.keys hok hp hin).route_workers hg
      (origins_of_play hp).linked hsound) fun w _ name hserves => ?_
    rw [endAsked_concat_of_not hn (m := .route m) not_false]
    by_cases ha : EndAsked (link.command.groupCount link.app.uri) heard
    · rw [due_concat_of_asked hn ha]
      exact hserves.write_late ha _
    · have hwrite := hserves.write ha (close_not_mem_deliveries m
        (g.addresses link.app.uri link.graph w.group))
      rw [awaitedIn_deliveries, ← copies_singleton] at hwrite
      rw [due_concat hn ha]
      exact hwrite
  | close =>
    have hworkers := handle_workers_of_mild ({ e with host := { e.host with mailbox } } : Engine)
      (m := .close) (e.context.effects_of_asksForEnd (m := .close) trivial).1 hsound.idsNodup
    refine h.written hworkers fun w hw name hserves => ?_
    have hasked := (endAsked_concat (m := .close) hn).2 (.inr trivial)
    rw [due_concat_of_unrouted hn rfl]
    by_cases ha : EndAsked (link.command.groupCount link.app.uri) heard
    · rw [iff_of_true hasked ha]
      exact hserves.write_late ha _
    · have hclose := hsound.write_close hup (open_of_not_asked hg.keys hok hp hin ha) hw
      rw [show writtenTo w.id (({ e with host := { e.host with mailbox } } : Engine).context.handle
        .close).2 = writtenTo w.id e.context.close.2 from rfl, hclose]
      exact hserves.write_close ha hasked

/-- **Every thread has come as far as it says**, at any time of any run, unless the engine has gone
down.

**Proof sketch.** Induction on the run. An engine that is up after a move was up before it. The
message that starts the threads makes them serve; there were none before it, and all other messages
and moves leave them serving. -/
theorem serves_of_play (hg : link.Accepts g) {moves : List Move} {taken : List EngineMsg}
    (hp : (start link).1.play moves = some (taken, e)) (hup : ¬ e.IsDown) :
    e.AllServe link g taken := by
  refine induction_of_play (P := fun heard e => ¬ e.IsDown → e.AllServe link g heard) ?_ ?_ hp hup
  · intro _ w hw
    rw [start_workers] at hw
    cases hw
  · intro moves taken e e' m hp hserve hm hup'
    have hup := (sound_of_play hp).not_isDown_of_move hm hup'
    have h := hserve hup
    by_cases hh : m = .handle
    · subst hh
      cases moves_of_move? hm with
      | @handles m mailbox hopen htake =>
        rw [taken?_handle htake]
        by_cases hl : (e.context.handle m).2.filterMap Effect.launch? = []
        · intro w hw
          have htouched := (sound_of_play hp).handle_touched htake
          rw [hl, List.map_nil, List.append_nil] at htouched
          obtain ⟨v, hv, -⟩ := htouched.exists_of_mem hw
          obtain ⟨hok, hin⟩ := cameInTime_of_workers hg.keys hp (List.ne_nil_of_mem hv)
          exact h.handle hg hok hp hin htake w hw
        · exact .begin hg.keys hp hopen htake hl fun hx =>
            hup' (((sound_of_play hp).isDown_handle_iff htake).2 hx)
    · rw [append_taken? hh]
      exact h.move (sound_of_play hp) hup hm hh

/-- **An engine that has gone down is as it was when it began to start its threads**: nothing has
become due to any extension, and nobody has written to any thread.

**Proof sketch.** The engine goes down over the last group, and takes no message afterwards. Nobody
else can write to threads. -/
theorem unwritten_of_play (hk : (link.command.topology.groups.map GroupInfo.key).Nodup)
    {moves : List Move} {taken : List EngineMsg}
    (hp : (start link).1.play moves = some (taken, e)) (hd : e.IsDown) :
    (∀ group d, due link g group d taken = []) ∧ ∀ w ∈ e.host.workers, w.Unwritten := by
  refine induction_of_play (P := fun heard e => e.IsDown →
    (∀ group d, due link g group d heard = []) ∧ ∀ w ∈ e.host.workers, w.Unwritten) ?_ ?_ hp hd
  · exact fun hd => absurd hd (not_isDown_start link)
  · intro moves taken e e' m hp ih hm hd'
    by_cases hh : m = .handle
    · subst hh
      cases moves_of_move? hm with
      | @handles m mailbox hopen htake =>
        have hsound := sound_of_play hp
        have hx := (hsound.isDown_handle_iff htake).1 hd'
        obtain ⟨hn, -, hg⟩ := (course_of_play hk hp).1.waits_of_panic hsound htake hx
        rw [taken?_handle htake]
        refine ⟨due_eq_nil hn, fun w hw => ?_⟩
        rw [hsound.workers_of_panic htake hx, List.map_eq_nil_iff.1 hg, List.nil_append] at hw
        obtain ⟨v, hv, rfl⟩ := List.mem_map.1 hw
        obtain ⟨l, -, rfl⟩ := List.mem_map.1 hv
        exact ⟨rfl, fun name => Worker.handled_create _ _ _ _⟩
    · obtain ⟨hdue, hworkers⟩ := ih ((isDown_of_move hm hh).1 hd')
      rw [append_taken? hh]
      refine ⟨hdue, ?_⟩
      have hset {place : Nat} {w w' : Worker} (hw : e.host.workers[place]? = some w)
          (hkeeps : w.Unwritten → w'.Unwritten) :
          ∀ v ∈ e.host.workers.set place w', v.Unwritten := by
        intro v hv
        rcases List.mem_or_eq_of_mem_set hv with hv | rfl
        · exact hworkers v hv
        · exact hkeeps (hworkers w (List.mem_of_getElem? hw))
      cases moves_of_move? hm with
      | handles => exact absurd rfl hh
      | works hw hs => exact hset hw fun h => h.step? hs
      | beats hw => exact hset hw fun h => h.beat _ _
      | aborts hw hs => exact hset hw fun h => h.abort? hs
      | completes | sends | refuses | closes => exact hworkers

/-! ## The order of messages -/

/-- A copy is a message that names the destination. -/
lemma mem_copies {m : Msg} {ms : List Msg} : m ∈ copies d ms ↔ m ∈ ms ∧ d ∈ m.dest := by
  unfold copies
  rw [List.mem_flatMap]
  constructor
  · rintro ⟨m', hm', hcopy⟩
    obtain ⟨hpos, rfl⟩ := List.mem_replicate.1 hcopy
    exact ⟨hm', List.count_pos_iff.1 (Nat.pos_of_ne_zero hpos)⟩
  · rintro ⟨hm, hd⟩
    exact ⟨m, hm, List.mem_replicate.2 ⟨Nat.ne_of_gt (List.count_pos_iff.2 hd), rfl⟩⟩

/-- What comes before something else among copies does so among the originals.

**Proof sketch.** By induction over the originals. Copies of one original are all the same, so that
of two different messages at most the first one is among them. -/
lemma sublist_of_copies {m m' : Msg} (hne : m ≠ m') {ms : List Msg}
    (h : [m, m'].Sublist (copies d ms)) : [m, m'].Sublist ms := by
  induction ms with
  | nil => exact absurd (List.sublist_nil.1 h) (by simp)
  | cons x ms ih =>
    obtain ⟨l, l', hsplit, hl, hl'⟩ := List.sublist_append_iff.1
      (show [m, m'].Sublist (List.replicate (x.dest.count d) x ++ copies d ms) from h)
    have hcopy : ∀ y ∈ l, y = x := fun y hy => (List.mem_replicate.1 (hl.subset hy)).2
    match l with
    | [] =>
      rw [List.nil_append] at hsplit
      exact (ih (hsplit ▸ hl')).cons x
    | [y] =>
      obtain ⟨rfl, rfl⟩ : m = y ∧ [m'] = l' := List.cons_eq_cons.1 hsplit
      obtain rfl := hcopy m List.mem_cons_self
      exact (List.singleton_sublist.2 (mem_copies.1 (List.singleton_sublist.1 hl')).1).cons_cons m
    | y :: y' :: l =>
      obtain ⟨hy, hrest⟩ := List.cons_eq_cons.1 hsplit
      obtain ⟨hy', -⟩ := List.cons_eq_cons.1 hrest
      exact absurd ((hy.trans (hcopy y (by simp))).trans (hy'.trans (hcopy y' (by simp))).symm) hne

/-- The messages to extensions are among all messages, in the same order. -/
lemma routes_sublist (heard : List EngineMsg) :
    ((heard.filterMap EngineMsg.routed?).map EngineMsg.route).Sublist heard := by
  induction heard with
  | nil => exact .slnil
  | cons x heard ih =>
    cases x with
    | route m => exact ih.cons_cons _
    | created | threadClosed | close => exact ih.cons _

/-- **What is promised of the messages that are handed to an extension.** -/
structure HandedInOrder (link : Link) (g : GraphDefinition) (moves : List Move)
    (taken : List EngineMsg) (w : Worker) (h : Hosted) : Prop where
  /-- They are among those that the engine has taken, in the same order and without a gap, each as
  often as it names the address of the extension. -/
  segment : w.handled h.name <:+: copies h.env.loc (taken.filterMap EngineMsg.routed?)
  /-- None of them has been made up or changed. -/
  genuine : ∀ m ∈ w.handled h.name, .route m ∈ taken ∧ h.env.loc ∈ m.dest
  /-- None of them has overtaken another. -/
  order : ∀ m m', [m, m'].Sublist (w.handled h.name) → m ≠ m' →
    [EngineMsg.route m, EngineMsg.route m'].Sublist taken
  /-- None that is due has been skipped. -/
  noneSkipped : w.handled h.name <+: due link g w.group h.env.loc taken
  /-- While the thread is at work, the rest of what is due waits in its inbox. -/
  working : w.stage = .opening ∨ w.stage = .serving →
    w.handled h.name ++ w.awaited h.name = due link g w.group h.env.loc taken
  /-- The thread does not begin to end before everything that is due has been handed over. -/
  ending : w.stage = .stopping ∨ w.stage = .stopped ∨ w.stage = .ended →
    w.handled h.name = due link g w.group h.env.loc taken
  /-- What had been posted at any time of the run comes before all that was posted later. -/
  posted : ∀ before after taken₀ e₀, moves = before ++ after →
    (start link).1.play before = some (taken₀, e₀) →
      w.handled h.name <+: due link g w.group h.env.loc
        (taken₀ ++ e₀.host.mailbox.messages) ∨
      due link g w.group h.env.loc (taken₀ ++ e₀.host.mailbox.messages) <+:
        w.handled h.name

/-- Nothing has gone wrong with the messages of an extension if there are none.

**Proof sketch.** Nothing has been handed over, and nothing is due, so every part of the promise
compares the empty list with something. -/
lemma handedInOrder_of_unwritten {moves : List Move} {taken : List EngineMsg} {w : Worker}
    {h : Hosted} (hw : w.Unwritten) (hdue : due link g w.group h.env.loc taken = []) :
    HandedInOrder link g moves taken w h := by
  have hnone := hw.handled h.name
  have hall : w.handled h.name = due link g w.group h.env.loc taken := hnone.trans hdue.symm
  refine
    { segment := by rw [hnone]; exact List.nil_infix
      genuine := fun m hm => by rw [hnone] at hm; cases hm
      order := fun m m' hpair _ => by rw [hnone] at hpair; cases hpair
      noneSkipped := by rw [hnone]; exact List.nil_prefix
      working := fun _ => ?_
      ending := fun _ => hall
      posted := fun _ _ _ _ _ _ => .inl (by rw [hnone]; exact List.nil_prefix) }
  rw [Worker.awaited, hw.inbox, awaitedIn, List.append_nil]
  exact hall

/-- **Extensions are handed their messages in order.** Let a graph be accepted by its app. At any
time of any run, the messages that have been handed to an extension are those that are due to it, in
the order in which they were posted. None is left out between two others, none comes twice unless it
names the extension twice, and none comes that was not posted.

**Proof sketch.** What a thread has handed over is a beginning of what is due (`serves_of_play`),
and what is due is a segment of what was routed. An engine that has gone down before its threads
were started leaves them without messages. For the order among posts, the mailbox is taken in the
order in which it was filled (`taken_in_order`). -/
theorem handed_in_order (app : AppInfo) {graph : String} {s : StartGraph}
    (hs : StartGraph.ofDefinition g app.uri graph = .ok s) (name : String) (registry : Registry)
    (spawner : Spawner) {moves : List Move} {taken : List EngineMsg}
    (hp : (start (Link.ofStart app registry spawner (s.withName name))).1.play moves =
      some (taken, e))
    {w : Worker} (hw : w ∈ e.host.workers) {h : Hosted} (hh : h ∈ w.hosted) :
    HandedInOrder (Link.ofStart app registry spawner (s.withName name)) g moves taken w h := by
  have hg := Link.accepts_ofStart app hs name registry spawner
  by_cases hd : e.IsDown
  · obtain ⟨hdue, hworkers⟩ := unwritten_of_play (g := g) hg.keys hp hd
    exact handedInOrder_of_unwritten (hworkers w hw) (hdue _ _)
  have hserves := serves_of_play hg hp hd w hw h.name (List.mem_map_of_mem hh)
  rw [← loc_of_hosted hp hw hh] at hserves
  have hsegment := hserves.order.isInfix.trans (due_within taken)
  refine
    { segment := hsegment
      genuine := fun m hm => ?_
      order := fun m m' hpair hne => ?_
      noneSkipped := hserves.order
      working := fun hstage => (hserves.working hstage).1
      ending := fun hstage => (hserves.ending hstage).1
      posted := fun before after taken₀ e₀ hmoves h₀ => ?_ }
  · obtain ⟨hmem, hdest⟩ := mem_copies.1 (hsegment.subset hm)
    exact ⟨(routes_sublist taken).subset (List.mem_map_of_mem hmem), hdest⟩
  · exact ((sublist_of_copies hne (hpair.trans hsegment.sublist)).map EngineMsg.route).trans
      (routes_sublist taken)
  · subst hmoves
    obtain ⟨taken₁, e₁, taken₂, h₁, h₂, rfl⟩ := play_append.1 hp
    cases h₀.symm.trans h₁
    have hcomparable : taken₀ ++ taken₂ <+: taken₀ ++ e₀.host.mailbox.messages ∨
        taken₀ ++ e₀.host.mailbox.messages <+: taken₀ ++ taken₂ := by
      rw [List.prefix_append_right_inj, List.prefix_append_right_inj]
      rcases taken_in_order h₂ with hin | hin
      · exact .inl hin
      · exact List.prefix_or_prefix_of_prefix (List.prefix_append _ _) hin
    rcases hcomparable with hin | hin
    · exact .inl (hserves.order.trans (due_mono hin))
    · exact List.prefix_or_prefix_of_prefix hserves.order (due_mono hin)

/-- Another message to the same extension. -/
def reminder : Msg := (Msg.create .data "again" default).withDest (.here "listener")

/-- One extension greets the other one, which is then reminded from outside. -/
theorem handed_in_order_neighbours :
    let s : StartGraph := ⟨.ofGraph "app" "1", none, neighbours.topology "app" "1"⟩
    let link := Link.ofStart ⟨"app", ""⟩ neighbours.registry .willing (s.withName "")
    let moves : List Move := [.complete 0, .complete 0, .handle, .handle, .work 0, .work 0,
      .send reminder, .handle, .handle] ++ List.replicate 8 (.work 1)
    StartGraph.ofDefinition neighbours "app" "1" = .ok s ∧
    ∃ r w h, (start link).1.play moves = some r ∧ w ∈ r.2.host.workers ∧ h ∈ w.hosted ∧
      h.name = "listener" ∧ (w.handled "listener").map (·.name) = ["hello", "again"] ∧
      HandedInOrder link neighbours moves r.1 w h := by
  intro s link moves
  have hs : StartGraph.ofDefinition neighbours "app" "1" = .ok s := rfl
  have hrun : ((start link).1.play moves).any fun r => r.2.host.workers.any fun w =>
      w.hosted.any fun h => h.name = "listener" ∧
        (w.handled "listener").map (·.name) = ["hello", "again"] := by decide +kernel
  obtain ⟨r, hp, hrun⟩ := (Option.any_eq_true _ _).1 hrun
  obtain ⟨w, hw, hrun⟩ := List.any_eq_true.1 hrun
  obtain ⟨h, hh, hsum⟩ := List.any_eq_true.1 hrun
  obtain ⟨hname, hhandled⟩ := of_decide_eq_true hsum
  exact ⟨hs, r, w, h, hp, hw, hh, hname, hhandled,
    handed_in_order ⟨"app", ""⟩ hs "" neighbours.registry .willing hp hw hh⟩

end Engine

end ExtensionGraph
