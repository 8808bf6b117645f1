import Mathlib.Tactic.Common
import ExtensionGraph.Proofs.ExtensionTable
import ExtensionGraph.Proofs.Inboxes
import ExtensionGraph.Proofs.ThreadReports

/-!
# What is written to the inboxes of threads

While an engine handles a message, it writes to inboxes one after the other. If nobody is started or
waited for meanwhile, each worker that takes messages has in the end got what was written to its
number, in that order, and all other workers are as they were. What a message to extensions writes
to a thread depends on the declared extensions of the group of the thread: it is one entry for each
destination that is one of them.

## Main definitions

* `ExtensionGraph.Effect.written?`, `ExtensionGraph.writtenTo` — what effects write to a thread.
* `ExtensionGraph.Worker.write` — a worker to which something is written.
* `ExtensionGraph.Msg.deliveries` — what a message to extensions writes to a thread.

## Main results

* `ExtensionGraph.Engine.foldl_perform_workers` — what mild effects do to the workers, exactly.
* `ExtensionGraph.Engine.Sound.threadClosed_workers` — the report of a thread writes nothing.
* `ExtensionGraph.Context.writtenTo_dispatch` — what a message writes to a listed thread.
* `ExtensionGraph.Context.writtenTo_close` — what the wish to close writes to it.
-/

namespace ExtensionGraph

/-! ## Writing -/

/-- What an effect writes to the thread with a number. -/
def Effect.written? (id : ThreadId) : Effect → Option ThreadMsg
  | .tell id' m _ => if id' = id then some m else none
  | _ => none

/-- What effects write to the thread with a number, in their order. -/
def writtenTo (id : ThreadId) (effects : List Effect) : List ThreadMsg :=
  effects.filterMap (Effect.written? id)

/-- What effects write to a thread, one part after the other. -/
lemma writtenTo_append (id : ThreadId) (xs ys : List Effect) :
    writtenTo id (xs ++ ys) = writtenTo id xs ++ writtenTo id ys :=
  List.filterMap_append

/-- What effects write to a thread, group by group. -/
lemma writtenTo_flatMap {α : Type} (id : ThreadId) (f : α → List Effect) (l : List α) :
    writtenTo id (l.flatMap f) = l.flatMap fun a => writtenTo id (f a) :=
  List.filterMap_flatMap

/-- A worker to which something is written. It gets nothing if it takes no messages any more. -/
def Worker.write (w : Worker) (ms : List ThreadMsg) : Worker :=
  if w.isReceiving then { w with inbox := w.inbox ++ ms } else w

namespace Worker

variable (w : Worker) (ms ms' : List ThreadMsg)

/-- A worker that takes messages gets them at the end of its inbox. -/
lemma write_of_receiving (h : w.isReceiving = true) :
    w.write ms = { w with inbox := w.inbox ++ ms } := if_pos h

/-- A worker that takes no messages any more gets none. -/
lemma write_of_not_receiving (h : w.isReceiving = false) : w.write ms = w :=
  if_neg (by simp [h])

/-- Writing nothing changes nothing. -/
@[simp] lemma write_nil : w.write [] = w := by
  unfold write
  split
  · rw [List.append_nil]
  · rfl

/-- Writing to a worker keeps its number. -/
@[simp] lemma write_id : (w.write ms).id = w.id := by
  unfold write
  split <;> rfl

/-- Writing to a worker keeps its group. -/
@[simp] lemma write_group : (w.write ms).group = w.group := by
  unfold write
  split <;> rfl

/-- Writing to a worker keeps its extensions. -/
@[simp] lemma write_roster : (w.write ms).roster = w.roster := by
  unfold write
  split <;> rfl

/-- Writing to a worker keeps its stage. -/
@[simp] lemma write_stage : (w.write ms).stage = w.stage := by
  unfold write
  split <;> rfl

/-- Whether a worker takes messages does not depend on those that it has. -/
@[simp] lemma write_isReceiving : (w.write ms).isReceiving = w.isReceiving :=
  isReceiving_eq (w.write_stage ms)

/-- Writing twice is writing one after the other. -/
lemma write_write : (w.write ms).write ms' = w.write (ms ++ ms') := by
  cases hr : w.isReceiving with
  | false => rw [w.write_of_not_receiving ms hr, write_of_not_receiving _ _ hr,
      write_of_not_receiving _ _ hr]
  | true =>
    rw [write_of_receiving _ _ ((w.write_isReceiving ms).trans hr), w.write_of_receiving ms hr,
      w.write_of_receiving _ hr, List.append_assoc]

end Worker

namespace Host

variable (h : Host)

/-- Writing to a thread reaches the worker with its number, if it takes messages, and no other.

**Proof sketch.** If the worker with the number takes messages, its inbox is the only thing that
changes, and no other worker has this number. Otherwise nothing is written, and `write` does not
write either. -/
lemma tell_workers (hnd : (h.workers.map (·.id)).Nodup) (id : ThreadId) (m : ThreadMsg)
    (unheard : Option LogEvent) :
    (h.tell id m unheard).workers =
      h.workers.map fun w => w.write (writtenTo w.id [.tell id m unheard]) := by
  have hother {w : Worker} (hid : w.id ≠ id) :
      w.write (writtenTo w.id [.tell id m unheard]) = w := by
    have hnil : writtenTo w.id [.tell id m unheard] = [] := by
      simp [writtenTo, Effect.written?, Ne.symm hid]
    rw [hnil, Worker.write_nil]
  have hone {w : Worker} (hid : w.id = id) : writtenTo w.id [.tell id m unheard] = [m] := by
    simp [writtenTo, Effect.written?, hid]
  -- If nobody hears the message, every worker stays as it is.
  have hsame (hdeaf : ∀ w ∈ h.workers, w.id = id → w.isReceiving = false) :
      h.workers = h.workers.map fun w => w.write (writtenTo w.id [.tell id m unheard]) := by
    refine ((List.map_congr_left fun w hw => ?_).trans (List.map_id _)).symm
    by_cases hid : w.id = id
    · exact Worker.write_of_not_receiving _ _ (hdeaf w hw hid)
    · exact hother hid
  unfold tell
  split
  · next place hp hears =>
    obtain ⟨v, hv, hvid⟩ := h.exists_of_place? hp
    have hmem := List.mem_of_getElem? hv
    have hr : v.isReceiving = true := by
      rw [← h.hears_eq hnd hmem, hvid]
      exact hears
    rw [modify, List.modify_eq_set_getElem?, hv]
    refine List.ext_getElem? fun k => ?_
    have hlt : place < h.workers.length := (List.getElem?_eq_some_iff.1 hv).1
    show (h.workers.set place { v with inbox := v.inbox ++ [m] })[k]? = _
    rw [List.getElem?_map]
    by_cases hk : place = k
    · rw [← hk, List.getElem?_set_self hlt, hv, Option.map_some, hone hvid,
        v.write_of_receiving _ hr]
    · rw [List.getElem?_set_ne hk]
      cases hu : h.workers[k]? with
      | none => rfl
      | some u =>
        have hid : u.id ≠ id := by
          intro hid
          obtain rfl : u = v :=
            List.inj_on_of_nodup_map hnd (List.mem_of_getElem? hu) hmem (hid.trans hvid.symm)
          exact hk ((List.getElem?_inj hlt (hnd.of_map _)).1 (hv.trans hu.symm))
        rw [Option.map_some, hother hid]
  · next hdeaf =>
    have hnone : ∀ w ∈ h.workers, w.id = id → w.isReceiving = false := by
      intro w hw hid
      obtain ⟨place, hp⟩ := h.exists_place? hw
      rw [hid] at hp
      rw [← h.hears_eq hnd hw, hid, ← Bool.not_eq_true]
      exact hdeaf place hp
    split
    · exact hsame hnone
    · exact hsame hnone

/-- A mild effect changes the workers by what it writes. -/
lemma perform_workers (hnd : (h.workers.map (·.id)).Nodup) (link : Link) {x : Effect}
    (hx : x.IsMild) :
    (h.perform link x).workers = h.workers.map fun w => w.write (writtenTo w.id [x]) := by
  cases x with
  | tell id m unheard => exact h.tell_workers hnd id m unheard
  | spawn => cases hx.2
  | reap | panic => exact hx.1.elim
  | log | await | post | announce =>
    refine ((List.map_congr_left fun w _ => ?_).trans (List.map_id _)).symm
    exact w.write_nil

end Host

namespace Engine

/-- **What mild effects do to the workers**: those that take messages get what is written to
them.

**Proof sketch.** By induction over the effects. Each of them writes to inboxes only, and keeps the
numbers of the workers, so that what the rest writes is put behind it. -/
theorem foldl_perform_workers (e : Engine) {effects : List Effect} (hx : ∀ x ∈ effects, x.IsMild)
    (hnd : (e.host.workers.map (·.id)).Nodup) :
    (effects.foldl perform e).host.workers =
      e.host.workers.map fun w => w.write (writtenTo w.id effects) := by
  induction effects generalizing e with
  | nil => exact ((List.map_congr_left fun w _ => w.write_nil).trans (List.map_id _)).symm
  | cons x effects ih =>
    have hone : (e.perform x).host.workers =
        e.host.workers.map fun w => w.write (writtenTo w.id [x]) := by
      rw [perform_workers]
      exact e.host.perform_workers hnd _ (hx x List.mem_cons_self)
    have hids : (e.perform x).host.workers.map (·.id) = e.host.workers.map (·.id) := by
      rw [hone, List.map_map]
      exact List.map_congr_left fun w _ => w.write_id _
    rw [List.foldl_cons, ih (e.perform x) (fun y hy => hx y (List.mem_cons_of_mem _ hy))
      (by rw [hids]; exact hnd), hone, List.map_map]
    refine List.map_congr_left fun w _ => ?_
    rw [Function.comp_apply, Worker.write_write, Worker.write_id, ← writtenTo_append]
    rfl

/-- Handling a message that starts nobody and waits for nobody. -/
lemma handle_workers_of_mild (e : Engine) {m : EngineMsg}
    (hx : ∀ x ∈ (e.context.handle m).2, x.IsMild) (hnd : (e.host.workers.map (·.id)).Nodup) :
    (e.handle m).host.workers =
      e.host.workers.map fun w => w.write (writtenTo w.id (e.context.handle m).2) := by
  rw [Engine.handle, retire_workers]
  exact foldl_perform_workers { e with context := (e.context.handle m).1 } hx hnd

variable {e : Engine} {heard : List EngineMsg}

/-- **The report of a thread writes nothing.** The worker of the thread loses its inbox, and all
others stay as they are.

**Proof sketch.** By the ledger, the worker with this number has ended, so waiting for it takes its
inbox away and does nothing else. What else is done upon the report (an entry in the log, the end of
the graph) writes nothing. -/
theorem Sound.threadClosed_workers (h : e.Sound heard) {id : ThreadId}
    {mailbox : Mailbox EngineMsg}
    (htake : e.host.mailbox.take? = some (.threadClosed id, mailbox)) :
    ∀ w' ∈ (({ e with host := { e.host with mailbox } } : Engine).handle
        (.threadClosed id)).host.workers,
      ∃ w ∈ e.host.workers, w' = w ∨ w' = { w with hungUp := true } := by
  obtain ⟨hbusy, hledger⟩ := h.busy htake
  obtain ⟨c', host, event, extra, heq, hextra, hhost⟩ :=
    hbusy.carryOut_threadClosed h.steady.context hledger
  -- Waiting for the thread takes its inbox away at most.
  have hjoined : host.workers.map (·.id) = e.host.workers.map (·.id) ∧
      ∀ v ∈ host.workers, ∃ w ∈ e.host.workers, v = w ∨ v = { w with hungUp := true } := by
    rcases hhost with rfl | ⟨place, w, hplace, rfl⟩
    · exact ⟨rfl, fun v hv => ⟨v, hv, .inl rfl⟩⟩
    · refine ⟨map_key_set hplace rfl, fun v hv => ?_⟩
      rcases List.mem_or_eq_of_mem_set hv with hv | rfl
      · exact ⟨v, hv, .inl rfl⟩
      · exact ⟨w, List.mem_of_getElem? hplace, .inr rfl⟩
  -- The rest of what is done upon a report writes to nobody.
  have hunwritten (id' : ThreadId) : writtenTo id' (.log event :: extra) = [] := by
    refine List.filterMap_eq_nil_iff.2 fun x hx => ?_
    rcases List.mem_cons.1 hx with rfl | hx
    · rfl
    · rcases e.context.threadClosed_effects id x (hextra x hx).1 with ⟨group, rfl⟩ | rfl |
        ⟨event, rfl⟩ | rfl
      · rfl
      · rfl
      · rfl
      · rfl
  have hmild : ∀ x ∈ Effect.log event :: extra, x.IsMild := by
    intro x hx
    rcases List.mem_cons.1 hx with rfl | hx
    · exact ⟨trivial, rfl⟩
    · exact (hextra x hx).2.1
  intro w' hw'
  rw [Engine.handle, retire_workers, heq, foldl_perform_workers _ hmild] at hw'
  · obtain ⟨v, hv, rfl⟩ := List.mem_map.1 hw'
    rw [hunwritten, Worker.write_nil]
    exact hjoined.2 v hv
  · show (host.workers.map (·.id)).Nodup
    rw [hjoined.1]
    exact h.idsNodup

end Engine

/-! ## What messages write -/

/-- What a message writes to a thread with extensions at the given addresses: an entry for each
destination that is one of them. -/
def Msg.deliveries (m : Msg) (addresses : List Loc) : List ThreadMsg :=
  (m.dest.filter fun d => d ∈ addresses).map fun d => .deliver (d.extension.getD "") m

namespace Context

variable {c : Context} {g : GraphDefinition}

/-- Delivering writes to the thread of the handle, if that has been started. -/
lemma writtenTo_deliver {t : Thread} (hwired : t.wired = true) (extension : String) (m : Msg)
    (unheard : Option LogEvent) :
    writtenTo t.id (t.deliver extension m unheard) = [.deliver extension m] := by
  unfold Thread.deliver
  rw [if_pos hwired]
  simp [writtenTo, Effect.written?]

/-- Delivering writes to no other thread. -/
lemma writtenTo_deliver_other {t : Thread} {id : ThreadId} (hid : t.id ≠ id) (extension : String)
    (m : Msg) (unheard : Option LogEvent) :
    writtenTo id (t.deliver extension m unheard) = [] := by
  unfold Thread.deliver
  cases t.wired with
  | true => simp [writtenTo, Effect.written?, hid]
  | false => cases unheard <;> rfl

/-- The handle of a group is found, if no other handle has the name of its group.

**Proof sketch.** The search stops at the first handle with the name of the group, and there is no
other one. -/
lemma thread?_eq_some_iff
    (hinj : ∀ t ∈ c.threads, ∀ u ∈ c.threads, t.groupName = u.groupName → t = u) {group : String}
    {t : Thread} : c.thread? group = some t ↔ t ∈ c.threads ∧ t.groupName = group := by
  unfold thread?
  constructor
  · intro h
    have hgroup := List.find?_some h
    exact ⟨List.mem_of_find?_eq_some h, by simpa using hgroup⟩
  · rintro ⟨ht, hgroup⟩
    cases hf : c.threads.find? fun u => u.groupName = group with
    | none => exact absurd hgroup (by simpa using List.find?_eq_none.1 hf t ht)
    | some u =>
      have hu := List.find?_some hf
      rw [hinj u (List.mem_of_find?_eq_some hf) t ht ((by simpa using hu : _ = group).trans
        hgroup.symm)]

/-- A context that knows the topology finds the group that has an address among its extensions. -/
lemma groupOf?_eq_some_iff (hf : g.fault? c.link.app.uri = none)
    (htop : c.topology = some (g.topology c.link.app.uri c.link.graph))
    {graph extension group : String} :
    c.groupOf? (some c.link.app.uri) (some graph) (some extension) = some group ↔
      Loc.ofExtension c.link.app.uri graph extension ∈
        g.addresses c.link.app.uri c.link.graph group := by
  rw [groupOf?, htop, Option.bind_some]
  exact GraphDefinition.groupOf?_eq_some_iff hf

/-- **A destination is written to the thread whose group has it among its extensions**, and to no
other. The handles of other threads may have been refused theirs.

**Proof sketch.** The topology says which group a destination belongs to, if it belongs to any. The
handle that is found for this group is the given one, or has another number. -/
lemma writtenTo_dispatchTo (hf : g.fault? c.link.app.uri = none)
    (htop : c.topology = some (g.topology c.link.app.uri c.link.graph))
    (hnd : (c.threads.map (·.id)).Nodup)
    (hinj : ∀ t ∈ c.threads, ∀ u ∈ c.threads, t.groupName = u.groupName → t = u)
    {t : Thread} (ht : t ∈ c.threads) (hwired : t.wired = true) (m : Msg) (d : Loc) :
    writtenTo t.id (c.dispatchTo m d) =
      if d ∈ g.addresses c.link.app.uri c.link.graph t.groupName then
        [.deliver (d.extension.getD "") m]
      else [] := by
  -- What is no address of an extension is written nowhere.
  have hstray {event : LogEvent}
      (hno : d ∉ g.addresses c.link.app.uri c.link.graph t.groupName) :
      writtenTo t.id [.log event] =
        if d ∈ g.addresses c.link.app.uri c.link.graph t.groupName then
          [ThreadMsg.deliver (d.extension.getD "") m]
        else [] := by
    rw [if_neg hno]
    rfl
  obtain ⟨app, graph, extension⟩ := d
  unfold dispatchTo
  cases extension with
  | none =>
    refine hstray fun hd => ?_
    obtain ⟨n, -, -, hn⟩ := GraphDefinition.mem_addresses.1 hd
    cases hn
  | some extension =>
    dsimp only
    by_cases happ : app = c.link.app.uri
    · subst happ
      rw [if_neg (not_not.2 rfl)]
      cases hgo : c.groupOf? (some c.link.app.uri) (some graph) (some extension) with
      | none =>
        refine hstray fun hd => ?_
        rw [(groupOf?_eq_some_iff hf htop).2 hd] at hgo
        cases hgo
      | some group =>
        have hhere : Loc.mk c.link.app.uri graph (some extension) ∈
            g.addresses c.link.app.uri c.link.graph t.groupName ↔ group = t.groupName := by
          rw [← Option.some.injEq, ← hgo]
          exact (groupOf?_eq_some_iff hf htop).symm
        rw [Option.bind_some]
        cases hth : c.thread? group with
        | none =>
          refine hstray fun hd => ?_
          rw [(thread?_eq_some_iff hinj).2 ⟨ht, (hhere.1 hd).symm⟩] at hth
          cases hth
        | some u =>
          obtain ⟨hu, rfl⟩ := (thread?_eq_some_iff hinj).1 hth
          show writtenTo t.id (u.deliver extension m _) = _
          by_cases hut : u = t
          · subst hut
            rw [writtenTo_deliver hwired, if_pos (hhere.2 rfl)]
            rfl
          · rw [writtenTo_deliver_other fun hid => hut (List.inj_on_of_nodup_map hnd hu ht hid),
              if_neg fun hd => hut (hinj u hu t ht (hhere.1 hd))]
    · rw [if_pos happ]
      refine hstray fun hd => happ ?_
      obtain ⟨n, -, -, hn⟩ := GraphDefinition.mem_addresses.1 hd
      exact (Loc.mk.inj hn).1.symm

/-- **What a message writes to a listed thread**: an entry for each destination that is an extension
of its group.

**Proof sketch.** By induction over the destinations. Each is written to the thread if it is an
address of its group, and to no other thread. -/
theorem writtenTo_dispatch (hf : g.fault? c.link.app.uri = none)
    (htop : c.topology = some (g.topology c.link.app.uri c.link.graph))
    (hnd : (c.threads.map (·.id)).Nodup)
    (hinj : ∀ t ∈ c.threads, ∀ u ∈ c.threads, t.groupName = u.groupName → t = u)
    {t : Thread} (ht : t ∈ c.threads) (hwired : t.wired = true) (m : Msg) :
    writtenTo t.id (c.dispatch m) =
      m.deliveries (g.addresses c.link.app.uri c.link.graph t.groupName) := by
  unfold dispatch Msg.deliveries
  generalize m.dest = ds
  induction ds with
  | nil => rfl
  | cons d ds ih =>
    rw [List.flatMap_cons, writtenTo_append, ih,
      writtenTo_dispatchTo hf htop hnd hinj ht hwired m d]
    by_cases hd : d ∈ g.addresses c.link.app.uri c.link.graph t.groupName
    · rw [if_pos hd, List.filter_cons_of_pos (by simpa using hd)]
      rfl
    · rw [if_neg hd, List.filter_cons_of_neg (by simpa using hd)]
      rfl

/-- A handle that is closed writes to its own thread at most. -/
lemma writtenTo_close_other {t : Thread} {id : ThreadId} (hid : t.id ≠ id) :
    writtenTo id t.close.2 = [] := by
  refine List.filterMap_eq_nil_iff.2 fun x hx => ?_
  rcases t.close_effects x hx with rfl | rfl | ⟨event, rfl⟩
  · exact if_neg hid
  · rfl
  · rfl

/-- **Closing an open graph writes the wish to each thread that is at work**, once.

**Proof sketch.** Induction on the handles. Each writes to its own thread only, and the numbers are
all different, so what is written to a thread is what its own handle writes. -/
theorem writtenTo_close (hnd : (c.threads.map (·.id)).Nodup) (ho : c.IsOpen) {t : Thread}
    (ht : t ∈ c.threads) (hworking : t.Working) : writtenTo t.id c.close.2 = [.close] := by
  have hlog (event : LogEvent) (xs : List Effect) :
      writtenTo t.id (.log event :: xs) = writtenTo t.id xs := List.filterMap_cons_none rfl
  have hone : writtenTo t.id t.close.2 = [.close] := by
    rw [hworking.close]
    simp [writtenTo, Effect.written?]
  rw [c.close_eq_of_nonempty ho (List.ne_nil_of_mem ht), hlog, writtenTo_flatMap]
  generalize c.threads = ts at hnd ht
  induction ts with
  | nil => cases ht
  | cons u ts ih =>
    rw [List.map_cons, List.nodup_cons] at hnd
    rw [List.flatMap_cons]
    rcases List.mem_cons.1 ht with rfl | ht
    · have hrest : (ts.flatMap fun v => writtenTo t.id v.close.2) = [] := by
        refine List.flatMap_eq_nil_iff.2 fun v hv => writtenTo_close_other fun hid => hnd.1 ?_
        exact hid ▸ List.mem_map_of_mem hv
      rw [hone, hrest]
      rfl
    · have hne : u.id ≠ t.id := fun hid => hnd.1 (hid ▸ List.mem_map_of_mem ht)
      rw [writtenTo_close_other hne]
      exact ih hnd.2 ht

end Context

end ExtensionGraph
