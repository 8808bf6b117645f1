import ExtensionGraph.Proofs.Decisions

/-!
# What an engine does to its workers

While an engine handles a message, the workers that it has do not run. It writes to their inboxes,
takes away the inboxes of those that have ended, and perhaps starts new workers. So every worker is
what it was before but for what has been appended to its inbox. A worker that has been asked to end
has been asked for good.

## Main definitions

* `ExtensionGraph.Worker.Touched` — a worker and what an engine has made of it.
* `ExtensionGraph.Worker.Asked` — a worker that has been asked to end, or has got as far as that.

## Main results

* `ExtensionGraph.Engine.Sound.handle_touched` — what a message does to all workers.
* `ExtensionGraph.Engine.foldl_perform_asked` — whoever is told to end has been asked.
-/

namespace ExtensionGraph

namespace Worker

/-! ## One worker -/

/-- Something has been appended to the inbox of the worker, or its inbox has been taken away. -/
def Touched (w w' : Worker) : Prop :=
  ∃ extra hungUp, w' = { w with inbox := w.inbox ++ extra, hungUp } ∧
    (hungUp = false → w.hungUp = false)

variable {w w' w'' : Worker}

/-- A worker that nobody has touched. -/
lemma Touched.refl (w : Worker) : w.Touched w :=
  ⟨[], w.hungUp, by rw [List.append_nil], fun h => h⟩

/-- Touching a worker twice is touching it. -/
lemma Touched.trans (h : w.Touched w') (h' : w'.Touched w'') : w.Touched w'' := by
  obtain ⟨extra, hungUp, rfl, hh⟩ := h
  obtain ⟨extra', hungUp', rfl, hh'⟩ := h'
  exact ⟨extra ++ extra', hungUp', by rw [List.append_assoc], fun hu => hh (hh' hu)⟩

/-- Writing to a worker touches it. -/
lemma touched_tell (w : Worker) (m : ThreadMsg) : w.Touched { w with inbox := w.inbox ++ [m] } :=
  ⟨[m], w.hungUp, rfl, fun h => h⟩

/-- Hanging up on a worker touches it. -/
lemma touched_hangUp (w : Worker) : w.Touched { w with hungUp := true } :=
  ⟨[], true, by rw [List.append_nil], fun h => by cases h⟩

/-- The worker has been asked to end, or has begun to, or is gone. -/
def Asked (w : Worker) : Prop :=
  ThreadMsg.close ∈ w.inbox ∨ (w.stage.isFirst = false ∧ w.stage ≠ .serving)

/-- Who has been asked to end has been asked for good. -/
lemma Asked.touched (h : w.Asked) (ht : w.Touched w') : w'.Asked := by
  obtain ⟨extra, hungUp, rfl, -⟩ := ht
  exact h.imp (List.mem_append_left extra) fun hs => hs

/-- A worker that has ended needs no request any more. -/
lemma asked_of_ended (h : w.stage = .ended) : w.Asked := by
  rw [Asked, h]
  exact .inr ⟨rfl, by simp⟩

/-- A worker that takes no messages needs not be asked. -/
lemma asked_of_not_receiving (h : w.isReceiving = false) : w.Asked := by
  refine .inr ⟨Bool.eq_false_iff.2 fun hs => ?_, fun hs => ?_⟩
  · rw [isReceiving_of_isFirst hs] at h
    cases h
  · simp [isReceiving, hs] at h

/-- Steps do not undo the request.

**Proof sketch.** By cases on the step. The request can only wait in the inbox as long as the worker
opens its extensions or serves, and there it stays until it is taken up; from then on the stage
shows it. -/
lemma Asked.steps {engine engine' : Mailbox EngineMsg} (h : w.Asked)
    (hw : w.Steps engine engine' w') : w'.Asked := by
  have hend {w' : Worker} (h₁ : w'.stage.isFirst = false) (h₂ : w'.stage ≠ .serving) :
      w'.Asked :=
    .inr ⟨h₁, h₂⟩
  -- A worker that opens its extensions or serves its inbox has the request there.
  have hinbox (hs : w.stage = .opening ∨ w.stage = .serving) : ThreadMsg.close ∈ w.inbox := by
    refine h.resolve_right fun hn => ?_
    rcases hs with hs | hs
    · rw [hs] at hn
      cases hn.1
    · exact hn.2 hs
  cases hw with
  | goesOn _ ho =>
    unfold Asked
    rw [ho.inbox, ho.stage]
    exact h
  | goesDown => exact hend rfl (by simp [goDown])
  | @calls place hook rest =>
    obtain ⟨-, -, hstage, -, hinbox, -⟩ :=
      ({ w with agenda := rest } : Worker).call_frame place (.hook hook)
    unfold Asked
    rw [hinbox, hstage]
    exact h
  | opened _ _ hs => exact .inl (hinbox (.inl hs))
  | @receives extension m rest _ _ hs hi =>
    obtain ⟨-, -, -, -, hinbox', -⟩ :=
      ({ w with inbox := rest } : Worker).receive_frame extension m
    have hmem := hinbox (.inr hs)
    rw [hi] at hmem
    left
    rw [hinbox']
    exact (List.mem_cons.1 hmem).resolve_left (by simp)
  | obeys | leaves => exact hend rfl (by simp [windDown])
  | closed | reports => exact hend rfl (by simp)

end Worker

/-- Each worker of the first list has been touched, and the second list has no others. -/
def AllTouched (ws ws' : List Worker) : Prop := List.Forall₂ Worker.Touched ws ws'

namespace AllTouched

variable {ws ws' ws'' : List Worker}

/-- Workers that nobody has touched. -/
lemma refl (ws : List Worker) : AllTouched ws ws := List.forall₂_same.2 fun w _ => .refl w

/-- Touching all workers twice is touching them. -/
lemma trans (h : AllTouched ws ws') (h' : AllTouched ws' ws'') : AllTouched ws ws'' := by
  induction h generalizing ws'' with
  | nil => exact h'
  | cons hw _ ih =>
    cases h' with
    | cons hw' hrest => exact .cons (hw.trans hw') (ih hrest)

/-- If two parts are touched, the whole is. -/
lemma append {vs vs' : List Worker} (h : AllTouched ws ws') (h' : AllTouched vs vs') :
    AllTouched (ws ++ vs) (ws' ++ vs') :=
  List.rel_append h h'

/-- Changing one worker. -/
lemma set {place : Nat} {w w' : Worker} (hw : ws[place]? = some w) (ht : w.Touched w') :
    AllTouched ws (ws.set place w') := by
  induction ws generalizing place with
  | nil => simp at hw
  | cons v ws ih =>
    cases place with
    | zero =>
      obtain rfl : v = w := by simpa using hw
      exact .cons ht (refl ws)
    | succ place => exact .cons (.refl v) (ih (by simpa using hw))

/-- If each worker is touched, all are. -/
lemma map (ws : List Worker) {f : Worker → Worker} (hf : ∀ w : Worker, w.Touched (f w)) :
    AllTouched ws (ws.map f) :=
  List.forall₂_map_right_iff.2 (List.forall₂_same.2 fun w _ => hf w)

/-- If one worker is touched and the others are left alone, all are touched. -/
lemma modify (ws : List Worker) (place : Nat) {f : Worker → Worker}
    (hf : ∀ w : Worker, w.Touched (f w)) : AllTouched ws (ws.modify place f) := by
  rw [List.modify_eq_set_getElem?]
  cases hw : ws[place]? with
  | none => exact refl ws
  | some w => exact set hw (hf w)

/-- Every worker that there is now was there before. -/
lemma exists_of_mem (h : AllTouched ws ws') {w' : Worker} (hw : w' ∈ ws') :
    ∃ w ∈ ws, w.Touched w' := by
  induction h with
  | nil => cases hw
  | cons htouched _ ih =>
    rcases List.mem_cons.1 hw with rfl | hw
    · exact ⟨_, List.mem_cons_self, htouched⟩
    · obtain ⟨w, hmem, ht⟩ := ih hw
      exact ⟨w, List.mem_cons_of_mem _ hmem, ht⟩

/-- What is the same for a worker that has been touched is the same for all of them. -/
lemma map_eq {β : Type} {f : Worker → β} (h : AllTouched ws ws')
    (hf : ∀ w ∈ ws, ∀ w', w.Touched w' → f w' = f w) : ws'.map f = ws.map f := by
  induction h with
  | nil => rfl
  | cons htouched _ ih =>
    rw [List.map_cons, List.map_cons, hf _ List.mem_cons_self _ htouched,
      ih fun w hw => hf w (List.mem_cons_of_mem _ hw)]

end AllTouched

namespace Host

variable (h : Host)

/-! ## One effect -/

/-- An effect touches workers, and may add one, unless it waits for one.

**Proof sketch.** By cases on the effect: a panic hangs up on every worker, a message goes into one
inbox, and a worker with a number that is taken is hung up on before the new one comes. -/
lemma perform_touched (link : Link) {x : Effect} (hx : ¬ x.IsReap) :
    AllTouched (h.workers ++ x.launch?.toList.map (Launch.worker link))
      (h.perform link x).workers := by
  cases x with
  | log | await | post | announce =>
    show AllTouched (h.workers ++ []) h.workers
    rw [List.append_nil]
    exact .refl _
  | panic =>
    show AllTouched (h.workers ++ []) h.collapse.workers
    rw [List.append_nil]
    exact .map _ Worker.touched_hangUp
  | reap => exact absurd trivial hx
  | spawn id g t =>
    show AllTouched (h.workers ++ [Worker.create link id g t])
      (h.spawn (Worker.create link id g t)).workers
    unfold spawn
    split
    · exact (AllTouched.modify _ _ Worker.touched_hangUp).append (.refl _)
    · exact .refl _
  | tell id m unheard =>
    show AllTouched (h.workers ++ []) (h.tell id m unheard).workers
    rw [List.append_nil]
    unfold tell
    split
    · exact .modify _ _ fun w => w.touched_tell m
    · split
      · exact .refl _
      · exact .refl _

/-- What an effect leaves in the mailbox: what was there, and what it posts, or nothing at all.

**Proof sketch.** By the kind of the effect. Posting adds to the mailbox if somebody listens, a
panic empties it, and all others leave it as it is. -/
lemma perform_messages (link : Link) {x : Effect} (hx : ¬ x.IsReap) :
    (h.perform link x).mailbox.messages.Sublist (h.mailbox.messages ++ x.posted?.toList) := by
  cases x with
  | log | await | announce => exact List.sublist_append_left _ _
  | post m =>
    show (h.mailbox.post m).messages.Sublist _
    rw [Mailbox.post_messages]
    refine List.Sublist.append_left ?_ _
    split
    · exact List.Sublist.refl _
    · exact List.nil_sublist _
  | spawn id g t =>
    rw [show (h.perform link (.spawn id g t)).mailbox = h.mailbox from h.spawn_mailbox _]
    exact List.sublist_append_left _ _
  | tell id m unheard =>
    rw [show (h.perform link (.tell id m unheard)).mailbox = h.mailbox from
      (h.tell_frame id m unheard).1]
    exact List.sublist_append_left _ _
  | reap => exact absurd trivial hx
  | panic => exact List.nil_sublist _

/-- Whoever is told to end has been asked, whether the message is accepted or not.

**Proof sketch.** If the message is accepted, the worker at this place has it in its inbox, and no
other worker has the number. If not, the worker with the number has stopped listening, which it does
only at its end. -/
lemma tell_asked (hnd : (h.workers.map (·.id)).Nodup) (id : ThreadId) (unheard : Option LogEvent) :
    ∀ w ∈ (h.tell id .close unheard).workers, w.id = id → w.Asked := by
  intro w hw hid
  unfold tell at hw
  split at hw
  · next place hp _ =>
    obtain ⟨v, hv, hvid⟩ := h.exists_of_place? hp
    obtain ⟨k, hk⟩ := List.getElem?_of_mem hw
    simp only [modify, List.getElem?_modify] at hk
    obtain ⟨u, hu, huw⟩ := Option.map_eq_some_iff.1 hk
    split at huw
    · subst huw
      exact .inl (List.mem_append_right _ (List.mem_singleton_self _))
    · next hne =>
      -- There is only one worker with the number.
      have hplace : (h.workers.map (·.id))[place]? = some id := by
        rw [List.getElem?_map, hv, Option.map_some, hvid]
      have hk' : (h.workers.map (·.id))[k]? = some id := by
        rw [List.getElem?_map, hu, Option.map_some, huw, hid]
      have hlt : place < (h.workers.map (·.id)).length := (List.getElem?_eq_some_iff.1 hplace).1
      exact absurd ((List.getElem?_inj hlt hnd).1 (hplace.trans hk'.symm)) hne
  · next hdeaf =>
    have hw' : w ∈ h.workers := by
      split at hw
      · exact hw
      · exact hw
    obtain ⟨place, hp⟩ := h.exists_place? hw'
    obtain ⟨v, hv, hvid⟩ := h.exists_of_place? hp
    obtain rfl : v = w := List.inj_on_of_nodup_map hnd (List.mem_of_getElem? hv) hw' hvid
    refine Worker.asked_of_not_receiving ?_
    have hears : h.hears id = v.isReceiving := by
      unfold hears
      rw [← hid, hp, Option.bind_some, hv]
    rw [hid] at hp
    cases hr : v.isReceiving with
    | false => rfl
    | true => exact (hdeaf place hp (hears.trans hr)).elim

end Host

namespace Engine

variable {e : Engine} {heard : List EngineMsg}

/-! ## A decision of the context -/

/-- Carrying out effects only touches the workers, if they wait for none; new workers come to the
end, in their order.

**Proof sketch.** Induction on the effects; the workers that a later effect starts come behind those
that an earlier one has started. -/
lemma foldl_perform_touched (e : Engine) {effects : List Effect}
    (ht : ∀ x ∈ effects, ¬ x.IsReap) :
    AllTouched
      (e.host.workers ++
        (effects.filterMap Effect.launch?).map (Launch.worker e.context.link))
      (effects.foldl perform e).host.workers := by
  induction effects generalizing e with
  | nil =>
    rw [List.filterMap_nil, List.map_nil, List.append_nil]
    exact .refl _
  | cons x effects ih =>
    have hone := e.host.perform_touched e.context.link (ht x List.mem_cons_self)
    rw [← perform_workers] at hone
    have hrest := ih (e.perform x) fun y hy => ht y (List.mem_cons_of_mem _ hy)
    rw [perform_context] at hrest
    have hlaunches : (x :: effects).filterMap Effect.launch? =
        x.launch?.toList ++ effects.filterMap Effect.launch? := by
      rw [List.filterMap_cons]
      cases x.launch? <;> rfl
    rw [hlaunches, List.map_append, ← List.append_assoc]
    exact (hone.append (.refl _)).trans hrest

/-- Touching workers does not change their numbers. -/
lemma ids_of_touched {ws ws' : List Worker} (h : AllTouched ws ws') :
    ws'.map (·.id) = ws.map (·.id) := by
  refine h.map_eq fun w _ w' hw => ?_
  obtain ⟨extra, hungUp, rfl, -⟩ := hw
  rfl

/-- **Whoever is told to end has been asked**, if nobody is started or waited for meanwhile.

**Proof sketch.** Induction on the effects. What comes before the request keeps the numbers, and
what comes after it touches the workers only, which does not undo the request. -/
lemma foldl_perform_asked (e : Engine) {effects : List Effect} (hm : ∀ x ∈ effects, x.IsMild)
    (hnd : (e.host.workers.map (·.id)).Nodup) {id : ThreadId} {unheard : Option LogEvent}
    (hx : .tell id .close unheard ∈ effects) :
    ∀ w ∈ (effects.foldl perform e).host.workers, w.id = id → w.Asked := by
  induction effects generalizing e with
  | nil => cases hx
  | cons x effects ih =>
    have hrest : ∀ y ∈ effects, y.IsMild := fun y hy => hm y (List.mem_cons_of_mem _ hy)
    have hone : AllTouched e.host.workers (e.perform x).host.workers := by
      have htouched :=
        e.host.perform_touched e.context.link (hm x List.mem_cons_self).1.not_isReap
      rw [(hm x List.mem_cons_self).2] at htouched
      rw [perform_workers]
      simpa using htouched
    have hnd' : ((e.perform x).host.workers.map (·.id)).Nodup := by
      rw [ids_of_touched hone]
      exact hnd
    rcases List.mem_cons.1 hx with rfl | hx
    · have htold :
          ∀ w ∈ (e.perform (.tell id .close unheard)).host.workers, w.id = id → w.Asked := by
        rw [perform_workers]
        exact e.host.tell_asked hnd id unheard
      have hmore := foldl_perform_touched (e.perform (.tell id .close unheard)) fun y hy =>
        (hrest y hy).1.not_isReap
      rw [Effect.launches_of_mild hrest, List.map_nil, List.append_nil] at hmore
      intro w hw hid
      obtain ⟨v, hv, hvw⟩ := hmore.exists_of_mem hw
      refine (htold v hv ?_).touched hvw
      obtain ⟨extra, hungUp, rfl, -⟩ := hvw
      exact hid
    · exact ih (e.perform x) hrest hnd' hx

/-! ## A message -/

/-- Only the report of a thread makes an engine wait for one. -/
lemma handle_not_isReap (c : Context) {m : EngineMsg} (hm : m.report? = none) :
    ∀ x ∈ (c.handle m).2, ¬ x.IsReap := by
  intro x hx
  cases c.causes_of_handle m x hx with
  | logs | announces | tells | posts | spawns | panics => exact id
  | reaps group hreport =>
    rw [hreport] at hm
    cases hm

/-- What is done when a listed thread has reported: its worker has ended, nobody else is waited for,
and nothing is posted.

**Proof sketch.** The effects that follow upon the report begin with waiting for the thread, which
only takes its inbox away; the rest is mild and posts nothing. -/
lemma Busy.threadClosed_touched (h : e.Busy) (hc : e.context.Sound) {id : ThreadId}
    (hledger : Ledger e.context heard (.threadClosed id :: e.host.mailbox.messages)
      e.host.workers) :
    AllTouched e.host.workers (e.carryOut (e.context.handle (.threadClosed id))).host.workers ∧
      (e.carryOut (e.context.handle (.threadClosed id))).host.mailbox = e.host.mailbox := by
  obtain ⟨c', host, event, extra, heq, hextra, hhost⟩ := h.carryOut_threadClosed hc hledger
  have hjoined : AllTouched e.host.workers host.workers ∧ host.mailbox = e.host.mailbox := by
    rcases hhost with rfl | ⟨place, w, hplace, rfl⟩
    · exact ⟨.refl _, rfl⟩
    · exact ⟨.set hplace w.touched_hangUp, rfl⟩
  -- Whatever is done besides waiting is mild, and posts nothing.
  have hx : ∀ x ∈ Effect.log event :: extra, x.IsMild ∧ x.posted? = none := by
    intro x hx
    rcases List.mem_cons.1 hx with rfl | hx
    · exact ⟨⟨trivial, rfl⟩, rfl⟩
    · exact (hextra x hx).2
  have hlaunches := Effect.launches_of_mild fun x hm => (hx x hm).1
  have hposted : (Effect.log event :: extra).filterMap Effect.posted? = [] :=
    List.filterMap_eq_nil_iff.2 fun x hm => (hx x hm).2
  have htouched := foldl_perform_touched { e with context := c', host } fun x hm =>
    (hx x hm).1.1.not_isReap
  obtain ⟨hmail, -⟩ := foldl_perform_of_tame { e with context := c', host }
    (fun x hm => (hx x hm).1.1) (by
      rw [hlaunches, List.map_nil, List.append_nil, ids_of_touched hjoined.1]
      exact h.idsNodup)
  rw [hlaunches, List.map_nil, List.append_nil] at htouched
  rw [hposted] at hmail
  rw [heq]
  exact ⟨hjoined.1.trans htouched, hmail.trans hjoined.2⟩

/-- A message that reports the end of a thread says nothing else. -/
lemma eq_threadClosed {m : EngineMsg} {id : ThreadId} (h : m.report? = some id) :
    m = .threadClosed id := by
  cases m with
  | threadClosed id' => exact congrArg EngineMsg.threadClosed (Option.some.inj h)
  | created | route | close => cases h

/-- An engine that has just taken a message is about to do what is decided on. -/
lemma Sound.busy (h : e.Sound heard) {m : EngineMsg} {mailbox : Mailbox EngineMsg}
    (hm : e.host.mailbox.take? = some (m, mailbox)) :
    ({ e with host := { e.host with mailbox } } : Engine).Busy ∧
      Ledger e.context heard (m :: mailbox.messages) e.host.workers := by
  obtain ⟨hmessages, hsame⟩ := Mailbox.take?_eq_some hm
  have hlistening := h.listening_of_take? hm
  have hledger := h.ledger (not_isDown_of_listening hlistening)
  rw [hmessages] at hledger
  exact ⟨⟨h.workers, h.idsNodup, hsame.trans hlistening⟩, hledger⟩

/-- **What a message does to the workers**: it touches those that there are, and starts those that
the context decides to start.

**Proof sketch.** Every message but a report is carried out without waiting for a worker. A report
has the engine wait for one that has ended already, and starts nobody. -/
theorem Sound.handle_touched (h : e.Sound heard) {m : EngineMsg} {mailbox : Mailbox EngineMsg}
    (hm : e.host.mailbox.take? = some (m, mailbox)) :
    AllTouched
      (e.host.workers ++ ((e.context.handle m).2.filterMap Effect.launch?).map
        (Launch.worker (e.context.handle m).1.link))
      (({ e with host := { e.host with mailbox } } : Engine).handle m).host.workers := by
  rw [Engine.handle, retire_workers]
  cases hr : m.report? with
  | none =>
    exact foldl_perform_touched
      { e with host := { e.host with mailbox }, context := (e.context.handle m).1 }
      (handle_not_isReap e.context hr)
  | some id =>
    obtain rfl := eq_threadClosed hr
    obtain ⟨hbusy, hledger⟩ := h.busy hm
    rw [launches_threadClosed, List.map_nil, List.append_nil]
    exact (hbusy.threadClosed_touched h.steady.context hledger).1

/-- As long as no worker is waited for, nothing is posted but what the context decides to post.

**Proof sketch.** By induction over the effects: what one effect leaves in the mailbox and posts,
followed by what the rest does. -/
lemma foldl_perform_messages (e : Engine) {effects : List Effect}
    (hx : ∀ x ∈ effects, ¬ x.IsReap) :
    (effects.foldl perform e).host.mailbox.messages.Sublist
      (e.host.mailbox.messages ++ effects.filterMap Effect.posted?) := by
  induction effects generalizing e with
  | nil => exact (List.append_nil _).symm ▸ List.Sublist.refl _
  | cons x effects ih =>
    have hone : (e.perform x).host.mailbox.messages.Sublist
        (e.host.mailbox.messages ++ x.posted?.toList) := by
      rw [perform_mailbox]
      exact e.host.perform_messages e.context.link (hx x List.mem_cons_self)
    have hposted : (x :: effects).filterMap Effect.posted? =
        x.posted?.toList ++ effects.filterMap Effect.posted? := by
      rw [List.filterMap_cons]
      cases x.posted? <;> rfl
    rw [hposted, ← List.append_assoc]
    exact (ih (e.perform x) fun y hy => hx y (List.mem_cons_of_mem _ hy)).trans
      (hone.append_right _)

/-- Handling a message posts what the context decides to post at most.

**Proof sketch.** A message that is no report lets nobody be waited for, so that only the effects
themselves post. After a report nothing is posted at all. -/
theorem Sound.handle_messages (h : e.Sound heard) {m : EngineMsg} {mailbox : Mailbox EngineMsg}
    (hm : e.host.mailbox.take? = some (m, mailbox)) :
    (({ e with host := { e.host with mailbox } } : Engine).handle m).host.mailbox.messages.Sublist
      (mailbox.messages ++ (e.context.handle m).2.filterMap Effect.posted?) := by
  have hdone : (({ e with host := { e.host with mailbox } } : Engine).carryOut
      (e.context.handle m)).host.mailbox.messages.Sublist
        (mailbox.messages ++ (e.context.handle m).2.filterMap Effect.posted?) := by
    cases hr : m.report? with
    | none =>
      exact foldl_perform_messages
        { e with host := { e.host with mailbox }, context := (e.context.handle m).1 }
        (handle_not_isReap e.context hr)
    | some id =>
      obtain rfl := eq_threadClosed hr
      obtain ⟨hbusy, hledger⟩ := h.busy hm
      rw [show (({ e with host := { e.host with mailbox } } : Engine).carryOut
        (e.context.handle (.threadClosed id))).host.mailbox = mailbox from
          (hbusy.threadClosed_touched h.steady.context hledger).2]
      exact List.sublist_append_left _ _
  rw [Engine.handle, retire_mailbox]
  split
  · exact List.nil_sublist _
  · exact hdone

end Engine

end ExtensionGraph
