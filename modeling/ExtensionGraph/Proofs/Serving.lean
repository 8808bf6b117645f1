import ExtensionGraph.Proofs.InboxWrites

/-!
# How a thread serves its inbox

A thread takes its inbox from the front, and hands each message in it to the extension that the
message is for, until it comes to the request to end. So what has been handed to an extension and
what waits for it before this request are together what has been written for it before the request,
in that order. A thread that goes down leaves the rest.

## Main definitions

* `ExtensionGraph.Worker.handled` — the messages that were handed to an extension.
* `ExtensionGraph.Worker.awaited` — those that wait for it.
* `ExtensionGraph.Worker.Serves` — how far a thread has come with what is due to an extension.
* `ExtensionGraph.Worker.Unwritten` — a thread to which nobody has written.

## Main results

* `ExtensionGraph.Worker.Serves.step?` — steps keep a thread serving.
* `ExtensionGraph.Worker.Serves.write`, `ExtensionGraph.Worker.Serves.write_close`,
  `ExtensionGraph.Worker.Serves.write_late` — so does whatever is written to it.
* `ExtensionGraph.awaitedIn_deliveries` — what a message to extensions writes for one of them.
-/

namespace ExtensionGraph

/-! ## What waits for an extension -/

/-- The messages for extensions with a name in an inbox, up to the request to end. -/
def awaitedIn (name : String) : List ThreadMsg → List Msg
  | .deliver name' m :: rest =>
    if name' = name then m :: awaitedIn name rest else awaitedIn name rest
  | .close :: _ => []
  | [] => []

/-- What is written before the request to end is waited for. -/
lemma awaitedIn_append (name : String) {inbox : List ThreadMsg} (hc : .close ∉ inbox)
    (ms : List ThreadMsg) :
    awaitedIn name (inbox ++ ms) = awaitedIn name inbox ++ awaitedIn name ms := by
  induction inbox with
  | nil => rfl
  | cons x inbox ih =>
    rw [List.mem_cons, not_or] at hc
    cases x with
    | close => exact absurd rfl hc.1
    | deliver name' m =>
      rw [List.cons_append, awaitedIn, awaitedIn, ih hc.2]
      split
      · rfl
      · rfl

/-- What is written after the request to end is not. -/
lemma awaitedIn_append_of_close (name : String) {inbox : List ThreadMsg} (hc : .close ∈ inbox)
    (ms : List ThreadMsg) : awaitedIn name (inbox ++ ms) = awaitedIn name inbox := by
  induction inbox with
  | nil => cases hc
  | cons x inbox ih =>
    cases x with
    | close => rfl
    | deliver name' m =>
      have hrest : ThreadMsg.close ∈ inbox := (List.mem_cons.1 hc).resolve_left (by simp)
      rw [List.cons_append, awaitedIn, awaitedIn, ih hrest]

/-- **What a message to extensions writes for one of them**: an entry for each time that its address
is among the destinations.

**Proof sketch.** Induction on the destinations. Each that is an address of the group writes one
entry, under the name of its extension; the address is of this host and graph, so that the name
decides. -/
theorem awaitedIn_deliveries (g : GraphDefinition) (host graph group name : String) (m : Msg) :
    awaitedIn name (m.deliveries (g.addresses host graph group)) =
      if .ofExtension host graph name ∈ g.addresses host graph group then
        List.replicate (m.dest.count (.ofExtension host graph name)) m
      else [] := by
  unfold Msg.deliveries
  induction m.dest with
  | nil => simp [awaitedIn]
  | cons d ds ih =>
    by_cases hd : d ∈ g.addresses host graph group
    · obtain ⟨n, -, -, rfl⟩ := GraphDefinition.mem_addresses.1 hd
      rw [List.filter_cons_of_pos (by simpa using hd), List.map_cons, awaitedIn, ih]
      change (if n.name = name then _ else _) = _
      change Loc.ofExtension host graph n.name ∈ _ at hd
      change _ = if _ then
        List.replicate ((Loc.ofExtension host graph n.name :: ds).count _) m else []
      by_cases hname : n.name = name
      · subst hname
        rw [if_pos rfl, if_pos hd, if_pos hd, List.count_cons_self]
        rfl
      · rw [if_neg hname, List.count_cons_of_ne]
        exact fun he => hname (Option.some.inj (Loc.mk.inj he).2.2)
    · rw [List.filter_cons_of_neg (by simpa using hd), ih]
      by_cases hin : Loc.ofExtension host graph name ∈ g.addresses host graph group
      · rw [if_pos hin, if_pos hin, List.count_cons_of_ne]
        rintro rfl
        exact hd hin
      · rw [if_neg hin, if_neg hin]

/-- A message to extensions does not ask for the end. -/
lemma close_not_mem_deliveries (m : Msg) (addresses : List Loc) :
    ThreadMsg.close ∉ m.deliveries addresses := by
  intro hc
  obtain ⟨d, -, hd⟩ := List.mem_map.1 hc
  cases hd

namespace Worker

/-! ## What has been handed to an extension -/

/-- The message that is handed to an extension with a name. -/
def message? (name : String) : Event → Option Msg
  | .called name' (.message m) => if name' = name then some m else none
  | _ => none

/-- The messages that were handed to extensions with a name, in their order. -/
def handled (w : Worker) (name : String) : List Msg := w.trace.filterMap (message? name)

/-- The messages that wait for extensions with a name, up to the request to end. -/
def awaited (w : Worker) (name : String) : List Msg := awaitedIn name w.inbox

variable {w w' : Worker} {engine engine' : Mailbox EngineMsg} {name : String}

/-- Recording a message hands it over. -/
@[simp] lemma handled_record (w : Worker) (e : Event) (name : String) :
    (w.record e).handled name = w.handled name ++ (message? name e).toList := by
  show (w.trace ++ [e]).filterMap (message? name) = _
  rw [List.filterMap_append, List.filterMap_cons, List.filterMap_nil]
  cases message? name e with
  | none => rfl
  | some m => rfl

/-- What is no call hands nothing over. -/
lemma message?_eq_none {e : Event} (he : e.isCall = false) : message? name e = none := by
  cases e with
  | called => cases he
  | log | note | crashed | tickerCrashed => rfl

/-- A thread that has just been started has handed nothing over. -/
lemma handled_create (link : Link) (id : ThreadId) (g : Group) (t : Topology) :
    (create link id g t).handled name = [] :=
  filterMap_create (fun _ => message?_eq_none) link id g t

/-- Recording anything else hands nothing over. -/
lemma handled_record_of_none (w : Worker) {e : Event} (he : message? name e = none) :
    (w.record e).handled name = w.handled name := filterMap_record w he

/-- An extension that is being called hands nothing over. -/
lemma handled_execute? {c : Call} (h : w.execute? engine c = some (engine', w')) :
    w'.handled name = w.handled name := filterMap_execute? (fun _ => message?_eq_none) h

/-- A lifecycle call hands nothing over. -/
lemma handled_call_hook (w : Worker) (place : Nat) (hook : Hook) :
    (w.call place (.hook hook)).handled name = w.handled name := by
  unfold call
  split
  · rfl
  · exact w.handled_record_of_none rfl

/-- A message is handed to the extension that it is for.

**Proof sketch.** The extension is looked up by name and, if it is hosted, handed the message. A
message for an extension that the thread does not host is dropped. -/
lemma handled_receive (hn : name ∈ w.roster) (extension : String) (m : Msg) :
    (w.receive extension m).handled name =
      w.handled name ++ if extension = name then [m] else [] := by
  unfold receive
  split
  · next place hp =>
    obtain ⟨hlt, hname, -⟩ := List.findIdx?_eq_some_iff_getElem.1 hp
    have hname : w.hosted[place].name = extension := by simpa using hname
    unfold call
    rw [List.getElem?_eq_getElem hlt]
    dsimp only
    show (w.record (.called w.hosted[place].name (.message m))).handled name = _
    rw [handled_record, hname, message?]
    split
    · rfl
    · rfl
  · next hp =>
    have hne : extension ≠ name := by
      rintro rfl
      obtain ⟨h, hh, hname⟩ := List.mem_map.1 hn
      have hno := List.findIdx?_eq_none_iff.1 hp h hh
      simp [hname] at hno
    rw [w.handled_record_of_none rfl, if_neg hne, List.append_nil]

/-! ## Serving -/

/-- **How far a thread has come** with the messages that are due to extensions with a name. They are
handed over in their order. While the thread is at work, those that are still to be handed over
wait in its inbox, and the request to end has been written if the end has been asked for. When it
has begun to end, all of them have been handed over. -/
structure Serves (w : Worker) (name : String) (due : List Msg) (asked : Prop) : Prop where
  order : w.handled name <+: due
  working : w.stage = .opening ∨ w.stage = .serving →
    w.handled name ++ w.awaited name = due ∧ (asked ↔ ThreadMsg.close ∈ w.inbox)
  ending : w.stage = .stopping ∨ w.stage = .stopped ∨ w.stage = .ended →
    w.handled name = due ∧ asked

namespace Serves

variable {due : List Msg} {asked : Prop}

/-- Nothing has been written yet. -/
lemma fresh (hh : w.handled name = []) (hs : w.stage = .opening) (hi : w.inbox = [])
    (ha : ¬ asked) : w.Serves name [] asked := by
  refine ⟨List.prefix_nil.2 hh, fun _ => ⟨?_, ?_⟩, fun hend => ?_⟩
  · rw [hh, awaited, hi]
    rfl
  · rw [hi]
    exact iff_of_false ha List.not_mem_nil
  · rw [hs] at hend
    rcases hend with hend | hend | hend <;> cases hend

/-- Only what has been handed over, the inbox and the stage matter. -/
lemma congr (h : w.Serves name due asked) (hh : w'.handled name = w.handled name)
    (hi : w'.inbox = w.inbox) (hs : w'.stage = w.stage) : w'.Serves name due asked := by
  refine ⟨by rw [hh]; exact h.order, fun hw => ?_, fun hend => ?_⟩
  · rw [hh, awaited, hi]
    exact h.working (hs ▸ hw)
  · rw [hh]
    exact h.ending (hs ▸ hend)

/-- A thread goes down. -/
lemma crash (h : w.Serves name due asked) (hh : w'.handled name = w.handled name)
    (hs : w'.stage = .crashed) : w'.Serves name due asked := by
  refine ⟨by rw [hh]; exact h.order, fun hw => ?_, fun hend => ?_⟩
  · rw [hs] at hw
    rcases hw with hw | hw <;> cases hw
  · rw [hs] at hend
    rcases hend with hend | hend | hend <;> cases hend

/-- A thread goes on to end. -/
lemma goOn (h : w.Serves name due asked) (hall : w.handled name = due ∧ asked)
    (hh : w'.handled name = w.handled name)
    (hs : w'.stage = .stopping ∨ w'.stage = .stopped ∨ w'.stage = .ended) :
    w'.Serves name due asked := by
  refine ⟨by rw [hh]; exact h.order, fun hw => ?_, fun _ => by rw [hh]; exact hall⟩
  rcases hs with hs | hs | hs <;> rw [hs] at hw <;> rcases hw with hw | hw <;> cases hw

/-- **Steps keep a thread serving**, as long as somebody can write to it.

**Proof sketch.** Only one kind of step hands a message over, and takes it from the front of the
inbox. A thread begins to end when the request has come to the front, so that nothing waits before
it. -/
theorem step? (h : w.Serves name due asked) (hn : name ∈ w.roster) (hh : w.hungUp = false)
    (hs : w.step? engine = some (engine', w')) : w'.Serves name due asked := by
  cases ha : w.active with
  | some c =>
    -- A call goes on, and takes nothing from the inbox.
    have hsteps := steps_of_step? hs
    unfold Worker.step? at hs
    rw [ha] at hs
    have hhandled : w'.handled name = w.handled name := handled_execute? hs
    cases hsteps with
    | goesOn _ ho => exact h.congr hhandled ho.inbox ho.stage
    | goesDown => exact h.crash hhandled rfl
    | calls hnone | opened hnone | receives hnone | obeys hnone | leaves hnone | closed hnone
      | reports hnone =>
      rw [ha] at hnone
      cases hnone
  | none =>
    cases steps_of_step? hs with
    | goesOn hactive =>
      rw [ha] at hactive
      cases hactive
    | goesDown => exact h.crash (w.handled_record_of_none rfl) rfl
    | @calls place hook rest =>
      obtain ⟨-, -, hstage, -, hinbox, -⟩ :=
        ({ w with agenda := rest } : Worker).call_frame place (.hook hook)
      exact h.congr (handled_call_hook _ place hook) hinbox hstage
    | opened _ _ hstage =>
      refine ⟨h.order, fun _ => h.working (.inl hstage), fun hend => ?_⟩
      rcases hend with hend | hend | hend <;> cases hend
    | @receives extension m rest _ _ hstage hi =>
      obtain ⟨-, -, hstage', -, hinbox, -⟩ :=
        ({ w with inbox := rest } : Worker).receive_frame extension m
      have hhandled := handled_receive (w := { w with inbox := rest }) hn extension m
      obtain ⟨hall, hasked⟩ := h.working (.inr hstage)
      -- The message goes over from what awaits the extension to what it has been handed.
      have hall' : ({ w with inbox := rest }.receive extension m).handled name ++
          awaitedIn name rest = due := by
        rw [hhandled, ← hall, awaited, hi, awaitedIn, List.append_assoc]
        split
        · rfl
        · rfl
      refine ⟨⟨_, hall'⟩, fun _ => ⟨?_, ?_⟩, fun hend => ?_⟩
      · rw [awaited, hinbox]
        exact hall'
      · rw [hasked, hi, hinbox, List.mem_cons]
        simp
      · rw [hstage'] at hend
        change w.stage = _ ∨ w.stage = _ ∨ w.stage = _ at hend
        rw [hstage] at hend
        rcases hend with hend | hend | hend <;> cases hend
    | @obeys rest _ _ hstage hi =>
      obtain ⟨hall, hasked⟩ := h.working (.inr hstage)
      refine h.goOn ⟨?_, hasked.2 (by rw [hi]; exact List.mem_cons_self)⟩ rfl (.inl rfl)
      rw [awaited, hi, awaitedIn, List.append_nil] at hall
      exact hall
    | leaves _ _ _ _ hhung =>
      rw [hh] at hhung
      cases hhung
    | closed _ _ hstage =>
      exact h.goOn (h.ending (.inl hstage)) (w.handled_record_of_none rfl) (.inr (.inl rfl))
    | reports _ _ hstage => exact h.goOn (h.ending (.inr (.inl hstage))) rfl (.inr (.inr rfl))

/-- The beat of a ticker hands nothing over. -/
lemma beat (h : w.Serves name due asked) (engine : Mailbox EngineMsg) (k : Nat) :
    (w.beat engine k).2.Serves name due asked := by
  obtain ⟨ho, -⟩ := onCourse_beat w engine k
  exact h.congr (filterMap_beat (fun _ => message?_eq_none) w engine k) ho.inbox ho.stage

/-- A thread that takes no messages has gone down, unless the end has been asked for. -/
lemma crashed (h : w.Serves name due asked) (ha : ¬ asked) (hr : w.isReceiving = false) :
    w.stage = .crashed := by
  unfold isReceiving at hr
  cases hs : w.stage with
  | crashed => rfl
  | creating | opening | serving | stopping =>
    rw [hs] at hr
    cases hr
  | stopped => exact absurd (h.ending (.inr (.inl hs))).2 ha
  | ended => exact absurd (h.ending (.inr (.inr hs))).2 ha

/-- Whatever is written before the end is asked for leaves a thread serving, if it does so while the
thread is at work.

**Proof sketch.** A worker that does not receive any more has crashed, and is promised nothing but
the order. One that receives puts what is written behind what awaits it. -/
lemma write_early (h : w.Serves name due asked) (ha : ¬ asked) {ms : List ThreadMsg}
    {due' : List Msg} {asked' : Prop} (hmore : due <+: due')
    (hworking : ThreadMsg.close ∉ w.inbox → w.handled name ++ w.awaited name = due →
      w.handled name ++ awaitedIn name (w.inbox ++ ms) = due' ∧
        (asked' ↔ ThreadMsg.close ∈ w.inbox ++ ms)) :
    (w.write ms).Serves name due' asked' := by
  cases hr : w.isReceiving with
  | false =>
    have hcrashed := h.crashed ha hr
    rw [w.write_of_not_receiving ms hr]
    refine ⟨h.order.trans hmore, fun hw => ?_, fun hend => absurd (h.ending hend).2 ha⟩
    rw [hcrashed] at hw
    rcases hw with hw | hw <;> cases hw
  | true =>
    rw [w.write_of_receiving ms hr]
    refine ⟨h.order.trans hmore, fun hw => ?_, fun hend => absurd (h.ending hend).2 ha⟩
    obtain ⟨hall, hasked⟩ := h.working hw
    exact hworking (fun hm => ha (hasked.2 hm)) hall

/-- What is written before the end is asked for becomes due. -/
lemma write (h : w.Serves name due asked) (ha : ¬ asked) {ms : List ThreadMsg}
    (hc : .close ∉ ms) : (w.write ms).Serves name (due ++ awaitedIn name ms) asked := by
  refine h.write_early ha (List.prefix_append _ _) fun hnone hall => ⟨?_, ?_⟩
  · rw [awaitedIn_append name hnone, ← List.append_assoc]
    exact congrArg (· ++ _) hall
  · exact iff_of_false ha (by simp [hnone, hc])

/-- The request to end is written when the end is asked for. -/
lemma write_close (h : w.Serves name due asked) (ha : ¬ asked) {asked' : Prop} (ha' : asked') :
    (w.write [.close]).Serves name due asked' := by
  refine h.write_early ha List.prefix_rfl fun hnone hall => ⟨?_, ?_⟩
  · rw [awaitedIn_append name hnone]
    exact (congrArg (w.handled name ++ ·) (List.append_nil _)).trans hall
  · exact iff_of_true ha' (by simp)

/-- What is written later is of no account.

**Proof sketch.** There is a request to end in the inbox already, and what is put behind it is never
taken. -/
lemma write_late (h : w.Serves name due asked) (ha : asked) (ms : List ThreadMsg) :
    (w.write ms).Serves name due asked := by
  cases hr : w.isReceiving with
  | false =>
    rw [w.write_of_not_receiving ms hr]
    exact h
  | true =>
    rw [w.write_of_receiving ms hr]
    refine ⟨h.order, fun hw => ?_, h.ending⟩
    obtain ⟨hall, hasked⟩ := h.working hw
    have hclose := hasked.1 ha
    constructor
    · show w.handled name ++ awaitedIn name (w.inbox ++ ms) = _
      rw [awaitedIn_append_of_close name hclose]
      exact hall
    · exact iff_of_true ha (List.mem_append_left _ hclose)

end Serves

/-! ## Threads that nobody writes to -/

/-- Nothing waits for the extensions on a thread, and nothing has been handed to any of them. -/
structure Unwritten (w : Worker) : Prop where
  inbox : w.inbox = []
  handled : ∀ name, w.handled name = []

/-- As long as nobody writes to a thread, none of its steps hands anything over.

**Proof sketch.** By cases on the step. With an empty inbox no message is taken up; all other events
are not messages. -/
lemma Unwritten.step? (h : w.Unwritten) (hs : w.step? engine = some (engine', w')) :
    w'.Unwritten := by
  have hempty {x : ThreadMsg} {rest : List ThreadMsg} (hi : w.inbox = x :: rest) {p : Prop} :
      p := by
    rw [h.inbox] at hi
    cases hi
  cases ha : w.active with
  | some c =>
    have hsteps := steps_of_step? hs
    unfold Worker.step? at hs
    rw [ha] at hs
    have hhandled (name : String) : w'.handled name = [] :=
      (handled_execute? hs).trans (h.handled name)
    cases hsteps with
    | goesOn _ ho => exact ⟨ho.inbox.trans h.inbox, hhandled⟩
    | goesDown => exact ⟨h.inbox, hhandled⟩
    | calls hnone | opened hnone | receives hnone | obeys hnone | leaves hnone | closed hnone
      | reports hnone =>
      rw [ha] at hnone
      cases hnone
  | none =>
    have hnoted {e : Event} (he : ∀ name, message? name e = none) (name : String) :
        (w.record e).handled name = [] :=
      (w.handled_record_of_none (he name)).trans (h.handled name)
    cases steps_of_step? hs with
    | goesOn hactive =>
      rw [ha] at hactive
      cases hactive
    | goesDown => exact ⟨h.inbox, hnoted fun _ => rfl⟩
    | @calls place hook rest =>
      obtain ⟨-, -, -, -, hinbox, -⟩ :=
        ({ w with agenda := rest } : Worker).call_frame place (.hook hook)
      exact ⟨hinbox.trans h.inbox, fun name =>
        (handled_call_hook { w with agenda := rest } place hook).trans (h.handled name)⟩
    | opened | leaves | reports => exact ⟨h.inbox, h.handled⟩
    | receives _ _ _ hi | obeys _ _ _ hi => exact hempty hi
    | closed => exact ⟨h.inbox, hnoted fun _ => rfl⟩

/-- A turn of a ticker hands nothing over. -/
lemma Unwritten.beat (h : w.Unwritten) (engine : Mailbox EngineMsg) (k : Nat) :
    (w.beat engine k).2.Unwritten := by
  obtain ⟨ho, -⟩ := onCourse_beat w engine k
  exact ⟨ho.inbox.trans h.inbox, fun name =>
    (filterMap_beat (fun _ => message?_eq_none) w engine k).trans (h.handled name)⟩

/-- A thread without a runtime hands nothing over. -/
lemma Unwritten.abort? (h : w.Unwritten) {reason : String}
    (hs : w.abort? reason engine = some (engine', w')) : w'.Unwritten := by
  unfold Worker.abort? at hs
  split at hs
  · cases hs
    exact ⟨h.inbox, fun _ => rfl⟩
  · cases hs

end Worker

end ExtensionGraph
