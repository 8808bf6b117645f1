import ExtensionGraph.Engine.Basic
import ExtensionGraph.Proofs.Addressing

/-!
# Sending exactly once or not at all

Extensions send messages through their environments, and apps through the handles of their graphs.
Whoever sends learns what has come of it. Either one message has been posted to the engine, or none
has: because it was refused, or because the engine is gone. A message is refused before anybody
looks for the engine, and for being of the wrong kind before anybody looks for its destinations.

What is posted is the message that was given to be sent. It may have come from somewhere else, with
the address of another sender and with destinations. An extension puts its own address in the place
of that of the sender, and of the destinations only what is empty is filled in.

## Main definitions

* `ExtensionGraph.SendMode.Admits` — the kinds of messages that a way of sending admits.
* `ExtensionGraph.Msg.ArrivesAs`, `ExtensionGraph.Env.Sends`, `ExtensionGraph.Engine.Sends` — what
  may become of a message while it is sent.
* `ExtensionGraph.Env.Refuses` — the messages that an extension cannot send.
* `ExtensionGraph.SendsOnce` — one message is posted, or nothing happens.

## Main results

* `ExtensionGraph.Env.send_of_refuses`, `ExtensionGraph.Env.send_of_not_refuses` — what becomes of
  a message that an extension sends.
* `ExtensionGraph.sends_once_or_not_at_all` — what this means for whoever sends.
-/

namespace ExtensionGraph

/-! ## What is sent -/

/-- The kinds of messages that a way of sending admits. -/
def SendMode.Admits : SendMode → MsgKind → Prop
  | .any, _ => True
  | .cmdOnly, kind => kind = .cmd
  | .dataOnly, kind => kind = .data

/-- The empty fields of an address are filled in, and nothing else is changed. -/
structure Loc.FilledFrom (app graph : String) (l l' : Loc) : Prop where
  extension : l'.extension = l.extension
  appKept : l.app ≠ "" → l'.app = l.app
  appFilled : l.app = "" → l'.app = app
  graphKept : l.graph ≠ "" → l'.graph = l.graph
  graphFilled : l.graph = "" → l'.graph = graph

/-- Resolving an address fills in what it leaves open. -/
lemma Loc.filledFrom_resolve (app graph : String) (l : Loc) :
    FilledFrom app graph l (l.resolve app graph) where
  extension := rfl
  appKept h := if_neg h
  appFilled h := if_pos h
  graphKept h := if_neg h
  graphFilled h := if_pos h

/-- What may become of a message on its way to the engine. -/
structure Msg.ArrivesAs (app graph : String) (m posted : Msg) : Prop where
  kind : posted.kind = m.kind
  name : posted.name = m.name
  properties : posted.properties = m.properties
  createdAt : posted.createdAt = m.createdAt
  /-- The destinations that it names are as many, and in the same order. -/
  named : m.dest ≠ [] → List.Forall₂ (Loc.FilledFrom app graph) m.dest posted.dest

/-- Resolving a message fills in its addresses. -/
lemma Msg.arrivesAs_resolve (app graph : String) (m : Msg) :
    m.ArrivesAs app graph (m.resolve app graph) where
  kind := rfl
  name := rfl
  properties := rfl
  createdAt := rfl
  named _ := List.forall₂_map_right_iff.2
    (List.forall₂_same.2 fun l _ => l.filledFrom_resolve app graph)

/-! ## One message or none -/

/-- Sending posts one message to the engine, as it was to be sent, or does nothing; and whoever
sends learns which. -/
structure SendsOnce (refused : Prop) (Sent : Msg → Prop) (before : Mailbox EngineMsg)
    (r : Mailbox EngineMsg × Except Error Unit) : Prop where
  posted : r.2 = .ok () →
    ∃ m, Sent m ∧ r.1 = { before with messages := before.messages ++ [.route m] }
  nothing : ∀ err, r.2 = .error err → r.1 = before
  refused_iff : (∃ text, r.2 = .error (.invalidArgument text)) ↔ refused
  gone_iff : (∃ text, r.2 = .error (.closed text)) ↔ ¬ refused ∧ before.listening = false
  ok_iff : r.2 = .ok () ↔ ¬ refused ∧ before.listening = true

namespace SendsOnce

variable {refused : Prop} {Sent : Msg → Prop} {before : Mailbox EngineMsg}

/-- What is refused is not sent, and there is a reason. -/
lemma of_refused (hr : refused) (text : String) :
    SendsOnce refused Sent before (before, .error (.invalidArgument text)) where
  posted h := by cases h
  nothing _ _ := rfl
  refused_iff := iff_of_true ⟨text, rfl⟩ hr
  gone_iff := iff_of_false (by simp) fun h => h.1 hr
  ok_iff := iff_of_false (by simp) fun h => h.1 hr

/-- What is not refused is posted, if somebody listens. -/
lemma of_not_refused (hr : ¬ refused) {m : Msg} (hm : Sent m) (text : String) :
    SendsOnce refused Sent before
      (if before.listening then (before.post (.route m), .ok ())
        else (before, .error (.closed text))) := by
  cases hl : before.listening with
  | false =>
    exact
      { posted := fun h => by cases h
        nothing := fun _ _ => rfl
        refused_iff := iff_of_false (by simp) hr
        gone_iff := iff_of_true ⟨text, rfl⟩ ⟨hr, hl⟩
        ok_iff := iff_of_false (by simp) (by simp [hl]) }
  | true =>
    exact
      { posted := fun _ => ⟨m, hm, if_pos hl⟩
        nothing := fun err h => by cases h
        refused_iff := iff_of_false (by simp) hr
        gone_iff := iff_of_false (by simp) (by simp [hl])
        ok_iff := iff_of_true rfl ⟨hr, hl⟩ }

end SendsOnce

/-! ## Environments -/

namespace Env

variable (e : Env) {mode : SendMode} {m : Msg}

/-- An extension cannot send a message of the wrong kind, or one that goes nowhere. -/
def Refuses (mode : SendMode) (m : Msg) : Prop :=
  ¬ mode.Admits m.kind ∨
    m.dest = [] ∧ e.topology.routes.destinations e.loc m.kind m.name = []

/-- The kind of a message passes exactly if the way of sending admits it. -/
lemma checkKind_eq_ok_iff : checkKind mode m = .ok () ↔ mode.Admits m.kind := by
  unfold checkKind SendMode.Admits
  cases mode <;> cases m.kind <;> simp

/-- A message is refused for its kind with a text. -/
lemma text_of_checkKind {err : Error} (h : checkKind mode m = .error err) :
    ∃ text, err = .invalidArgument text := by
  unfold checkKind at h
  split at h
  · cases h
    exact ⟨_, rfl⟩
  · cases h
    exact ⟨_, rfl⟩
  · cases h

/-- A message without a destination is refused with a text. -/
lemma text_of_address {err : Error} (h : e.address m = .error err) :
    ∃ text, err = .invalidArgument text := by
  unfold address at h
  dsimp only at h
  split at h
  · split at h
    · cases h
      exact ⟨_, rfl⟩
    · cases h
  · cases h

/-- A message goes nowhere if it names no destination and the connections have none for it. -/
lemma dests_eq_nil_iff :
    e.dests m = [] ↔ m.dest = [] ∧ e.topology.routes.destinations e.loc m.kind m.name = [] := by
  unfold dests
  by_cases hm : m.dest = []
  · rw [if_pos hm, and_iff_right hm]
    rfl
  · simp [hm]

/-- **A message that cannot be sent is refused**, whether the engine is there or not. -/
theorem send_of_refuses (h : e.Refuses mode m) (engine : Mailbox EngineMsg) :
    ∃ text, e.send mode m engine = (engine, .error (.invalidArgument text)) := by
  unfold send
  cases hk : checkKind mode m with
  | error err =>
    obtain ⟨text, rfl⟩ := text_of_checkKind hk
    exact ⟨text, rfl⟩
  | ok u =>
    have hnowhere := h.resolve_left (not_not_intro (checkKind_eq_ok_iff.1 hk))
    cases ha : e.address m with
    | error err =>
      obtain ⟨text, rfl⟩ := e.text_of_address ha
      exact ⟨text, rfl⟩
    | ok posted => exact absurd (e.dests_eq_nil_iff.2 hnowhere) (address_eq_ok_iff.1 ha).2

/-- **Any other message is posted** with its sender and its destinations, if the engine listens. -/
theorem send_of_not_refuses (h : ¬ e.Refuses mode m) (engine : Mailbox EngineMsg) :
    e.send mode m engine =
      if engine.listening then
        (engine.post (.route { m with src := e.loc, dest := e.dests m }), .ok ())
      else (engine, .error e.gone) := by
  obtain ⟨hkind, hsomewhere⟩ := not_or.1 h
  have hk : checkKind mode m = .ok () := checkKind_eq_ok_iff.2 (not_not.1 hkind)
  have ha : e.address m = .ok { m with src := e.loc, dest := e.dests m } :=
    address_eq_ok_iff.2 ⟨rfl, fun hnil => hsomewhere (e.dests_eq_nil_iff.1 hnil)⟩
  rw [send, hk]
  dsimp only
  rw [ha]
  rfl

/-- A message as an extension sends it: with its own address, and with the destinations of the
connections if it names none. -/
structure Sends (m posted : Msg) : Prop extends m.ArrivesAs e.loc.app e.loc.graph posted where
  src : posted.src = e.loc
  connected : m.dest = [] →
    posted.dest = e.topology.routes.destinations e.loc m.kind m.name

/-- What an extension posts is its message, from its own address. -/
lemma sends_posted (m : Msg) : e.Sends m { m with src := e.loc, dest := e.dests m } where
  kind := rfl
  name := rfl
  properties := rfl
  createdAt := rfl
  named hm := by
    show List.Forall₂ _ m.dest (e.dests m)
    rw [dests, if_neg hm]
    exact (m.arrivesAs_resolve e.loc.app e.loc.graph).named hm
  src := rfl
  connected hm := if_pos hm

/-- An extension sends a message once at most. -/
lemma sendsOnce (mode : SendMode) (m : Msg) (engine : Mailbox EngineMsg) :
    SendsOnce (e.Refuses mode m) (e.Sends m) engine (e.send mode m engine) := by
  by_cases hr : e.Refuses mode m
  · obtain ⟨text, hsend⟩ := e.send_of_refuses hr engine
    rw [hsend]
    exact .of_refused hr text
  · rw [e.send_of_not_refuses hr]
    exact .of_not_refused hr (e.sends_posted m) _

end Env

/-! ## Handles -/

namespace Engine

variable (e : Engine)

/-- A message as it is sent from outside: with the sender that it has. -/
structure Sends (m posted : Msg) : Prop extends
    m.ArrivesAs e.context.link.app.uri e.graph posted where
  src : posted.src = m.src

/-- Sending from outside touches nothing but the mailbox. -/
lemma send_fst (m : Msg) :
    (e.send m).1 = { e with host := { e.host with mailbox := (e.send m).1.host.mailbox } } := by
  unfold send
  split
  · rfl
  · split
    · rfl
    · rfl

/-- A message from outside is sent once at most. It has to name its destinations.

**Proof sketch.** A message without destinations is refused. Any other is posted, with its addresses
filled in, if the engine listens, and refused otherwise. -/
lemma sendsOnce (m : Msg) :
    SendsOnce (m.dest = []) (e.Sends m) e.host.mailbox
      ((e.send m).1.host.mailbox, (e.send m).2) := by
  by_cases hm : m.dest = []
  · have hsend : e.send m =
        (e, .error (.invalidArgument ("'" ++ m.name ++ "' has no destination"))) :=
      if_pos (List.isEmpty_iff.2 hm)
    rw [hsend]
    exact .of_refused hm _
  · have hsent : e.Sends m (m.resolve e.context.link.app.uri e.graph) :=
      ⟨m.arrivesAs_resolve _ _, rfl⟩
    have hsend : e.send m = if e.host.mailbox.listening then
        (e.post (.route (m.resolve e.context.link.app.uri e.graph)), .ok ())
        else (e, .error (.closed ("graph " ++ e.graph ++ " is closed"))) :=
      if_neg (by simpa using hm)
    have honce : SendsOnce (m.dest = []) (e.Sends m) e.host.mailbox _ :=
      .of_not_refused hm hsent ("graph " ++ e.graph ++ " is closed")
    rw [hsend]
    cases hl : e.host.mailbox.listening with
    | false =>
      rw [hl] at honce
      exact honce
    | true =>
      rw [hl] at honce
      exact honce

end Engine

/-- **Sending is exactly once or not at all.** Whatever an extension sends in one of its ways, or an
app through a handle: success means that exactly one message has been posted, and failure that
nothing has happened. An extension is refused a message that is of the wrong kind for the way of
sending, or that names no destination and has none by the connections; a handle refuses a message
that names none. If a message is not refused, then sending it fails exactly if the engine is gone.
What is posted keeps its kind, its name and its properties. It has the address of the extension that
sends it, whatever it had before, or keeps its sender if it comes from outside. Its destinations
keep their number and their order, and only what is empty in them is filled in. -/
theorem sends_once_or_not_at_all :
    (∀ (e : Env) (mode : SendMode) (m : Msg) (engine : Mailbox EngineMsg),
      SendsOnce (e.Refuses mode m) (e.Sends m) engine (e.send mode m engine)) ∧
    ∀ (e : Engine) (m : Msg),
      SendsOnce (m.dest = []) (e.Sends m) e.host.mailbox
        ((e.send m).1.host.mailbox, (e.send m).2) ∧
      (e.send m).1 = { e with host := { e.host with mailbox := (e.send m).1.host.mailbox } } :=
  ⟨Env.sendsOnce, fun e m => ⟨e.sendsOnce m, e.send_fst m⟩⟩

-- A message that is passed on changes its sender; of its destinations it keeps what is there.
example :
    let relay : Env := ⟨.ofExtension "app" "1" "relay", "relay", .null, .empty⟩
    let m : Msg := { Msg.create .data "tide" default with
      src := .ofExtension "sea" "7" "gauge"
      dest := [.here "buoy", ⟨"sea", "", some "gauge"⟩] }
    relay.send .dataOnly m .empty =
      (⟨true, [.route { m with
        src := .ofExtension "app" "1" "relay"
        dest := [.ofExtension "app" "1" "buoy", .ofExtension "sea" "1" "gauge"] }]⟩, .ok ()) :=
  rfl

end ExtensionGraph
