import ExtensionGraph.Error
import ExtensionGraph.Group
import ExtensionGraph.Log
import ExtensionGraph.Msg

/-!
# Mailboxes

A mailbox is a queue with one receiver. Once the receiver is gone, whatever is posted is lost
and whoever posts learns about it. Everything that happens to a running graph reaches its engine
through one mailbox.

## Main definitions

* `ExtensionGraph.EngineMsg` — what is posted to an engine.
* `ExtensionGraph.Mailbox` — mailboxes.
* `ExtensionGraph.Mailbox.post`, `ExtensionGraph.Mailbox.take?` — appending and taking.
* `ExtensionGraph.Mailbox.postAll` — appending several messages.

## Main results

* `ExtensionGraph.Mailbox.post_messages`, `ExtensionGraph.Mailbox.postAll_messages` — messages are
  appended exactly if somebody listens.
* `ExtensionGraph.Mailbox.take?_eq_some` — the first message is taken.
-/

namespace ExtensionGraph

/-- A message to an engine. -/
inductive EngineMsg where
  /-- A group that was asked for has been built, or could not be built. -/
  | created (result : Except Error Group)
  /-- A thread has ended. -/
  | threadClosed (id : ThreadId)
  /-- A message is to be brought to its destinations. -/
  | route (msg : Msg)
  /-- The graph is to be closed. -/
  | close
deriving Inhabited

/-- A queue with a receiver. -/
structure Mailbox (α : Type) where
  listening : Bool
  messages : List α

namespace Mailbox

variable {α : Type}

/-- An empty mailbox that somebody listens to. -/
def empty : Mailbox α := ⟨true, []⟩

instance : Inhabited (Mailbox α) := ⟨empty⟩

/-- Appends a message if somebody listens. -/
def post (m : Mailbox α) (a : α) : Mailbox α :=
  if m.listening then { m with messages := m.messages ++ [a] } else m

/-- The first message and the rest. -/
def take? (m : Mailbox α) : Option (α × Mailbox α) :=
  match m.messages with
  | [] => none
  | a :: rest => some (a, { m with messages := rest })

/-- The receiver goes away; what it has not taken is lost. -/
def hangUp (_ : Mailbox α) : Mailbox α := ⟨false, []⟩

/-- Posting does not make anybody stop listening, nor begin. -/
@[simp] theorem post_listening (m : Mailbox α) (a : α) :
    (m.post a).listening = m.listening := by
  unfold post
  split <;> rfl

/-- What is posted is put behind everything that waits, if somebody listens, and is lost
otherwise. -/
theorem post_messages (m : Mailbox α) (a : α) :
    (m.post a).messages = m.messages ++ (if m.listening then [a] else []) := by
  unfold post
  split <;> simp_all

/-- What is taken is the first message, and the others remain. -/
theorem take?_eq_some {m m' : Mailbox α} {a : α} (h : m.take? = some (a, m')) :
    m.messages = a :: m'.messages ∧ m'.listening = m.listening := by
  unfold take? at h
  split at h
  · cases h
  · next hm =>
    cases h
    exact ⟨hm, rfl⟩

/-- Appends several messages one after the other. -/
def postAll (m : Mailbox α) (as : List α) : Mailbox α := as.foldl post m

/-- Posting nothing changes nothing. -/
@[simp] theorem postAll_nil (m : Mailbox α) : m.postAll [] = m := rfl

/-- Several messages are posted one after the other, the first one first. -/
@[simp] theorem postAll_cons (m : Mailbox α) (a : α) (as : List α) :
    m.postAll (a :: as) = (m.post a).postAll as := rfl

/-- Posting two batches after one another is posting them as one. -/
theorem postAll_append (m : Mailbox α) (as as' : List α) :
    m.postAll (as ++ as') = (m.postAll as).postAll as' :=
  List.foldl_append

/-- Posting several messages does not make anybody stop listening either. -/
@[simp] theorem postAll_listening (m : Mailbox α) (as : List α) :
    (m.postAll as).listening = m.listening := by
  induction as generalizing m with
  | nil => rfl
  | cons a as ih => rw [postAll_cons, ih, post_listening]

/-- A whole batch is put behind everything that waits, in its order, or lost as a whole: whether
somebody listens does not change on the way. -/
theorem postAll_messages (m : Mailbox α) (as : List α) :
    (m.postAll as).messages = m.messages ++ (if m.listening then as else []) := by
  induction as generalizing m with
  | nil => rw [postAll_nil, ite_self, List.append_nil]
  | cons a as ih =>
    rw [postAll_cons, ih, post_messages, post_listening]
    split <;> simp

end Mailbox

end ExtensionGraph
