import Actors.Notifier
import Actors.Term.Text

/-! Mailboxes: a queue of messages, oldest first, and the waits for it to change. Senders never
wait. -/
namespace Actors

structure Mailbox where
  queue : List Term := []
  waits : Notifier := {}
  deriving Inhabited

namespace Mailbox

def wake (m : Mailbox) : Mailbox := { m with waits := m.waits.notify }

def push (m : Mailbox) (message : Term) : Mailbox :=
  { m with queue := m.queue ++ [message] }.wake

def peek? (m : Mailbox) : Option Term := m.queue.head?

def pop? (m : Mailbox) : Option (Term × Mailbox) :=
  match m.queue with
  | [] => none
  | message :: rest => some (message, { m with queue := rest })

def clear (m : Mailbox) : Mailbox := { m with queue := [] }

@[simp] theorem queue_push (m : Mailbox) (message : Term) :
    (m.push message).queue = m.queue ++ [message] := rfl

def length (m : Mailbox) : Nat := m.queue.length
def isEmpty (m : Mailbox) : Bool := m.queue.isEmpty

def render (layout : Text.Layout) (m : Mailbox) : String :=
  "Mailbox " ++ layout.sequence (m.queue.map (Term.render layout))

end Mailbox

end Actors
