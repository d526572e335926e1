import Actors.Identity

/-! Notifications for waits. A notification goes to the oldest wait without one; if there is none,
it is stored as the one permit, which the next wait takes. A wait that is given up while it holds a
notification passes it on. -/
namespace Actors

/-- A suspended wait. Its sleeper is the actor whose driver is to run once the wait is notified. -/
structure Wait where
  ticket : Nat
  sleeper : Option Identity
  deriving DecidableEq, Repr, Inhabited

structure Notifier where
  /-- The number of waits that were ever suspended, and so the next ticket. -/
  entered : Nat := 0
  waiting : List Wait := []
  /-- Waits that hold a notification and were not polled since, first notified first. -/
  notified : List Wait := []
  permit : Bool := false
  deriving DecidableEq, Repr, Inhabited

namespace Notifier

def notify (n : Notifier) : Notifier :=
  match n.waiting with
  | [] => { n with permit := true }
  | wait :: rest => { n with waiting := rest, notified := n.notified ++ [wait] }

def suspend (n : Notifier) (sleeper : Option Identity) : Notifier :=
  { n with entered := n.entered + 1, waiting := n.waiting ++ [⟨n.entered, sleeper⟩] }

def enter (n : Notifier) (sleeper : Option Identity) : Option Nat × Notifier :=
  if n.permit then (none, { n with permit := false }) else (some n.entered, n.suspend sleeper)

def isNotified (n : Notifier) (ticket : Nat) : Bool := n.notified.any (·.ticket == ticket)

def consume (n : Notifier) (ticket : Nat) : Notifier :=
  { n with notified := n.notified.filter (·.ticket != ticket) }

def cancel (n : Notifier) (ticket : Nat) : Notifier :=
  if n.isNotified ticket then (n.consume ticket).notify
  else { n with waiting := n.waiting.filter (·.ticket != ticket) }

/-- The sleepers of the waits that hold a notification in `after` and held none in `before`. -/
def awakened (before after : Notifier) : List Identity :=
  (after.notified.filter fun wait => !before.isNotified wait.ticket).filterMap (·.sleeper)

end Notifier

end Actors
