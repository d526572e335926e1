import Actors.Term

/-! The life of one actor: its phase and the exit reason recorded for it. A reason is recorded when
an exit signal is accepted or when the actor finishes, whichever is first, and stays. -/
namespace Actors

/-- A life carries the recorded reason exactly where there is one. -/
inductive Life
  | init
  | running
  | exiting (reason : Exit)
  | done (reason : Exit)
  deriving Inhabited

inductive Acceptance
  | accepted
  | pending
  | done
  deriving DecidableEq, Repr, Inhabited

namespace Acceptance

def name : Acceptance → String
  | accepted => "Accepted"
  | pending => "Pending"
  | done => "Done"

end Acceptance

namespace Life

def phase : Life → Phase
  | init => .init
  | running => .running
  | exiting _ => .exiting
  | done _ => .done

def reason? : Life → Option Exit
  | exiting reason | done reason => some reason
  | init | running => none

def pending? : Life → Option Exit
  | exiting reason => some reason
  | _ => none

def surfaced? : Life → Option Exit
  | exiting reason | done reason => some reason
  | init | running => none

def start : Life → Except Exception Life
  | init => .ok running
  | life => .error (.invariant ("start from state " ++ life.phase.name))

/-- The first signal to a running actor is recorded; later ones change nothing. A signal must not
reach an actor before its start. -/
def accept (reason : Exit) : Life → Except Exception (Acceptance × Life)
  | init => .error (.invariant "exit signal delivered before start")
  | running => .ok (.accepted, exiting reason)
  | exiting first => .ok (.pending, exiting first)
  | done final => .ok (.done, done final)

/-- Ends the life and answers the final reason: that of an accepted signal before the given one. A
life ends once. -/
def finish (reason : Exit) : Life → Option Exit × Life
  | init | running => (some reason, done reason)
  | exiting first => (some first, done first)
  | done final => (none, done final)

end Life

end Actors
