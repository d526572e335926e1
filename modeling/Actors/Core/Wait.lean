import Actors.Core

/-! Waits of an actor: for a message, for the chance to take one, and for its exit. A wait proceeds
only when it is polled. Each round of a poll looks first and, if there is nothing yet, takes a
stored permit and looks again, or is suspended. -/
namespace Actors

inductive Poll (α : Type)
  | ready (value : α)
  | pending (ticket : Nat)
  deriving Repr

inductive Round (α : Type)
  | settled (value : α)
  | suspended (ticket : Nat)
  /-- A stored permit was taken. -/
  | again
  deriving Repr

inductive Bell
  | mail
  | exit
  deriving DecidableEq, Repr

namespace Core

def bell : Bell → Core → Notifier
  | .mail, c => c.mailbox.waits
  | .exit, c => c.exitWaits

def setBell (c : Core) : Bell → Notifier → Core
  | .mail, waits => { c with mailbox := { c.mailbox with waits } }
  | .exit, exitWaits => { c with exitWaits }

abbrev Look (α : Type) := Core → Option (α × Core)

def round {α : Type} (b : Bell) (look : Look α) (sleeper : Option Identity) (c : Core) :
    Round α × Core :=
  match look c with
  | some (value, c) => (.settled value, c)
  | none =>
    match (c.bell b).enter sleeper with
    | (none, waits) => (.again, c.setBell b waits)
    | (some ticket, waits) => (.suspended ticket, c.setBell b waits)

/-- Rounds until the wait ends or is suspended. A wait that has no round left is suspended at once;
two rounds are enough, since the first leaves no permit. -/
def rounds {α : Type} (b : Bell) (look : Look α) (sleeper : Option Identity) :
    Nat → Core → Poll α × Core
  | 0, c => (.pending (c.bell b).entered, c.setBell b ((c.bell b).suspend sleeper))
  | left + 1, c =>
    match c.round b look sleeper with
    | (.settled value, c) => (.ready value, c)
    | (.suspended ticket, c) => (.pending ticket, c)
    | (.again, c) => rounds b look sleeper left c

/-- Polls a wait. One that was not polled before has no ticket; one that is suspended proceeds only
if it holds a notification. -/
def poll {α : Type} (b : Bell) (look : Look α) (sleeper : Option Identity) (ticket : Option Nat)
    (c : Core) : Poll α × Core :=
  match ticket with
  | none => rounds b look sleeper 2 c
  | some ticket =>
    if (c.bell b).isNotified ticket then
      rounds b look sleeper 2 (c.setBell b ((c.bell b).consume ticket))
    else (.pending ticket, c)

def cancel (c : Core) (b : Bell) (ticket : Nat) : Core := c.setBell b ((c.bell b).cancel ticket)

def lookMail : Look (Except Interrupt Unit) := fun c =>
  match c.ensureNoExit with
  | .error interrupt => some (.error interrupt, c)
  | .ok () => if c.mailbox.isEmpty then none else some (.ok (), c)

def lookMessage : Look (Except Interrupt Term) := fun c =>
  match c.lookMail with
  | none => none
  | some (.error interrupt, c) => some (.error interrupt, c)
  | some (.ok (), c) =>
    c.mailbox.pop?.map fun (message, mailbox) => (.ok message, { c with mailbox })

def lookExit : Look Exit := fun c => c.life.surfaced?.map (·, c)

def pollMail : Option Identity → Option Nat → Core → Poll (Except Interrupt Unit) × Core :=
  poll .mail lookMail

def pollMessage : Option Identity → Option Nat → Core → Poll (Except Interrupt Term) × Core :=
  poll .mail lookMessage

def pollExit : Option Identity → Option Nat → Core → Poll Exit × Core :=
  poll .exit lookExit

/-- Polls a wait for a message with a time limit. The wait is polled before the clock is looked at;
when the time is up it is given up, and the answer says what is there at that moment. -/
def pollTimed (expired : Bool) (sleeper : Option Identity) (ticket : Option Nat) (c : Core) :
    Poll (Except Interrupt Bool) × Core :=
  match c.pollMail sleeper ticket with
  | (.ready result, c) => (.ready (result.map fun _ => true), c)
  | (.pending ticket, c) =>
    if expired then
      let c := c.cancel .mail ticket
      (.ready (c.ensureNoExit.map fun _ => !c.mailbox.isEmpty), c)
    else (.pending ticket, c)

end Core

end Actors
