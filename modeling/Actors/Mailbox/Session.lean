import Actors.Mailbox

/-! A mailbox on its own, moved by commands. The waits for a change are numbered in the order in
which they begin. -/
namespace Actors.Mailbox

inductive Command
  | push (message : Term)
  | pop
  | peek
  | clear
  | wake
  | show (layout : Text.Layout)
  | changed
  | poll (k : Nat)
  | cancel (k : Nat)

inductive Answer
  | nothing
  | message (m : Option Term)
  | text (s : String)
  | pending
  | ready
  | finished

structure Session where
  mailbox : Mailbox := {}
  tickets : List (Option Nat) := []

namespace Session

def ticket? (s : Session) (k : Nat) : Option Nat := s.tickets[k]?.join

def leave (s : Session) (k : Nat) (waits : Notifier) : Session :=
  { mailbox := { s.mailbox with waits }, tickets := s.tickets.set k none }

def perform (s : Session) : Command → Answer × Session
  | .push message => (.nothing, { s with mailbox := s.mailbox.push message })
  | .pop =>
    match s.mailbox.pop? with
    | none => (.message none, s)
    | some (message, mailbox) => (.message (some message), { s with mailbox })
  | .peek => (.message s.mailbox.peek?, s)
  | .clear => (.nothing, { s with mailbox := s.mailbox.clear })
  | .wake => (.nothing, { s with mailbox := s.mailbox.wake })
  | .show layout => (.text (s.mailbox.render layout), s)
  | .changed =>
    let (ticket, waits) := s.mailbox.waits.enter none
    (if ticket.isSome then .pending else .ready,
      { mailbox := { s.mailbox with waits }, tickets := s.tickets ++ [ticket] })
  | .poll k =>
    match s.ticket? k with
    | none => (.finished, s)
    | some ticket =>
      if s.mailbox.waits.isNotified ticket then
        (.ready, s.leave k (s.mailbox.waits.consume ticket))
      else (.pending, s)
  | .cancel k =>
    match s.ticket? k with
    | none => (.nothing, s)
    | some ticket => (.nothing, s.leave k (s.mailbox.waits.cancel ticket))

def performAll (s : Session) : List Command → List (Answer × Mailbox)
  | [] => []
  | command :: rest =>
    let (answer, s) := s.perform command
    (answer, s.mailbox) :: s.performAll rest

end Session

end Actors.Mailbox
