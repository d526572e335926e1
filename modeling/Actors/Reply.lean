import Actors.Actor

/-! Replies: what the steps of a script and of a body answer. -/
namespace Actors

structure Info where
  id : Identity
  isLive : Bool
  role : Role
  deriving Inhabited

structure Comparison where
  order : Ordering
  typed : Option Ordering
  deriving Inhabited

inductive Reply
  | nothing
  | ok
  | gone
  | flag (value : Bool)
  | actor (index : Nat)
  | message (term : Option Term)
  | exit (reason : Option Exit)
  | failed (interrupt : Interrupt)
  | raised (fault : Fault)
  | flags (old new : Flags)
  | info (info : Info)
  | comparison (c : Comparison)
  | remark (text : String)
  | pending
  | ready (reply : Reply)
  | finished
  /-- An actor has not come to its end, or its end was learnt before. -/
  | unfinished
  deriving Inhabited

namespace Reply

def ofResult {α : Type} (f : α → Reply) : Except Interrupt α → Reply
  | .ok a => f a
  | .error interrupt => failed interrupt

def done : Except Interrupt Unit → Reply := ofResult fun _ => ok

end Reply

end Actors
