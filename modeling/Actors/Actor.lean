import Actors.Flags
import Actors.Core

/-! Actors: a core in a role. The role decides what becomes of an exit signal before the common
protocol sees it, and what the actor does once it has accepted one. -/
namespace Actors

inductive Hook
  /-- Notes the signal, as every hook does, and no more. -/
  | record
  | terminate (reason : Exit)
  | reply (reason : Exit)
  | send
  | unlink
  | raise
  deriving Inhabited

inductive Role
  | process (flags : Flags)
  | port (name : Atom) (owner : Identity)
  | plain (hook : Hook)
  deriving Inhabited

inductive Disposition
  | ignoreSelf
  | ignoreNormal
  | trap (reason : Exit)
  | forward (reason : Exit)
  deriving Inhabited

namespace Role

def kind : Role → ActorKind
  | process _ => .process
  | port _ _ => .port
  | plain _ => .plain

def flags? : Role → Option Flags
  | process flags => some flags
  | _ => none

/-- The disposition of a signal. A request to kill is never trapped and is recorded as `killed`; a
process ignores a normal exit that it does not trap, and a port one that is not its owner's. -/
def screen (self : Identity) (role : Role) (sender : Identity) (reason : Exit) : Disposition :=
  match role with
  | process flags =>
    if sender = self then .ignoreSelf
    else if reason.isKill then .forward .killed
    else if flags.traps then .trap reason
    else if reason.isNormal then .ignoreNormal
    else .forward reason
  | port _ owner =>
    if reason.isKill then .forward .killed
    else if reason.isNormal && sender != owner then .ignoreNormal
    else .forward reason
  | plain _ => .forward reason

end Role

structure Actor where
  core : Core
  role : Role
  deriving Inhabited

namespace Actor

def id (a : Actor) : Identity := a.core.id

def screen (a : Actor) (sender : Identity) (reason : Exit) : Disposition :=
  a.role.screen a.id sender reason

end Actor

end Actors
