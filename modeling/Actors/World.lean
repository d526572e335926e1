import Actors.Journal
import Actors.Registry

/-! Worlds: the actors that are allocated, the stubs, and what they have written. A handle is an
identity, looked up in the world when it is used, so a handle to a freed actor finds nothing. -/
namespace Actors

structure Stub where
  isLive : Bool
  refuses : Bool
  deriving DecidableEq, Repr, Inhabited

structure World where
  actors : Registry Actor := {}
  stubs : Registry Stub := {}
  serial : Nat := 1
  /-- The drivers that were called since the scheduler looked, in order. -/
  calls : List Identity := []
  journal : Journal := {}
  deriving Inhabited

/-- How work on a world ends: with an answer or with a fault. What was done before a fault stays. -/
abbrev World.Outcome (α : Type) := EStateM.Result Fault World α

namespace World

def find? (w : World) (i : Identity) : Option Actor := w.actors.find? i

def isAllocated (w : World) (i : Identity) : Bool := (w.find? i).isSome

def emit (w : World) (event : Event) : World := { w with journal := w.journal.emit event }
def note (w : World) (i : Identity) (note : Note) : World :=
  { w with journal := w.journal.note i note }

def call (w : World) (i : Identity) : World := { w with calls := w.calls ++ [i] }

/-- Puts a changed core back into its actor, and calls the drivers that the change awakens. -/
def putCore (w : World) (a : Actor) (core : Core) : World :=
  { w with
    actors := w.actors.put a.id { a with core }
    calls := w.calls ++ a.core.awakened core }

def setRole (w : World) (i : Identity) (role : Role) : World :=
  match w.find? i with
  | none => w
  | some a => { w with actors := w.actors.put i { a with role } }

@[simp] theorem find?_emit (w : World) (event : Event) (i : Identity) :
    (w.emit event).find? i = w.find? i := rfl

theorem find?_putCore (w : World) (a : Actor) (core : Core) (i : Identity) :
    (w.putCore a core).find? i = if i = a.id then some { a with core } else w.find? i :=
  Registry.find?_put ..

def changeCore (w : World) (i : Identity) (f : Core → Core) : World :=
  match w.find? i with
  | none => w
  | some a => w.putCore a (f a.core)

def within {α : Type} (w : World) (span : Span) (work : World → Outcome α) : Outcome α :=
  let leave (after : World) : World :=
    { after with journal := { after.journal with spans := w.journal.spans } }
  match work { w with journal := w.journal.enter span } with
  | .ok a after => .ok a (leave after)
  | .error fault after => .error fault (leave after)

def allocate (w : World) (tag : Tag) (role : Role) : Identity × World :=
  let id := Identity.ofSerial w.serial tag
  (id, { w with
    serial := w.serial + 1
    actors := w.actors.put id { core := { id }, role } })

def allocateStub (w : World) (tag : Tag) (stub : Stub) : Identity × World :=
  let id := Identity.ofSerial w.serial tag
  (id, { w with serial := w.serial + 1, stubs := w.stubs.put id stub })

/-- Gives out the next identity to what is made under it, unless the serials are used up. -/
def issue (w : World) (make : World → Identity × World) : Outcome Identity :=
  if w.serial ≤ Identity.maxSerial then .ok (make w).1 (make w).2
  else .error (.exception .exhausted) w

theorem issue_room {w : World} (room : w.serial ≤ Identity.maxSerial)
    (make : World → Identity × World) : w.issue make = .ok (make w).1 (make w).2 := if_pos room

theorem issue_full {w : World} (full : Identity.maxSerial < w.serial)
    (make : World → Identity × World) : w.issue make = .error (.exception .exhausted) w :=
  if_neg (Nat.not_le.mpr full)

def free (w : World) (i : Identity) : World := { w with actors := w.actors.erase i }

def isLive (w : World) (i : Identity) : Bool :=
  match w.find? i with
  | some a => a.core.isLive
  | none => ((w.stubs.find? i).map (·.isLive)).getD false

def running (w : World) : Nat := w.actors.values.countP fun a => a.core.phase == .running

end World

end Actors
