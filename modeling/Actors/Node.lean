import Actors.Script
import Actors.Core.Wait
import Actors.World.Spawn

/-! Nodes: a world of actors together with the drivers that run their bodies, the queue of drivers
to run, the virtual clock, and the waits and holds of the script outside. -/
namespace Actors

inductive Stage
  | fresh
  | mail (ticket : Nat)
  | timed (ticket deadline : Nat)
  | asleep (deadline : Nat)
  | yielded
  | joining (target : Identity)
  deriving DecidableEq, Repr, Inhabited

structure Activity where
  lines : List Line
  stage : Stage := .fresh
  heard : Option Identity := none
  deriving Inhabited

namespace Activity

def deadline? (a : Activity) : Option Nat :=
  match a.stage with
  | .timed _ deadline | .asleep deadline => some deadline
  | _ => none

end Activity

inductive DriverState
  | active (exitWait : Option Nat) (body : Activity)
  | ended (exit : Exit)
  deriving Inhabited

structure Driver where
  id : Identity
  spans : List Span
  state : DriverState
  isTaken : Bool := false
  /-- The driver whose body waits for the end. -/
  joiner : Option Identity := none
  deriving Inhabited

namespace Driver

def activity? (d : Driver) : Option Activity :=
  match d.state with
  | .active _ body => some body
  | .ended _ => none

def exit? (d : Driver) : Option Exit :=
  match d.state with
  | .active _ _ => none
  | .ended exit => some exit

def isActive (d : Driver) : Bool := d.exit?.isNone

def work (d : Driver) : Nat := 1 + (d.activity?.map fun a => Line.totalWork a.lines).getD 0

end Driver

inductive Aim
  | wait
  | remove
  | receive
  | waitUntil (deadline : Nat)
  | exit
  deriving DecidableEq, Repr, Inhabited

structure Slot where
  id : Identity
  aim : Aim
  ticket : Option Nat
  deriving Repr, Inhabited

structure Node where
  world : World := {}
  entries : List Entry := []
  drivers : Registry Driver := {}
  slots : List Slot := []
  /-- The actors that the script created and has not given up. -/
  held : List Identity := []
  /-- Drivers to run, the next one first. -/
  ready : List Identity := []
  /-- Drivers that yielded, the latest first. -/
  aside : List Identity := []
  now : Nat := 0
  /-- A body broke a rule of the protocol, and nothing runs any more. -/
  isAborted : Bool := false
  deriving Inhabited

abbrev Job (α : Type) := EStateM Fault Node α

namespace Node

def onWorld {α : Type} (work : World → World.Outcome α) : Job α := fun n =>
  match work n.world with
  | .ok a world => .ok a { n with world }
  | .error fault world => .error fault { n with world }

def mapWorld (n : Node) (f : World → World) : Node := { n with world := f n.world }

/-- Whether someone keeps an actor allocated: the script, a driver, or a wait from outside. -/
def isHeld (n : Node) (i : Identity) : Bool :=
  n.held.contains i || (n.drivers.find? i).any Driver.isActive
    || n.slots.any fun slot => slot.id == i && slot.ticket.isSome

def reclaim (n : Node) : Node :=
  n.mapWorld fun w => (w.actors.keys.filter (!n.isHeld ·)).foldl World.free w

def enqueue (n : Node) (i : Identity) : Node :=
  if n.ready.contains i || !(n.drivers.find? i).any Driver.isActive then n
  else { n with ready := n.ready ++ [i] }

/-- Queues the drivers that were called. One that was called while it ran comes after the others. -/
def absorb (n : Node) (current : Option Identity) : Node :=
  let calls := n.world.calls
  let (own, others) := calls.partition (some · == current)
  (others ++ own).foldl enqueue (n.mapWorld fun w => { w with calls := [] })

def register (n : Node) (id : Identity) (kind : Option ActorKind) : Nat × Node :=
  (n.entries.length, { n with entries := n.entries ++ [⟨id, kind⟩] })

/-- Gives an actor a driver for its body. The driver runs inside the spans that are open now. -/
def launch (n : Node) (id : Identity) (body : List Line) : Node :=
  let spans := n.world.journal.spans ++ [.actor id]
  let driver : Driver := { id, spans, state := .active none { lines := body } }
  { n with drivers := n.drivers.put id driver }.mapWorld (·.call id)

def takeEnd (n : Node) (id : Identity) (joiner : Option Identity) : Option (Driver × Node) :=
  match n.drivers.find? id with
  | none => none
  | some d =>
    if d.isTaken then none
    else some (d, { n with drivers := n.drivers.put id { d with isTaken := true, joiner } })

def pollCore {α : Type} (n : Node) (id : Identity) (poll : Core → Poll α × Core) :
    Option (Poll α) × Node :=
  match n.world.find? id with
  | none => (none, n)
  | some a =>
    let (result, core) := poll a.core
    (some result, n.mapWorld (·.putCore a core))

def scope (n : Node) (self heard : Option Identity) : Scope := ⟨n.entries, self, heard⟩

end Node

end Actors
