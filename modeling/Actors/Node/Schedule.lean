import Actors.Node.Drive

/-! The schedule. Drivers run one at a time, in the order in which they were called. When none is
called, those that yielded are, the latest first. Time passes only when nothing is left to run. -/
namespace Actors.Node

def work (n : Node) : Nat := (n.drivers.values.map Driver.work).foldr (· + ·) 0

/-- A bound on the rounds of the schedule. Between two polls that bring a body forward each driver
is polled at most once, and no more drivers can be than there are and steps to create them. -/
def patience (n : Node) : Nat := (n.work + 1) * (2 * (n.drivers.entries.length + n.work) + 2)

def runRounds : Nat → Node → Node
  | 0, n => n
  | rounds + 1, n =>
    if n.isAborted then n
    else
      match n.ready, n.aside with
      | id :: rest, _ => runRounds rounds ({ n with ready := rest }.pollDriver id)
      | [], [] => n
      | [], aside => runRounds rounds (aside.foldl enqueue { n with aside := [] })

def run (n : Node) : Node :=
  let n := n.absorb none
  runRounds n.patience n

def sleepers (n : Node) : List (Identity × Nat) :=
  n.drivers.entries.filterMap fun (id, d) =>
    (d.activity?.bind Activity.deadline?).map (id, ·)

def nextDeadline? (n : Node) : Option Nat :=
  ((n.sleepers.map (·.2)).filter (n.now < ·)).min?

def jump (n : Node) (moment : Nat) : Node :=
  let due := n.sleepers.filter fun (_, deadline) => n.now < deadline && deadline ≤ moment
  run ({ n with now := moment }.mapWorld fun w => (due.map Prod.fst).foldl World.call w)

/-- Lets time pass up to a moment, from deadline to deadline. Each jump brings a body forward. -/
def passUntil (moment : Nat) : Nat → Node → Node
  | 0, n => n
  | jumps + 1, n =>
    match n.nextDeadline? with
    | none => n
    | some next => if next ≤ moment then passUntil moment jumps (n.jump next) else n

def pass (n : Node) (time : Nat) : Node :=
  let moment := n.now + time
  { passUntil moment n.work n with now := moment }

/-- Lets time pass as long as a driver is active and another moment is ahead. -/
def passWhileActive (id : Identity) : Nat → Node → Node
  | 0, n => n
  | jumps + 1, n =>
    if (n.drivers.find? id).any Driver.isActive then
      match n.nextDeadline? with
      | none => n
      | some next => passWhileActive id jumps (n.jump next)
    else n

end Actors.Node
