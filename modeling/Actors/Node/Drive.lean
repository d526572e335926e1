import Actors.Node.Body

/-! Drivers. Each poll of a driver looks for a recorded exit before it goes on with the body. When
the exit is there the body is given up, and when the body ends its outcome is the reason; either way
the driver then terminates the actor. -/
namespace Actors

inductive Drive (β : Type)
  | suspended (exitWait : Nat) (body : β)
  | ended (exit : Exit)
  | aborted

namespace Node

/-- Terminates the actor of a driver. The end is the final reason, the reason recorded before, or
the fault of the termination. -/
def settle {β : Type} (id : Identity) (reason : Exit) (n : Node) : Drive β × Node :=
  match n.onWorld (·.terminate id reason) with
  | .ok (some final) n => (.ended final, n)
  | .ok none n => (.ended (((n.world.find? id).bind (·.core.life.reason?)).getD reason), n)
  | .error fault n => (.ended fault.exit, n)

def cancelExitWait (id : Identity) (ticket : Nat) (n : Node) : Node :=
  n.mapWorld (·.changeCore id (·.cancel .exit ticket))

/-- Polls a driver, for any way to go on with a body and to give it up. -/
def drive {β : Type} (resume : β → Node → Progress β × Node) (abandon : β → Node → Node)
    (id : Identity) (exitWait : Option Nat) (body : β) (n : Node) : Drive β × Node :=
  match n.pollCore id (Core.pollExit (some id) exitWait) with
  | (none, n) => (.ended .killed, n)
  | (some (.ready reason), n) =>
    settle id reason ((abandon body n).mapWorld (·.emit (.preempted reason)))
  | (some (.pending ticket), n) =>
    match resume body n with
    | (.suspended body, n) => (.suspended ticket body, n)
    | (.returned, n) => settle id .normal (cancelExitWait id ticket n)
    | (.failed interrupt, n) => settle id interrupt.reason (cancelExitWait id ticket n)
    | (.faulted fault, n) =>
      if fault.breaksInvariant then (.aborted, n)
      else settle id fault.exit (cancelExitWait id ticket n)

def openSpans (n : Node) (spans : List Span) : Node :=
  n.mapWorld fun w => { w with journal := { w.journal with spans } }

def setDriver (n : Node) (id : Identity) (state : DriverState) : Node :=
  match n.drivers.find? id with
  | none => n
  | some d => { n with drivers := n.drivers.put id { d with state } }

def conclude (n : Node) (id : Identity) (exit : Exit) : Node :=
  let n := (n.setDriver id (.ended exit)).reclaim
  match (n.drivers.find? id).bind (·.joiner) with
  | none => n
  | some joiner => n.mapWorld (·.call joiner)

def pollDriver (n : Node) (id : Identity) : Node :=
  match n.drivers.find? id with
  | none => n
  | some d =>
    match d.state with
    | .ended _ => n
    | .active exitWait body =>
      let (result, n) := drive (resume id) (abandon id) id exitWait body (n.openSpans d.spans)
      let n := match result with
        | .suspended ticket body => n.setDriver id (.active (some ticket) body)
        | .ended exit => n.conclude id exit
        | .aborted => { n with isAborted := true }
      (n.openSpans []).absorb (some id)

end Node

end Actors
