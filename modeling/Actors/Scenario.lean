import Actors.Node.Schedule

/-! Scenarios: scripts driven from outside, step by step. After each step the drivers run until all
are suspended, and the report tells what was answered, noted and traced, and how the actors are. -/
namespace Actors

inductive Command
  | step (step : Step)
  /-- Begins a wait of an actor in the next slot and polls it. A time limit runs from now. -/
  | begin (actor : Ref) (aim : Nat → Aim)
  | poll (slot : Nat)
  | cancel (slot : Nat)
  | advance (time : Nat)
  | join (actor : Ref)

structure Snapshot where
  phase : Phase
  reason : Option Exit
  messages : Nat
  links : List Identity
  flags : Option Flags
  deriving Inhabited

structure StepReport where
  reply : Reply
  journal : Journal
  actors : List (Option Snapshot)
  deriving Inhabited

structure Report where
  isAborted : Bool
  steps : List StepReport
  ends : List (Nat × Exit)
  deriving Inhabited

namespace Node

def setSlot (n : Node) (k : Nat) (slot : Slot) : Node := { n with slots := n.slots.set k slot }

def pollAim (n : Node) (slot : Slot) : Option (Poll Reply) × Node :=
  match slot.aim with
  | .wait => replying .done (Core.pollMail none slot.ticket)
  | .remove => replying (.ofResult fun _ => .ok) (Core.pollMessage none slot.ticket)
  | .receive => replying (.ofResult fun t => .message (some t)) (Core.pollMessage none slot.ticket)
  | .waitUntil deadline =>
    replying (.ofResult .flag) (Core.pollTimed (decide (deadline ≤ n.now)) none slot.ticket)
  | .exit => replying (fun e => .exit (some e)) (Core.pollExit none slot.ticket)
where
  replying {α : Type} (reply : α → Reply) (poll : Core → Poll α × Core) :
      Option (Poll Reply) × Node :=
    let (result, n) := n.pollCore slot.id poll
    (result.map fun
      | .ready value => .ready (reply value)
      | .pending ticket => .pending ticket, n)

def pollSlot (n : Node) (k : Nat) (slot : Slot) : Reply × Node :=
  match n.pollAim slot with
  | (none, n) => (.gone, n)
  | (some (.ready reply), n) => (.ready reply, n.setSlot k { slot with ticket := none })
  | (some (.pending ticket), n) => (.pending, n.setSlot k { slot with ticket := some ticket })

def cancelSlot (n : Node) (k : Nat) : Node :=
  match n.slots[k]? with
  | some ⟨id, aim, some ticket⟩ =>
    let bell := if aim = .exit then Bell.exit else .mail
    (n.mapWorld (·.changeCore id (·.cancel bell ticket))).setSlot k ⟨id, aim, none⟩
  | _ => n

def learnEnd (n : Node) (id : Identity) : Reply × Node :=
  match n.takeEnd id none with
  | some (d, taken) =>
    match d.exit? with
    | some exit => (.exit (some exit), taken)
    | none => (.unfinished, n)
  | none => (.unfinished, n)

def command (n : Node) : Command → Reply × Node
  | .step step =>
    match perform (n.scope none none) step n with
    | .ok reply n => (reply, n)
    | .error fault n => (.raised fault, n)
  | .begin u aim =>
    let id := (n.scope none none).find u
    if n.world.isAllocated id then
      let slot : Slot := ⟨id, aim n.now, none⟩
      { n with slots := n.slots ++ [slot] }.pollSlot n.slots.length slot
    else (.gone, n)
  | .poll k =>
    match n.slots[k]? with
    | some slot => if slot.ticket.isSome then n.pollSlot k slot else (.finished, n)
    | none => (.finished, n)
  | .cancel k => (.nothing, n.cancelSlot k)
  | .advance time => (.nothing, n.pass time)
  | .join u => n.learnEnd ((n.scope none none).find u)

def snapshot (n : Node) (entry : Entry) : Option Snapshot :=
  (n.world.find? entry.id).map fun a =>
    { phase := a.core.phase
      reason := a.core.life.reason?
      messages := a.core.mailbox.length
      links := a.core.links.members
      flags := a.role.flags? }

def report (n : Node) (command : Command) : StepReport × Node :=
  let (reply, n) := n.command command
  let n := n.reclaim.run
  let journal := n.world.journal
  (⟨reply, journal, n.entries.map n.snapshot⟩,
    n.mapWorld fun w => { w with journal := journal.cleared })

def reports (n : Node) : List Command → List StepReport × Node
  | [] => ([], n)
  | command :: rest =>
    let (first, n) := n.report command
    if n.isAborted then ([first], n)
    else
      let (others, n) := n.reports rest
      (first :: others, n)

/-- The ends that nobody learnt. A driver that is still active when the node stops is killed. -/
def ends (n : Node) : List (Nat × Exit) :=
  n.entries.zipIdx.filterMap fun (entry, index) =>
    (n.drivers.find? entry.id).bind fun d =>
      if d.isTaken then none else some (index, d.exit?.getD .killed)

end Node

def runScenario (commands : List Command) : Report :=
  let (steps, n) := Node.reports {} commands
  ⟨n.isAborted, steps, n.ends⟩

inductive RootReport
  | aborted
  | ended (root : Identity) (exit : Option Exit) (notes : List Note)

/-- Runs a process with a body until it ends, and tells its end and what it noted. Actors that still
run then are dropped. -/
def runRoot (body : List Line) : RootReport :=
  let (_, n) := Node.command {} (.step (.spawn none {} body none))
  let root := (n.scope none none).find (.index 0)
  let n := n.run
  let n := Node.passWhileActive root n.work n
  if n.isAborted then .aborted
  else
    let notes := n.world.journal.notes.filterMap fun (id, note) =>
      if id = root then some note else none
    .ended root ((n.drivers.find? root).bind Driver.exit?) notes

end Actors
