import Actors.Node.Step

/-! Running a body: its lines in order, from where it was suspended to where it is suspended next or
to its end. -/
namespace Actors

inductive Progress (β : Type)
  | suspended (body : β)
  | returned
  | failed (interrupt : Interrupt)
  | faulted (fault : Fault)

namespace Node

def note (n : Node) (id : Identity) (note : Note) : Node := n.mapWorld (·.note id note)

def pollMailbox {α : Type} (self : Identity) (stage : Nat → Stage) (reply : α → Reply)
    (poll : Core → Poll (Except Interrupt α) × Core) : Job (Stage ⊕ Reply) := do
  match ← modifyGet (·.pollCore self poll) with
  | none => return .inr .gone
  | some (.ready result) => return .inr (.ofResult reply result)
  | some (.pending ticket) => return .inl (stage ticket)

def pollEnd (target : Identity) : Job (Stage ⊕ Reply) := do
  match ((← get).drivers.find? target).bind Driver.exit? with
  | some exit => return .inr (.exit (some exit))
  | none => return .inl (.joining target)

def advanceAct (self : Identity) (heard : Option Identity) (stage : Stage) (act : Act) :
    Job (Stage ⊕ Reply) := do
  let ticket := match stage with
    | .mail ticket | .timed ticket _ => some ticket
    | _ => none
  match act with
  | .step step => return .inr (← perform ((← get).scope (some self) heard) step)
  | .receive =>
    pollMailbox self .mail (fun t => .message (some t)) (Core.pollMessage (some self) ticket)
  | .wait => pollMailbox self .mail (fun _ => .ok) (Core.pollMail (some self) ticket)
  | .remove => pollMailbox self .mail (fun _ => .ok) (Core.pollMessage (some self) ticket)
  | .waitFor limit =>
    let now := (← get).now
    let deadline := match stage with
      | .timed _ deadline => deadline
      | _ => now + limit
    pollMailbox self (.timed · deadline) .flag
      (Core.pollTimed (decide (deadline ≤ now)) (some self) ticket)
  | .sleep time =>
    let now := (← get).now
    let deadline := match stage with
      | .asleep deadline => deadline
      | _ => now + time
    return if deadline ≤ now then .inr .nothing else .inl (.asleep deadline)
  | .yield =>
    match stage with
    | .yielded => return .inr .nothing
    | _ => do
      modify fun n => { n with aside := self :: n.aside.erase self }
      return .inl .yielded
  | .join u =>
    match stage with
    | .joining target => pollEnd target
    | _ => do
      let target := ((← get).scope (some self) heard).find u
      match (← get).takeEnd target (some self) with
      | none => return .inr .nothing
      | some (_, n) => do
        set n
        pollEnd target
  | .finish remark => return .inr (match remark with
    | some text => .remark text
    | none => .nothing)

def hear (act : Act) (reply : Reply) (heard : Option Identity) : Option Identity :=
  match act, reply with
  | .receive, .message (some t) => t.addressee? <|> heard
  | _, _ => heard

/-- Runs lines until one waits, one fails, one faults, or the body is over. -/
def runLines (self : Identity) :
    List Line → Stage → Option Identity → Node → Progress Activity × Node
  | [], _, _, n => (.returned, n)
  | line :: rest, stage, heard, n =>
    match advanceAct self heard stage line.act n with
    | .error fault n => (.faulted fault, (n.note self .unwound).reclaim)
    | .ok (.inl stage) n => (.suspended ⟨line :: rest, stage, heard⟩, n)
    | .ok (.inr reply) n =>
      let n := (n.note self (.step line.label reply)).reclaim
      match reply, line.act with
      | .failed interrupt, _ =>
        if line.isAttempt then runLines self rest .fresh heard n else (.failed interrupt, n)
      | _, .finish _ => (.returned, n)
      | _, _ => runLines self rest .fresh (hear line.act reply heard) n

def resume (self : Identity) (a : Activity) (n : Node) : Progress Activity × Node :=
  runLines self a.lines a.stage a.heard n

def leaveStage (self : Identity) (stage : Stage) (n : Node) : Node :=
  match stage with
  | .mail ticket | .timed ticket _ => n.mapWorld (·.changeCore self (·.cancel .mail ticket))
  | .joining target =>
    match n.drivers.find? target with
    | none => n
    | some d => { n with drivers := n.drivers.put target { d with joiner := none } }
  | .fresh | .asleep _ | .yielded => n

/-- Gives up a body. One that never began leaves no note. -/
def abandon (self : Identity) (a : Activity) (n : Node) : Node :=
  match a.stage with
  | .fresh => n
  | stage => leaveStage self stage (n.note self .dropped)

end Node

end Actors
