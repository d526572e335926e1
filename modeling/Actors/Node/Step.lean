import Actors.Node

/-! What the steps that do not wait do to a node, and what they answer. -/
namespace Actors

namespace Node

def onActor (id : Identity) (work : Actor → Job Reply) : Job Reply := do
  match (← get).world.find? id with
  | none => return .gone
  | some a => work a

theorem onActor_found {id : Identity} {work : Actor → Job Reply} {n : Node} {a : Actor}
    (found : n.world.find? id = some a) : onActor id work n = work a n := by
  unfold onActor
  change (match n.world.find? id with | none => (return .gone : Job Reply) | some a => work a) n = _
  rw [found]

theorem onActor_missing {id : Identity} {work : Actor → Job Reply} {n : Node}
    (missing : n.world.find? id = none) : onActor id work n = .ok .gone n := by
  unfold onActor
  change (match n.world.find? id with | none => (return .gone : Job Reply) | some a => work a) n = _
  rw [missing]
  rfl

def answer {α : Type} (f : World → α × World) : Job α :=
  modifyGet fun n => let (a, world) := f n.world; (a, { n with world })

def changeWorld (f : World → World) : Job Reply := do
  modify (·.mapWorld f)
  return .nothing

def create (scope : Scope) : Blueprint → Job Reply
  | .process flags => actor .process (.process flags)
  | .port name owner => actor .port (.port name (scope.find owner))
  | .plain tag hook => actor tag (.plain (hook scope))
  | .stub tag stub => do
    let id ← onWorld (·.issue (·.allocateStub tag stub))
    return .actor (← modifyGet (·.register id none))
where
  actor (tag : Tag) (role : Role) : Job Reply := do
    let id ← onWorld (·.issue (·.allocate tag role))
    modify fun n => { n with held := n.held ++ [id] }
    return .actor (← modifyGet (·.register id (some role.kind)))

/-- Gives a new actor its body and makes it known, unless its creation or its body failed. -/
def launchNew (kind : ActorKind) (body : List Line) (failure : Option String) :
    Except Interrupt Identity → Job Reply
  | .error interrupt => return .failed interrupt
  | .ok id => do
    if let some text := failure then throw (.message text)
    modify (·.launch id body)
    return .actor (← modifyGet (·.register id (some kind)))

def comparison (w : World) (a b : Identity) : Comparison :=
  let order := compare a b
  let same := match w.find? a, w.find? b with
    | some x, some y => x.role.kind == y.role.kind
    | _, _ => false
  ⟨order, if same then some order else none⟩

def perform (scope : Scope) : Step → Job Reply
  | .create what => create scope what
  | .drop u => do
    modify fun n => { n with held := n.held.erase (scope.find u) }
    return .nothing
  | .send u message => changeWorld (·.send (scope.find u) (message scope))
  | .signal u sender reason => do
    onWorld (·.deliver (scope.find u) (scope.find sender) (reason scope))
    return .nothing
  | .linkThrough u peer => return .done (← answer (·.linkThrough (scope.find u) (scope.find peer)))
  | .handleIsLive u => return .flag ((← get).world.isLive (scope.find u))
  | .setStub u isLive => changeWorld fun w =>
    match w.stubs.find? (scope.find u) with
    | none => w
    | some stub => { w with stubs := w.stubs.put (scope.find u) { stub with isLive } }
  | .compare a b => return .comparison (comparison (← get).world (scope.find a) (scope.find b))
  | .isFinished u => do
    match (← get).drivers.find? (scope.find u) with
    | some d => return if d.isTaken then .nothing else .flag (!d.isActive)
    | none => return .nothing
  | .start u => onActor (scope.find u) fun a => do
    onWorld (·.start a.id)
    return .nothing
  | .signalActor u sender reason => onActor (scope.find u) fun a => do
    onWorld (·.deliver a.id (scope.find sender) (reason scope))
    return .nothing
  | .forward u sender reason => onActor (scope.find u) fun a => do
    onWorld (·.forward a.id (scope.find sender) (reason scope))
    return .nothing
  | .terminate u reason => onActor (scope.find u) fun a => do
    return .exit (← onWorld (·.terminate a.id (reason scope)))
  | .link u peer => onActor (scope.find u) fun a => do
    return .done (← answer (·.link a.id (scope.find peer)))
  | .linkToActor u peer => onActor (scope.find u) fun a => onActor (scope.find peer) fun b => do
    return .done (← answer (·.link a.id b.id))
  | .recordLink u peer => onActor (scope.find u) fun a => do
    return .done (← answer (·.recordLink a.id (scope.find peer)))
  | .unlink u peer => onActor (scope.find u) fun a =>
    changeWorld (·.unlink a.id (scope.find peer))
  | .isLinked u peer => onActor (scope.find u) fun a =>
    return .flag (a.core.isLinkedTo (scope.find peer))
  | .post u message => onActor (scope.find u) fun a => changeWorld (·.send a.id (message scope))
  | .peek u => onActor (scope.find u) fun a => return .ofResult .message a.core.peek
  | .ensureNoExit u => onActor (scope.find u) fun a => return .done a.core.ensureNoExit
  | .setTrap u value => onActor (scope.find u) fun a => do
    let some flags := a.role.flags? | return .nothing
    modify (·.mapWorld (·.setRole a.id (.process (flags.withTrap value))))
    return .flag flags.traps
  | .setFlags u new => onActor (scope.find u) fun a => do
    let some old := a.role.flags? | return .nothing
    modify (·.mapWorld (·.setRole a.id (.process new)))
    return .flags old new
  | .info u => onActor (scope.find u) fun a => return .info ⟨a.id, a.core.isLive, a.role⟩
  | .spawn none options body failure => do
    launchNew .process body failure (← onWorld (·.spawn none options))
  | .spawn (some parent) options body failure => onActor (scope.find parent) fun a => do
    launchNew .process body failure (← onWorld (·.spawn (some a.id) options))
  | .openPort owner name body failure => onActor (scope.find owner) fun a => do
    launchNew .port body failure (← onWorld (·.openPort a.id name))
  | .remark text => return match text with
    | some text => .remark text
    | none => .nothing
  | .fail interrupt => return .failed (interrupt scope)
  | .raise fault => throw fault

end Node

end Actors
