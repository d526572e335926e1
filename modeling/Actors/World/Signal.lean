import Actors.World

/-! Exit signals and terminations. A signal is screened by the receiver's role and then offered to
its core; the one that is accepted makes the receiver react. An actor that terminates signals its
final reason to its links in the order of their identities. -/
namespace Actors.World

abbrev Reaction := Identity → Identity → Exit → World → Outcome Unit

def send (w : World) (receiver : Identity) (message : Term) : World :=
  match w.find? receiver with
  | some a =>
    if a.core.isDone then w.emit (.messageToDone receiver)
    else w.changeCore receiver (·.post message)
  | none =>
    if (w.stubs.find? receiver).isSome then w.note receiver (.stubSend message)
    else w.emit (.messageToGone receiver)

def offer (w : World) (id sender : Identity) (reason : Exit) : Outcome Bool :=
  w.within (.offer sender id) fun w =>
    match w.find? id with
    | none => .ok false w
    | some a =>
      match a.core.offer reason with
      | .error e => .error (.exception e) w
      | .ok (.accepted, core) => .ok true ((w.emit .exitAccepted).putCore a core)
      | .ok (.pending, _) => .ok false (w.emit .exitPending)
      | .ok (.done, _) => .ok false (w.emit .alreadyDone)

/-- The common protocol: an actor's own signals are ignored, the others are offered to its core. -/
def forwardWith (react : Reaction) (w : World) (id sender : Identity) (reason : Exit) :
    Outcome Unit :=
  if sender = id then .ok () (w.emit (.ownSignal id))
  else
    match w.offer id sender reason with
    | .error fault w => .error fault w
    | .ok true w => react id sender reason w
    | .ok false w => .ok () w

def signalWith (react : Reaction) (w : World) (a : Actor) (sender : Identity) (reason : Exit) :
    Outcome Unit :=
  match a.screen sender reason with
  | .ignoreSelf => .ok () (w.emit (.ownSignal a.id))
  | .ignoreNormal => .ok () (w.emit (.normalIgnored a.id sender))
  | .trap reason =>
    .ok () ((w.emit (.trapped a.id sender reason)).send a.id (.exitMessage sender reason))
  | .forward reason => forwardWith react w a.id sender reason

def deliverWith (react : Reaction) (w : World) (receiver sender : Identity) (reason : Exit) :
    Outcome Unit :=
  match w.find? receiver with
  | some a => signalWith react w a sender reason
  | none =>
    if (w.stubs.find? receiver).isSome then .ok () (w.note receiver (.stubSignal sender reason))
    else .ok () (w.emit (.signalToGone receiver sender))

/-- Signals to the peers in turn. A fault keeps the later peers from their signals. -/
def broadcastWith (react : Reaction) (sender : Identity) (reason : Exit) :
    List Identity → World → Outcome Unit
  | [], w => .ok () w
  | peer :: rest, w =>
    match deliverWith react (w.emit (.linkExit peer)) peer sender reason with
    | .error fault w => .error fault w
    | .ok () w => broadcastWith react sender reason rest w

def finishWith (react : Reaction) (w : World) (id : Identity) (reason : Exit) :
    Outcome (Option Exit) :=
  w.within (.termination id) fun w =>
    match w.find? id with
    | none => .ok none w
    | some a =>
      match a.core.finish reason with
      | (none, _) => .ok none (w.emit .alreadyDone)
      | (some (final, peers), core) =>
        let w := (w.putCore a core).emit (.terminated final peers.length)
        match broadcastWith react id final peers w with
        | .error fault w => .error fault w
        | .ok () w => .ok (some final) w

def runHook (react : Reaction) (hook : Hook) : Reaction := fun id sender reason w =>
  let phase := ((w.find? id).map (·.core.phase)).getD .done
  let w := w.note id (.hook sender reason phase)
  match hook with
  | .record => .ok () w
  | .terminate reason =>
    match finishWith react w id reason with
    | .error fault w => .error fault w
    | .ok final w => .ok () (w.note id (.hookTerminated final))
  | .reply reason => deliverWith react w sender id reason
  | .send => .ok () (w.send sender (.str "bye"))
  | .unlink => .ok () (w.changeCore id (·.eraseLink sender))
  | .raise => .error (.exception ⟨.error, .badArgument, "hook"⟩) w

/-- The reaction of an actor in its role, `depth` reactions deep. Each reaction to a signal uses up
a running actor, so as many as there are running actors are enough. -/
def react : (depth : Nat) → Reaction
  | depth, id, sender, reason, w =>
    match w.find? id with
    | none => .ok () w
    | some a =>
      match a.role, depth with
      | .process _, _ => .ok () (w.emit (.processExiting id sender reason))
      | .port name _, _ => .ok () (w.emit (.portClosing id name sender reason))
      | .plain _, 0 => .ok () w
      | .plain hook, depth + 1 => runHook (react depth) hook id sender reason w

def reaction (w : World) : Reaction := react w.running

def deliver (w : World) (receiver sender : Identity) (reason : Exit) : Outcome Unit :=
  deliverWith w.reaction w receiver sender reason

def forward (w : World) (id sender : Identity) (reason : Exit) : Outcome Unit :=
  forwardWith w.reaction w id sender reason

def terminate (w : World) (id : Identity) (reason : Exit) : Outcome (Option Exit) :=
  finishWith w.reaction w id reason

def start (w : World) (id : Identity) : Outcome Unit :=
  match w.find? id with
  | none => .ok () w
  | some a =>
    match a.core.start with
    | .error e => .error (.exception e) w
    | .ok core => .ok () (w.putCore a core)

end Actors.World
