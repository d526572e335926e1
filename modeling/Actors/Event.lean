import Actors.Term.Text

/-! Events of the protocol between actors, and the spans in which they happen. Both print as named
fields with texts as values. -/
namespace Actors

inductive Span
  | actor (id : Identity)
  | offer (sender receiver : Identity)
  | termination (id : Identity)
  deriving DecidableEq, Repr, Inhabited

def Span.text : Span → String
  | actor id => "Unit id=" ++ id.text
  | offer sender receiver => "Exit Signal from=" ++ sender.text ++ " to=" ++ receiver.text
  | termination id => "Unit Terminate id=" ++ id.text

inductive Level
  | trace
  | debug
  | info
  deriving DecidableEq, Repr, Inhabited

def Level.name : Level → String
  | trace => "TRACE"
  | debug => "DEBUG"
  | info => "INFO"

inductive Event
  | exitAccepted
  | exitPending
  /-- An exit signal, or a second end, came after the end. -/
  | alreadyDone
  | ownSignal (receiver : Identity)
  | normalIgnored (receiver sender : Identity)
  | trapped (receiver sender : Identity) (reason : Exit)
  | signalToGone (receiver sender : Identity)
  | messageToDone (receiver : Identity)
  | messageToGone (receiver : Identity)
  | linkRefused (asking asked : Identity)
  | terminated (reason : Exit) (links : Nat)
  | linkExit (peer : Identity)
  | processExiting (process sender : Identity) (reason : Exit)
  | portClosing (port : Identity) (name : Atom) (sender : Identity) (reason : Exit)
  | spawned (process : Identity) (parent : Option Identity)
  | portOpened (port : Identity) (name : Atom) (owner : Identity)
  | preempted (reason : Exit)
  deriving Inhabited

namespace Event

def level : Event → Level
  | terminated .. | processExiting .. | portClosing .. | spawned .. | portOpened .. => .debug
  | _ => .trace

private def ignored (why : String) : List (String × String) :=
  [("result", "ignored"), ("reason", why)]

private def dropped (receiver : Identity) (why : String) : List (String × String) :=
  [("to", receiver.text), ("result", "dropped"), ("reason", why)]

def fields : Event → List (String × String)
  | exitAccepted => [("result", "accepted")]
  | exitPending => ignored "pending"
  | alreadyDone => ignored "done"
  | ownSignal receiver => ("to", receiver.text) :: ignored "self"
  | normalIgnored receiver sender =>
    [("to", receiver.text), ("from", sender.text)] ++ ignored "normal"
  | trapped receiver sender reason =>
    [("to", receiver.text), ("from", sender.text), ("reason", reason.text), ("result", "trapped")]
  | signalToGone receiver sender => [("to", receiver.text), ("from", sender.text)] ++ ignored "gone"
  | messageToDone receiver => dropped receiver "done"
  | messageToGone receiver => dropped receiver "gone"
  | linkRefused asking asked =>
    [("from", asking.text), ("to", asked.text), ("result", "noproc")]
  | terminated reason links =>
    [("message", "unit terminated"), ("reason", reason.text), ("links", toString links)]
  | linkExit peer => [("message", "send link exit"), ("to", peer.text)]
  | processExiting process sender reason =>
    [("message", "process exiting"), ("pid", process.text), ("from", sender.text),
      ("reason", reason.text)]
  | portClosing port name sender reason =>
    [("message", "port closing"), ("port", port.text), ("name", name.text), ("from", sender.text),
      ("reason", reason.text)]
  | spawned process parent =>
    [("message", "spawn"), ("pid", process.text)]
      ++ (parent.map fun i => [("from", i.text)]).getD []
  | portOpened port name owner =>
    [("message", "open port"), ("port", port.text), ("name", name.text), ("owner", owner.text)]
  | preempted reason => [("result", "preempted"), ("reason", reason.text)]

end Event

end Actors
