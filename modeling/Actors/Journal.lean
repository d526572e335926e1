import Actors.Event
import Actors.Reply

/-! The journal of a world: its events with the spans around them, and the notes that hooks, stubs
and bodies leave. -/
namespace Actors

structure Record where
  spans : List Span
  event : Event
  deriving Inhabited

inductive Note
  /-- A plain actor accepted an exit signal; its phase when its hook began. -/
  | hook (sender : Identity) (reason : Exit) (phase : Phase)
  | hookTerminated (reason : Option Exit)
  | stubSend (message : Term)
  | stubSignal (sender : Identity) (reason : Exit)
  | stubLink (peer : Identity)
  | step (label : String) (reply : Reply)
  | dropped
  /-- A body was left by a fault. -/
  | unwound
  deriving Inhabited

structure Journal where
  spans : List Span := []
  records : List Record := []
  notes : List (Identity × Note) := []
  deriving Inhabited

namespace Journal

def emit (j : Journal) (event : Event) : Journal :=
  { j with records := j.records ++ [⟨j.spans, event⟩] }

def note (j : Journal) (id : Identity) (note : Note) : Journal :=
  { j with notes := j.notes ++ [(id, note)] }

def enter (j : Journal) (span : Span) : Journal := { j with spans := j.spans ++ [span] }

def cleared (j : Journal) : Journal := { spans := j.spans }

end Journal

end Actors
