import Actors.Life
import Actors.Links
import Actors.Mailbox

/-! The state that every kind of actor has: identity, life, mailbox, links, and the waits for its
exit. Operations here concern one actor alone; they neither send signals nor look at peers. -/
namespace Actors

structure Core where
  id : Identity
  life : Life := .init
  mailbox : Mailbox := {}
  links : Links := {}
  exitWaits : Notifier := {}
  deriving Inhabited

namespace Core

def phase (c : Core) : Phase := c.life.phase
def isLive (c : Core) : Bool := c.phase.isLive
def isDone (c : Core) : Bool := c.phase == .done

def ensureNoExit (c : Core) : Except Interrupt Unit :=
  match c.life.surfaced? with
  | some reason => .error (.exit reason)
  | none => .ok ()

def start (c : Core) : Except Exception Core := c.life.start.map fun life => { c with life }

def alert (c : Core) : Core :=
  { c with mailbox := c.mailbox.wake, exitWaits := c.exitWaits.notify }

/-- Offers an exit signal. Only a signal that is accepted changes anything. -/
def offer (c : Core) (reason : Exit) : Except Exception (Acceptance × Core) :=
  match c.life.accept reason with
  | .error e => .error e
  | .ok (.accepted, life) => .ok (.accepted, { c with life }.alert)
  | .ok (other, _) => .ok (other, c)

/-- Ends the life. The first end answers the final reason and the links, which are then forgotten
with the messages; later ends change nothing. -/
def finish (c : Core) (reason : Exit) : Option (Exit × List Identity) × Core :=
  match c.life.finish reason with
  | (none, _) => (none, c)
  | (some final, life) =>
    let (peers, links) := c.links.drain
    (some (final, peers), { c with life, links, mailbox := c.mailbox.clear }.alert)

def post (c : Core) (message : Term) : Core :=
  if c.isDone then c else { c with mailbox := c.mailbox.push message }

def peek (c : Core) : Except Interrupt (Option Term) :=
  c.ensureNoExit.map fun _ => c.mailbox.peek?

def insertLink (c : Core) (peer : Identity) : Core := { c with links := c.links.insert peer }
def eraseLink (c : Core) (peer : Identity) : Core := { c with links := c.links.erase peer }
def isLinkedTo (c : Core) (peer : Identity) : Bool := c.links.contains peer

def awakened (before after : Core) : List Identity :=
  Notifier.awakened before.mailbox.waits after.mailbox.waits
    ++ Notifier.awakened before.exitWaits after.exitWaits

end Core

end Actors
