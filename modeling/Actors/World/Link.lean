import Actors.World.Signal

/-! Links between actors. A link is recorded on each side on its own, so the second half of a link
may fail after the first was recorded. -/
namespace Actors.World

/-- Records a peer in an actor's links. The actor itself is never recorded; a peer that is not live,
and any peer once the actor is done, is refused. -/
def recordLink (w : World) (id peer : Identity) : Except Interrupt Unit × World :=
  if peer = id then (.ok (), w)
  else if !w.isLive peer then (.error .noproc, w.emit (.linkRefused id peer))
  else
    match w.find? id with
    | none => (.error .noproc, w)
    | some a =>
      if a.core.isDone then (.error .noproc, w.emit (.linkRefused peer id))
      else (.ok (), w.changeCore id (·.insertLink peer))

def linkThrough (w : World) (handle peer : Identity) : Except Interrupt Unit × World :=
  if w.isAllocated handle then w.recordLink handle peer
  else
    match w.stubs.find? handle with
    | none => (.error .noproc, w)
    | some stub =>
      (if stub.refuses then .error .noproc else .ok (), w.note handle (.stubLink peer))

/-- Links an actor and a peer to each other, its own side first. -/
def link (w : World) (id peer : Identity) : Except Interrupt Unit × World :=
  match w.recordLink id peer with
  | (.error interrupt, w) => (.error interrupt, w)
  | (.ok (), w) => w.linkThrough peer id

def unlink (w : World) (id peer : Identity) : World := w.changeCore id (·.eraseLink peer)

end Actors.World
