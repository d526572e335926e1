import Actors.SpawnOptions
import Actors.World.Link

/-! Creation of started actors. One that is to be linked and finds its parent dead ends with
`noproc` at once, before anyone can have seen it. -/
namespace Actors.World

def allocateStarted (w : World) (tag : Tag) (role : Role) : Outcome Identity :=
  match w.issue (·.allocate tag role) with
  | .error fault w => .error fault w
  | .ok id w =>
    match w.start id with
    | .error fault w => .error fault w
    | .ok () w => .ok id w

/-- Links a parent and its new child, or else ends the child with the reason of the failure. -/
def adopt (w : World) (parent child : Identity) : Outcome (Except Interrupt Unit) :=
  match w.link parent child with
  | (.ok (), w) => .ok (.ok ()) w
  | (.error interrupt, w) =>
    match w.terminate child interrupt.reason with
    | .error fault w => .error fault w
    | .ok _ w => .ok (.error interrupt) w

def spawn (w : World) (parent : Option Identity) (options : SpawnOptions) :
    Outcome (Except Interrupt Identity) :=
  match w.allocateStarted .process (.process options.flags) with
  | .error fault w => .error fault w
  | .ok id w =>
    if options.link then
      match parent with
      | none => .error (.exception (.invariant "link without parent")) w
      | some parent =>
        match w.adopt parent id with
        | .error fault w => .error fault w
        | .ok (.error interrupt) w => .ok (.error interrupt) w
        | .ok (.ok ()) w => .ok (.ok id) (w.emit (.spawned id (some parent)))
    else .ok (.ok id) (w.emit (.spawned id parent))

def openPort (w : World) (owner : Identity) (name : Atom) : Outcome (Except Interrupt Identity) :=
  match w.allocateStarted .port (.port name owner) with
  | .error fault w => .error fault w
  | .ok id w =>
    match w.adopt owner id with
    | .error fault w => .error fault w
    | .ok (.error interrupt) w => .ok (.error interrupt) w
    | .ok (.ok ()) w => .ok (.ok id) (w.emit (.portOpened id name owner))

end Actors.World
