import Actors.Links

/-! A link set on its own, moved by commands, with a spare set to copy it to and from. -/
namespace Actors.Links

inductive Command
  | insert (i : Identity)
  | remove (i : Identity)
  | contains (i : Identity)
  | drain
  | save
  | restore
  | pretty

inductive Answer
  | nothing
  | flag (value : Bool)
  | members (is : List Identity)
  | text (s : String)

structure Session where
  links : Links := {}
  spare : Links := {}

namespace Session

def perform (s : Session) : Command → Answer × Session
  | .insert i =>
    let (isNew, links) := s.links.add i
    (.flag isNew, { s with links })
  | .remove i =>
    let (wasThere, links) := s.links.remove i
    (.flag wasThere, { s with links })
  | .contains i => (.flag (s.links.contains i), s)
  | .drain =>
    let (members, links) := s.links.drain
    (.members members, { s with links })
  | .save => (.nothing, { s with spare := s.links })
  | .restore => (.nothing, { s with links := s.spare })
  | .pretty => (.text (s.links.render .pretty), s)

def performAll (s : Session) : List Command → List (Answer × Links)
  | [] => []
  | command :: rest =>
    let (answer, s) := s.perform command
    (answer, s.links) :: s.performAll rest

end Session

end Actors.Links
