import Actors.Flags
import Actors.Text.Layout

/-! Options for new processes. -/
namespace Actors

structure SpawnOptions where
  link : Bool := false
  trap : Bool := false
  deriving DecidableEq, Repr, Inhabited

namespace SpawnOptions

def linked : SpawnOptions := { link := true }

def flags (o : SpawnOptions) : Flags := Flags.empty.withTrap o.trap

def text (o : SpawnOptions) : String :=
  Text.Layout.compact.record "SpawnConfig"
    [("link", toString o.link), ("trap_exit", toString o.trap)]

end SpawnOptions

end Actors
