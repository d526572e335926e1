/-! Phases of an actor's life, in the order in which it passes through them. -/
namespace Actors

inductive Phase
  | init
  | running
  | exiting
  | done
  deriving DecidableEq, Repr, Inhabited

namespace Phase

def name : Phase → String
  | init => "init"
  | running => "running"
  | exiting => "exit_sig"
  | done => "done"

def rank : Phase → Nat
  | init => 0
  | running => 1
  | exiting => 2
  | done => 3

instance : LT Phase := ⟨fun a b => a.rank < b.rank⟩
instance : LE Phase := ⟨fun a b => a.rank ≤ b.rank⟩
instance (a b : Phase) : Decidable (a < b) := inferInstanceAs (Decidable (a.rank < b.rank))
instance (a b : Phase) : Decidable (a ≤ b) := inferInstanceAs (Decidable (a.rank ≤ b.rank))
instance : Ord Phase := ⟨fun a b => compare a.rank b.rank⟩

def isLive : Phase → Bool
  | init | running => true
  | exiting | done => false

end Phase

end Actors
