import Actors.Term

/-! Equality of terms. Two terms are equal when they have the same concrete type and equal values of
it; numbers compare numerically, so a term that holds a `NaN` at any depth differs from itself. -/
namespace Actors

mutual

def Term.beq : Term → Term → Bool
  | .unit, .unit => true
  | .bool a, .bool b => a == b
  | .int s a, .int t b => s == t && a == b
  | .float a, .float b => a == b
  | .char a, .char b => a == b
  | .str a, .str b => a == b
  | .string a, .string b => a == b
  | .atom a, .atom b => a == b
  | .bytes a, .bytes b => a == b
  | .list a, .list b => Term.beqList a b
  | .option a, .option b => Term.beqOption a b
  | .pair a c, .pair b d => a.beq b && c.beq d
  | .term a, .term b => a.beq b
  | .exit a, .exit b => a.beq b
  | .interrupt j a, .interrupt k b => j == k && a.beq b
  | .identity a, .identity b => a == b
  | .phase a, .phase b => a == b
  | .reference a, .reference b => a == b
  | .handle j a, .handle k b => j == k && a == b
  | .exitMessage i a, .exitMessage j b => i == j && a.beq b
  | _, _ => false

def Term.beqList : List Term → List Term → Bool
  | [], [] => true
  | a :: as, b :: bs => a.beq b && Term.beqList as bs
  | _, _ => false

def Term.beqOption : Option Term → Option Term → Bool
  | none, none => true
  | some a, some b => a.beq b
  | _, _ => false

/-- An atom is never equal to a term, even a term that holds the same atom. -/
def Exit.beq : Exit → Exit → Bool
  | .atom a, .atom b => a == b
  | .term a, .term b => a.beq b
  | _, _ => false

end

instance : BEq Term := ⟨Term.beq⟩
instance : BEq Exit := ⟨Exit.beq⟩
instance : BEq Interrupt := ⟨fun a b => a.kind == b.kind && a.reason == b.reason⟩

end Actors
