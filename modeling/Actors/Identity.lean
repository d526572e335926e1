/-! Identities of actors. An identity is a word of 64 bits: an allocation serial above a four bit
tag. Serials grow, so the order of the words is the order of allocation whatever the tags. -/
namespace Actors

inductive Tag
  | process
  | port
  deriving DecidableEq, Repr, Inhabited

namespace Tag

def bits : Tag → UInt64
  | process => 3
  | port => 7

def name : Tag → String
  | process => "Process"
  | port => "Port"

end Tag

structure Identity where
  bits : UInt64
  deriving DecidableEq, Repr, Inhabited

namespace Identity

def tagBits : Nat := 4
def tagMask : UInt64 := 15
def maxSerial : Nat := Nat.pow 2 60 - 1

instance : LT Identity := ⟨fun a b => a.bits < b.bits⟩
instance : LE Identity := ⟨fun a b => a.bits ≤ b.bits⟩
instance (a b : Identity) : Decidable (a < b) := inferInstanceAs (Decidable (a.bits < b.bits))
instance (a b : Identity) : Decidable (a ≤ b) := inferInstanceAs (Decidable (a.bits ≤ b.bits))
instance : Ord Identity := ⟨fun a b => compareOfLessAndEq a b⟩

/-- The identity that no allocation gives out, since serials start at one. -/
def nobody : Identity := ⟨0⟩

/-- The identity with a given serial and tag; faithful for serials up to `maxSerial`. -/
def ofSerial (serial : Nat) (tag : Tag) : Identity :=
  ⟨(UInt64.ofNat serial <<< 4) ||| tag.bits⟩

def serial (i : Identity) : UInt64 := i.bits >>> 4

def tag (i : Identity) : Tag := if i.bits &&& tagMask = Tag.port.bits then .port else .process

def isProcess (i : Identity) : Bool := i.tag == .process
def isPort (i : Identity) : Bool := i.tag == .port

def text (i : Identity) : String :=
  match i.tag with
  | .process => "#PID<0." ++ toString i.serial.toNat ++ ".0>"
  | .port => "#Port<0." ++ toString i.serial.toNat ++ ">"

theorem lt_irrefl (a : Identity) : ¬a < a := UInt64.lt_irrefl a.bits

theorem lt_trans {a b c : Identity} (ab : a < b) (bc : b < c) : a < c := UInt64.lt_trans ab bc

theorem lt_of_not_lt_of_ne {a b : Identity} (notLess : ¬a < b) (different : a ≠ b) : b < a := by
  apply UInt64.lt_of_le_of_ne (UInt64.not_lt.mp notLess)
  intro equal
  exact different (by cases a; cases b; simp_all)

end Identity

end Actors
