/-! Flags of a process: a word of 32 bits of which one has a meaning. -/
namespace Actors

structure Flags where
  bits : UInt32
  deriving DecidableEq, Repr, Inhabited

namespace Flags

def empty : Flags := ⟨0⟩

def trap : Flags := ⟨2⟩

def traps (f : Flags) : Bool := f.bits &&& trap.bits != 0

def withTrap (f : Flags) (value : Bool) : Flags :=
  if value then ⟨f.bits ||| trap.bits⟩ else ⟨f.bits &&& ~~~trap.bits⟩

/-- The named flag, then the other bits together in hexadecimal. -/
def text (f : Flags) : String :=
  let others := (f.withTrap false).bits
  let hex := "0x" ++ String.ofList (Nat.toDigits 16 others.toNat)
  let parts := (if f.traps then ["TRAP_EXIT"] else [])
    ++ (if others != 0 || !f.traps then [hex] else [])
  "ProcessFlags(" ++ String.intercalate " | " parts ++ ")"

end Flags

end Actors
