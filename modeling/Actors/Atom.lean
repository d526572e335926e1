/-! Atoms: symbolic constants that are equal exactly when their texts are. Their order is the order
of code points, which is also the order of their bytes. -/
namespace Actors

structure Atom where
  text : String
  deriving DecidableEq, Repr, Inhabited

namespace Atom

def empty : Atom := ⟨""⟩
def kill : Atom := ⟨"kill"⟩
def killed : Atom := ⟨"killed"⟩
def normal : Atom := ⟨"normal"⟩
def noproc : Atom := ⟨"noproc"⟩
def undefined : Atom := ⟨"undefined"⟩

def isEmpty (a : Atom) : Bool := a.text.isEmpty

def length (a : Atom) : Nat := a.text.length

def size (a : Atom) : Nat := a.text.utf8ByteSize

instance : Ord Atom := ⟨fun a b => compareOfLessAndEq a.text b.text⟩

end Atom

end Actors
