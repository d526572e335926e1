import Actors.Binary64
import Actors.Exception
import Actors.Identity
import Actors.Phase

/-! Terms and exit reasons. A term is a value together with its concrete type; an exit reason is an
atom or a term. Two types may print alike, as texts of static and of dynamic storage do, and are
distinct all the same. -/
namespace Actors

inductive IntType
  | i8 | i16 | i32 | i64 | i128 | u8 | u16 | u32 | u64 | u128
  deriving DecidableEq, Repr, Inhabited

namespace IntType

def name : IntType → String
  | i8 => "i8" | i16 => "i16" | i32 => "i32" | i64 => "i64" | i128 => "i128"
  | u8 => "u8" | u16 => "u16" | u32 => "u32" | u64 => "u64" | u128 => "u128"

def all : List IntType := [i8, i16, i32, i64, i128, u8, u16, u32, u64, u128]

end IntType

inductive ActorKind
  | process
  | port
  | plain
  deriving DecidableEq, Repr, Inhabited

mutual

inductive Term
  | unit
  | bool (value : Bool)
  | int (type : IntType) (value : Int)
  | float (value : Binary64)
  | char (value : Char)
  /-- A text of static storage. -/
  | str (value : String)
  /-- A text that owns its storage. -/
  | string (value : String)
  | atom (value : Atom)
  | bytes (value : List UInt8)
  | list (value : List Term)
  | option (value : Option Term)
  | pair (first second : Term)
  /-- A term as the value of a term: one more level, and not the term inside. -/
  | term (value : Term)
  | exit (value : Exit)
  | interrupt (kind : ExceptionClass) (reason : Exit)
  | identity (value : Identity)
  | phase (value : Phase)
  /-- A handle of any kind, its kind forgotten. -/
  | reference (value : Identity)
  | handle (kind : ActorKind) (value : Identity)
  | exitMessage (sender : Identity) (reason : Exit)

inductive Exit
  | atom (value : Atom)
  | term (value : Term)

end

instance : Inhabited Term := ⟨.unit⟩
instance : Inhabited Exit := ⟨.atom .normal⟩

namespace Exit

def normal : Exit := .atom .normal
def kill : Exit := .atom .kill
def killed : Exit := .atom .killed
def noproc : Exit := .atom .noproc

def isAtom (e : Exit) (a : Atom) : Bool :=
  match e with
  | .atom b => b == a
  | .term _ => false

def isNormal (e : Exit) : Bool := e.isAtom .normal
def isKill (e : Exit) : Bool := e.isAtom .kill
def isKilled (e : Exit) : Bool := e.isAtom .killed
def isNoproc (e : Exit) : Bool := e.isAtom .noproc

end Exit

structure Interrupt where
  kind : ExceptionClass
  reason : Exit
  deriving Inhabited

namespace Interrupt

def error (reason : Exit) : Interrupt := ⟨.error, reason⟩
def exit (reason : Exit) : Interrupt := ⟨.exit, reason⟩

def noproc : Interrupt := error .noproc

def isError (i : Interrupt) : Bool := i.kind == .error
def isExit (i : Interrupt) : Bool := i.kind == .exit
def isNoproc (i : Interrupt) : Bool := i.reason.isNoproc

end Interrupt

def Fault.exit (f : Fault) : Exit := .term (.string f.text)

/-- The actor that a message lets its reader address: the handle it is, or the sender of an exit. -/
def Term.addressee? : Term → Option Identity
  | .reference i => some i
  | .handle _ i => some i
  | .exitMessage sender _ => some sender
  | _ => none

end Actors
