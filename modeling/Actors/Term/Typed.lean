import Actors.Term

/-! Concrete types of terms, and reading a term at a type. -/
namespace Actors

inductive TermType
  | unit | bool | int (type : IntType) | float | char | str | string | atom | bytes | list | option
  | pair | term | exit | interrupt | identity | phase | reference | handle (kind : ActorKind)
  | exitMessage
  deriving DecidableEq, Repr, Inhabited

namespace TermType

def name : TermType → String
  | unit => "unit"
  | bool => "bool"
  | int type => type.name
  | float => "f64"
  | char => "char"
  | str => "str"
  | string => "string"
  | atom => "atom"
  | bytes => "bytes"
  | list => "list"
  | option => "opt"
  | pair => "pair"
  | term => "term"
  | exit => "exit"
  | interrupt => "interrupt"
  | identity => "id"
  | phase => "state"
  | reference => "ref"
  | handle .process => "pid"
  | handle .port => "port_id"
  | handle .plain => "plain_id"
  | exitMessage => "exit_message"

def all : List TermType :=
  [unit, bool, float, char, str, string, atom, bytes, list, option, pair, term, exit, interrupt,
    identity, phase, reference, handle .process, handle .port, handle .plain, exitMessage]
    ++ IntType.all.map int

def ofName? (name : String) : Option TermType := all.find? (·.name == name)

def Carrier : TermType → Type
  | unit => Unit
  | bool => Bool
  | int _ => Int
  | float => Binary64
  | char => Char
  | str | string => String
  | atom => Atom
  | bytes => List UInt8
  | list => List Term
  | option => Option Term
  | pair => Term × Term
  | term => Term
  | exit => Exit
  | interrupt => Interrupt
  | identity | reference | handle _ => Identity
  | phase => Phase
  | exitMessage => Identity × Exit

def wrap : (type : TermType) → type.Carrier → Term
  | unit, _ => .unit
  | bool, v => .bool v
  | int type, v => .int type v
  | float, v => .float v
  | char, v => .char v
  | str, v => .str v
  | string, v => .string v
  | atom, v => .atom v
  | bytes, v => .bytes v
  | list, v => .list v
  | option, v => .option v
  | pair, v => .pair v.1 v.2
  | term, v => .term v
  | exit, v => .exit v
  | interrupt, v => .interrupt v.kind v.reason
  | identity, v => .identity v
  | phase, v => .phase v
  | reference, v => .reference v
  | handle kind, v => .handle kind v
  | exitMessage, v => .exitMessage v.1 v.2

end TermType

namespace Term

def type : Term → TermType
  | .unit => .unit
  | .bool _ => .bool
  | .int type _ => .int type
  | .float _ => .float
  | .char _ => .char
  | .str _ => .str
  | .string _ => .string
  | .atom _ => .atom
  | .bytes _ => .bytes
  | .list _ => .list
  | .option _ => .option
  | .pair _ _ => .pair
  | .term _ => .term
  | .exit _ => .exit
  | .interrupt _ _ => .interrupt
  | .identity _ => .identity
  | .phase _ => .phase
  | .reference _ => .reference
  | .handle kind _ => .handle kind
  | .exitMessage _ _ => .exitMessage

def value : (t : Term) → t.type.Carrier
  | .unit => ()
  | .bool v => v
  | .int _ v => v
  | .float v => v
  | .char v => v
  | .str v => v
  | .string v => v
  | .atom v => v
  | .bytes v => v
  | .list v => v
  | .option v => v
  | .pair a b => (a, b)
  | .term v => v
  | .exit v => v
  | .interrupt kind reason => ⟨kind, reason⟩
  | .identity v => v
  | .phase v => v
  | .reference v => v
  | .handle _ v => v
  | .exitMessage sender reason => (sender, reason)

def is (t : Term) (type : TermType) : Bool := t.type == type

def value? (t : Term) (type : TermType) : Option type.Carrier :=
  if h : t.type = type then some (h ▸ t.value) else none

/-- The value of a term at a type, or else the term again. -/
def downcast (t : Term) (type : TermType) : Except Term type.Carrier :=
  if h : t.type = type then .ok (h ▸ t.value) else .error t

theorem wrap_value (t : Term) : t.type.wrap t.value = t := by
  cases t <;> rfl

end Term

end Actors
