import Actors.Atom

/-! Exceptions: faults that are raised, not returned. Each belongs to a class and to a group that
names its cause. A fault escaping a step is an exception or any other payload. -/
namespace Actors

inductive ExceptionClass
  | error
  | exit
  deriving DecidableEq, Repr, Inhabited

namespace ExceptionClass

def name : ExceptionClass → String
  | error => "error"
  | exit => "exit"

def label : ExceptionClass → String
  | error => "Error"
  | exit => "Exit"

end ExceptionClass

inductive ExceptionGroup
  | badArgument
  | systemLimit
  | systemInvariant
  deriving DecidableEq, Repr, Inhabited

namespace ExceptionGroup

def name : ExceptionGroup → String
  | badArgument => "badarg"
  | systemLimit => "syscap"
  | systemInvariant => "sysinv"

def label : ExceptionGroup → String
  | badArgument => "BadArg"
  | systemLimit => "SysCap"
  | systemInvariant => "SysInv"

def text : ExceptionGroup → String
  | badArgument => "(BadArg) errors were found with the given argument(s)"
  | systemLimit => "(SysCap) a system limit has been reached"
  | systemInvariant => "(SysInv) a system invariant has been broken"

end ExceptionGroup

structure Exception where
  kind : ExceptionClass
  group : ExceptionGroup
  message : String
  deriving DecidableEq, Repr, Inhabited

namespace Exception

def text (e : Exception) : String :=
  e.kind.name ++ ":" ++ e.group.name ++ " - " ++ e.message

def invariant (message : String) : Exception := ⟨.error, .systemInvariant, message⟩

def exhausted : Exception := ⟨.error, .systemLimit, "unit identity space exhausted"⟩

end Exception

inductive Fault
  | exception (e : Exception)
  | message (text : String)
  | other
  deriving DecidableEq, Repr, Inhabited

namespace Fault

def exception? : Fault → Option Exception
  | exception e => some e
  | _ => none

def text : Fault → String
  | exception e => e.text
  | message text => text
  | other => "unknown panic"

def breaksInvariant : Fault → Bool
  | exception e => e.group == .systemInvariant
  | _ => false

end Fault

end Actors
