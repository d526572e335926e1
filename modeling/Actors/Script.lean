import Actors.SpawnOptions
import Actors.World

/-! Scripts: the steps that act on a world of actors, and the bodies of actors, which are lists of
steps too. Steps name actors by index, in the order in which a script came to know them. -/
namespace Actors

inductive Ref
  | index (n : Nat)
  | self
  | heard
  deriving DecidableEq, Repr, Inhabited

structure Entry where
  id : Identity
  kind : Option ActorKind
  deriving DecidableEq, Repr, Inhabited

structure Scope where
  entries : List Entry
  self : Option Identity
  heard : Option Identity
  deriving Repr, Inhabited

namespace Scope

/-- The actor of a name; a name that stands for none gives the identity that nobody has. -/
def find (s : Scope) : Ref → Identity
  | .index n => ((s.entries[n]?).map (·.id)).getD .nobody
  | .self => s.self.getD .nobody
  | .heard => s.heard.getD .nobody

def handle (s : Scope) (ref : Ref) : Term :=
  let id := s.find ref
  match (s.entries.find? (·.id == id)).bind (·.kind) with
  | some kind => .handle kind id
  | none => .reference id

end Scope

/-- A value in which actors are named, to be read in the scope of the step that uses it. -/
abbrev Draft (α : Type) := Scope → α

inductive Blueprint
  | process (flags : Flags)
  | port (name : Atom) (owner : Ref)
  | plain (tag : Tag) (hook : Draft Hook)
  | stub (tag : Tag) (stub : Stub)

mutual

/-- Steps that end without waiting. Those before `start` go through handles, which also lead to
actors that are gone; the others work on the actor itself, which has to be allocated. -/
inductive Step
  | create (what : Blueprint)
  | drop (actor : Ref)
  | send (actor : Ref) (message : Draft Term)
  | signal (actor sender : Ref) (reason : Draft Exit)
  | linkThrough (handle peer : Ref)
  | handleIsLive (handle : Ref)
  | setStub (stub : Ref) (isLive : Bool)
  | compare (left right : Ref)
  | isFinished (actor : Ref)
  | start (actor : Ref)
  | signalActor (actor sender : Ref) (reason : Draft Exit)
  /-- A signal that the actor's role does not screen. -/
  | forward (actor sender : Ref) (reason : Draft Exit)
  | terminate (actor : Ref) (reason : Draft Exit)
  | link (actor peer : Ref)
  /-- As `link`, but the peer itself has to be allocated. -/
  | linkToActor (actor peer : Ref)
  | recordLink (actor peer : Ref)
  | unlink (actor peer : Ref)
  | isLinked (actor peer : Ref)
  | post (actor : Ref) (message : Draft Term)
  | peek (actor : Ref)
  | ensureNoExit (actor : Ref)
  | setTrap (actor : Ref) (value : Bool)
  | setFlags (actor : Ref) (flags : Flags)
  | info (actor : Ref)
  /-- Spawns a process. With a text, the body fails with it before it is there. -/
  | spawn (parent : Option Ref) (options : SpawnOptions) (body : List Line)
    (failure : Option String)
  | openPort (owner : Ref) (name : Atom) (body : List Line) (failure : Option String)
  | remark (text : Option String)
  | fail (interrupt : Draft Interrupt)
  | raise (fault : Fault)

inductive Act
  | step (step : Step)
  | receive
  | wait
  | remove
  | waitFor (limit : Nat)
  | sleep (time : Nat)
  | yield
  | join (actor : Ref)
  | finish (remark : Option String)

/-- A line of a body, with the name that notes give it. A body ends when a line fails, unless the
line is only an attempt. -/
inductive Line
  | mk (label : String) (isAttempt : Bool) (act : Act)

end

namespace Line

def label : Line → String
  | mk label _ _ => label

def isAttempt : Line → Bool
  | mk _ isAttempt _ => isAttempt

def act : Line → Act
  | mk _ _ act => act

end Line

mutual

def Step.work : Step → Nat
  | .spawn _ _ body _ => 2 + Line.totalWork body
  | .openPort _ _ body _ => 2 + Line.totalWork body
  | _ => 1

def Act.work : Act → Nat
  | .step step => step.work
  | _ => 2

def Line.work : Line → Nat
  | .mk _ _ act => act.work

def Line.totalWork : List Line → Nat
  | [] => 1
  | line :: rest => line.work + Line.totalWork rest

end

end Actors
