import Actors.Life

/-! A life on its own, moved by commands and shown after each. -/
namespace Actors.Life

inductive Command
  | start
  | accept (reason : Exit)
  | finish (reason : Exit)
  | reset

inductive Answer
  | nothing
  | acceptance (a : Acceptance)
  | exit (reason : Option Exit)
  | raised (e : Exception)

def perform (life : Life) : Command → Answer × Life
  | .start =>
    match life.start with
    | .ok life => (.nothing, life)
    | .error e => (.raised e, life)
  | .accept reason =>
    match life.accept reason with
    | .ok (a, life) => (.acceptance a, life)
    | .error e => (.raised e, life)
  | .finish reason =>
    let (final, life) := life.finish reason
    (.exit final, life)
  | .reset => (.nothing, .init)

def performAll (life : Life) : List Command → List (Answer × Life)
  | [] => []
  | command :: rest =>
    let (answer, life) := life.perform command
    (answer, life) :: life.performAll rest

end Actors.Life
