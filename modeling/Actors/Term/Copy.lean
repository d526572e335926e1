import Actors.Term

/-! Copies of terms. A copy has copies of all that the term holds, at any depth. On the way the
floating point numbers may be replaced, so that a copy can also show what is left of a term when its
numbers do not count. -/
namespace Actors

mutual

@[simp]
def Term.mapFloats (f : Binary64 → Binary64) : Term → Term
  | .float x => .float (f x)
  | .list ts => .list (Term.mapFloatsList f ts)
  | .option t => .option (Term.mapFloatsOption f t)
  | .pair a b => .pair (a.mapFloats f) (b.mapFloats f)
  | .term t => .term (t.mapFloats f)
  | .exit e => .exit (e.mapFloats f)
  | .interrupt kind reason => .interrupt kind (reason.mapFloats f)
  | .exitMessage sender reason => .exitMessage sender (reason.mapFloats f)
  | t => t

@[simp]
def Term.mapFloatsList (f : Binary64 → Binary64) : List Term → List Term
  | [] => []
  | t :: ts => t.mapFloats f :: Term.mapFloatsList f ts

@[simp]
def Term.mapFloatsOption (f : Binary64 → Binary64) : Option Term → Option Term
  | none => none
  | some t => some (t.mapFloats f)

@[simp]
def Exit.mapFloats (f : Binary64 → Binary64) : Exit → Exit
  | .atom a => .atom a
  | .term t => .term (t.mapFloats f)

end

def Term.copy (t : Term) : Term := t.mapFloats id

def Exit.copy (e : Exit) : Exit := e.mapFloats id

end Actors
