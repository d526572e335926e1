import Actors.Identity
import Actors.Text.Layout

/-! Link sets: finite sets of identities, kept in the order of the identities. -/
namespace Actors

/-- That no members are in order, by a name for every empty set to carry. -/
theorem Links.ordered_nil : ([] : List Identity).Pairwise (· < ·) := .nil

structure Links where
  members : List Identity := []
  ordered : members.Pairwise (· < ·) := by exact Links.ordered_nil

namespace Links

instance : Inhabited Links := ⟨{}⟩

instance : DecidableEq Links := fun a b =>
  decidable_of_iff (a.members = b.members) (by cases a; cases b; simp)

def place (i : Identity) : List Identity → List Identity
  | [] => [i]
  | other :: rest =>
    if i = other then other :: rest
    else if i < other then i :: other :: rest
    else other :: place i rest

theorem mem_place {i j : Identity} {members : List Identity} :
    j ∈ place i members ↔ j = i ∨ j ∈ members := by
  induction members with
  | nil => simp [place]
  | cons other rest ih =>
    unfold place
    split
    · next same => subst same; simp
    · split
      · simp
      · simp [ih, or_left_comm]

theorem place_ordered (i : Identity) {members : List Identity}
    (ordered : members.Pairwise (· < ·)) : (place i members).Pairwise (· < ·) := by
  induction members with
  | nil => simp [place]
  | cons other rest ih =>
    have above := (List.pairwise_cons.mp ordered).1
    have tail := (List.pairwise_cons.mp ordered).2
    unfold place
    split
    · exact ordered
    · next different =>
      split
      · next less =>
        refine List.pairwise_cons.mpr ⟨fun j member => ?_, ordered⟩
        rcases List.mem_cons.mp member with same | later
        · exact same ▸ less
        · exact Identity.lt_trans less (above j later)
      · next notLess =>
        refine List.pairwise_cons.mpr ⟨fun j member => ?_, ih tail⟩
        rcases mem_place.mp member with same | later
        · exact same ▸ Identity.lt_of_not_lt_of_ne notLess different
        · exact above j later

def contains (s : Links) (i : Identity) : Bool := s.members.contains i

def insert (s : Links) (i : Identity) : Links := ⟨place i s.members, place_ordered i s.ordered⟩

def erase (s : Links) (i : Identity) : Links :=
  ⟨s.members.filter (· != i), s.ordered.filter _⟩

def size (s : Links) : Nat := s.members.length
def isEmpty (s : Links) : Bool := s.members.isEmpty

def add (s : Links) (i : Identity) : Bool × Links := (!s.contains i, s.insert i)

def remove (s : Links) (i : Identity) : Bool × Links := (s.contains i, s.erase i)

def drain (s : Links) : List Identity × Links := (s.members, {})

@[simp] theorem mem_insert {s : Links} {i j : Identity} :
    j ∈ (s.insert i).members ↔ j = i ∨ j ∈ s.members := mem_place

@[simp] theorem mem_erase {s : Links} {i j : Identity} :
    j ∈ (s.erase i).members ↔ j ∈ s.members ∧ j ≠ i := by
  simp [erase]

def render (layout : Text.Layout) (s : Links) : String :=
  layout.record "LinkSet" [("inner", layout.set (s.members.map Identity.text))]

end Links

end Actors
