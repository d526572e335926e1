import Actors.Identity

/-! Finite maps from identities, kept in the order in which the keys first came. -/
namespace Actors

structure Registry (α : Type) where
  entries : List (Identity × α) := []
  deriving Repr

namespace Registry

variable {α : Type}

instance : Inhabited (Registry α) := ⟨{}⟩

def lookup (i : Identity) : List (Identity × α) → Option α
  | [] => none
  | (other, value) :: rest => if i = other then some value else lookup i rest

/-- The entries with a value for a key: in the place of the old value, or else at the end. -/
def place (i : Identity) (value : α) : List (Identity × α) → List (Identity × α)
  | [] => [(i, value)]
  | (other, old) :: rest =>
    if i = other then (i, value) :: rest else (other, old) :: place i value rest

def find? (r : Registry α) (i : Identity) : Option α := lookup i r.entries

def put (r : Registry α) (i : Identity) (value : α) : Registry α := ⟨place i value r.entries⟩

def keep (r : Registry α) (p : Identity → Bool) : Registry α :=
  ⟨r.entries.filter fun entry => p entry.1⟩

def erase (r : Registry α) (i : Identity) : Registry α := r.keep (· != i)

def keys (r : Registry α) : List Identity := r.entries.map (·.1)
def values (r : Registry α) : List α := r.entries.map (·.2)

theorem lookup_place (i j : Identity) (value : α) (entries : List (Identity × α)) :
    lookup j (place i value entries) = if j = i then some value else lookup j entries := by
  induction entries with
  | nil => rfl
  | cons entry rest ih =>
    obtain ⟨other, old⟩ := entry
    unfold place
    split
    · next same => subst same; simp only [lookup]; split <;> rfl
    · next different =>
      simp only [lookup, ih]
      split <;> split <;> simp_all

theorem find?_put (r : Registry α) (i j : Identity) (value : α) :
    (r.put i value).find? j = if j = i then some value else r.find? j :=
  lookup_place i j value r.entries

@[simp] theorem find?_put_self (r : Registry α) (i : Identity) (value : α) :
    (r.put i value).find? i = some value := by
  simp [find?_put]

theorem find?_put_ne (r : Registry α) {i j : Identity} (value : α) (different : j ≠ i) :
    (r.put i value).find? j = r.find? j := by
  simp [find?_put, different]

theorem lookup_filter (p : Identity → Bool) (i : Identity) (entries : List (Identity × α)) :
    lookup i (entries.filter fun entry => p entry.1) = if p i then lookup i entries else none := by
  induction entries with
  | nil => simp [lookup]
  | cons entry rest ih =>
    obtain ⟨other, value⟩ := entry
    by_cases same : i = other
    · subst same
      by_cases kept : p i = true <;> simp_all [lookup]
    · by_cases kept : p other = true <;> simp_all [lookup]

theorem find?_keep (r : Registry α) (p : Identity → Bool) (i : Identity) :
    (r.keep p).find? i = if p i then r.find? i else none :=
  lookup_filter p i r.entries

end Registry

end Actors
