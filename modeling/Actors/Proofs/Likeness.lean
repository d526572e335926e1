import Actors.Term.Copy
import Actors.Term.Equality
import Actors.Term.Text
import Mathlib.Logic.Basic

/-! Likeness. Two terms are equal if they are the same but for the signs of zeros and hold no `NaN`,
at any depth. So equality is a partial equivalence that keeps the types apart, and a term that differs
from itself is one that holds a `NaN`. A term can be read at its own type and at no other. -/
namespace Actors

namespace Binary64

variable {x y : Binary64}

def canon (x : Binary64) : Binary64 := if x.isZero then ⟨0⟩ else x

theorem isNaN_of_isZero (zero : x.isZero = true) : x.isNaN = false := by
  have none : x.magnitude = 0 := by simpa [isZero] using zero
  simp [isNaN, none]

theorem canon_of_isZero (zero : x.isZero = true) : x.canon = ⟨0⟩ := if_pos zero

theorem canon_of_not_isZero (other : x.isZero = false) : x.canon = x := by
  simp [canon, other]

theorem isZero_canon (x : Binary64) : x.canon.isZero = x.isZero := by
  cases zero : x.isZero with
  | true => rw [canon_of_isZero zero]; rfl
  | false => rw [canon_of_not_isZero zero, zero]

theorem isNaN_canon (x : Binary64) : x.canon.isNaN = x.isNaN := by
  cases zero : x.isZero with
  | true => rw [isNaN_of_isZero zero, isNaN_of_isZero ((isZero_canon x).trans zero)]
  | false => rw [canon_of_not_isZero zero]

theorem bits_beq : (x.bits == y.bits) = true ↔ x = y := by
  cases x
  cases y
  simp

theorem beq_iff : (x == y) = true ↔ x.canon = y.canon ∧ x.isNaN = false := by
  have unfolded : (x == y) = true ↔ (x.isNaN = false ∧ y.isNaN = false) ∧
      (x = y ∨ x.isZero = true ∧ y.isZero = true) := by
    change (!x.isNaN && !y.isNaN && (x.bits == y.bits || x.isZero && y.isZero)) = true ↔ _
    simp [← bits_beq]
  rw [unfolded]
  constructor
  · rintro ⟨⟨number, -⟩, rfl | ⟨zero, zero'⟩⟩
    · exact ⟨rfl, number⟩
    · exact ⟨(canon_of_isZero zero).trans (canon_of_isZero zero').symm, number⟩
  · rintro ⟨same, number⟩
    have number' : y.isNaN = false := by rw [← isNaN_canon, ← same, isNaN_canon, number]
    have zeros : x.isZero = y.isZero := by rw [← isZero_canon x, same, isZero_canon]
    refine ⟨⟨number, number'⟩, ?_⟩
    cases zero : x.isZero with
    | true => exact .inr ⟨rfl, zeros.symm.trans zero⟩
    | false =>
      rw [canon_of_not_isZero zero, canon_of_not_isZero (zeros.symm.trans zero)] at same
      exact .inl same

end Binary64

mutual

@[simp]
def Term.floats : Term → List Binary64
  | .float x => [x]
  | .list ts => Term.floatsList ts
  | .option t => Term.floatsOption t
  | .pair a b => a.floats ++ b.floats
  | .term t => t.floats
  | .exit e => e.floats
  | .interrupt _ reason => reason.floats
  | .exitMessage _ reason => reason.floats
  | _ => []

@[simp]
def Term.floatsList : List Term → List Binary64
  | [] => []
  | t :: ts => t.floats ++ Term.floatsList ts

@[simp]
def Term.floatsOption : Option Term → List Binary64
  | none => []
  | some t => t.floats

@[simp]
def Exit.floats : Exit → List Binary64
  | .atom _ => []
  | .term t => t.floats

end

mutual

theorem Term.mapFloats_id : ∀ t : Term, t.mapFloats id = t
  | .list ts => by rw [Term.mapFloats, Term.mapFloatsList_id ts]
  | .option t => by rw [Term.mapFloats, Term.mapFloatsOption_id t]
  | .pair a b => by rw [Term.mapFloats, Term.mapFloats_id a, Term.mapFloats_id b]
  | .term t => by rw [Term.mapFloats, Term.mapFloats_id t]
  | .exit e => by rw [Term.mapFloats, Exit.mapFloats_id e]
  | .interrupt kind reason => by rw [Term.mapFloats, Exit.mapFloats_id reason]
  | .exitMessage sender reason => by rw [Term.mapFloats, Exit.mapFloats_id reason]
  | .unit | .bool _ | .int _ _ | .float _ | .char _ | .str _ | .string _ | .atom _ | .bytes _
  | .identity _ | .phase _ | .reference _ | .handle _ _ => rfl

theorem Term.mapFloatsList_id : ∀ ts : List Term, Term.mapFloatsList id ts = ts
  | [] => rfl
  | t :: ts => by rw [Term.mapFloatsList, Term.mapFloats_id t, Term.mapFloatsList_id ts]

theorem Term.mapFloatsOption_id : ∀ t : Option Term, Term.mapFloatsOption id t = t
  | none => rfl
  | some t => by rw [Term.mapFloatsOption, Term.mapFloats_id t]

theorem Exit.mapFloats_id : ∀ e : Exit, e.mapFloats id = e
  | .atom _ => rfl
  | .term t => by rw [Exit.mapFloats, Term.mapFloats_id t]

end

mutual

theorem Term.floats_mapFloats (f : Binary64 → Binary64) :
    ∀ t : Term, (t.mapFloats f).floats = t.floats.map f
  | .list ts => Term.floatsList_mapFloatsList f ts
  | .option t => Term.floatsOption_mapFloatsOption f t
  | .pair a b => by
    rw [Term.mapFloats, Term.floats, Term.floats, Term.floats_mapFloats f a,
      Term.floats_mapFloats f b, List.map_append]
  | .term t => Term.floats_mapFloats f t
  | .exit e => Exit.floats_mapFloats f e
  | .interrupt _ reason => Exit.floats_mapFloats f reason
  | .exitMessage _ reason => Exit.floats_mapFloats f reason
  | .unit | .bool _ | .int _ _ | .float _ | .char _ | .str _ | .string _ | .atom _ | .bytes _
  | .identity _ | .phase _ | .reference _ | .handle _ _ => rfl

theorem Term.floatsList_mapFloatsList (f : Binary64 → Binary64) :
    ∀ ts : List Term, Term.floatsList (Term.mapFloatsList f ts) = (Term.floatsList ts).map f
  | [] => rfl
  | t :: ts => by
    rw [Term.mapFloatsList, Term.floatsList, Term.floatsList, Term.floats_mapFloats f t,
      Term.floatsList_mapFloatsList f ts, List.map_append]

theorem Term.floatsOption_mapFloatsOption (f : Binary64 → Binary64) :
    ∀ t : Option Term, Term.floatsOption (Term.mapFloatsOption f t) = (Term.floatsOption t).map f
  | none => rfl
  | some t => Term.floats_mapFloats f t

theorem Exit.floats_mapFloats (f : Binary64 → Binary64) :
    ∀ e : Exit, (e.mapFloats f).floats = e.floats.map f
  | .atom _ => rfl
  | .term t => Term.floats_mapFloats f t

end

namespace TermType

theorem type_wrap (type : TermType) (v : type.Carrier) : (type.wrap v).type = type := by
  cases type <;> rfl

end TermType

namespace Term

variable {a b c : Term}

theorem type_mapFloats (f : Binary64 → Binary64) (t : Term) : (t.mapFloats f).type = t.type := by
  cases t <;> rfl

theorem exists_wrap (same : a.type = b.type) : ∃ v, a.type.wrap v = b := by
  rw [same]
  exact ⟨b.value, b.wrap_value⟩

theorem type_of_beq (same : a.beq b = true) : a.type = b.type := by
  revert same
  fun_cases Term.beq a b <;> simp_all [type]

theorem type_of_mapFloats {f : Binary64 → Binary64} (same : a.mapFloats f = b.mapFloats f) :
    a.type = b.type := by
  rw [← type_mapFloats f a, same, type_mapFloats]

def canon (t : Term) : Term := t.mapFloats .canon

def HoldsNaN (t : Term) : Prop := ∃ x ∈ t.floats, x.isNaN = true

theorem not_holdsNaN : ¬a.HoldsNaN ↔ ∀ x ∈ a.floats, x.isNaN = false := by
  simp [HoldsNaN]

end Term

section Equality

open Term

mutual

/-- Two terms are equal if they are the same up to the signs of zeros and no `NaN` is in the first.
-/
theorem Term.beq_iff (a b : Term) : a.beq b = true ↔
    a.mapFloats .canon = b.mapFloats .canon ∧ ∀ x ∈ a.floats, x.isNaN = false := by
  by_cases same : a.type = b.type
  · cases a with
    | float x =>
      obtain ⟨y, rfl⟩ : ∃ y, Term.float y = b := exists_wrap same
      simpa [Term.beq] using Binary64.beq_iff
    | list ts =>
      obtain ⟨us, rfl⟩ : ∃ us, Term.list us = b := exists_wrap same
      simpa [Term.beq] using Term.beqList_iff ts us
    | option t =>
      obtain ⟨u, rfl⟩ : ∃ u, Term.option u = b := exists_wrap same
      simpa [Term.beq] using Term.beqOption_iff t u
    | pair t u =>
      obtain ⟨⟨v, w⟩, rfl⟩ : ∃ p : Term × Term, Term.pair p.1 p.2 = b := exists_wrap same
      simp [Term.beq, Term.beq_iff t v, Term.beq_iff u w, or_imp, forall_and,
        and_and_and_comm]
    | term t =>
      obtain ⟨u, rfl⟩ : ∃ u, Term.term u = b := exists_wrap same
      simpa [Term.beq] using Term.beq_iff t u
    | exit e =>
      obtain ⟨f, rfl⟩ : ∃ f, Term.exit f = b := exists_wrap same
      simpa [Term.beq] using Exit.beq_iff e f
    | interrupt kind e =>
      obtain ⟨⟨kind', f⟩, rfl⟩ : ∃ i : Interrupt, Term.interrupt i.kind i.reason = b :=
        exists_wrap same
      simp [Term.beq, Exit.beq_iff e f, and_assoc]
    | exitMessage sender e =>
      obtain ⟨⟨sender', f⟩, rfl⟩ : ∃ m : Identity × Exit, Term.exitMessage m.1 m.2 = b :=
        exists_wrap same
      simp [Term.beq, Exit.beq_iff e f, and_assoc]
    | _ =>
      -- the other terms have no parts
      cases b <;> cases same
      all_goals simp [Term.beq]
  · exact iff_of_false (fun equal => same (type_of_beq equal))
      fun ⟨equal, _⟩ => same (type_of_mapFloats equal)

theorem Term.beqList_iff (as bs : List Term) : Term.beqList as bs = true ↔
    Term.mapFloatsList .canon as = Term.mapFloatsList .canon bs ∧
      ∀ x ∈ Term.floatsList as, x.isNaN = false := by
  cases as with
  | nil => cases bs <;> simp [beqList]
  | cons a as =>
    cases bs with
    | nil => simp [beqList]
    | cons b bs =>
      simp [beqList, Term.beq_iff a b, Term.beqList_iff as bs, or_imp,
        forall_and, and_and_and_comm]

theorem Term.beqOption_iff (a b : Option Term) : Term.beqOption a b = true ↔
    Term.mapFloatsOption .canon a = Term.mapFloatsOption .canon b ∧
      ∀ x ∈ Term.floatsOption a, x.isNaN = false := by
  cases a with
  | none => cases b <;> simp [beqOption]
  | some t =>
    cases b with
    | none => simp [beqOption]
    | some u => simpa [beqOption] using Term.beq_iff t u

theorem Exit.beq_iff (a b : Exit) : a.beq b = true ↔
    a.mapFloats .canon = b.mapFloats .canon ∧ ∀ x ∈ a.floats, x.isNaN = false := by
  cases a with
  | atom name => cases b <;> simp [Exit.beq]
  | term t =>
    cases b with
    | atom name => simp [Exit.beq]
    | term u => simpa [Exit.beq] using Term.beq_iff t u

end

end Equality

namespace Term

variable {a b c : Term}

/-- Terms are equal if they are the same but for the signs of zeros and no `NaN` is in them. -/
theorem equal_iff : (a == b) = true ↔ a.canon = b.canon ∧ ¬a.HoldsNaN := by
  rw [not_holdsNaN]
  exact Term.beq_iff a b

theorem holdsNaN_canon : a.canon.HoldsNaN ↔ a.HoldsNaN := by
  simp only [HoldsNaN, canon, floats_mapFloats, List.mem_map, exists_exists_and_eq_and,
    Binary64.isNaN_canon]

theorem holdsNaN_congr (same : a.canon = b.canon) : a.HoldsNaN ↔ b.HoldsNaN := by
  rw [← holdsNaN_canon, same, holdsNaN_canon]

theorem equal_symm (equal : (a == b) = true) : (b == a) = true := by
  obtain ⟨same, free⟩ := equal_iff.mp equal
  exact equal_iff.mpr ⟨same.symm, fun held => free ((holdsNaN_congr same).mpr held)⟩

theorem equal_comm (a b : Term) : (a == b) = (b == a) :=
  Bool.eq_iff_iff.mpr ⟨equal_symm, equal_symm⟩

theorem equal_trans (first : (a == b) = true) (second : (b == c) = true) : (a == c) = true := by
  obtain ⟨same, free⟩ := equal_iff.mp first
  obtain ⟨same', -⟩ := equal_iff.mp second
  exact equal_iff.mpr ⟨same.trans same', free⟩

theorem equal_self : (a == a) = true ↔ ¬a.HoldsNaN := by
  rw [equal_iff, and_iff_right rfl]

theorem copy_eq (t : Term) : t.copy = t := t.mapFloats_id

theorem unequal_of_type (different : a.type ≠ b.type) : (a == b) = false :=
  Bool.eq_false_iff.mpr fun equal => different (type_of_beq equal)

/-- One more level makes another term, also where the term inside is of the same type. -/
theorem unequal_nested (t : Term) : (t == .term t) = false := by
  refine Bool.eq_false_iff.mpr fun equal => ?_
  have same : t.canon = .term t.canon := (equal_iff.mp equal).1
  have size := congrArg sizeOf same
  simp at size

theorem unequal_held (name : Atom) : (Exit.atom name == .term (.atom name)) = false := by
  change Exit.beq _ _ = false
  simp [Exit.beq]

theorem read_own (t : Term) :
    t.is t.type = true ∧ t.value? t.type = some t.value ∧ t.downcast t.type = .ok t.value := by
  simp [is, value?, downcast]

theorem read_other {t : Term} {type : TermType} (other : t.type ≠ type) :
    t.is type = false ∧ t.value? type = none ∧ t.downcast type = .error t := by
  simp [is, value?, downcast, other]

/-- Reading a term at a type succeeds exactly if the term holds a value of the type, which is then
what is read; otherwise the term is given back. -/
structure ReadAt (t : Term) (type : TermType) : Prop where
  is_iff : t.is type = true ↔ ∃ v, type.wrap v = t
  lent : (∃ v, t.value? type = some v) ↔ t.is type = true
  taken : (∃ v, t.downcast type = .ok v) ↔ t.is type = true
  whole : ∀ v, t.value? type = some v ∨ t.downcast type = .ok v → type.wrap v = t
  back : ∀ other, t.downcast type = .error other → other = t

theorem readAt (t : Term) (type : TermType) : t.ReadAt type := by
  by_cases same : t.type = type
  · subst same
    obtain ⟨is, value, downcast⟩ := t.read_own
    have held : ∃ v, t.type.wrap v = t := ⟨t.value, t.wrap_value⟩
    refine ⟨iff_of_true is held, iff_of_true ⟨_, value⟩ is, iff_of_true ⟨_, downcast⟩ is, ?_, ?_⟩
    · rintro v (lent | taken)
      · cases value.symm.trans lent
        exact t.wrap_value
      · cases downcast.symm.trans taken
        exact t.wrap_value
    · intro other failed
      cases downcast.symm.trans failed
  · obtain ⟨is, value, downcast⟩ := read_other same
    refine ⟨?_, ?_, ?_, ?_, ?_⟩
    · simp only [is, Bool.false_eq_true, false_iff]
      rintro ⟨v, rfl⟩
      exact same (type.type_wrap v)
    · simp [is, value]
    · simp [is, downcast]
    · rintro v (lent | taken)
      · cases value.symm.trans lent
      · cases downcast.symm.trans taken
    · intro other failed
      cases downcast.symm.trans failed
      rfl

/-- Equality of terms is symmetric and transitive, and a term equals itself and its copy exactly if
no `NaN` is in it, at any depth. It tells types apart that print alike: the texts of both kinds of
storage, a term and one more level around it, an atom and a term that holds it as reasons of an exit.
Exit reasons compare as terms do that hold them. A term can be read at its own type only. -/
theorem terms_compare_by_type (a b c : Term) :
    (a == b) = (b == a) ∧
    ((a == b) = true → (b == c) = true → (a == c) = true) ∧
    ((a == a) = true ↔ ¬a.HoldsNaN) ∧
    ((a == a.copy) = true ↔ ¬a.HoldsNaN) ∧ ((a.copy == a) = true ↔ ¬a.HoldsNaN) ∧
    (a.type ≠ b.type → (a == b) = false) ∧
    (∀ s layout, (Term.str s == .string s) = false ∧
      (Term.str s).render layout = (Term.string s).render layout) ∧
    (∀ layout, (a == .term a) = false ∧ a.render layout = (Term.term a).render layout) ∧
    (∀ name layout, (Exit.atom name == .term (.atom name)) = false ∧
      (Exit.atom name).render layout = (Exit.term (.atom name)).render layout) ∧
    (∀ e f : Exit, (e == f) = (Term.exit e == .exit f)) ∧
    ∀ type, a.ReadAt type := by
  refine ⟨equal_comm a b, equal_trans, equal_self, ?_, ?_, unequal_of_type,
    fun s layout => ⟨unequal_of_type (by simp [type]), rfl⟩, fun layout => ⟨unequal_nested a, rfl⟩,
    fun name layout => ⟨unequal_held name, rfl⟩, fun e f => ?_, a.readAt⟩
  · rw [copy_eq, equal_self]
  · rw [copy_eq, equal_self]
  · change e.beq f = (Term.exit e).beq (.exit f)
    rw [Term.beq]

def owed (zero : Binary64) : Term :=
  .exitMessage (.ofSerial 1 .process) (.term (.list [.option (some (.float zero)), .str "owed"]))

theorem owed_compare :
    let plus : Term := owed ⟨0⟩
    let minus : Term := owed ⟨0x8000000000000000⟩
    let nan : Term := owed ⟨0x7ff8000000000000⟩
    plus ≠ minus ∧ (plus == minus) = true ∧ (minus == plus) = true ∧ (plus == plus) = true ∧
      (nan == nan.copy) = false ∧ (plus == .term plus) = false := by
  intro plus minus nan
  have held : nan.HoldsNaN := ⟨⟨0x7ff8000000000000⟩, by simp [nan, owed], rfl⟩
  have equal : (plus == minus) = true := by decide +kernel
  obtain ⟨comm, trans, -, -, -, -, -, nested, -⟩ := terms_compare_by_type plus minus plus
  obtain ⟨-, -, -, copied, -⟩ := terms_compare_by_type nan nan nan
  have back : (minus == plus) = true := comm.symm.trans equal
  refine ⟨?_, equal, back, trans equal back, ?_, (nested .compact).1⟩
  · simp [plus, minus, owed]
  · exact Bool.eq_false_iff.mpr fun same => copied.mp same held

end Term

end Actors
