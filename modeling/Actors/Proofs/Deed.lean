import Actors.Proofs.Dealing

/-! Deeds. Work on signals and ends consists of deeds: something is written, or the core of one
actor makes a move. No deed ends an actor, but the actor that is told to end and those that their
own hooks end, which have accepted a signal before. -/
namespace Actors

def Role.endsItself : Role → Bool
  | plain (.terminate _) => true
  | _ => false

namespace Core

inductive Move (leave : Prop) (c : Core) : Core → Prop
  | start (unborn : c.life = .init) : Move leave c { c with life := .running }
  | accept (runs : c.life = .running) (reason : Exit) :
      Move leave c { c with life := .exiting reason }.alert
  | finish (may : leave) (alive : c.isDone = false) (reason : Exit) : Move leave c (c.ended reason)
  | post (alive : c.isDone = false) (message : Term) :
      Move leave c { c with mailbox := c.mailbox.push message }
  | relink (links : Links) : Move leave c { c with links }

/-- Moves in turn. Whether a core may end depends on what it has become by then. -/
def Moves (leave : Core → Prop) : Core → Core → Prop :=
  Relation.ReflTransGen fun c core => Move (leave c) c core

section Leave

variable {leave leave' : Prop} {c core : Core}

theorem Move.id_eq (move : Move leave c core) : core.id = c.id := by
  cases move <;> rfl

theorem Move.mono (move : Move leave c core) (more : leave → leave') : Move leave' c core := by
  cases move with
  | start unborn => exact .start unborn
  | accept runs reason => exact .accept runs reason
  | finish may alive reason => exact .finish (more may) alive reason
  | post alive message => exact .post alive message
  | relink links => exact .relink links

theorem Move.surfaced (move : Move leave c core) {reason : Exit}
    (surfaced : c.life.surfaced? = some reason) : core.life.surfaced? = some reason := by
  cases move with
  | start unborn => simp [unborn, Life.surfaced?] at surfaced
  | accept runs reason => simp [runs, Life.surfaced?] at surfaced
  | finish may alive given =>
    cases life : c.life with
    | exiting first =>
      obtain rfl : first = reason := by simpa [life, Life.surfaced?] using surfaced
      simp [ended, alert, finalReason, life, Life.pending?, Life.surfaced?]
    | done final => exact absurd (isDone_iff.mpr ⟨final, life⟩) (by simp [alive])
    | _ => simp [life, Life.surfaced?] at surfaced
  | post alive message => exact surfaced
  | relink links => exact surfaced

end Leave

namespace Moves

variable {leave leave' : Core → Prop} {c core last : Core}

theorem refl (c : Core) : Moves leave c c := Relation.ReflTransGen.refl

theorem of_move (move : Move (leave c) c core) : Moves leave c core :=
  Relation.ReflTransGen.single move

theorem trans (first : Moves leave c core) (second : Moves leave core last) :
    Moves leave c last :=
  Relation.ReflTransGen.trans first second

theorem mono (moves : Moves leave c core) (more : ∀ c, leave c → leave' c) :
    Moves leave' c core :=
  Relation.ReflTransGen.mono (fun c _ move => move.mono (more c)) _ _ moves

theorem surfaced (moves : Moves leave c core) {reason : Exit}
    (surfaced : c.life.surfaced? = some reason) : core.life.surfaced? = some reason := by
  induction moves with
  | refl => exact surfaced
  | tail earlier move ih => exact move.surfaced ih

end Moves

theorem Suffers.move {leave : Prop} {c : Core} {stroke : Stroke} (suffers : c.Suffers stroke)
    (may : ∀ reason, stroke = .finish reason → leave) : Move leave c (c.struck stroke) := by
  cases stroke with
  | start => exact .start suffers
  | accept sender reason => exact .accept suffers reason
  | finish reason => exact .finish (may reason rfl) suffers reason
  | post message => exact .post suffers message
  | join peer => exact .relink _
  | part peer => exact .relink _

end Core

def Actor.EndsItself (a : Actor) : Prop :=
  a.role.endsItself = true ∧ ∃ first, a.core.life = .exiting first

namespace World

inductive Deed (ends : Actor → Prop) (w : World) : World → Prop
  | write (journal : Journal) : Deed ends w { w with journal }
  | put {a : Actor} {core : Core} (found : w.find? a.id = some a)
      (move : a.core.Move (ends a) core) : Deed ends w (w.putCore a core)

def Deeds (ends : Actor → Prop) : World → World → Prop :=
  Relation.ReflTransGen (Deed ends)

variable {ends : Actor → Prop} {w v u : World}

theorem Deed.keyed (deed : Deed ends w v) (keyed : w.Keyed) : v.Keyed := by
  cases deed with
  | write journal => exact keyed
  | put found move =>
    intro i b present
    rw [find?_putCore] at present
    split at present
    · next same =>
      cases present
      exact move.id_eq.trans same.symm
    · exact keyed present

theorem Deed.actor (deed : Deed ends w v) {i : Identity} {a : Actor} (found : w.find? i = some a) :
    ∃ b, v.find? i = some b ∧ b.role = a.role ∧
      Core.Moves (fun core => core.id = i ∧ ends ⟨core, a.role⟩) a.core b.core := by
  cases deed with
  | write journal => exact ⟨a, found, rfl, .refl _⟩
  | @put b core present move =>
    rw [find?_putCore]
    by_cases same : i = b.id
    · subst same
      cases found.symm.trans present
      exact ⟨_, if_pos rfl, rfl, .of_move (move.mono fun may => ⟨rfl, may⟩)⟩
    · exact ⟨a, by rw [if_neg same, found], rfl, .refl _⟩

namespace Deeds

theorem keyed (deeds : Deeds ends w v) (keyed : w.Keyed) : v.Keyed := by
  induction deeds with
  | refl => exact keyed
  | tail earlier deed ih => exact deed.keyed ih

theorem actor (deeds : Deeds ends w v) {i : Identity} {a : Actor}
    (found : w.find? i = some a) :
    ∃ b, v.find? i = some b ∧ b.role = a.role ∧
      Core.Moves (fun core => core.id = i ∧ ends ⟨core, a.role⟩) a.core b.core := by
  induction deeds with
  | refl => exact ⟨a, found, rfl, .refl _⟩
  | tail earlier deed ih =>
    obtain ⟨b, present, role, moves⟩ := ih
    obtain ⟨c, last, role', more⟩ := deed.actor present
    rw [role] at more
    exact ⟨c, last, role'.trans role, moves.trans more⟩

theorem missing (deeds : Deeds ends w v) {i : Identity} (missing : w.find? i = none) :
    v.find? i = none := by
  induction deeds with
  | refl => exact missing
  | tail earlier deed ih =>
    cases deed with
    | write journal => exact ih
    | @put a core present move =>
      rw [find?_putCore, if_neg, ih]
      rintro rfl
      cases ih.symm.trans present

theorem serial (deeds : Deeds ends w v) : v.serial = w.serial := by
  induction deeds with
  | refl => rfl
  | tail earlier deed ih => cases deed <;> exact ih

end Deeds

theorem Strikes.deeds {may : World → Actor → Stroke → Prop} (strikes : Strikes may w v)
    (leave : ∀ w a reason, may w a (.finish reason) → ends a) : Deeds ends w v := by
  refine Relation.ReflTransGen.mono (fun w v strike => ?_) _ _ strikes
  cases strike with
  | write journal => exact .write journal
  | @strike a stroke found suffers allowed =>
    refine .put found (suffers.move ?_)
    rintro reason rfl
    exact leave w a reason allowed

theorem Strikes.missing {may : World → Actor → Stroke → Prop} (strikes : Strikes may w v)
    {i : Identity} (missing : w.find? i = none) : v.find? i = none :=
  (show Deeds (fun _ => True) w v from strikes.deeds fun _ _ _ _ => trivial).missing missing

theorem Cause.endsItself {traffic : Traffic} {a : Actor} {reason : Exit}
    (cause : Cause traffic w a (.finish reason)) : a.EndsItself := by
  cases cause with
  | ended role exiting => exact ⟨by rw [role]; rfl, _, exiting⟩

theorem deeds_terminate (keyed : w.Keyed) (id : Identity) (reason : Exit) :
    Deeds (fun a => a.id = id ∨ a.EndsItself) w (w.terminate id reason).world := by
  have dealing : (Operation.terminate reason).isDealing = true := rfl
  refine (strikes_operate keyed Traffic.spreads_any dealing (Operation.sends_any _ w id)).deeds
    fun v a last allowed => ?_
  rcases allowed with cause | deals
  · exact .inr cause.endsItself
  · cases deals with
    | terminate _ => exact .inl rfl

theorem deeds_operate (keyed : w.Keyed) (id : Identity) {op : Operation} (idle : op.isWait = false)
    (flagless : ∀ flags, op ≠ .setFlags flags) (endless : ∀ reason, op ≠ .terminate reason) :
    Deeds Actor.EndsItself w (w.operate id op) := by
  have dealing : op.isDealing = true := by
    cases op with
    | setFlags flags => exact absurd rfl (flagless flags)
    | poll errand sleeper ticket => cases idle
    | cancel bell ticket => cases idle
    | _ => rfl
  refine (strikes_operate keyed Traffic.spreads_any dealing (op.sends_any w id)).deeds
    fun v a last allowed => ?_
  rcases allowed with cause | deals
  · exact cause.endsItself
  · cases deals with
    | terminate _ => exact absurd rfl (endless _)

end World

end Actors
