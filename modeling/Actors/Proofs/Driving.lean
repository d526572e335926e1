import Actors.Node.Drive
import Actors.Proofs.Notice

/-! Driving. A run of a driver alternates its polls with what others do. A poll looks for the exit
and, unless it finds it, goes on with the body; the last poll leaves the body behind, given up or
over, and ends the actor. -/
namespace Actors

/-- The reason that the outcome of a body is for its actor to end: what an interrupt says, or else the
text of what was raised, but for a broken rule. -/
def Progress.reason? {β : Type} : Progress β → Option Exit
  | suspended _ => none
  | returned => some (.atom ⟨"normal"⟩)
  | failed interrupt => some interrupt.reason
  | faulted (.exception e) =>
    if e.group = .systemInvariant then none else some (.term (.string e.text))
  | faulted (.message text) => some (.term (.string text))
  | faulted .other => some (.term (.string "unknown panic"))

theorem Progress.reason?_faulted {β : Type} (fault : Fault) :
    (faulted fault : Progress β).reason?
      = if fault.breaksInvariant then none else some (.term (.string fault.text)) := by
  cases fault with
  | exception e => simp [reason?, Fault.breaksInvariant, Fault.text]
  | message text => rfl
  | other => rfl

namespace Node

variable {β : Type} {resume : β → Node → Progress β × Node} {abandon : β → Node → Node}
  {id : Identity} {exitWait : Option Nat} {body : β} {n : Node} {a : Actor}

def looking (id : Identity) (exitWait : Option Nat) : Action :=
  .operate id (.poll .exit (some id) exitWait)

def looked (n : Node) (id : Identity) (exitWait : Option Nat) : Node :=
  (n.pollCore id (Core.pollExit (some id) exitWait)).2

theorem world_looked (n : Node) (id : Identity) (exitWait : Option Nat) :
    (n.looked id exitWait).world = n.world.act (looking id exitWait) :=
  n.world_pollCore id (Core.pollExit (some id) exitWait)

theorem pollCore_looked (found : n.world.find? id = some a) :
    n.pollCore id (Core.pollExit (some id) exitWait)
      = (some (a.core.pollExit (some id) exitWait).1, n.looked id exitWait) := by
  unfold looked pollCore
  rw [found]

theorem drive_ready (found : n.world.find? id = some a) {reason : Exit}
    (ready : (a.core.pollExit (some id) exitWait).1 = .ready reason) :
    drive resume abandon id exitWait body n
      = settle id reason
        ((abandon body (n.looked id exitWait)).mapWorld (·.emit (.preempted reason))) := by
  unfold drive
  rw [pollCore_looked found, ready]

/-- A poll that ends the body ends the actor with the reason that the outcome gives. -/
theorem drive_outcome (found : n.world.find? id = some a) {ticket : Nat}
    (pending : (a.core.pollExit (some id) exitWait).1 = .pending ticket) {outcome : Progress β}
    {left : Node} (resumed : resume body (n.looked id exitWait) = (outcome, left)) {given : Exit}
    (reasoned : outcome.reason? = some given) :
    drive resume abandon id exitWait body n = settle id given (cancelExitWait id ticket left) := by
  unfold drive
  rw [pollCore_looked found, pending]
  simp only [resumed]
  cases outcome with
  | suspended body => cases reasoned
  | returned =>
    cases reasoned
    rfl
  | failed interrupt =>
    cases reasoned
    rfl
  | faulted fault =>
    rw [Progress.reason?_faulted] at reasoned
    split at reasoned
    · cases reasoned
    · next keeps =>
      cases reasoned
      exact if_neg keeps

theorem settle_ends (id : Identity) (reason : Exit) (n : Node) :
    ∃ exit m, settle id reason n = ((.ended exit : Drive β), m) := by
  unfold settle
  split
  · exact ⟨_, _, rfl⟩
  · exact ⟨_, _, rfl⟩
  · exact ⟨_, _, rfl⟩

/-- A driver that is still suspended has found no exit, and so is its body. -/
theorem drive_suspended (found : n.world.find? id = some a) {ticket : Nat} {next : β} {last : Node}
    (suspended : drive resume abandon id exitWait body n = (.suspended ticket next, last)) :
    (a.core.pollExit (some id) exitWait).1 = .pending ticket ∧
      resume body (n.looked id exitWait) = (.suspended next, last) := by
  have unsettled (reason : Exit) (m : Node)
      (same : settle id reason m = (.suspended ticket next, last)) : False := by
    obtain ⟨exit, m', ends⟩ := @settle_ends β id reason m
    cases ends.symm.trans same
  cases answer : (a.core.pollExit (some id) exitWait).1 with
  | ready reason =>
    rw [drive_ready found answer] at suspended
    exact (unsettled _ _ suspended).elim
  | pending t =>
    unfold drive at suspended
    rw [pollCore_looked found, answer] at suspended
    dsimp only at suspended
    revert suspended
    generalize resume body (n.looked id exitWait) = result
    intro suspended
    obtain ⟨_ | _ | _ | fault, m⟩ := result
    · cases suspended
      exact ⟨rfl, rfl⟩
    · exact (unsettled _ _ suspended).elim
    · exact (unsettled _ _ suspended).elim
    · dsimp only at suspended
      split at suspended
      · cases suspended
      · exact (unsettled _ _ suspended).elim

/-- The driver ends with the reason that was recorded, or else with the given one, and the actor is
done with the same. -/
theorem settled (keyed : n.world.Keyed) (found : n.world.find? id = some a) (given : Exit)
    (calm : ∀ fault v, n.world.terminate id given ≠ .error fault v) :
    ∃ m b, settle id given n
        = ((.ended ((a.core.life.surfaced?).getD given) : Drive β), m) ∧
      m = { n with world := (n.world.terminate id given).world } ∧
      m.world.find? id = some b ∧ b.role = a.role ∧
      b.core.life = .done ((a.core.life.surfaced?).getD given) := by
  have operated := World.operated_terminate keyed found given
  rw [World.operate] at operated
  cases finished : a.core.isDone with
  | true =>
    -- somebody else ended the actor before: the driver reads what was recorded then
    obtain ⟨final, life⟩ := Core.isDone_iff.mp finished
    obtain ⟨v, answered, -⟩ := World.terminate_done found finished given
    have present := operated.found
    rw [answered, Operation.core, Core.finish_done finished] at present
    refine ⟨{ n with world := v }, _, ?_, by rw [answered]; rfl, present, rfl, ?_⟩
    · unfold settle onWorld
      simp only [answered]
      have recorded : v.find? id = _ := present
      simp [recorded, life, Life.reason?, Life.surfaced?]
    · simp [life, Life.surfaced?]
  | false =>
    have final : a.core.finalReason given = (a.core.life.surfaced?).getD given := by
      cases life : a.core.life with
      | done reason => exact absurd (Core.isDone_iff.mpr ⟨reason, life⟩) (by simp [finished])
      | _ => simp [Core.finalReason, life, Life.pending?, Life.surfaced?]
    have present := operated.found
    rw [Operation.core, Core.finish_alive finished] at present
    cases answered : n.world.terminate id given with
    | error fault v => exact absurd answered (calm fault v)
    | ok answer v =>
      have said := answered
      rw [World.terminate_alive keyed found finished] at said
      obtain ⟨rfl, -⟩ := World.concluding_ok_iff.mp said
      rw [answered] at present
      refine ⟨{ n with world := v }, _, ?_, rfl, present, rfl, ?_⟩
      · unfold settle onWorld
        simp only [answered, final]
      · exact congrArg Life.done final

/-- A run of a driver from its launch on: its polls, each with what the body does in it, and in
between what others do. All that is done besides the looks for the exit is of a kind that is
allowed, and the trace tells it. -/
inductive Driven (resume : β → Node → Progress β × Node) (abandon : β → Node → Node)
    (may : Action → Prop) (id : Identity) (first : β) (start : Node) :
    List World.Moment → Option Nat → β → Node → Prop
  | launched : Driven resume abandon may id first start [] none first start
  | meanwhile {trace later : List World.Moment} {exitWait : Option Nat} {body : β} {n m : Node}
      (driven : Driven resume abandon may id first start trace exitWait body n)
      (course : World.Course n.world later m.world) (allowed : ∀ moment ∈ later, may moment.2) :
      Driven resume abandon may id first start (trace ++ later) exitWait body m
  | polled {trace later : List World.Moment} {exitWait : Option Nat} {body next : β}
      {n m : Node} {ticket : Nat}
      (driven : Driven resume abandon may id first start trace exitWait body n)
      (suspended : drive resume abandon id exitWait body n = (.suspended ticket next, m))
      (course : World.Course (n.looked id exitWait).world later m.world)
      (allowed : ∀ moment ∈ later, may moment.2) :
      Driven resume abandon may id first start
        (trace ++ (n.world, looking id exitWait) :: later) (some ticket) next m

theorem course_looked (n : Node) (id : Identity) (exitWait : Option Nat) {later : List World.Moment}
    {w : World} (course : World.Course (n.looked id exitWait).world later w) :
    World.Course n.world ((n.world, looking id exitWait) :: later) w := by
  rw [world_looked] at course
  exact (World.Course.refl.act (looking id exitWait)).trans course

theorem Driven.course {may : Action → Prop} {first : β} {start : Node} {trace : List World.Moment}
    (driven : Driven resume abandon may id first start trace exitWait body n) :
    World.Course start.world trace n.world := by
  induction driven with
  | launched => exact .refl
  | meanwhile driven course allowed ih => exact ih.trans course
  | polled driven suspended course allowed ih => exact ih.trans (course_looked _ _ _ course)

end Node

end Actors
