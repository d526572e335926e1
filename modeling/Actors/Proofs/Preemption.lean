import Actors.Proofs.Driving

/-! Preemption. Where nobody but the driver waits for the exit of an actor, the driver holds a
notification or has not been suspended yet as soon as an exit is recorded. Its next poll then gives
the body up and ends the actor. -/
namespace Actors

def Action.intrudes (id : Identity) : Action → Bool
  | operate other (.poll .exit _ _) | operate other (.cancel .exit _) | free other => other == id
  | _ => false

namespace Core

variable {c core : Core} {b : Bell} {exitWait : Option Nat}

structure Attended (exitWait : Option Nat) (c : Core) : Prop where
  alone : c.exitWaits.outstanding.map (·.ticket) = exitWait.toList
  told : c.life.surfaced? ≠ none → c.exitWaits.waiting = []

theorem Attended.length_le (attended : c.Attended exitWait) :
    c.exitWaits.outstanding.length ≤ 1 := by
  rw [← List.length_map (·.ticket), attended.alone]
  cases exitWait <;> simp

theorem Move.outstanding {leave : Prop} (move : Move leave c core) (b : Bell) :
    (core.bell b).outstanding = (c.bell b).outstanding := by
  rcases move.bell b with same | rung
  · rw [same]
  · rw [rung, Notifier.outstanding_notify]

theorem Moves.outstanding {leave : Core → Prop} (moves : Moves leave c core) (b : Bell) :
    (core.bell b).outstanding = (c.bell b).outstanding := by
  induction moves with
  | refl => rfl
  | tail earlier move ih => exact (move.outstanding b).trans ih

/-- The next poll of an attended wait sees the exit. -/
theorem Attended.ready (attended : c.Attended exitWait) {reason : Exit}
    (surfaced : c.life.surfaced? = some reason) (sleeper : Option Identity) :
    (c.pollExit sleeper exitWait).1 = .ready reason := by
  cases exitWait with
  | none => simp [pollExit, poll, rounds, round, lookExit, surfaced]
  | some ticket =>
    have told : c.exitWaits.isNotified ticket = true := by
      have alone := attended.alone
      rw [Notifier.outstanding, attended.told (by simp [surfaced]), List.append_nil] at alone
      have member : ticket ∈ c.exitWaits.notified.map (·.ticket) := by simp [alone]
      exact Notifier.isNotified_iff.mpr (List.mem_map.mp member)
    have sees : lookExit (c.woken .exit (some ticket))
        = some (reason, c.woken .exit (some ticket)) := by
      rw [lookExit, woken, life_setBell, surfaced]
      rfl
    exact poll_seen (b := .exit) told sees sleeper

theorem Attended.suspended (attended : c.Attended exitWait) (discreet : c.Discreet)
    {sleeper : Option Identity} {ticket : Nat}
    (pending : (c.pollExit sleeper exitWait).1 = .pending ticket) :
    (c.pollExit sleeper exitWait).2.Attended (some ticket) := by
  have polled := poll_polled watches_lookExit (b := .exit) sleeper exitWait c
  unfold pollExit at pending ⊢
  revert polled pending
  generalize poll .exit lookExit sleeper exitWait c = result
  obtain ⟨answer, last⟩ := result
  intro pending polled
  have pending : answer = .pending ticket := pending
  subst pending
  cases polled with
  | unnotified silent => exact attended
  | suspended nothing told =>
    -- nobody is told before there is an exit, so only a wait without a ticket gets here
    obtain ⟨permit, silent⟩ := discreet nothing
    have fresh : exitWait = none := by
      cases exitWait with
      | none => rfl
      | some t =>
        have holds := told t rfl
        simp [Notifier.isNotified, bell, silent] at holds
    subst fresh
    have none : c.exitWaits.waiting = [] := by
      have alone := attended.alone
      rw [Notifier.outstanding, silent, List.nil_append] at alone
      exact List.map_eq_nil_iff.mp alone
    refine ⟨?_, fun seen => absurd ?_ seen⟩
    · simp [asleep, woken, setBell, bell, Notifier.suspend, Notifier.outstanding, silent, none]
    · exact (life_setBell ..).symm ▸ nothing

end Core

namespace World

variable {w v : World} {id : Identity} {a b : Actor} {exitWait : Option Nat}

theorem Turn.exitWaits {action : Action} (turn : Turn id action a b)
    (spared : action.intrudes id = false) :
    b.core.exitWaits.outstanding = a.core.exitWaits.outstanding := by
  cases turn with
  | @polled errand sleeper ticket polls core =>
    have other : errand ≠ .exit := by
      rintro rfl
      simp [polls, Action.intrudes] at spared
    rw [core, Core.exitWaits_polled _ other]
  | @cancelled bell ticket cancels core =>
    cases bell with
    | mail => rw [core]; rfl
    | exit => simp [cancels, Action.intrudes] at spared
  | ended ends core => rw [core]; exact (Core.moves_finish ..).outstanding .exit
  | moved idle endless moves => exact moves.outstanding .exit

/-- Nothing that others do to an actor keeps its driver from being told. -/
theorem Turn.attended {action : Action} (turn : Turn id action a b)
    (spared : action.intrudes id = false) (sound : a.core.Sound)
    (attended : a.core.Attended exitWait) : b.core.Attended exitWait := by
  refine ⟨by rw [turn.exitWaits spared, attended.alone], fun seen => ?_⟩
  have waiting := turn.waiting sound seen
  apply List.eq_nil_of_length_eq_zero
  cases surfaced : a.core.life.surfaced? with
  | some reason =>
    rw [waiting, attended.told (by simp [surfaced])]
    simp
  | none =>
    obtain ⟨reason, seen⟩ := Option.ne_none_iff_exists'.mp seen
    have noticed : 1 ≤ a.core.notices id action b.core := notices_surfacing action surfaced seen
    have few : a.core.exitWaits.waiting.length ≤ a.core.exitWaits.outstanding.length := by
      simp [Notifier.outstanding]
    have alone := attended.length_le
    omega

theorem Course.attended {trace : List Moment} (course : Course w trace v) (rooted : w.Rooted)
    (found : w.find? id = some a) (spared : ∀ m ∈ trace, m.2.intrudes id = false)
    (sound : a.core.Sound) (attended : a.core.Attended exitWait) :
    ∃ b, v.find? id = some b ∧ b.core.Attended exitWait := by
  have kept (m : Moment) (member : m ∈ trace) : m.2 ≠ .free id := by
    intro frees
    have spared := spared m member
    simp [frees, Action.intrudes] at spared
  obtain ⟨b, present, -, -, attended⟩ := course.carries
    (P := fun c => c.Sound ∧ c.Attended exitWait) rooted found kept ⟨sound, attended⟩
    fun m member a b _ ⟨sound, attended⟩ turn =>
      ⟨turn.sound sound, turn.attended (spared m member) sound attended⟩
  exact ⟨b, present, attended⟩

end World

namespace Node

variable {β : Type} {resume : β → Node → Progress β × Node} {abandon : β → Node → Node}
  {id : Identity} {exitWait : Option Nat} {first body : β} {start n : Node} {a : Actor}
  {earlier trace : List World.Moment}

/-- The driver of an actor whose exit nobody else waits for is told of it. -/
theorem Driven.attended (reached : World.Course {} earlier start.world)
    (found : start.world.find? id = some a) (alone : a.core.exitWaits.outstanding = [])
    (driven : Driven resume abandon (fun action => action.intrudes id = false) id first start trace
      exitWait body n) :
    ∃ b, n.world.find? id = some b ∧ b.core.Attended exitWait := by
  induction driven with
  | launched =>
    refine ⟨a, found, by simp [alone], fun _ => ?_⟩
    exact (List.append_eq_nil_iff.mp alone).2
  | meanwhile driven course allowed ih =>
    obtain ⟨b, present, attended⟩ := ih
    have before := reached.trans driven.course
    exact course.attended (before.rooted World.rooted_empty) present allowed
      (before.sound present) attended
  | @polled trace later exitWait body next n m ticket driven suspended course allowed ih =>
    obtain ⟨b, present, attended⟩ := ih
    have before := reached.trans driven.course
    have rooted := before.rooted World.rooted_empty
    obtain ⟨pending, -⟩ := drive_suspended present suspended
    have looked : (n.looked id exitWait).world.find? id
        = some { b with core := (b.core.pollExit (some id) exitWait).2 } := by
      rw [world_looked]
      exact (World.find?_changeCore rooted.keyed present id _).trans (by rw [if_pos rfl]; rfl)
    have after := before.trans (World.Course.refl.act (looking id exitWait))
    rw [← world_looked] at after
    refine course.attended (after.rooted World.rooted_empty) looked allowed (after.sound looked) ?_
    exact attended.suspended (before.discreet present) pending

def hearing (stage : Stage) : Activity := ⟨[.mk "receive" false .receive], stage, none⟩

end Node

end Actors
