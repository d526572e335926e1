import Actors.Proofs.Outline
import Actors.Proofs.Stroke

/-! Echoes. An actor that ends signals one reason to its links. The signals that follow carry the same
reason or come back to actors that are done, so another actor hears that reason only, and hears it
from the actor that ended exactly once. -/
namespace Actors

def Term.exitFrom? (sender : Identity) : Term → Option Exit
  | .exitMessage origin reason => if origin = sender then some reason else none
  | _ => none

def Life.heeding : Life → Option Exit → Life
  | .running, some reason => .exiting reason
  | life, _ => life

theorem Life.heeding_heeding (life : Life) (target : Option Exit) :
    (life.heeding target).heeding target = life.heeding target := by
  cases life <;> cases target <;> rfl

theorem Core.life_taking (c : Core) (target : Option Exit) :
    (c.taking target).life = c.life.heeding target := by
  cases life : c.life <;> cases target <;>
    simp [taking, takes, isRunning, phase, life, Life.phase, Life.heeding, alert]

@[simp] theorem Life.heeding_none (life : Life) : life.heeding none = life := by
  cases life <;> rfl

theorem Core.queue_taking (c : Core) (target : Option Exit) :
    (c.taking target).mailbox.queue = c.mailbox.queue := by
  unfold taking
  split <;> rfl

theorem Actor.life_coreAfter (a : Actor) (sender : Identity) (reason : Exit) :
    (a.coreAfter sender reason).life = a.core.life.heeding (a.reaching sender reason) := by
  cases trap : a.trapping sender reason with
  | some trapped =>
    rw [coreAfter_trapping trap, Core.life_post, reaching_of_trapping trap, Life.heeding_none]
  | none => rw [coreAfter_untrapped trap, Core.life_taking]

theorem Actor.queue_coreAfter {a : Actor} (alive : a.core.isDone = false) (sender : Identity)
    (reason : Exit) : (a.coreAfter sender reason).mailbox.queue
      = a.core.mailbox.queue ++ (a.trapping sender reason).toList.map (.exitMessage sender) := by
  cases trap : a.trapping sender reason with
  | some trapped =>
    obtain rfl := trapping_eq trap
    rw [coreAfter_trapping trap, Core.post_struck alive]
    rfl
  | none =>
    rw [coreAfter_untrapped trap, Core.queue_taking]
    simp

namespace World

variable {w v u : World} {id peer sender : Identity} {a b : Actor} {reason exit : Exit}
  {traffic : Traffic}

theorem Answered.split {first rest : List Identity}
    (answered : Answered sender reason w (first ++ rest) u) :
    ∃ v, Answered sender reason w first v ∧ Answered sender reason v rest u := by
  induction first generalizing w with
  | nil => exact ⟨w, .nil w, answered⟩
  | cons peer first ih =>
    cases answered with
    | cons answer others =>
      obtain ⟨v, before, after⟩ := ih others
      exact ⟨v, .cons answer before, after⟩

theorem Answered.strikes {peers : List Identity} (spreads : traffic.Spreads) (keyed : w.Keyed)
    (answered : Answered sender reason w peers v)
    (sent : ∀ peer ∈ peers, traffic w peer sender reason) : Strikes (Cause traffic) w v := by
  have strikes := strikes_broadcastWith spreads (spreading_react spreads w.running) keyed sent
  rw [broadcastWith_eq keyed le_rfl, broadcast_ok_iff.mpr answered] at strikes
  exact strikes

/-- Signals while an actor that has ended with a reason tells its links of it: they carry the reason
and come from actors that are done, or go to such actors. One peer gets none of them from the actor
itself. -/
def echo (id peer : Identity) (exit : Exit) : Traffic := fun w receiver sender reason =>
  w.IsOver id ∧ (reason = exit ∧ w.IsOver sender ∨ w.IsOver receiver) ∧
    (receiver = peer → sender ≠ id)

theorem not_over_exiting {first : Exit} (found : w.find? a.id = some a)
    (exiting : a.core.life = .exiting first) : ¬w.IsOver a.id := by
  rintro ⟨b, present, done⟩
  cases found.symm.trans present
  obtain ⟨final, life⟩ := Core.isDone_iff.mp done
  cases exiting.symm.trans life

/-- Echoes are followed by echoes only. -/
theorem spreads_echo (id peer : Identity) (exit : Exit) : (echo id peer exit).Spreads where
  keeps := by
    rintro w v receiver sender reason strikes ⟨past, carries, apart⟩
    exact ⟨past.strikes strikes,
      carries.imp (fun same => ⟨same.1, same.2.strikes strikes⟩) (·.strikes strikes), apart⟩
  ends := by
    rintro w a sender reason last found role exiting ⟨past, carries, -⟩ peer' member
    have going := not_over_exiting found exiting
    have alive : a.core.isDone = false := by simp [Core.isDone, Core.phase, exiting, Life.phase]
    have strikes : Strikes (fun _ _ _ => True) w (w.ended a last) :=
      strikes_ended found alive fun _ => trivial
    obtain ⟨rfl, -⟩ | back := carries
    · refine ⟨past.strikes strikes, .inl ⟨rfl, ?_⟩, ?_⟩
      · exact ⟨_, (find?_ended a last a.id).trans (if_pos rfl), rfl⟩
      · rintro - rfl
        exact going past
    · exact absurd back going
  replies := by
    rintro w a sender reason answer found role exiting ⟨past, carries, -⟩
    have going := not_over_exiting found exiting
    obtain ⟨-, done⟩ | back := carries
    · refine ⟨past, .inr done, ?_⟩
      rintro - rfl
      exact going past
    · exact absurd back going

structure Echoed (id : Identity) (target : Option Exit) (c core : Core) : Prop where
  life : core.life = c.life ∨ core.life = c.life.heeding target
  queue : ∃ extra, core.mailbox.queue = c.mailbox.queue ++ extra ∧
    ∀ message ∈ extra, message.exitFrom? id = none

theorem Echoed.alive {target : Option Exit} {c core : Core} (echoed : Echoed id target c core)
    (alive : c.isDone = false) : core.isDone = false := by
  rcases echoed.life with life | life
  · rw [Core.isDone_of_life life, alive]
  · rw [← Core.life_taking] at life
    rw [Core.isDone_of_life life, Core.isDone_taking, alive]

theorem Echoed.heeded {target : Option Exit} {c core : Core} (echoed : Echoed id target c core) :
    core.life.heeding target = c.life.heeding target := by
  rcases echoed.life with life | life
  · rw [life]
  · rw [life, Life.heeding_heeding]

/-- Who has taken the reason is not changed by more of its echoes. -/
theorem Echoed.settled {target : Option Exit} {life : Life} {c core : Core}
    (echoed : Echoed id target c core) (told : c.life = life.heeding target) :
    core.life = c.life := by
  rcases echoed.life with same | again
  · exact same
  · rw [again, told, Life.heeding_heeding]

def Heeds (b : Actor) (id : Identity) (exit : Exit) : Prop :=
  ∀ sender taken, b.reaching sender exit = some taken → b.reaching id exit = some taken

/-- In the course of echoes a process or port takes no other reason than the one that goes round. -/
theorem echoed_actor (strikes : Strikes (Cause (echo id peer exit)) w v) (keyed : w.Keyed)
    (found : w.find? peer = some b) (going : b.core.isDone = false)
    (bodied : ∀ hook, b.role ≠ .plain hook) (heeds : Heeds b id exit) :
    ∃ c, v.find? peer = some c ∧ c.role = b.role ∧
      Echoed id (b.reaching id exit) b.core c.core := by
  have name : b.id = peer := keyed found
  obtain ⟨c, present, role, struck⟩ := strikes.actor found
  refine ⟨c, present, role, struck.keeps ⟨.inl rfl, [], by simp, by simp⟩ ?_⟩
  rintro core stroke echoed suffers ⟨u, known, same, cause⟩
  have unfinished : core.isDone = false := echoed.alive going
  have notOver : ¬u.IsOver peer := by
    rintro ⟨d, present', done⟩
    cases known.symm.trans present'
    cases unfinished.symm.trans done
  cases cause with
  | @reached sender signal taken sent reaching =>
    obtain ⟨-, ⟨rfl, -⟩ | back, -⟩ := sent
    · have screens : (⟨core, b.role⟩ : Actor).reaching sender signal = b.reaching sender signal :=
        Actor.reaching_congr (a := b) (b := ⟨core, b.role⟩) rfl (same.trans name.symm) ..
      have told := heeds sender taken (screens.symm.trans reaching)
      refine ⟨.inr ?_, echoed.queue⟩
      -- the life is still the first one, since it runs
      have runs : core.life = .running := suffers
      have first : b.core.life = .running := by
        rcases echoed.life with life | life
        · exact life.symm.trans runs
        · rw [told, runs] at life
          cases before : b.core.life <;> simp [before, Life.heeding] at life ⊢
      rw [told, first]
      rfl
    · exact absurd (same ▸ back) notOver
  | @trapped sender taken sent trapping =>
    obtain ⟨extra, queue, foreign⟩ := echoed.queue
    refine ⟨echoed.life, extra ++ [.exitMessage sender taken], ?_, ?_⟩
    · rw [Core.struck, Mailbox.queue_push, queue, List.append_assoc]
    · refine List.forall_mem_append.mpr ⟨foreign, List.forall_mem_singleton.mpr ?_⟩
      exact if_neg (sent.2.2 same)
  | greeted =>
    obtain ⟨extra, queue, foreign⟩ := echoed.queue
    refine ⟨echoed.life, extra ++ [.str "bye"], ?_, ?_⟩
    · rw [Core.struck, Mailbox.queue_push, queue, List.append_assoc]
    · exact List.forall_mem_append.mpr ⟨foreign, List.forall_mem_singleton.mpr rfl⟩
  | ended role' exiting => exact absurd role' (bodied _)
  | parted role' => exact absurd role' (bodied _)

theorem isQuiet_bodied {role : Role} (bodied : ∀ hook, role ≠ .plain hook) :
    role.isQuiet = true := by
  cases role with
  | plain hook => exact absurd rfl (bodied hook)
  | _ => rfl

theorem delivered_bodied (keyed : w.Keyed) (found : w.find? a.id = some a)
    (bodied : ∀ hook, a.role ≠ .plain hook) (answer : w.deliver a.id sender reason = .ok () v) :
    v.Keyed ∧ v.find? a.id = some { a with core := a.coreAfter sender reason } := by
  obtain ⟨-, u, raised, -⟩ | ⟨-, u, delivered, received⟩ :=
    deliver_quiet keyed found (isQuiet_bodied bodied) sender reason
  · cases answer.symm.trans raised
  · cases answer.symm.trans delivered
    exact ⟨received.keyed (a.id_coreAfter ..) keyed, (received.find? a.id).trans (if_pos rfl)⟩

section End

variable (keyed : w.Keyed) (found : w.find? id = some a) (alive : a.core.isDone = false)
  (calm : ∀ fault v, w.terminate id reason ≠ .error fault v)
  (linked : peer ∈ a.core.links.members)
include keyed found alive calm linked

/-- The signal to a link comes once, after the echoes of those before it. -/
theorem echoes_around : ∃ before after last,
    Strikes (Cause (echo id peer (a.core.finalReason reason))) (w.ended a reason) before ∧
    (before.emit (.linkExit peer)).deliver peer id (a.core.finalReason reason) = .ok () after ∧
    Strikes (Cause (echo id peer (a.core.finalReason reason))) after last ∧
    (w.terminate id reason).world = last.leaving w := by
  have name : a.id = id := keyed found
  subst name
  let exit := a.core.finalReason reason
  have keyed' : (w.ended a reason).Keyed := (changes_ended found alive reason).keyed keyed
  cases outcome : w.terminate a.id reason with
  | error fault v => exact absurd outcome (calm fault v)
  | ok answer v =>
    rw [terminate_alive keyed found alive] at outcome
    obtain ⟨-, last, told, rfl⟩ := concluding_ok_iff.mp outcome
    have answered := broadcast_ok_iff.mp told
    obtain ⟨first, rest, split⟩ := List.append_of_mem linked
    have distinct := nodup_members a.core.links
    rw [split] at answered distinct
    obtain ⟨-, once, apart⟩ := List.nodup_append.mp distinct
    have absent : peer ∉ first := fun member => apart peer member peer List.mem_cons_self rfl
    obtain ⟨before, answeredFirst, answeredRest⟩ := answered.split
    cases answeredRest with
    | @cons _ after _ _ _ answer others =>
      have past : (w.ended a reason).IsOver a.id :=
        ⟨_, (find?_ended a reason a.id).trans (if_pos rfl), rfl⟩
      have sent {v : World} (past : v.IsOver a.id) {receiver : Identity} (other : receiver ≠ peer) :
          echo a.id peer exit v receiver a.id exit :=
        ⟨past, .inl ⟨rfl, past⟩, fun same => absurd same other⟩
      have strikes := answeredFirst.strikes (spreads_echo a.id peer exit) keyed' fun i member =>
        sent past fun same => absent (same ▸ member)
      have emitted : Strikes (fun _ _ _ => True) before (before.emit (.linkExit peer)) := .emit ..
      have keyedBefore := strikes.keyed keyed'
      have delivered : Strikes (Cause fun _ _ _ _ => True) (before.emit (.linkExit peer))
          ((before.emit (.linkExit peer)).deliver peer a.id exit).world :=
        strikes_deliver Traffic.spreads_any (emitted.keyed keyedBefore) trivial
      rw [answer] at delivered
      have past' : after.IsOver a.id := ((past.strikes strikes).strikes emitted).strikes delivered
      have strikes' := others.strikes (spreads_echo a.id peer exit)
        (delivered.keyed (emitted.keyed keyedBefore)) fun i member =>
          sent past' fun same => (List.nodup_cons.mp once).1 (same ▸ member)
      exact ⟨before, after, last, strikes, answer, strikes', rfl⟩

/-- What the end of an actor is to a link of it that has a body: it takes or traps the final reason
once, as it would from the actor at any other time. -/
theorem end_reaches (other : peer ≠ id) (present : w.find? peer = some b)
    (going : b.core.isDone = false) (bodied : ∀ hook, b.role ≠ .plain hook)
    (heeds : Heeds b id (a.core.finalReason reason)) :
    ∃ c, (w.terminate id reason).world.find? peer = some c ∧ c.role = b.role ∧
      c.core.life = b.core.life.heeding (b.reaching id (a.core.finalReason reason)) ∧
      ∃ earlier later, c.core.mailbox.queue = b.core.mailbox.queue ++ earlier
          ++ (b.trapping id (a.core.finalReason reason)).toList.map (.exitMessage id) ++ later ∧
        ∀ message ∈ earlier ++ later, message.exitFrom? id = none := by
  obtain ⟨before, after, last, strikes, answer, strikes', outcome⟩ :=
    echoes_around keyed found alive calm linked
  revert heeds answer strikes strikes'
  generalize a.core.finalReason reason = exit
  intro heeds strikes answer strikes'
  have name : a.id = id := keyed found
  have name' : b.id = peer := keyed present
  subst name name'
  have keyedEnded := (changes_ended found alive reason).keyed keyed
  obtain ⟨c, found', role, echoed⟩ := echoed_actor strikes keyedEnded
    ((find?_ended a reason b.id).trans ((if_neg other).trans present)) going bodied heeds
  have keyedBefore : (before.emit (.linkExit b.id)).Keyed := strikes.keyed keyedEnded
  have same : c.id = b.id := keyedBefore found'
  have going' : c.core.isDone = false := echoed.alive going
  have reaching (sender : Identity) : c.reaching sender exit = b.reaching sender exit :=
    Actor.reaching_congr role same sender exit
  rw [← same] at keyedBefore found' answer
  obtain ⟨keyedAfter, found''⟩ := delivered_bodied keyedBefore found' (role ▸ bodied) answer
  let told : Actor := { c with core := c.coreAfter a.id exit }
  have heeded (sender : Identity) : told.reaching sender exit = b.reaching sender exit :=
    (Actor.reaching_congr (a := c) (b := told) rfl (c.id_coreAfter ..) sender exit).trans
      (reaching sender)
  have life : told.core.life = b.core.life.heeding (b.reaching a.id exit) := by
    rw [c.life_coreAfter, reaching, echoed.heeded]
  obtain ⟨d, final, role', echoed'⟩ := echoed_actor strikes' keyedAfter (same ▸ found'')
    ((c.isDone_coreAfter ..).trans going') (role ▸ bodied)
    fun sender taken reaches => (heeded a.id).trans (heeds sender taken (heeded sender ▸ reaches))
  rw [heeded] at echoed'
  obtain ⟨earlier, queue, foreign⟩ := echoed.queue
  obtain ⟨later, queue', foreign'⟩ := echoed'.queue
  refine ⟨d, by rw [outcome]; exact final, role'.trans role, (echoed'.settled life).trans life,
    earlier, later, ?_, List.forall_mem_append.mpr ⟨foreign, foreign'⟩⟩
  rw [queue', Actor.queue_coreAfter going', queue, Actor.trapping_congr role same]

end End

end World

end Actors
