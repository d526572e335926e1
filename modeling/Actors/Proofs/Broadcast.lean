import Actors.Proofs.Reception
import Actors.World.Link

/-! Broadcasts. An actor that ends offers its final reason to its links one after another; the first
delivery that raises is the last one, and nothing is left to offer the reason again. -/
namespace Actors.World

variable {w : World} {sender : Identity} {reason : Exit}

inductive Answered (sender : Identity) (reason : Exit) : World → List Identity → World → Prop
  | nil (w : World) : Answered sender reason w [] w
  | cons {w v u : World} {peer : Identity} {rest : List Identity}
      (answer : (w.emit (.linkExit peer)).deliver peer sender reason = .ok () v)
      (others : Answered sender reason v rest u) : Answered sender reason w (peer :: rest) u

theorem broadcast_ok_iff {peers : List Identity} {v : World} :
    broadcast sender reason peers w = .ok () v ↔ Answered sender reason w peers v := by
  induction peers generalizing w with
  | nil =>
    constructor
    · intro same
      cases same
      exact .nil _
    · intro answered
      cases answered
      rfl
  | cons peer rest ih =>
    unfold broadcast
    constructor
    · intro told
      cases first : (w.emit (.linkExit peer)).deliver peer sender reason with
      | error fault u => simp [first] at told
      | ok answer u =>
        rw [first] at told
        exact .cons first (ih.mp told)
    · intro answered
      cases answered with
      | cons answer others =>
        rw [answer]
        exact ih.mpr others

/-- A broadcast raises at the first delivery that raises, after those before it have answered. -/
theorem broadcast_error_iff {peers : List Identity} {fault : Fault} {v : World} :
    broadcast sender reason peers w = .error fault v ↔
      ∃ before peer later u, peers = before ++ peer :: later ∧ Answered sender reason w before u ∧
        (u.emit (.linkExit peer)).deliver peer sender reason = .error fault v := by
  induction peers generalizing w with
  | nil =>
    constructor
    · intro told
      cases told
    · rintro ⟨before, peer, later, u, split, -⟩
      simp at split
  | cons peer rest ih =>
    unfold broadcast
    constructor
    · intro told
      cases first : (w.emit (.linkExit peer)).deliver peer sender reason with
      | error raised u =>
        rw [first] at told
        cases told
        exact ⟨[], peer, rest, w, rfl, .nil w, first⟩
      | ok answer u =>
        rw [first] at told
        obtain ⟨before, last, later, t, rfl, answered, raised⟩ := ih.mp told
        exact ⟨peer :: before, last, later, t, rfl, .cons first answered, raised⟩
    · rintro ⟨before, last, later, u, split, answered, raised⟩
      cases answered with
      | nil =>
        cases split
        rw [raised]
      | cons answer others =>
        cases split
        rw [answer]
        exact ih.mpr ⟨_, last, later, u, rfl, others, raised⟩

def Refuses (w : World) (sender : Identity) (reason : Exit) (peer : Identity) : Prop :=
  ∃ a, w.find? peer = some a ∧ a.refuses sender reason = true

def Quiet (w : World) (peers : List Identity) : Prop :=
  ∀ peer ∈ peers, ∀ a, w.find? peer = some a → a.role.isQuiet = true

structure Notified (w : World) (sender : Identity) (reason : Exit) (peers : List Identity)
    (v : World) : Prop where
  find? : ∀ i, v.find? i =
    if i ∈ peers then (w.find? i).map (·.after sender reason) else w.find? i
  stubs : v.stubs = w.stubs
  serial : v.serial = w.serial

theorem deliver_absent {peer : Identity} (missing : w.find? peer = none) (sender : Identity)
    (reason : Exit) : ∃ v, w.deliver peer sender reason = .ok () v ∧ Alike w v := by
  unfold deliver deliverWith
  simp only [missing]
  split
  · exact ⟨_, rfl, alike_note _ _ _ fun _ => rfl⟩
  · exact ⟨_, rfl, alike_emit _ _ fun _ => rfl⟩

theorem deliver_notified (keyed : w.Keyed) {peer : Identity}
    (quiet : ∀ a, w.find? peer = some a → a.role.isQuiet = true)
    (willing : ¬w.Refuses sender reason peer) :
    ∃ v, (w.emit (.linkExit peer)).deliver peer sender reason = .ok () v ∧ v.Keyed ∧
      Notified w sender reason [peer] v := by
  have emitted := alike_emit w (.linkExit peer) fun _ => rfl
  cases found : w.find? peer with
  | none =>
    obtain ⟨v, sent, alike⟩ :=
      deliver_absent ((emitted.find? peer).trans found) sender reason
    refine ⟨v, sent, alike.keyed (emitted.keyed keyed), fun i => ?_, alike.stubs, alike.serial⟩
    rw [alike.find?, emitted.find?]
    by_cases same : i = peer
    · simp [same, found]
    · simp [same]
  | some a =>
    have name : a.id = peer := keyed found
    have present := (emitted.find? peer).trans found
    obtain ⟨refused, -⟩ | ⟨answered, v, sent, received⟩ :=
      deliver_quiet (emitted.keyed keyed) present (quiet a found) sender reason
    · exact absurd ⟨a, found, refused⟩ willing
    · have received := emitted.then_received received
      refine ⟨v, sent, received.keyed (a.id_coreAfter sender reason) keyed, fun i => ?_,
        received.stubs, received.serial⟩
      rw [received.find?, name]
      by_cases same : i = peer
      · simp [same, found, Actor.after]
      · simp [same]

/-- Peers that refuse nothing are all told, each once, and nobody else changes. -/
theorem broadcast_notified (keyed : w.Keyed) {peers : List Identity} (distinct : peers.Nodup)
    (quiet : w.Quiet peers) (willing : ∀ peer ∈ peers, ¬w.Refuses sender reason peer) :
    ∃ v, broadcast sender reason peers w = .ok () v ∧ v.Keyed ∧
      Notified w sender reason peers v := by
  induction peers generalizing w with
  | nil => exact ⟨w, rfl, keyed, fun i => by simp, rfl, rfl⟩
  | cons peer rest ih =>
    obtain ⟨absent, distinct⟩ := List.nodup_cons.mp distinct
    obtain ⟨v, sent, keyed', first⟩ := deliver_notified keyed
      (quiet peer List.mem_cons_self) (willing peer List.mem_cons_self)
    -- the first signal leaves the other receivers as they are
    have same (i : Identity) (member : i ∈ rest) : v.find? i = w.find? i := by
      have different : i ≠ peer := fun equal => absent (equal ▸ member)
      rw [first.find?]
      simp [different]
    obtain ⟨u, told, keyed'', others⟩ := ih keyed' distinct
      (fun i member a found =>
        quiet i (List.mem_cons_of_mem peer member) a ((same i member).symm.trans found))
      (fun i member ⟨a, found, refused⟩ =>
        willing i (List.mem_cons_of_mem peer member)
          ⟨a, (same i member).symm.trans found, refused⟩)
    refine ⟨u, ?_, keyed'', fun i => ?_, others.stubs.trans first.stubs,
      others.serial.trans first.serial⟩
    · unfold broadcast
      rw [sent]
      exact told
    · rw [others.find?, first.find?]
      by_cases equal : i = peer
      · subst equal
        simp [absent]
      · simp [equal]

/-- One peer that refuses the signal keeps a broadcast from its answer. -/
theorem broadcast_refused (keyed : w.Keyed) {peers : List Identity} (distinct : peers.Nodup)
    (quiet : w.Quiet peers) {peer : Identity} (member : peer ∈ peers)
    (refused : w.Refuses sender reason peer) (v : World) :
    broadcast sender reason peers w ≠ .ok () v := by
  induction peers generalizing w with
  | nil => cases member
  | cons first rest ih =>
    obtain ⟨absent, distinct⟩ := List.nodup_cons.mp distinct
    intro told
    rcases broadcast_ok_iff.mp told with _ | ⟨answer, others⟩
    next u =>
    have emitted := alike_emit w (.linkExit first) fun _ => rfl
    by_cases refusing : w.Refuses sender reason first
    · obtain ⟨a, found, refuses⟩ := refusing
      obtain ⟨-, t, raised, -⟩ | ⟨willing, -⟩ := deliver_quiet (emitted.keyed keyed)
        ((emitted.find? first).trans found) (quiet first List.mem_cons_self a found) sender reason
      · cases answer.symm.trans raised
      · exact Bool.false_ne_true (willing.symm.trans refuses)
    · obtain ⟨t, sent, keyed', notified⟩ :=
        deliver_notified keyed (quiet first List.mem_cons_self) refusing
      cases answer.symm.trans sent
      have same (i : Identity) (inside : i ∈ rest) : u.find? i = w.find? i := by
        have different : i ≠ first := fun equal => absent (equal ▸ inside)
        rw [notified.find?]
        simp [different]
      rcases List.mem_cons.mp member with rfl | later
      · exact refusing refused
      · obtain ⟨a, found, refuses⟩ := refused
        exact ih keyed' distinct
          (fun i inside a found =>
            quiet i (List.mem_cons_of_mem first inside) a ((same i inside).symm.trans found))
          later ⟨a, (same peer later).trans found, refuses⟩ (broadcast_ok_iff.mpr others)

theorem reaching_self (a : Actor) (reason : Exit) : a.reaching a.id reason = none := by
  unfold Actor.reaching
  split
  · simp
  · rfl

theorem find?_ended (a : Actor) (reason : Exit) (i : Identity) :
    (w.ended a reason).find? i
      = if i = a.id then some { a with core := a.core.ended reason } else w.find? i :=
  Registry.find?_put ..

theorem refuses_ended {a : Actor} (found : w.find? a.id = some a) (reason final : Exit)
    (peer : Identity) :
    (w.ended a reason).Refuses a.id final peer ↔ w.Refuses a.id final peer := by
  unfold Refuses
  rw [find?_ended]
  by_cases same : peer = a.id
  · subst same
    have unreached := reaching_self a final
    have unreached' := reaching_self { a with core := a.core.ended reason } final
    have name : ({ a with core := a.core.ended reason } : Actor).id = a.id := rfl
    rw [name] at unreached'
    simp [found, Actor.refuses, unreached, unreached']
  · simp [same]

theorem quiet_ended {a : Actor} (found : w.find? a.id = some a) (reason : Exit)
    {peers : List Identity} (quiet : w.Quiet peers) : (w.ended a reason).Quiet peers := by
  intro peer member b present
  rw [find?_ended] at present
  split at present
  · next same =>
    cases present
    exact quiet peer member a (same ▸ found)
  · exact quiet peer member b present

theorem concluding_ok_iff {told : Outcome Unit} {final : Exit} {answer : Option Exit} {v : World} :
    told.concluding final w = .ok answer v ↔
      answer = some final ∧ ∃ u, told = .ok () u ∧ v = u.leaving w := by
  cases told with
  | ok done u => simp [Outcome.concluding, eq_comm]
  | error fault u => simp [Outcome.concluding]

theorem concluding_error_iff {told : Outcome Unit} {final : Exit} {fault : Fault} {v : World} :
    told.concluding final w = .error fault v ↔ ∃ u, told = .error fault u ∧ v = u.leaving w := by
  cases told with
  | ok done u => simp [Outcome.concluding]
  | error raised u => simp [Outcome.concluding, eq_comm]

theorem nodup_members (s : Links) : s.members.Nodup := by
  refine s.ordered.imp ?_
  rintro i j less rfl
  exact Identity.lt_irrefl i less

theorem after_self (a : Actor) (reason : Exit) : a.after a.id reason = a := by
  have unreached := reaching_self a reason
  have untrapped : a.trapping a.id reason = none := by
    unfold Actor.trapping Actor.screen Role.screen
    cases a.role with
    | process flags => simp
    | port name owner => dsimp only; split_ifs <;> rfl
    | plain hook => rfl
  simp [Actor.after, Actor.coreAfter, untrapped, unreached, Core.taking, Core.takes]

structure Ended (w : World) (a : Actor) (reason : Exit) (v : World) : Prop where
  find? : ∀ i, v.find? i =
    if i = a.id then some { a with core := a.core.ended reason }
    else if i ∈ a.core.links.members then
      (w.find? i).map (·.after a.id (a.core.finalReason reason))
    else w.find? i
  stubs : v.stubs = w.stubs
  serial : v.serial = w.serial

theorem terminate_gone {id : Identity} (missing : w.find? id = none) (reason : Exit) :
    ∃ v, w.terminate id reason = .ok none v ∧ Alike w v :=
  ⟨_, finishWith_gone missing reason, (alike_entering ..).trans (alike_leaving ..)⟩

theorem terminate_done {id : Identity} {a : Actor} (found : w.find? id = some a)
    (finished : a.core.isDone = true) (reason : Exit) :
    ∃ v, w.terminate id reason = .ok none v ∧ Alike w v :=
  ⟨_, finishWith_done found finished reason,
    (alike_entering ..).trans ((alike_emit _ _ fun _ => rfl).trans (alike_leaving ..))⟩

section End

variable {id : Identity} {a : Actor} (keyed : w.Keyed) (found : w.find? id = some a)
  (alive : a.core.isDone = false) (quiet : w.Quiet a.core.links.members)
include keyed found alive quiet

theorem terminate_ended (reason : Exit)
    (willing : ∀ peer ∈ a.core.links.members, ¬w.Refuses id (a.core.finalReason reason) peer) :
    ∃ v, w.terminate id reason = .ok (some (a.core.finalReason reason)) v ∧ v.Keyed ∧
      Ended w a reason v := by
  have name : a.id = id := keyed found
  subst name
  have ended := changes_ended found alive reason
  simp only [← refuses_ended found reason] at willing
  obtain ⟨u, told, keyed', notified⟩ := broadcast_notified (ended.keyed keyed)
    (nodup_members a.core.links) (quiet_ended found reason quiet) willing
  rw [terminate_alive keyed found alive, told]
  have left := alike_leaving u w
  refine ⟨u.leaving w, rfl, left.keyed keyed', fun i => ?_, left.stubs.trans notified.stubs,
    left.serial.trans notified.serial⟩
  rw [left.find?, notified.find?, find?_ended]
  by_cases own : i = a.id
  · subst own
    have same := after_self { a with core := a.core.ended reason } (a.core.finalReason reason)
    simp only [if_true, Option.map_some]
    split
    · exact congrArg some same
    · rfl
  · simp only [own, if_false]

theorem willing_of_terminate {reason : Exit} {answer : Option Exit} {v : World}
    (answered : w.terminate id reason = .ok answer v) {peer : Identity}
    (member : peer ∈ a.core.links.members) :
    ¬w.Refuses id (a.core.finalReason reason) peer := by
  have name : a.id = id := keyed found
  subst name
  have ended := changes_ended found alive reason
  rw [terminate_alive keyed found alive] at answered
  obtain ⟨-, u, told, -⟩ := concluding_ok_iff.mp answered
  rw [← refuses_ended found reason]
  intro refused
  exact broadcast_refused (ended.keyed keyed) (nodup_members a.core.links)
    (quiet_ended found reason quiet) member refused u told

end End

/-- An end answers exactly if the signal to each of the links is answered in turn. If a delivery
raises, the end raises too, with the actor done, its links forgotten and the later ones never told.
Among links that only record what they accept, those that raise are the ones not yet started whose
role lets the signal through. -/
theorem terminate_tells_links (keyed : w.Keyed) {id : Identity} {a : Actor}
    (found : w.find? id = some a) (alive : a.core.isDone = false) (reason : Exit) :
    (∀ answer v, w.terminate id reason = .ok answer v ↔
      answer = some (a.core.finalReason reason) ∧ ∃ u,
        Answered id (a.core.finalReason reason) (w.ended a reason) a.core.links.members u ∧
          v = u.leaving w) ∧
    (∀ fault v, w.terminate id reason = .error fault v ↔
      ∃ before peer later u t, a.core.links.members = before ++ peer :: later ∧
        Answered id (a.core.finalReason reason) (w.ended a reason) before u ∧
        (u.emit (.linkExit peer)).deliver peer id (a.core.finalReason reason) = .error fault t ∧
          v = t.leaving w) ∧
    (∃ b, (w.terminate id reason).world.find? id = some b ∧
      b.core.life = .done (a.core.finalReason reason) ∧ b.core.links.members = []) ∧
    (w.Quiet a.core.links.members →
      ((∃ v, w.terminate id reason = .ok (some (a.core.finalReason reason)) v) ↔
        ∀ peer ∈ a.core.links.members, ∀ b, w.find? peer = some b → b.core.phase = .init →
          b.reaching id (a.core.finalReason reason) = none)) := by
  have name : a.id = id := keyed found
  subst name
  have ended := changes_ended found alive reason
  have keyed' := ended.keyed keyed
  rw [terminate_alive keyed found alive]
  refine ⟨fun answer v => ?_, fun fault v => ?_, ?_, fun quiet => ?_⟩
  · simp only [concluding_ok_iff, broadcast_ok_iff]
  · simp only [concluding_error_iff, broadcast_error_iff]
    constructor
    · rintro ⟨t, ⟨before, peer, later, u, split, answered, raised⟩, rfl⟩
      exact ⟨before, peer, later, u, t, split, answered, raised, rfl⟩
    · rintro ⟨before, peer, later, u, t, split, answered, raised, rfl⟩
      exact ⟨t, ⟨before, peer, later, u, split, answered, raised⟩, rfl⟩
  · have present : (w.ended a reason).find? a.id = some { a with core := a.core.ended reason } :=
      (find?_ended a reason a.id).trans (if_pos rfl)
    have told := changes_broadcast keyed' a.id (a.core.finalReason reason) a.core.links.members
    rw [Outcome.world_concluding]
    exact ⟨_, (told.done present rfl).1, rfl, rfl⟩
  · have refusing (peer : Identity) : ¬w.Refuses a.id (a.core.finalReason reason) peer ↔
        ∀ b, w.find? peer = some b → b.core.phase = .init →
          b.reaching a.id (a.core.finalReason reason) = none := by
      simp [Refuses, Actor.refuses]
    rw [← terminate_alive keyed found alive]
    simp only [← refusing]
    constructor
    · rintro ⟨v, answered⟩ peer member
      exact willing_of_terminate keyed found alive quiet answered member
    · intro willing
      obtain ⟨v, answered, -, -⟩ := terminate_ended keyed found alive quiet reason willing
      exact ⟨v, answered⟩

def halfStarted : World :=
  let allocated (w : World) : World := (w.allocate .process (.process .empty)).2
  let first := Identity.ofSerial 1 .process
  let started := ((allocated (allocated (allocated {}))).start first).world
  let started := (started.start (.ofSerial 3 .process)).world
  let linked := (started.recordLink first (.ofSerial 2 .process)).2
  (linked.recordLink first (.ofSerial 3 .process)).2

theorem halfStarted_tells_links : ∃ a, halfStarted.Keyed ∧
    halfStarted.find? (.ofSerial 1 .process) = some a ∧ a.core.isDone = false ∧
    (∃ b, (halfStarted.terminate (.ofSerial 1 .process) .noproc).world.find? (.ofSerial 1 .process)
      = some b ∧ b.core.life = .done .noproc ∧ b.core.links.members = []) ∧
    ∀ v, halfStarted.terminate (.ofSerial 1 .process) .noproc ≠ .ok (some .noproc) v := by
  have keyed : halfStarted.Keyed := keyed_of_entries (by decide)
  obtain ⟨a, found⟩ : ∃ a, halfStarted.find? (.ofSerial 1 .process) = some a := ⟨_, rfl⟩
  have alive : a.core.isDone = false := by cases found; rfl
  have told := terminate_tells_links keyed found alive .noproc
  refine ⟨a, keyed, found, alive, ?_, fun v answered => ?_⟩
  · cases found
    exact told.2.2.1
  · cases found
    have quiet : halfStarted.Quiet [.ofSerial 2 .process, .ofSerial 3 .process] := by
      intro peer member b present
      obtain rfl | rfl : peer = .ofSerial 2 .process ∨ peer = .ofSerial 3 .process := by
        simpa using member
      · cases present; rfl
      · cases present; rfl
    have reached := (told.2.2.2 quiet).mp ⟨v, answered⟩ (.ofSerial 2 .process)
      List.mem_cons_self _ rfl rfl
    cases reached

theorem unstarted_link_silences_later_links :
    (halfStarted.find? (.ofSerial 1 .process)).map (·.core.links.members)
        = some [.ofSerial 2 .process, .ofSerial 3 .process] ∧
      ∃ v, halfStarted.terminate (.ofSerial 1 .process) (.atom ⟨"crash"⟩)
          = .error (.exception (.invariant "exit signal delivered before start")) v ∧
        (v.find? (.ofSerial 1 .process)).map (·.core.phase) = some .done ∧
        (v.find? (.ofSerial 1 .process)).map (·.core.links.members) = some [] ∧
        (v.find? (.ofSerial 3 .process)).map (·.core.phase) = some .running := by
  refine ⟨by decide, _, rfl, by decide, by decide, by decide⟩

end Actors.World
