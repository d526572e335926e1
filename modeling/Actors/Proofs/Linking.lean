import Actors.Proofs.Conduct
import Actors.Proofs.Treatment

/-! Linking. A link is recorded on one side and then on the other, and each half looks at other things:
the first at the peer, the second at the actor that asked, which has an exit pending at worst. A new
actor is linked before anyone else knows of it. -/
namespace Actors

namespace Core

variable {c core : Core} {peer : Identity}

theorem isLive_iff : c.isLive = true ↔ c.isDone = false ∧ ∀ reason, c.life ≠ .exiting reason := by
  cases life : c.life <;> simp [isLive, isDone, phase, life, Life.phase, Phase.isLive]

theorem exiting_of_dead (alive : c.isDone = false) (dead : c.isLive = false) :
    ∃ reason, c.life = .exiting reason := by
  by_contra none
  cases dead.symm.trans (isLive_iff.mpr ⟨alive, not_exists.mp none⟩)

def Tethered (peer : Identity) (c : Core) : Prop := c.isDone = false → peer ∈ c.links.members

theorem Waited.tethered (waited : Waited c core) (tethered : c.Tethered peer) :
    core.Tethered peer := by
  rw [Tethered, isDone_of_life waited.life, waited.links]
  exact tethered

theorem Struck.tethered {may : Core → Stroke → Prop} (struck : Struck may c core)
    (unparted : ∀ core, ¬may core (.part peer)) (tethered : c.Tethered peer) :
    core.Tethered peer := by
  refine struck.keeps tethered fun core stroke tethered suffers allowed alive => ?_
  cases stroke with
  | start => exact tethered (by simp [isDone, phase, show core.life = .init from suffers, Life.phase])
  | accept sender reason =>
    exact tethered (by simp [isDone, phase, show core.life = .running from suffers, Life.phase])
  | finish reason => cases alive
  | post message => exact tethered alive
  | join other => exact Links.mem_insert.mpr (.inr (tethered alive))
  | part other =>
    refine Links.mem_erase.mpr ⟨tethered alive, ?_⟩
    rintro rfl
    exact unparted core allowed

end Core

namespace World

variable {w v u : World} {id peer parent child : Identity} {a b : Actor} {trace : List Moment}

theorem Treated.tethered {traffic : Traffic} {action : Action}
    (treated : Treated traffic id action a b) (loyal : a.role ≠ .plain .unlink)
    (kept : action ≠ .operate id (.unlink peer)) (tethered : a.core.Tethered peer) :
    b.core.Tethered peer := by
  cases treated with
  | waited waits waited queue => exact waited.tethered tethered
  | struck struck =>
    refine struck.tethered ?_ tethered
    rintro core (⟨u, -, -, cause⟩ | ⟨other, op, rfl, deals⟩)
    · cases cause with
      | parted role => exact loyal role
    · cases deals with
      | unlink peer => exact kept rfl

theorem Course.tethered (course : Course w trace v) (rooted : w.Rooted)
    (found : w.find? id = some a) (loyal : a.role ≠ .plain .unlink)
    (kept : ∀ m ∈ trace, m.2 ≠ .operate id (.unlink peer)) (tethered : a.core.Tethered peer)
    (present : v.find? id = some b) : b.core.Tethered peer := by
  refine (course.follows (P := fun _ c => a.role.Stays c.role ∧ c.core.Tethered peer) rooted found
    ⟨.same, tethered⟩ (fun earlier m member c d rooted known last held => ?_) present).2
  obtain ⟨stays, treated⟩ :=
    treated_act rooted known Traffic.spreads_any (sends_any m.2) last
  exact ⟨held.1.trans stays,
    treated.tethered (fun role => loyal (held.1.plain role)) (kept m member) held.2⟩

theorem isLive_iff (stubless : w.find? peer = none → w.stubs.find? peer = none) :
    w.isLive peer = true ↔ ∃ b, w.find? peer = some b ∧ b.core.isLive = true := by
  unfold isLive
  cases found : w.find? peer with
  | none => simp [stubless found]
  | some b => simp

inductive Linking (w : World) (id peer : Identity) (a : Actor) : Except Interrupt Unit × World → Prop
  | joined {b : Actor} {v : World} (live : a.core.isLive = true) (present : w.find? peer = some b)
      (live' : b.core.isLive = true) (stubs : v.stubs = w.stubs) (serial : v.serial = w.serial)
      (find? : ∀ i, v.find? i = if i = id then some { a with core := a.core.insertLink peer }
        else if i = peer then some { b with core := b.core.insertLink id } else w.find? i) :
      Linking w id peer a (.ok (), v)
  | half {v : World} {reason : Exit} (exiting : a.core.life = .exiting reason)
      (live : w.isLive peer = true) (stubs : v.stubs = w.stubs) (serial : v.serial = w.serial)
      (find? : ∀ i, v.find? i = if i = id then some { a with core := a.core.insertLink peer }
        else w.find? i) : Linking w id peer a (.error .noproc, v)
  | refused {v : World} (dead : a.core.isDone = true ∨ w.isLive peer = false) (alike : Alike w v) :
      Linking w id peer a (.error .noproc, v)

theorem admits_iff : w.admits a peer = true ↔
    peer ≠ a.id ∧ w.isLive peer = true ∧ a.core.isDone = false := by
  simp [admits, and_assoc]

/-- The half of the peer looks at the actor that asked, alone. -/
theorem linkedBack (keyed : w.Keyed) (found : w.find? id = some a) (present : w.find? peer = some b)
    (other : peer ≠ id) (alive : b.core.isDone = false) :
    (a.core.isLive = true ∧ ∃ v, w.linkThrough peer id = (.ok (), v) ∧
        Received w b (b.core.insertLink id) [] v) ∨
      (a.core.isLive = false ∧ ∃ v, w.linkThrough peer id = (.error .noproc, v) ∧ Alike w v) := by
  have name : b.id = peer := keyed present
  have live : w.admits b id = a.core.isLive := by
    simp [admits, name, isLive, found, alive, Ne.symm other]
  have recorded := recorded keyed present id
  rw [live, if_neg (Ne.symm other)] at recorded
  rw [linkThrough_found present]
  exact recorded

/-- A link between two actors is recorded on both sides, on the first one alone, or on none. -/
theorem linking (keyed : w.Keyed) (stubless : w.find? peer = none → w.stubs.find? peer = none)
    (found : w.find? id = some a) (other : peer ≠ id) : Linking w id peer a (w.link id peer) := by
  have name : a.id = id := keyed found
  unfold link
  obtain ⟨admitted, v, answer, received⟩ | ⟨refused, v, answer, alike⟩ := recorded keyed found peer
  · obtain ⟨-, live, alive⟩ := admits_iff.mp admitted
    obtain ⟨b, present, live'⟩ := (isLive_iff stubless).mp live
    have present' : v.find? peer = some b := by rw [received.find?, name, if_neg other, present]
    have own : v.find? id = some { a with core := a.core.insertLink peer } := by
      rw [received.find?, if_pos name.symm]
    rw [answer]
    dsimp only
    obtain ⟨live, u, answer', received'⟩ | ⟨dead, u, answer', alike'⟩ :=
      linkedBack (received.keyed rfl keyed) own present' other (Core.isLive_iff.mp live').1
    · rw [answer']
      refine .joined live present live' (received'.stubs.trans received.stubs)
        (received'.serial.trans received.serial) fun i => ?_
      rw [received'.find?, received.find?, name, keyed present]
      by_cases same : i = peer
      · rw [if_pos same, if_neg (same ▸ other), if_pos same]
      · rw [if_neg same, if_neg same]
    · rw [answer']
      obtain ⟨reason, exiting⟩ := Core.exiting_of_dead alive dead
      refine .half exiting live (alike'.stubs.trans received.stubs)
        (alike'.serial.trans received.serial) fun i => ?_
      rw [alike'.find?, received.find?, name]
  · rw [answer, if_neg other]
    refine .refused ?_ alike
    by_contra able
    obtain ⟨alive, live⟩ := not_or.mp able
    have admitted : w.admits a peer = true := admits_iff.mpr
      ⟨name ▸ other, Bool.eq_true_of_not_eq_false live, Bool.eq_false_of_not_eq_true alive⟩
    cases refused.symm.trans admitted

/-- A link is made exactly if both actors are live, and then on both sides; one that fails leaves the
peer as it was. -/
theorem Linking.outcome {result : Except Interrupt Unit × World} (linking : Linking w id peer a result)
    (stubless : w.find? peer = none → w.stubs.find? peer = none) (other : peer ≠ id) :
    (result.1 = .ok () ↔
      a.core.isLive = true ∧ ∃ b, w.find? peer = some b ∧ b.core.isLive = true) ∧
    (result.1 = .ok () → ∃ a' b', result.2.find? id = some a' ∧ result.2.find? peer = some b' ∧
      peer ∈ a'.core.links.members ∧ id ∈ b'.core.links.members) ∧
    (result.1 ≠ .ok () → result.1 = .error .noproc ∧ result.2.find? peer = w.find? peer) := by
  cases linking with
  | joined live present live' stubs serial find? =>
    have own := (find? id).trans (if_pos rfl)
    have back := (find? peer).trans ((if_neg other).trans (if_pos rfl))
    refine ⟨iff_of_true rfl ⟨live, _, present, live'⟩, fun _ => ⟨_, _, own, back, ?_, ?_⟩,
      fun failed => absurd rfl failed⟩
    · exact Links.mem_insert.mpr (.inl rfl)
    · exact Links.mem_insert.mpr (.inl rfl)
  | half exiting live stubs serial find? =>
    refine ⟨iff_of_false (fun linked => by cases linked) fun both => ?_,
      fun linked => (by cases linked), fun _ => ⟨rfl, (find? peer).trans (if_neg other)⟩⟩
    exact (Core.isLive_iff.mp both.1).2 _ exiting
  | refused dead alike =>
    refine ⟨iff_of_false (fun linked => by cases linked) fun both => ?_,
      fun linked => (by cases linked), fun _ => ⟨rfl, alike.find? peer⟩⟩
    rcases dead with done | gone
    · cases done.symm.trans (Core.isLive_iff.mp both.1).1
    · cases gone.symm.trans ((isLive_iff stubless).mpr both.2)

theorem link_idle (keyed : w.Keyed) (stubless : w.find? id = none → w.stubs.find? id = none)
    (idle : w.find? id = none ∨ peer = id) : Alike w (w.link id peer).2 := by
  obtain ⟨answer, v, recorded, alike⟩ : ∃ answer v, w.recordLink id peer = (answer, v) ∧ Alike w v := by
    cases found : w.find? id with
    | none =>
      obtain ⟨v, answer, alike⟩ := recorded_missing found peer
      exact ⟨_, v, answer, alike⟩
    | some a =>
      obtain rfl : peer = id := idle.resolve_left (by simp [found])
      exact ⟨.ok (), w, by simp [recordLink], .refl w⟩
  unfold link
  rw [recorded]
  cases answer with
  | error interrupt => exact alike
  | ok done =>
    refine alike.trans ?_
    rcases linkedThrough (alike.keyed keyed) peer id with same | ⟨b, present, admitted, -⟩
    · exact same
    · have name := alike.keyed keyed present
      rcases idle with missing | rfl
      · -- nobody is behind the identity that the peer would take in
        have gone : v.isLive id = false := by
          unfold isLive
          rw [alike.find?, missing, alike.stubs, stubless missing]
          rfl
        simp [admits, gone] at admitted
      · simp [admits, name] at admitted

structure Adopted (parent child : Identity) (old role : Role) (v : World) : Prop where
  rooted : v.Rooted
  other : child ≠ parent
  linked : ∃ a, v.find? parent = some a ∧ a.role = old ∧ child ∈ a.core.links.members
  created : ∃ b, v.find? child = some b ∧ b.role = role ∧ b.core.life = .running ∧
    parent ∈ b.core.links.members

theorem Adopted.emit {old role : Role} (adopted : Adopted parent child old role v) (event : Event) :
    Adopted parent child old role (v.emit event) :=
  ⟨⟨adopted.rooted.keyed, adopted.rooted.given⟩, adopted.other, adopted.linked, adopted.created⟩

/-- While there are serials left, a new actor is started under the next identity. -/
theorem allocateStarted_ok (room : w.serial ≤ Identity.maxSerial) (tag : Tag) (role : Role) :
    let id := Identity.ofSerial w.serial tag
    ∃ v, w.allocateStarted tag role = .ok id v ∧ v = ((w.allocate tag role).2.start id).world ∧
      ∀ i, v.find? i = if i = id then some { core := { id, life := .running }, role }
        else w.find? i := by
  intro id
  have found : (w.allocate tag role).2.find? id = some { core := { id }, role } :=
    (find?_allocate ..).trans (if_pos rfl)
  have started : (w.allocate tag role).2.start id = .ok () ((w.allocate tag role).2.putCore
      { core := { id }, role } { id, life := .running }) := by
    unfold start
    rw [found]
    rfl
  refine ⟨_, ?_, rfl, fun i => ?_⟩
  · rw [allocateStarted, issue_room room]
    dsimp only
    rw [show (w.allocate tag role).2.start (w.allocate tag role).1 = _ from started, started]
    rfl
  · rw [started]
    refine (find?_putCore ..).trans ?_
    rw [find?_allocate]
    by_cases same : i = id
    · exact (if_pos same).trans (if_pos same).symm
    · exact ((if_neg same).trans (if_neg same)).trans (if_neg same).symm

theorem allocateStarted_full (full : Identity.maxSerial < w.serial) (tag : Tag) (role : Role) :
    w.allocateStarted tag role = .error (.exception .exhausted) w := by
  rw [allocateStarted, issue_full full]

theorem spawn_full (full : Identity.maxSerial < w.serial) (parent : Option Identity)
    (options : SpawnOptions) : w.spawn parent options = .error (.exception .exhausted) w := by
  rw [World.spawn, allocateStarted_full full]

theorem openPort_full (full : Identity.maxSerial < w.serial) (owner : Identity) (name : Atom) :
    w.openPort owner name = .error (.exception .exhausted) w := by
  rw [World.openPort, allocateStarted_full full]

section Creation

variable (rooted : w.Rooted) (room : w.serial ≤ Identity.maxSerial) (found : w.find? parent = some a)
include rooted room found

/-- A child whose link succeeds is linked to its parent, and its parent to it. -/
theorem adopted {tag : Tag} {role : Role} (made : w.allocateStarted tag role = .ok child v)
    (linked : v.adopt parent child = .ok (.ok ()) u) : Adopted parent child a.role role u := by
  obtain ⟨v', made', steps, find?⟩ := allocateStarted_ok room tag role
  cases made.symm.trans made'
  have other : Identity.ofSerial w.serial tag ≠ parent :=
    ((rooted.given found).different room tag).symm
  have rooted' : v.Rooted := by
    have allocated := rooted.act (.allocate tag role)
    rw [act, issue_room room] at allocated
    have started := allocated.act (.operate (.ofSerial w.serial tag) .start)
    exact steps ▸ started
  have rooted'' := rooted'.act (.operate parent (.link (.ofSerial w.serial tag)))
  have known : v.find? parent = some a := (find? parent).trans ((if_neg (Ne.symm other)).trans found)
  have present := (find? (.ofSerial w.serial tag)).trans (if_pos rfl)
  have outcome := linking rooted'.keyed (fun missing => by cases present.symm.trans missing) known other
  have same : v.act (.operate parent (.link (.ofSerial w.serial tag)))
    = (v.link parent (.ofSerial w.serial tag)).2 := rfl
  rw [same] at rooted''
  unfold adopt at linked
  revert linked outcome rooted''
  generalize v.link parent (.ofSerial w.serial tag) = result
  intro linked rooted'' outcome
  cases outcome with
  | joined live present' live' stubs serial find?' =>
    cases linked
    cases present.symm.trans present'
    refine ⟨rooted'', other, ⟨_, (find?' parent).trans (if_pos rfl), rfl, ?_⟩,
      ⟨_, (find?' _).trans ((if_neg other).trans (if_pos rfl)), rfl, rfl, ?_⟩⟩
    · exact Links.mem_insert.mpr (.inl rfl)
    · exact Links.mem_insert.mpr (.inl rfl)
  | half exiting live stubs serial find?' =>
    dsimp only at linked
    split at linked <;> cases linked
  | refused dead alike =>
    dsimp only at linked
    split at linked <;> cases linked

theorem spawned {options : SpawnOptions} (linked : options.link = true)
    (made : w.spawn (some parent) options = .ok (.ok child) u) :
    Adopted parent child a.role (.process options.flags) u := by
  obtain ⟨v, started, -⟩ := allocateStarted_ok room .process (.process options.flags)
  rw [spawn_linked linked started] at made
  obtain ⟨t, adopting, rfl, rfl⟩ := announce_ok_iff.mp made
  exact (adopted rooted room found started adopting).emit _

theorem opened {name : Atom} (made : w.openPort parent name = .ok (.ok child) u) :
    Adopted parent child a.role (.port name parent) u := by
  obtain ⟨v, started, -⟩ := allocateStarted_ok room .port (.port name parent)
  rw [openPort_started started] at made
  obtain ⟨t, adopting, rfl, rfl⟩ := announce_ok_iff.mp made
  exact (adopted rooted room found started adopting).emit _

end Creation

end World

end Actors
