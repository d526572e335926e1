import Actors.Proofs.Linking

/-! Bonds. Where links are formed in no other way and none is given up, every link is mutual until one of the
two ends, but those that an actor has asked for after it accepted an exit signal. -/
namespace Actors

def Action.bonds : Action → Bool
  | allocate _ (.plain .unlink) | allocateStub _ _ => false
  | operate _ (.record _) | operate _ (.unlink _) => false
  | _ => true

namespace Core

variable {c core : Core}

inductive Loosened (c core : Core) : Prop
  | same (links : core.links = c.links) (done : core.isDone = c.isDone)
      (exiting : ∀ reason, c.life = .exiting reason → core.life = .exiting reason)
  | past (links : core.links = {}) (done : core.isDone = true)

theorem Loosened.member {peer : Identity} (loosened : Loosened c core)
    (member : peer ∈ core.links.members) : peer ∈ c.links.members ∧
      ∀ reason, c.life = .exiting reason → core.life = .exiting reason := by
  cases loosened with
  | same links done exiting => exact ⟨links ▸ member, exiting⟩
  | past links done =>
    rw [links] at member
    cases member

theorem Loosened.alive (loosened : Loosened c core) (alive : core.isDone = false) :
    c.isDone = false ∧ core.links = c.links := by
  cases loosened with
  | same links done exiting => exact ⟨done ▸ alive, links⟩
  | past links done => cases alive.symm.trans done

theorem Waited.loosened (waited : Waited c core) : Loosened c core :=
  .same waited.links (isDone_of_life waited.life) fun _ exiting => waited.life.trans exiting

/-- Without joins and partings, strokes leave the links alone or end the actor. -/
theorem Struck.loosened {may : Core → Stroke → Prop} (struck : Struck may c core)
    (unjoined : ∀ core peer, ¬may core (.join peer)) (unparted : ∀ core peer, ¬may core (.part peer)) :
    Loosened c core := by
  refine struck.keeps (.same rfl rfl fun _ exiting => exiting) fun core stroke loosened suffers may => ?_
  have moved (alive : core.isDone = false) (links : (core.struck stroke).links = core.links)
      (still : (core.struck stroke).isDone = false)
      (exiting : ∀ reason, core.life = .exiting reason →
        (core.struck stroke).life = .exiting reason) : Loosened c (core.struck stroke) := by
    cases loosened with
    | past links' done => cases alive.symm.trans done
    | same links' done exiting' =>
      exact .same (links.trans links') (still.trans (alive.symm.trans done)) fun reason was =>
        exiting reason (exiting' reason was)
  cases stroke with
  | start =>
    have unborn : core.life = .init := suffers
    exact moved (by simp [isDone, phase, unborn, Life.phase]) rfl rfl fun reason exiting => by
      cases unborn.symm.trans exiting
  | accept sender reason =>
    have runs : core.life = .running := suffers
    exact moved (by simp [isDone, phase, runs, Life.phase]) rfl rfl fun reason exiting => by
      cases runs.symm.trans exiting
  | finish reason => exact .past rfl rfl
  | post message => exact moved suffers rfl suffers fun reason exiting => exiting
  | join peer => exact absurd may (unjoined core peer)
  | part peer => exact absurd may (unparted core peer)

end Core

namespace World

variable {w v : World} {id peer : Identity} {a b : Actor} {trace : List Moment}

/-- A link that an actor asked for after it had accepted an exit signal, and that failed. -/
def Attempted (id peer : Identity) (trace : List Moment) : Prop :=
  ∃ m ∈ trace, m.2 = .operate id (.link peer) ∧
    (∃ a reason, m.1.find? id = some a ∧ a.core.life = .exiting reason) ∧
    (m.1.link id peer).1 = .error .noproc

theorem Attempted.append {later : List Moment} (attempted : Attempted id peer trace) :
    Attempted id peer (trace ++ later) := by
  obtain ⟨m, member, rest⟩ := attempted
  exact ⟨m, List.mem_append_left _ member, rest⟩

structure Bonded (trace : List Moment) (w : World) : Prop where
  rooted : w.Rooted
  stubless : ∀ i, w.stubs.find? i = none
  loyal : ∀ ⦃i a⦄, w.find? i = some a → a.role ≠ .plain .unlink
  cleared : ∀ ⦃i a⦄, w.find? i = some a → a.core.isDone = true → a.core.links = {}
  given : ∀ ⦃i a⦄, w.find? i = some a → ∀ peer ∈ a.core.links.members, peer ≠ i ∧ w.Gave peer
  paired : ∀ ⦃i a⦄, w.find? i = some a → ∀ peer ∈ a.core.links.members, ∀ b,
    w.find? peer = some b → b.core.isDone = false → i ∈ b.core.links.members ∨
      (∃ reason, a.core.life = .exiting reason) ∧ Attempted i peer trace

namespace Bonded

theorem empty : Bonded [] {} where
  rooted := rooted_empty
  stubless _ := rfl
  loyal _ _ found := by cases found
  cleared _ _ found := by cases found
  given _ _ found := by cases found
  paired _ _ found := by cases found

/-- Bonds hold on where actors are new and have no links, or have had theirs loosened at most. -/
theorem loosen (bonded : Bonded trace w) (later : List Moment) (rooted : v.Rooted)
    (stubs : v.stubs = w.stubs) (serial : w.serial ≤ v.serial)
    (each : ∀ ⦃i b⦄, v.find? i = some b → b.role ≠ .plain .unlink ∧
      (¬w.Gave i ∧ b.core.links = {} ∨ ∃ a, w.find? i = some a ∧ a.core.Loosened b.core)) :
    Bonded (trace ++ later) v := by
  have old ⦃i b peer⦄ (found : v.find? i = some b) (member : peer ∈ b.core.links.members) :
      ∃ a, w.find? i = some a ∧ peer ∈ a.core.links.members ∧
        ∀ reason, a.core.life = .exiting reason → b.core.life = .exiting reason := by
    obtain ⟨-, ⟨-, none⟩ | ⟨a, was, loosened⟩⟩ := each found
    · rw [none] at member
      cases member
    · exact ⟨a, was, loosened.member member⟩
  refine ⟨rooted, fun i => by rw [stubs, bonded.stubless], fun i b found => (each found).1,
    fun i b found done => ?_, fun i b found peer member => ?_,
    fun i b found peer member c present alive => ?_⟩
  · obtain ⟨-, ⟨-, none⟩ | ⟨a, was, loosened⟩⟩ := each found
    · exact none
    · cases loosened with
      | same links still exiting => exact links.trans (bonded.cleared was (still ▸ done))
      | past links done => exact links
  · obtain ⟨a, was, before, -⟩ := old found member
    obtain ⟨other, gave⟩ := bonded.given was peer before
    exact ⟨other, gave.mono serial⟩
  · obtain ⟨a, was, before, exiting⟩ := old found member
    obtain ⟨-, gave⟩ := bonded.given was peer before
    obtain ⟨-, ⟨new, -⟩ | ⟨d, known, loosened⟩⟩ := each present
    · exact absurd gave new
    · obtain ⟨going, links⟩ := loosened.alive alive
      obtain back | ⟨⟨reason, leaving⟩, attempted⟩ := bonded.paired was peer before d known going
      · exact .inl (links ▸ back)
      · exact .inr ⟨⟨reason, exiting reason leaving⟩, attempted.append⟩

theorem alike (bonded : Bonded trace w) (later : List Moment) (alike : Alike w v) :
    Bonded (trace ++ later) v := by
  have rooted : v.Rooted := by
    refine ⟨alike.keyed bonded.rooted.keyed, fun i b found => ?_⟩
    exact (bonded.rooted.given (alike.find? i ▸ found)).mono alike.serial.ge
  refine bonded.loosen later rooted alike.stubs alike.serial.ge fun i b found => ?_
  rw [alike.find?] at found
  exact ⟨bonded.loyal found, .inr ⟨b, found, .same rfl rfl fun _ exiting => exiting⟩⟩

/-- Bonds hold on where links have been added that are mutual or were asked for too late. -/
theorem join (bonded : Bonded trace w) (later : List Moment) (new : Identity → Identity → Prop)
    (rooted : v.Rooted) (stubs : v.stubs = w.stubs) (serial : w.serial ≤ v.serial)
    (each : ∀ ⦃i b⦄, v.find? i = some b → ∃ a, w.find? i = some a ∧ (b = a ∨
      a.core.isDone = false ∧ ∃ peer, new i peer ∧ b = { a with core := a.core.insertLink peer }))
    (added : ∀ ⦃i peer⦄, new i peer → peer ≠ i ∧ w.Gave peer ∧ ∀ b c, v.find? i = some b →
      v.find? peer = some c → i ∈ c.core.links.members ∨
        (∃ reason, b.core.life = .exiting reason) ∧ Attempted i peer (trace ++ later)) :
    Bonded (trace ++ later) v := by
  have old ⦃i b peer⦄ (found : v.find? i = some b) (member : peer ∈ b.core.links.members) :
      new i peer ∨ ∃ a, w.find? i = some a ∧ b.core.life = a.core.life ∧
        peer ∈ a.core.links.members := by
    obtain ⟨a, was, rfl | ⟨-, other, joined, rfl⟩⟩ := each found
    · exact .inr ⟨b, was, rfl, member⟩
    · rcases Links.mem_insert.mp member with rfl | before
      · exact .inl joined
      · exact .inr ⟨a, was, rfl, before⟩
  refine ⟨rooted, fun i => by rw [stubs, bonded.stubless], fun i b found => ?_,
    fun i b found done => ?_, fun i b found peer member => ?_,
    fun i b found peer member c present alive => ?_⟩
  · obtain ⟨a, was, rfl | ⟨-, -, -, rfl⟩⟩ := each found
    · exact bonded.loyal was
    · have loyal := bonded.loyal was
      exact loyal
  · obtain ⟨a, was, rfl | ⟨alive, other, -, rfl⟩⟩ := each found
    · exact bonded.cleared was done
    · cases alive.symm.trans done
  · obtain joined | ⟨a, was, -, before⟩ := old found member
    · exact ⟨(added joined).1, (added joined).2.1.mono serial⟩
    · exact ⟨(bonded.given was peer before).1, (bonded.given was peer before).2.mono serial⟩
  · obtain joined | ⟨a, was, life, before⟩ := old found member
    · exact (added joined).2.2 b c found present
    · obtain ⟨d, known, unchanged | ⟨running, other, -, inserted⟩⟩ := each present
      · subst unchanged
        obtain back | ⟨⟨reason, exiting⟩, attempted⟩ := bonded.paired was peer before c known alive
        · exact .inl back
        · exact .inr ⟨⟨reason, life.trans exiting⟩, attempted.append⟩
      · obtain back | ⟨⟨reason, exiting⟩, attempted⟩ := bonded.paired was peer before d known running
        · exact .inl (inserted ▸ Links.mem_insert.mpr (.inr back))
        · exact .inr ⟨⟨reason, life.trans exiting⟩, attempted.append⟩

section Link

variable {id peer : Identity} (bonded : Bonded trace w) (later : List Moment) (rooted : v.Rooted)
  (other : peer ≠ id) (found : w.find? id = some a) (stubs : v.stubs = w.stubs)
  (serial : v.serial = w.serial)
include bonded rooted other found stubs serial

theorem joined (present : w.find? peer = some b) (alive : a.core.isDone = false)
    (alive' : b.core.isDone = false)
    (find? : ∀ i, v.find? i = if i = id then some { a with core := a.core.insertLink peer }
      else if i = peer then some { b with core := b.core.insertLink id } else w.find? i) :
    Bonded (trace ++ later) v := by
  have own : v.find? id = some { a with core := a.core.insertLink peer } :=
    (find? id).trans (if_pos rfl)
  have back : v.find? peer = some { b with core := b.core.insertLink id } := by
    rw [find?, if_neg other, if_pos rfl]
  refine bonded.join _ (fun i p => i = id ∧ p = peer ∨ i = peer ∧ p = id) rooted stubs
    serial.ge (fun i c at' => ?_) ?_
  · rw [find?] at at'
    split at at'
    · next same =>
      cases at'
      exact ⟨a, same ▸ found, .inr ⟨alive, peer, .inl ⟨same, rfl⟩, rfl⟩⟩
    · split at at'
      · next same =>
        cases at'
        exact ⟨b, same ▸ present, .inr ⟨alive', id, .inr ⟨same, rfl⟩, rfl⟩⟩
      · exact ⟨c, at', .inl rfl⟩
  · rintro i p (⟨rfl, rfl⟩ | ⟨rfl, rfl⟩)
    · refine ⟨other, bonded.rooted.given present, fun c d _ at' => .inl ?_⟩
      cases back.symm.trans at'
      exact Links.mem_insert.mpr (.inl rfl)
    · refine ⟨Ne.symm other, bonded.rooted.given found, fun c d _ at' => .inl ?_⟩
      cases own.symm.trans at'
      exact Links.mem_insert.mpr (.inl rfl)

theorem half {reason : Exit} (exiting : a.core.life = .exiting reason)
    (live : w.isLive peer = true)
    (find? : ∀ i, v.find? i = if i = id then some { a with core := a.core.insertLink peer }
      else w.find? i)
    (attempted : Attempted id peer (trace ++ later)) : Bonded (trace ++ later) v := by
  have own : v.find? id = some { a with core := a.core.insertLink peer } :=
    (find? id).trans (if_pos rfl)
  have alive : a.core.isDone = false := by simp [Core.isDone, Core.phase, exiting, Life.phase]
  refine bonded.join _ (fun i p => i = id ∧ p = peer) rooted stubs serial.ge
    (fun i c at' => ?_) ?_
  · rw [find?] at at'
    split at at'
    · next same =>
      cases at'
      exact ⟨a, same ▸ found, .inr ⟨alive, peer, ⟨same, rfl⟩, rfl⟩⟩
    · exact ⟨c, at', .inl rfl⟩
  · rintro i p ⟨rfl, rfl⟩
    obtain ⟨b, present, -⟩ := (isLive_iff fun _ => bonded.stubless _).mp live
    refine ⟨other, bonded.rooted.given present, fun c d at' _ => .inr ⟨⟨reason, ?_⟩, attempted⟩⟩
    cases own.symm.trans at'
    exact exiting

end Link

theorem link (bonded : Bonded trace w) (id peer : Identity) :
    Bonded (trace ++ [(w, .operate id (.link peer))]) (w.act (.operate id (.link peer))) := by
  have rooted := bonded.rooted.act (.operate id (.link peer))
  have outcome : w.act (.operate id (.link peer)) = (w.link id peer).2 := rfl
  by_cases idle : w.find? id = none ∨ peer = id
  · exact bonded.alike _ (link_idle bonded.rooted.keyed (fun _ => bonded.stubless id) idle)
  · obtain ⟨known, other⟩ := not_or.mp idle
    obtain ⟨a, found⟩ := Option.ne_none_iff_exists'.mp known
    have linked := linking bonded.rooted.keyed (fun _ => bonded.stubless peer) found other
    cases result : w.link id peer with
    | mk answer v =>
      rw [outcome, result] at rooted ⊢
      rw [result] at linked
      cases linked with
      | refused dead alike => exact bonded.alike _ alike
      | joined live present live' stubs serial find? =>
        exact bonded.joined _ rooted other found stubs serial present (Core.isLive_iff.mp live).1
          (Core.isLive_iff.mp live').1 find?
      | half exiting live stubs serial find? =>
        refine bonded.half _ rooted other found stubs serial exiting live find? ?_
        exact ⟨_, List.mem_append_right _ List.mem_cons_self, rfl, ⟨a, _, found, exiting⟩,
          congrArg Prod.fst result⟩

/-- Every action but a link that leaves links alone loosens them at most. -/
theorem act (bonded : Bonded trace w) {action : Action} (bonds : action.bonds = true) :
    Bonded (trace ++ [(w, action)]) (w.act action) := by
  by_cases linking : ∃ id peer, action = .operate id (.link peer)
  · obtain ⟨id, peer, rfl⟩ := linking
    exact bonded.link id peer
  · refine bonded.loosen _ (bonded.rooted.act action) ?_ (serial_le_act bonded.rooted.keyed action)
      fun i b found => ?_
    · cases action with
      | operate other op => exact stubs_operate bonded.rooted.keyed other op
      | allocate tag role =>
        rw [World.act, world_issue]
        split <;> rfl
      | free other => rfl
      | setStub other isLive =>
        rw [World.act, World.setStub, bonded.stubless]
      | allocateStub tag stub => cases bonds
    · cases known : w.find? i with
      | none =>
        obtain ⟨tag, rfl, core⟩ := allocated_act bonded.rooted.keyed known found
        refine ⟨fun role => ?_, .inl ⟨fun gave => ?_, by rw [core]⟩⟩
        · rw [role] at bonds
          cases bonds
        · cases (gave.act_missing bonded.rooted.keyed known _).symm.trans found
      | some a =>
        obtain ⟨stays, treated⟩ :=
          treated_act bonded.rooted known Traffic.spreads_any (sends_any action) found
        refine ⟨fun role => bonded.loyal known (stays.plain role), .inr ⟨a, rfl, ?_⟩⟩
        cases treated with
        | waited waits waited queue => exact waited.loosened
        | struck struck =>
          refine struck.loosened ?_ ?_
          · rintro core peer (⟨u, -, -, cause⟩ | ⟨other, op, rfl, deals⟩)
            · cases cause
            · cases deals with
              | record peer => cases bonds
              | link peer => exact linking ⟨_, _, rfl⟩
              | linkBack peer => exact linking ⟨_, _, rfl⟩
          · rintro core peer (⟨u, -, -, cause⟩ | ⟨other, op, rfl, deals⟩)
            · cases cause with
              | parted role => exact bonded.loyal known role
            · cases deals with
              | unlink peer => cases bonds

end Bonded

theorem Course.bonded (course : Course {} trace w) (bonds : ∀ m ∈ trace, m.2.bonds = true) :
    Bonded trace w := by
  induction course with
  | refl => exact .empty
  | act earlier action ih =>
    obtain ⟨before, last⟩ := List.forall_mem_append.mp bonds
    exact (ih before).act (last _ List.mem_cons_self)
  | @drift trace v earlier calls journal ih =>
    have held := ih bonds
    exact ⟨⟨held.rooted.keyed, held.rooted.given⟩, held.stubless, held.loyal, held.cleared, held.given,
      held.paired⟩

theorem founds_bonds : Founds (·.bonds = true) := by
  refine ⟨fun tag role bodied => ?_, fun _ => rfl, fun _ _ => rfl, fun _ _ => rfl⟩
  cases role with
  | plain hook => exact absurd rfl (bodied hook)
  | _ => rfl

/-- Where links are formed by `link` alone, also in `spawn` and `openPort`, and none is given up, two
actors are linked exactly if both are live, and then to each other; a link that fails leaves the peer
as it was. Every link is mutual until the peer is done or gone, except one that an actor asked for
too late. -/
theorem links_are_mutual (course : Course {} trace w) (bonds : ∀ m ∈ trace, m.2.bonds = true) :
    (∀ id a, w.find? id = some a →
      (∀ peer ≠ id,
        ((w.link id peer).1 = .ok () ↔
          a.core.isLive = true ∧ ∃ b, w.find? peer = some b ∧ b.core.isLive = true) ∧
        ((w.link id peer).1 = .ok () → ∃ a' b', (w.link id peer).2.find? id = some a' ∧
          (w.link id peer).2.find? peer = some b' ∧ peer ∈ a'.core.links.members ∧
          id ∈ b'.core.links.members) ∧
        ((w.link id peer).1 ≠ .ok () → (w.link id peer).1 = .error .noproc ∧
          (w.link id peer).2.find? peer = w.find? peer)) ∧
      ∀ peer ∈ a.core.links.members, peer ≠ id ∧ ∀ b, w.find? peer = some b →
        id ∈ b.core.links.members ∨ b.core.isDone = true ∨
          (∃ reason, a.core.life = .exiting reason) ∧ Attempted id peer trace) ∧
    (∀ parent options, Leads (·.bonds = true) w (w.spawn parent options).world) ∧
    ∀ owner name, Leads (·.bonds = true) w (w.openPort owner name).world := by
  have bonded := course.bonded bonds
  have keyed := bonded.rooted.keyed
  refine ⟨fun id a found => ⟨fun peer other => ?_, fun peer member => ?_⟩,
    fun parent options => leads_spawn founds_bonds keyed parent options,
    fun owner name => leads_openPort founds_bonds keyed owner name⟩
  · have stubless : w.find? peer = none → w.stubs.find? peer = none := fun _ => bonded.stubless peer
    exact (linking keyed stubless found other).outcome stubless other
  · refine ⟨(bonded.given found peer member).1, fun b present => ?_⟩
    cases alive : b.core.isDone with
    | true => exact .inr (.inl rfl)
    | false => exact (bonded.paired found peer member b present alive).imp_right .inr

def halfLinking : List Action :=
  let id (serial : Nat) : Identity := .ofSerial serial .process
  let process : Action := .allocate .process (.process .empty)
  [process, process, process, .operate (id 1) .start, .operate (id 2) .start,
    .operate (id 1) (.link (id 2)), .operate (id 1) (.signal (id 3) (.atom ⟨"crash"⟩)),
    .operate (id 1) (.link (id 3))]

/-- The link that was asked for too late is on one side only, and is on record as attempted. -/
theorem halfLinked_attempted :
    let id (serial : Nat) : Identity := .ofSerial serial .process
    let w := run {} halfLinking
    (∀ m ∈ moments {} halfLinking, m.2.bonds = true) ∧ ∃ a b c,
      w.find? (id 1) = some a ∧ w.find? (id 2) = some b ∧ w.find? (id 3) = some c ∧
      a.core.links.members = [id 2, id 3] ∧ b.core.links.members = [id 1] ∧
      c.core.links.members = [] ∧ Attempted (id 1) (id 3) (moments {} halfLinking) ∧
      (w.link (id 2) (id 3)).1 = .ok () := by
  intro id w
  have bonds : ∀ m ∈ moments {} halfLinking, m.2.bonds = true := by
    simp [halfLinking, moments, Action.bonds]
  obtain ⟨actors, -⟩ := links_are_mutual (course_run {} halfLinking) bonds
  obtain ⟨a, found, linked⟩ : ∃ a, w.find? (id 1) = some a ∧
    a.core.links.members = [id 2, id 3] := ⟨_, rfl, rfl⟩
  obtain ⟨b, present, linked', live⟩ : ∃ b, w.find? (id 2) = some b ∧
    b.core.links.members = [id 1] ∧ b.core.isLive = true := ⟨_, rfl, rfl, rfl⟩
  obtain ⟨c, known, none, live'⟩ : ∃ c, w.find? (id 3) = some c ∧
    c.core.links.members = [] ∧ c.core.isLive = true := ⟨_, rfl, rfl, rfl⟩
  refine ⟨bonds, a, b, c, found, present, known, linked, linked', none, ?_, ?_⟩
  · obtain ⟨-, either⟩ := (actors _ a found).2 (id 3) (by simp [linked])
    obtain back | done | ⟨-, attempted⟩ := either c known
    · simp [none] at back
    · cases (Core.isLive_iff.mp live').1.symm.trans done
    · exact attempted
  · exact ((actors _ b present).1 (id 3) (by decide)).1.mpr ⟨live, c, known, live'⟩

end World

end Actors
