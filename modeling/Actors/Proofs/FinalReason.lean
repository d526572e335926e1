import Actors.Proofs.Driving

/-! The final reason. Of the signals that an actor accepts and the ends that it is told, the first
accepted one is recorded, or else the first end that is told. A driver ends its actor with what is
recorded, and with the outcome of the body if nothing is; its own end is then the same, and so is
what the links of the actor are told. -/
namespace Actors

theorem Core.Moves.alive {leave : Core → Prop} {c core : Core} (moves : Moves leave c core)
    (never : ∀ c, ¬leave c) (alive : c.isDone = false) : core.isDone = false := by
  induction moves with
  | refl => exact alive
  | tail earlier move ih =>
    cases move with
    | start unborn => rfl
    | accept runs reason => rfl
    | finish may running reason => exact absurd may (never _)
    | post running message => exact ih
    | relink links => exact ih

namespace World

variable {w v u : World} {id : Identity} {a b : Actor} {trace : List Moment}

def acceptedAt (id : Identity) (m : Moment) : Option Exit :=
  match m.1.find? id, (m.1.act m.2).find? id with
  | some a, some b => if a.core.life.surfaced?.isSome then none else b.core.life.pending?
  | _, _ => none

def toldAt (id : Identity) (m : Moment) : Option Exit := (m.1.find? id).bind fun _ => m.2.given? id

def accepted? (id : Identity) (trace : List Moment) : Option Exit := trace.findSome? (acceptedAt id)

def told? (id : Identity) (trace : List Moment) : Option Exit := trace.findSome? (toldAt id)

theorem Course.unseen (course : Course {} trace u) (missing : u.find? id = none) {action : Action}
    (present : (u.act action).find? id = some a) : ∀ m ∈ trace, m.1.find? id = none := by
  intro m member
  by_contra seen
  obtain ⟨b, found⟩ := Option.ne_none_iff_exists'.mp seen
  obtain ⟨⟨_, before⟩, _, after, -⟩ := course.split member
  have rooted := before.rooted rooted_empty
  have gave := after.gave (rooted.act m.2) ((rooted.given found).act rooted.keyed m.2)
  have gone := gave.act_missing (course.rooted rooted_empty).keyed missing action
  cases gone.symm.trans present

/-- What is recorded after a turn is the signal that was accepted in it, or else the reason that the
action gives. -/
theorem Turn.recorded {action : Action} (turn : Turn id action a b)
    (plain : a.role.endsItself = false) (alive : a.core.life.surfaced? = none) :
    b.core.life.surfaced? = b.core.life.pending?.or (action.given? id) := by
  have running : a.core.isDone = false := by
    cases life : a.core.life <;> simp_all [Life.surfaced?, Core.isDone, Core.phase, Life.phase]
  have unseen (life : b.core.life = a.core.life) (endless : action.given? id = none) :
      b.core.life.surfaced? = b.core.life.pending?.or (action.given? id) := by
    rw [life, endless]
    cases same : a.core.life <;> simp_all [Life.surfaced?, Life.pending?]
  cases turn with
  | polled polls core => exact unseen (core ▸ (a.core.waited_polled ..).life) (polls ▸ rfl)
  | cancelled cancels core => exact unseen (core ▸ (a.core.waited_cancel ..).life) (cancels ▸ rfl)
  | @ended reason ends core =>
    have given : action.given? id = some reason := ends ▸ if_pos rfl
    have life : b.core.life = .done reason := by
      rw [core, Core.finish_alive running]
      cases same : a.core.life <;>
        simp_all [Core.ended, Core.alert, Core.finalReason, Life.surfaced?, Life.pending?]
    rw [given, life]
    rfl
  | moved idle endless moves =>
    have still : b.core.isDone = false :=
      moves.alive (fun core may => by simp [Actor.EndsItself, plain] at may) running
    rw [endless]
    cases life : b.core.life with
    | done final => exact absurd (Core.isDone_iff.mpr ⟨final, life⟩) (by simp [still])
    | _ => simp [Life.surfaced?, Life.pending?]

/-- What is recorded is the reason of the accepted signal, or else the first that was told. -/
theorem Course.recorded (course : Course {} trace v) (found : v.find? id = some a)
    (plain : a.role.endsItself = false) :
    a.core.life.surfaced? = (accepted? id trace).or (told? id trace) := by
  induction course generalizing a with
  | refl => cases found
  | @act trace u earlier action ih =>
    have rooted := earlier.rooted rooted_empty
    obtain ⟨missing, core⟩ | ⟨b, present, role, turn⟩ := found_act rooted action found
    · -- the actor has just been allocated, and no moment up to now was about it
      have unseen : ∀ m ∈ trace ++ [(u, action)], m.1.find? id = none := by
        intro m member
        rcases List.mem_append.mp member with inside | last
        · exact earlier.unseen missing found m inside
        · exact List.mem_singleton.mp last ▸ missing
      have accepted : accepted? id (trace ++ [(u, action)]) = none :=
        List.findSome?_eq_none_iff.mpr fun m member => by simp [acceptedAt, unseen m member]
      have told : told? id (trace ++ [(u, action)]) = none :=
        List.findSome?_eq_none_iff.mpr fun m member => by simp [toldAt, unseen m member]
      rw [accepted, told, core]
      rfl
    · have before := ih present (role ▸ plain)
      have accepted : accepted? id (trace ++ [(u, action)]) = (accepted? id trace).or
          (if b.core.life.surfaced?.isSome then none else a.core.life.pending?) := by
        simp [accepted?, List.findSome?_append, acceptedAt, present, found]
      have told : told? id (trace ++ [(u, action)]) = (told? id trace).or (action.given? id) := by
        simp [told?, List.findSome?_append, toldAt, present]
      rw [accepted, told]
      cases surfaced : b.core.life.surfaced? with
      | some reason =>
        rw [surfaced] at before
        rw [turn.surfaced surfaced]
        cases first : accepted? id trace with
        | some accepted => simpa [first] using before
        | none =>
          rw [first, Option.none_or] at before
          simp [← before]
      | none =>
        rw [surfaced] at before
        obtain ⟨none, none'⟩ := Option.or_eq_none_iff.mp before.symm
        rw [turn.recorded (role ▸ plain) surfaced, none, none']
        simp
  | drift earlier calls journal ih => exact ih found plain

/-- An actor that no hook of its own ends is told to when it ends. -/
theorem Course.ended_by (course : Course {} trace v) (found : v.find? id = some a)
    (plain : a.role.endsItself = false) (done : a.core.isDone = true) :
    ∃ m ∈ trace, ∃ reason b, m.2 = .operate id (.terminate reason) ∧ m.1.find? id = some b ∧
      b.core.isDone = false := by
  induction course generalizing a with
  | refl => cases found
  | @act trace u earlier action ih =>
    have rooted := earlier.rooted rooted_empty
    obtain ⟨missing, core⟩ | ⟨b, present, role, turn⟩ := found_act rooted action found
    · rw [core] at done
      cases done
    · cases ended : b.core.isDone with
      | true =>
        obtain ⟨m, member, told⟩ := ih present (role ▸ plain) ended
        exact ⟨m, List.mem_append_left _ member, told⟩
      | false =>
        cases turn with
        | polled polls core =>
          rw [core, Core.isDone, Core.phase, (b.core.waited_polled ..).life] at done
          cases ended.symm.trans done
        | cancelled cancels core =>
          rw [core, Core.isDone, Core.phase, (b.core.waited_cancel ..).life] at done
          cases ended.symm.trans done
        | ended ends core =>
          exact ⟨_, List.mem_append_right _ List.mem_cons_self, _, b, ends, present, ended⟩
        | moved idle endless moves =>
          have still := moves.alive
            (fun core may => by simp [Actor.EndsItself, role ▸ plain] at may) ended
          cases still.symm.trans done
  | drift earlier calls journal ih => exact ih found plain done

def Tells (id : Identity) (exit : Exit) (m : Moment) : Prop :=
  ∃ reason a u, m.2 = .operate id (.terminate reason) ∧ m.1.find? id = some a ∧
    a.core.isDone = false ∧ a.core.finalReason reason = exit ∧
    Answered id exit (m.1.ended a reason) a.core.links.members u ∧ m.1.act m.2 = u.leaving m.1

theorem tells (keyed : w.Keyed) (found : w.find? id = some a) (alive : a.core.isDone = false)
    (reason : Exit) (calm : ∀ fault v, w.terminate id reason ≠ .error fault v) :
    Tells id (a.core.finalReason reason) (w, .operate id (.terminate reason)) := by
  cases answered : w.terminate id reason with
  | error fault v => exact absurd answered (calm fault v)
  | ok answer v =>
    have outcome := answered
    rw [terminate_alive keyed found alive] at outcome
    obtain ⟨-, u, told, left⟩ := concluding_ok_iff.mp outcome
    refine ⟨reason, a, u, rfl, found, alive, rfl, broadcast_ok_iff.mp told, ?_⟩
    rw [act, operate, answered]
    exact left

/-- The reason that links are told of is recorded from then on. -/
theorem Tells.recorded {m : Moment} {exit : Exit} (tells : Tells id exit m) (keyed : m.1.Keyed) :
    ∃ b, (m.1.act m.2).find? id = some b ∧ b.core.life.surfaced? = some exit := by
  obtain ⟨reason, a, u, ends, found, alive, rfl, -, -⟩ := tells
  have operated := operated_terminate keyed found reason
  rw [ends]
  refine ⟨_, operated.found, ?_⟩
  rw [Operation.core, Core.finish_alive alive]
  rfl

/-- If no delivery raises, an actor that has ended told its links of the reason that it is done
with, and of no other. -/
theorem Course.tells (course : Course {} trace v) (found : v.find? id = some a)
    (plain : a.role.endsItself = false) {exit : Exit} (done : a.core.life = .done exit)
    (calm : ∀ m ∈ trace, ∀ reason, m.2 = .operate id (.terminate reason) →
      ∀ fault v, m.1.terminate id reason ≠ .error fault v) :
    (∃ m ∈ trace, Tells id exit m) ∧ ∀ m ∈ trace, ∀ reason, Tells id reason m → reason = exit := by
  have same (m : Moment) (member : m ∈ trace) (reason : Exit) (told : Tells id reason m) :
      reason = exit := by
    obtain ⟨⟨_, before⟩, _, after, -⟩ := course.split member
    have rooted := before.rooted rooted_empty
    obtain ⟨b, present, recorded⟩ := told.recorded rooted.keyed
    have last := after.keeps (P := fun core => core.life.surfaced? = some reason)
      (rooted.act m.2) present recorded (fun _ _ _ _ _ seen turn => turn.surfaced seen) found
    rw [done] at last
    exact (Option.some.inj last).symm
  refine ⟨?_, same⟩
  obtain ⟨⟨w, action⟩, member, reason, b, ends, present, alive⟩ :=
    course.ended_by found plain (Core.isDone_iff.mpr ⟨exit, done⟩)
  cases ends
  obtain ⟨⟨_, before⟩, -⟩ := course.split member
  have told := World.tells (before.rooted rooted_empty).keyed present alive reason
    (calm _ member reason rfl)
  exact ⟨_, member, same _ member _ told ▸ told⟩

end World

namespace Node

variable {β : Type} {resume : β → Node → Progress β × Node} {abandon : β → Node → Node}
  {id : Identity} {exitWait : Option Nat} {first body : β} {start n left : Node} {a : Actor}
  {earlier trace last : List World.Moment} {given : Exit}

/-- The last poll of a driver up to the end of its actor, and the reason that it then gives: it
finds the exit and gives the body up, or the body is over. -/
inductive Closes (resume : β → Node → Progress β × Node) (abandon : β → Node → Node)
    (id : Identity) (exitWait : Option Nat) (body : β) (n : Node) :
    List World.Moment → Exit → Node → Prop
  | preempted {reason : Exit} {work : List World.Moment}
      (ready : (n.pollCore id (Core.pollExit (some id) exitWait)).1 = some (.ready reason))
      (course : World.Course (n.looked id exitWait).world work
        (abandon body (n.looked id exitWait)).world) :
      Closes resume abandon id exitWait body n ((n.world, looking id exitWait) :: work) reason
        ((abandon body (n.looked id exitWait)).mapWorld (·.emit (.preempted reason)))
  | finished {ticket : Nat} {outcome : Progress β} {after : Node} {work : List World.Moment}
      {given : Exit}
      (pending : (n.pollCore id (Core.pollExit (some id) exitWait)).1 = some (.pending ticket))
      (resumed : resume body (n.looked id exitWait) = (outcome, after))
      (reasoned : outcome.reason? = some given)
      (course : World.Course (n.looked id exitWait).world work after.world) :
      Closes resume abandon id exitWait body n
        ((n.world, looking id exitWait) :: work
          ++ [(after.world, .operate id (.cancel .exit ticket))])
        given (cancelExitWait id ticket after)

theorem Closes.drive (closes : Closes resume abandon id exitWait body n last given left)
    (found : n.world.find? id = some a) :
    drive resume abandon id exitWait body n = settle id given left := by
  cases closes with
  | preempted ready course =>
    rw [pollCore_looked found] at ready
    exact drive_ready found (Option.some.inj ready)
  | finished pending resumed reasoned course =>
    rw [pollCore_looked found] at pending
    exact drive_outcome found (Option.some.inj pending) resumed reasoned

theorem Closes.course (closes : Closes resume abandon id exitWait body n last given left) :
    World.Course n.world last left.world := by
  cases closes with
  | preempted ready course => exact (course_looked n id exitWait course).drift _ _
  | finished pending resumed reasoned course => exact (course_looked n id exitWait course).act _

theorem Driven.kept
    (driven : Driven resume abandon (· ≠ .free id) id first start trace exitWait body n) :
    ∀ m ∈ trace, m.2 ≠ .free id := by
  induction driven with
  | launched => exact fun m member => by cases member
  | meanwhile driven course allowed ih => exact List.forall_mem_append.mpr ⟨ih, allowed⟩
  | polled driven suspended course allowed ih =>
    refine List.forall_mem_append.mpr ⟨ih, List.forall_mem_cons.mpr ⟨?_, allowed⟩⟩
    exact fun same => by cases same

theorem conclude_exit {d : Driver} (known : n.drivers.find? id = some d) (exit : Exit) :
    ((n.conclude id exit).drivers.find? id).bind Driver.exit? = some exit := by
  have ended : ((n.setDriver id (.ended exit)).drivers.find? id).bind Driver.exit? = some exit := by
    rw [setDriver, known]
    exact congrArg (Option.bind · Driver.exit?) (Registry.find?_put_self ..)
  unfold conclude
  dsimp only
  split
  · exact ended
  · exact ended

/-- What a driver ends with, what its actor is done with and what the links of the actor are told
are the same: the reason of the signal that the actor accepted, or else the first that it was told
to end with, or else what the body came to. -/
theorem one_final_reason (reached : World.Course {} earlier start.world)
    (launched : start.world.find? id = some a) (plain : a.role.endsItself = false)
    (driven : Driven resume abandon (· ≠ .free id) id first start trace exitWait body n)
    (closes : Closes resume abandon id exitWait body n last given left)
    (kept : ∀ m ∈ last, m.2 ≠ .free id)
    (calm : ∀ m ∈ earlier ++ trace ++ last ++ [(left.world, .operate id (.terminate given))],
      ∀ reason, m.2 = .operate id (.terminate reason) →
        ∀ fault v, m.1.terminate id reason ≠ .error fault v) :
    let history := earlier ++ trace ++ last
    let exit := ((World.accepted? id history).or (World.told? id history)).getD given
    ∃ m b, drive resume abandon id exitWait body n = (.ended exit, m) ∧
      (∀ d, m.drivers.find? id = some d →
        ((m.conclude id exit).drivers.find? id).bind Driver.exit? = some exit) ∧
      m.world.find? id = some b ∧ b.core.life = .done exit ∧
      (∃ moment ∈ history ++ [(left.world, .operate id (.terminate given))],
        World.Tells id exit moment) ∧
      ∀ moment ∈ history ++ [(left.world, .operate id (.terminate given))],
        ∀ reason, World.Tells id reason moment → reason = exit := by
  intro history exit
  have whole : World.Course {} history left.world :=
    (reached.trans driven.course).trans closes.course
  have rooted := whole.rooted World.rooted_empty
  have before := reached.rooted World.rooted_empty
  obtain ⟨b, found, -, -⟩ := driven.course.carries (P := fun _ => True) before launched driven.kept
    trivial fun _ _ _ _ _ _ _ => trivial
  obtain ⟨c, present, role, -⟩ := (driven.course.trans closes.course).carries (P := fun _ => True)
    before launched (List.forall_mem_append.mpr ⟨driven.kept, kept⟩) trivial
    fun _ _ _ _ _ _ _ => trivial
  have recorded := whole.recorded present (role.trans plain)
  obtain ⟨m, d, ended, rfl, final, role', done⟩ := @settled β id left c rooted.keyed present given
    (calm _ (List.mem_append_right _ List.mem_cons_self) given rfl)
  rw [recorded] at ended done
  have ending := whole.act (.operate id (.terminate given))
  obtain ⟨told, same⟩ := ending.tells final (by rw [role', role, plain]) done calm
  exact ⟨_, d, (closes.drive found).trans ended, fun d known => conclude_exit known exit, final,
    done, told, same⟩

def family : List Action :=
  let self : Identity := .ofSerial 1 .process
  [.allocate .process (.process .empty), .allocate .process (.process .empty),
    .allocate .process (.process .trap), .operate self .start,
    .operate (.ofSerial 2 .process) .start, .operate (.ofSerial 3 .process) .start,
    .operate self (.link (.ofSerial 2 .process)), .operate self (.link (.ofSerial 3 .process))]

def crashing : Action := .operate (.ofSerial 2 .process) (.terminate (.atom ⟨"crash"⟩))

def endLink (_ : Unit) (n : Node) : Progress Unit × Node := (.returned, n.mapWorld (·.act crashing))

theorem family_ends_alike : ∃ m b,
    drive endLink (fun _ n => n) (.ofSerial 1 .process) none () { world := World.run {} family }
      = (.ended (.atom ⟨"crash"⟩), m) ∧
    m.world.find? (.ofSerial 1 .process) = some b ∧ b.core.life = .done (.atom ⟨"crash"⟩) ∧
    ∃ moment, World.Tells (.ofSerial 1 .process) (.atom ⟨"crash"⟩) moment := by
  let self : Identity := .ofSerial 1 .process
  let start : Node := { world := World.run {} family }
  let seen := start.looked self none
  let after := seen.mapWorld (·.act crashing)
  have reached : World.Course {} _ start.world := World.course_run {} family
  obtain ⟨a, found, plain⟩ : ∃ a, start.world.find? self = some a ∧ a.role.endsItself = false :=
    ⟨_, rfl, rfl⟩
  have driven : Driven endLink (fun _ n => n) (· ≠ .free self) self () start [] none () start :=
    .launched
  have closes : Closes endLink (fun _ n => n) self none () start [(start.world, looking self none),
      (seen.world, crashing), (after.world, .operate self (.cancel .exit 0))] .normal
      (cancelExitWait self 0 after) := by
    have working : World.Course seen.world [(seen.world, crashing)] after.world :=
      World.Course.refl.act crashing
    have pending : (start.pollCore self (Core.pollExit (some self) none)).1
      = some (.pending 0) := rfl
    have resumed : endLink () seen = (.returned, after) := rfl
    exact .finished pending resumed rfl working
  have quiet : ∀ m ∈ World.moments {} family ++ [] ++ [(start.world, looking self none),
      (seen.world, crashing), (after.world, .operate self (.cancel .exit 0))],
      m.2.given? self = none := by decide
  obtain ⟨v, answered⟩ : ∃ v, (cancelExitWait self 0 after).world.terminate self .normal
    = .ok (some (.atom ⟨"crash"⟩)) v := ⟨_, rfl⟩
  obtain ⟨m, b, ended, -, present, done, ⟨moment, -, told⟩, -⟩ :=
    one_final_reason reached found plain driven closes (by simp [looking, crashing])
      fun m member reason ends fault u raised => by
        rcases List.mem_append.mp member with inside | last
        · have given := quiet m inside
          rw [ends] at given
          simp [Action.given?] at given
        · cases List.mem_singleton.mp last
          cases ends
          cases answered.symm.trans raised
  exact ⟨m, b, ended, present, done, moment, told⟩

end Node

end Actors
