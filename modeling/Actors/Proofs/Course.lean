import Actors.Proofs.Deed
import Actors.Proofs.History

/-! Courses. Whatever happens in a world is a sequence of actions, between which drivers are called
and things are written. An action leaves an actor freed, or does to its core what the wait it is
about does, or ends it, or lets it make moves, none of which ends it unless its own hook does. -/
namespace Actors

namespace Action

def isWait (id : Identity) : Action → Bool
  | operate other op => other == id && op.isWait
  | _ => false

def given? (id : Identity) : Action → Option Exit
  | operate other (.terminate reason) => if other = id then some reason else none
  | _ => none

end Action

namespace World

variable {w v u : World} {ends : Actor → Prop} {id : Identity} {a : Actor}

def Gave (w : World) (id : Identity) : Prop :=
  ∃ serial < w.serial, ∃ tag, id = .ofSerial serial tag

structure Rooted (w : World) : Prop where
  keyed : w.Keyed
  given : ∀ ⦃i a⦄, w.find? i = some a → w.Gave i

theorem rooted_empty : Rooted {} :=
  ⟨fun _ _ found => (by cases found), fun _ _ found => (by cases found)⟩

theorem Gave.different (gave : w.Gave id) (room : w.serial ≤ Identity.maxSerial) (tag : Tag) :
    id ≠ .ofSerial w.serial tag := by
  obtain ⟨serial, less, tag', rfl⟩ := gave
  intro same
  have less := Identity.ofSerial_lt less room tag' tag
  exact Identity.lt_irrefl _ (same ▸ less)

structure Peopled (w v : World) : Prop where
  keyed : v.Keyed
  missing : ∀ i, w.find? i = none → v.find? i = none
  serial : v.serial = w.serial

theorem Deeds.peopled (deeds : Deeds ends w v) (keyed : w.Keyed) : Peopled w v :=
  ⟨deeds.keyed keyed, fun _ => deeds.missing, deeds.serial⟩

theorem peopled_changeCore (keyed : w.Keyed) (id : Identity) (f : Core → Core)
    (same : ∀ c, (f c).id = c.id) : Peopled w (w.changeCore id f) := by
  cases found : w.find? id with
  | none =>
    rw [changeCore_missing found]
    exact ⟨keyed, fun _ missing => missing, rfl⟩
  | some a =>
    have received := received_changeCore found f
    refine ⟨received.keyed (same a.core) keyed, fun i missing => ?_, received.serial⟩
    rw [received.find?, if_neg, missing]
    rintro rfl
    cases missing.symm.trans (keyed found ▸ found)

theorem peopled_setFlags (keyed : w.Keyed) (id : Identity) (flags : Flags) :
    Peopled w (w.setFlags id flags) := by
  unfold setFlags
  split
  · exact ⟨keyed, fun _ missing => missing, rfl⟩
  · next traps known =>
    obtain ⟨a, found, -⟩ := Option.bind_eq_some_iff.mp known
    refine ⟨keyed_setRole keyed found _, fun i missing => ?_, ?_⟩
    · rw [find?_setRole found, if_neg, missing]
      rintro rfl
      cases missing.symm.trans found
    · unfold setRole
      rw [found]

theorem peopled_operate (keyed : w.Keyed) (id : Identity) (op : Operation) :
    Peopled w (w.operate id op) := by
  cases op with
  | poll errand sleeper ticket =>
    exact peopled_changeCore keyed id _ fun c => (c.waited_polled ..).id
  | cancel bell ticket => exact peopled_changeCore keyed id _ fun c => (c.waited_cancel ..).id
  | setFlags flags => exact peopled_setFlags keyed id flags
  | terminate reason => exact (deeds_terminate keyed id reason).peopled keyed
  | _ =>
    exact (deeds_operate keyed id rfl (fun flags same => by cases same)
      fun reason same => by cases same).peopled keyed

theorem keyed_act (keyed : w.Keyed) (action : Action) : (w.act action).Keyed := by
  cases action with
  | allocate tag role =>
    rw [act, world_issue]
    split
    · intro i b found
      rw [find?_allocate] at found
      split at found
      · next same =>
        cases found
        exact same.symm
      · exact keyed found
    · exact keyed
  | allocateStub tag stub =>
    rw [act, world_issue]
    split <;> exact keyed
  | setStub other isLive =>
    rw [act, World.setStub]
    split <;> exact keyed
  | free other =>
    intro i b found
    rw [act, find?_free] at found
    split at found
    · cases found
    · exact keyed found
  | operate other op => exact (peopled_operate keyed other op).keyed

theorem Gave.mono (gave : w.Gave id) (grows : w.serial ≤ v.serial) : v.Gave id := by
  obtain ⟨serial, less, named⟩ := gave
  exact ⟨serial, less.trans_le grows, named⟩

theorem serial_le_act (keyed : w.Keyed) (action : Action) : w.serial ≤ (w.act action).serial := by
  cases action with
  | allocate tag role =>
    rw [act, world_issue]
    split
    · exact Nat.le_succ _
    · exact le_rfl
  | allocateStub tag stub =>
    rw [act, world_issue]
    split
    · exact Nat.le_succ _
    · exact le_rfl
  | setStub other isLive =>
    rw [act, World.setStub]
    split <;> exact le_rfl
  | free other => exact le_rfl
  | operate other op => exact (peopled_operate keyed other op).serial.ge

theorem Gave.act (gave : w.Gave id) (keyed : w.Keyed) (action : Action) : (w.act action).Gave id :=
  gave.mono (serial_le_act keyed action)

/-- An actor that is not there is not there after an action, or has just been allocated. -/
theorem act_missing (keyed : w.Keyed) (missing : w.find? id = none) (action : Action) :
    (w.act action).find? id = none ∨
      w.serial ≤ Identity.maxSerial ∧ w.serial < (w.act action).serial ∧
        ∃ tag role, id = .ofSerial w.serial tag ∧
          (w.act action).find? id = some { core := { id }, role } := by
  cases action with
  | allocate tag role =>
    rw [World.act, world_issue]
    split
    · next room =>
      by_cases same : id = .ofSerial w.serial tag
      · refine .inr ⟨room, Nat.lt_succ_self _, tag, role, same, ?_⟩
        rw [find?_allocate, if_pos same, same]
      · exact .inl (by rw [find?_allocate, if_neg same, missing])
    · exact .inl missing
  | allocateStub tag stub =>
    rw [World.act, world_issue]
    split <;> exact .inl missing
  | setStub other isLive =>
    rw [World.act, World.setStub]
    split <;> exact .inl missing
  | free other => exact .inl (by rw [World.act, find?_free, missing, ite_self])
  | operate other op => exact .inl ((peopled_operate keyed other op).missing id missing)

theorem Rooted.act (rooted : w.Rooted) (action : Action) : (w.act action).Rooted := by
  refine ⟨keyed_act rooted.keyed action, fun i b found => ?_⟩
  cases known : w.find? i with
  | some a => exact (rooted.given known).act rooted.keyed action
  | none =>
    obtain still | ⟨-, grows, tag, -, same, -⟩ := act_missing rooted.keyed known action
    · cases still.symm.trans found
    · exact ⟨w.serial, grows, tag, same⟩

theorem Gave.act_missing (gave : w.Gave id) (keyed : w.Keyed) (missing : w.find? id = none)
    (action : Action) : (w.act action).find? id = none := by
  obtain still | ⟨room, -, tag, -, same, -⟩ := World.act_missing keyed missing action
  · exact still
  · exact absurd same (gave.different room tag)

inductive Turn (id : Identity) (action : Action) (a b : Actor) : Prop
  | polled {errand : Errand} {sleeper : Option Identity} {ticket : Option Nat}
      (polls : action = .operate id (.poll errand sleeper ticket))
      (core : b.core = a.core.polled errand sleeper ticket)
  | cancelled {bell : Bell} {ticket : Nat} (cancels : action = .operate id (.cancel bell ticket))
      (core : b.core = a.core.cancel bell ticket)
  | ended {reason : Exit} (ends : action = .operate id (.terminate reason))
      (core : b.core = (a.core.finish reason).2)
  | moved (idle : action.isWait id = false) (endless : action.given? id = none)
      (moves : Core.Moves (fun core => Actor.EndsItself ⟨core, a.role⟩) a.core b.core)

theorem Turn.refl {action : Action} (idle : action.isWait id = false)
    (endless : action.given? id = none) (a : Actor) : Turn id action a a :=
  .moved idle endless (.refl _)

theorem find?_changeCore (keyed : w.Keyed) (found : w.find? id = some a) (other : Identity)
    (f : Core → Core) : (w.changeCore other f).find? id
      = some (if other = id then { a with core := f a.core } else a) := by
  by_cases same : other = id
  · subst same
    have name : a.id = other := keyed found
    rw [(received_changeCore found f).find?, if_pos name.symm, if_pos rfl]
  · rw [if_neg same]
    cases present : w.find? other with
    | none => rw [changeCore_missing present, found]
    | some c =>
      rw [(received_changeCore present f).find?, keyed present, if_neg (Ne.symm same), found]

theorem turn_setFlags {other : Identity} {flags : Flags} (found : w.find? id = some a) :
    ∃ b, (w.setFlags other flags).find? id = some b ∧
      b.role.endsItself = a.role.endsItself ∧ b.core = a.core := by
  unfold setFlags
  split
  · exact ⟨a, found, rfl, rfl⟩
  · next traps known =>
    obtain ⟨c, present, known⟩ := Option.bind_eq_some_iff.mp known
    by_cases same : id = other
    · subst same
      cases found.symm.trans present
      refine ⟨_, (find?_setRole found _ _).trans (if_pos rfl), ?_, rfl⟩
      cases role : a.role with
      | process old => rfl
      | _ => simp [role, Role.flags?] at known
    · exact ⟨a, by rw [find?_setRole present, if_neg same, found], rfl, rfl⟩

theorem turn_terminate (keyed : w.Keyed) (found : w.find? id = some a) (other : Identity)
    (reason : Exit) :
    ∃ b, (w.operate other (.terminate reason)).find? id = some b ∧
      b.role.endsItself = a.role.endsItself ∧ Turn id (.operate other (.terminate reason)) a b := by
  by_cases same : other = id
  · subst same
    exact ⟨_, (operated_terminate keyed found reason).found, rfl, .ended rfl rfl⟩
  · obtain ⟨b, present, role, moves⟩ := (deeds_terminate keyed other reason).actor found
    refine ⟨b, present, by rw [role], .moved ?_ ?_ (moves.mono ?_)⟩
    · simp [Action.isWait, Operation.isWait]
    · exact if_neg same
    · rintro core ⟨name, told | own⟩
      · exact absurd (told.symm.trans name) same
      · exact own

/-- An operation, on whatever actor, is a turn for every actor. -/
theorem turn_operate (keyed : w.Keyed) (found : w.find? id = some a) (other : Identity)
    (op : Operation) :
    ∃ b, (w.operate other op).find? id = some b ∧ b.role.endsItself = a.role.endsItself ∧
      Turn id (.operate other op) a b := by
  have moved (idle : op.isWait = false) (flagless : ∀ flags, op ≠ .setFlags flags)
      (endless : ∀ reason, op ≠ .terminate reason) :
      ∃ b, (w.operate other op).find? id = some b ∧ b.role.endsItself = a.role.endsItself ∧
        Turn id (.operate other op) a b := by
    have deeds := deeds_operate keyed other idle flagless endless
    obtain ⟨b, present, role, moves⟩ := deeds.actor found
    refine ⟨b, present, by rw [role], .moved ?_ ?_ (moves.mono fun core may => may.2)⟩
    · simp [Action.isWait, idle]
    · cases op with
      | terminate reason => exact absurd rfl (endless reason)
      | _ => rfl
  cases op with
  | poll errand sleeper ticket =>
    refine ⟨_, find?_changeCore keyed found other _, ?_, ?_⟩
    · split <;> rfl
    · by_cases same : other = id
      · subst same
        rw [if_pos rfl]
        exact .polled rfl rfl
      · rw [if_neg same]
        exact .refl (by simp [Action.isWait, same]) rfl a
  | cancel bell ticket =>
    refine ⟨_, find?_changeCore keyed found other _, ?_, ?_⟩
    · split <;> rfl
    · by_cases same : other = id
      · subst same
        rw [if_pos rfl]
        exact .cancelled rfl rfl
      · rw [if_neg same]
        exact .refl (by simp [Action.isWait, same]) rfl a
  | setFlags flags =>
    obtain ⟨b, present, role, core⟩ := turn_setFlags found
    refine ⟨b, present, role, .moved ?_ rfl (core ▸ .refl _)⟩
    simp [Action.isWait, Operation.isWait]
  | terminate reason => exact turn_terminate keyed found other reason
  | _ => exact moved rfl (fun flags same => by cases same) fun reason same => by cases same

theorem still_act (rooted : w.Rooted) (found : w.find? id = some a) {action : Action}
    (still : ∀ other op, action ≠ .operate other op) :
    action = .free id ∧ (w.act action).find? id = none ∨ (w.act action).find? id = some a := by
  cases action with
  | allocate tag role =>
    rw [act, world_issue]
    split
    · next room =>
      exact .inr (by rw [find?_allocate, if_neg ((rooted.given found).different room tag), found])
    · exact .inr found
  | allocateStub tag stub =>
    rw [act, world_issue]
    split <;> exact .inr found
  | setStub other isLive =>
    rw [act, World.setStub]
    split <;> exact .inr found
  | free other =>
    rw [act, find?_free]
    by_cases same : id = other
    · exact .inl ⟨by rw [same], if_pos same⟩
    · exact .inr (by rw [if_neg same, found])
  | operate other op => exact absurd rfl (still other op)

theorem turn_act (rooted : w.Rooted) (found : w.find? id = some a) (action : Action) :
    action = .free id ∧ (w.act action).find? id = none ∨
      ∃ b, (w.act action).find? id = some b ∧ b.role.endsItself = a.role.endsItself ∧
        Turn id action a b := by
  cases action with
  | operate other op => exact .inr (turn_operate rooted.keyed found other op)
  | _ =>
    exact (still_act rooted found fun other op same => by cases same).imp_right fun same =>
      ⟨a, same, rfl, .refl rfl rfl a⟩

/-- An actor that is there after an action was there before and took a turn, or is new. -/
theorem found_act (rooted : w.Rooted) (action : Action) {b : Actor}
    (present : (w.act action).find? id = some b) :
    (w.find? id = none ∧ b.core = { id }) ∨
      ∃ a, w.find? id = some a ∧ b.role.endsItself = a.role.endsItself ∧ Turn id action a b := by
  cases found : w.find? id with
  | none =>
    obtain still | ⟨-, -, -, role, -, allocated⟩ := act_missing rooted.keyed found action
    · cases still.symm.trans present
    · cases allocated.symm.trans present
      exact .inl ⟨rfl, rfl⟩
  | some a =>
    obtain ⟨-, freed⟩ | ⟨c, present', role, turn⟩ := turn_act rooted found action
    · cases freed.symm.trans present
    · cases present'.symm.trans present
      exact .inr ⟨a, rfl, role, turn⟩

abbrev Moment := World × Action

/-- The actions that lead from a world to another, in order. In between, drivers may be called or
forgotten and anything may be written. -/
inductive Course (w : World) : List Moment → World → Prop
  | refl : Course w [] w
  | act {trace : List Moment} {v : World} (course : Course w trace v) (action : Action) :
      Course w (trace ++ [(v, action)]) (v.act action)
  | drift {trace : List Moment} {v : World} (course : Course w trace v) (calls : List Identity)
      (journal : Journal) : Course w trace { v with calls, journal }

namespace Course

variable {trace later : List Moment}

theorem trans (first : Course w trace v) (second : Course v later u) :
    Course w (trace ++ later) u := by
  induction second with
  | refl => simpa using first
  | act earlier action ih => rw [← List.append_assoc]; exact ih.act action
  | drift earlier calls journal ih => exact ih.drift calls journal

theorem rooted (course : Course w trace v) (rooted : w.Rooted) : v.Rooted := by
  induction course with
  | refl => exact rooted
  | act earlier action ih => exact ih.act action
  | drift earlier calls journal ih => exact ⟨ih.keyed, ih.given⟩

theorem gave (course : Course w trace v) (rooted : w.Rooted) (gave : w.Gave id) : v.Gave id := by
  induction course with
  | refl => exact gave
  | act earlier action ih => exact ih.act (earlier.rooted rooted).keyed action
  | drift earlier calls journal ih => exact ih

theorem cut (course : Course w trace v) {m : Moment} (member : m ∈ trace) :
    ∃ before after, trace = before ++ m :: after ∧ Course w before m.1 ∧
      Course (m.1.act m.2) after v := by
  induction course with
  | refl => cases member
  | @act trace u earlier action ih =>
    rcases List.mem_append.mp member with inside | last
    · obtain ⟨before, after, rfl, first, second⟩ := ih inside
      exact ⟨before, after ++ [(u, action)], by simp, first, second.act action⟩
    · cases List.mem_singleton.mp last
      exact ⟨trace, [], rfl, earlier, .refl⟩
  | drift earlier calls journal ih =>
    obtain ⟨before, after, split, first, second⟩ := ih member
    exact ⟨before, after, split, first, second.drift calls journal⟩

/-- A course that a moment is part of leads up to the moment and on from it. -/
theorem split (course : Course w trace v) {m : Moment} (member : m ∈ trace) :
    (∃ before, Course w before m.1) ∧
      ∃ after, Course (m.1.act m.2) after v ∧ ∀ n ∈ after, n ∈ trace := by
  obtain ⟨before, after, rfl, first, second⟩ := course.cut member
  exact ⟨⟨before, first⟩, after, second, fun n inside =>
    List.mem_append_right before (List.mem_cons_of_mem m inside)⟩

/-- What a new core has and every turn of the actor keeps, the actor has after every course. -/
theorem holds {P : Core → Prop} (course : Course w trace v) (rooted : w.Rooted) (fresh : P { id })
    (first : ∀ a, w.find? id = some a → P a.core)
    (turns : ∀ m ∈ trace, ∀ a b, m.1.find? id = some a → P a.core → Turn id m.2 a b → P b.core)
    (found : v.find? id = some a) : P a.core := by
  induction course generalizing a with
  | refl => exact first a found
  | act earlier action ih =>
    have before {c : Actor} := @ih c fun m member => turns m (List.mem_append_left _ member)
    obtain ⟨-, core⟩ | ⟨c, present, -, turn⟩ := found_act (earlier.rooted rooted) action found
    · exact core ▸ fresh
    · exact turns _ (List.mem_append_right _ List.mem_cons_self) c a present (before present) turn
  | drift earlier calls journal ih => exact ih turns found

/-- What is so of an actor at first, and what every turn of it carries on along the trace, is so of
the actor after a course, if it is still there. -/
theorem tracks {P : List Moment → Core → Prop} (course : Course w trace v) (rooted : w.Rooted)
    (found : w.find? id = some a) (first : P [] a.core)
    (turns : ∀ earlier, ∀ m ∈ trace, ∀ a b, m.1.find? id = some a →
      (m.1.act m.2).find? id = some b → P earlier a.core → Turn id m.2 a b →
        P (earlier ++ [m]) b.core)
    {b : Actor} (present : v.find? id = some b) : P trace b.core := by
  induction course generalizing b with
  | refl =>
    cases found.symm.trans present
    exact first
  | @act trace u earlier action ih =>
    obtain ⟨missing, -⟩ | ⟨c, known, -, turn⟩ := found_act (earlier.rooted rooted) action present
    · -- the identity is not given out twice, so an actor that has just come is another one
      have gave := earlier.gave rooted (rooted.given found)
      have gone := gave.act_missing (earlier.rooted rooted).keyed missing action
      cases gone.symm.trans present
    · have held := ih (fun before m member => turns before m (List.mem_append_left _ member)) known
      exact turns trace (u, action) (List.mem_append_right _ List.mem_cons_self) c b known present
        held turn
  | drift earlier calls journal ih => exact ih turns present

theorem keeps {P : Core → Prop} (course : Course w trace v) (rooted : w.Rooted)
    (found : w.find? id = some a) (first : P a.core)
    (turns : ∀ m ∈ trace, ∀ a b, m.1.find? id = some a → P a.core → Turn id m.2 a b → P b.core)
    {b : Actor} (present : v.find? id = some b) : P b.core :=
  course.tracks (P := fun _ => P) rooted found first
    (fun _ m member a b known _ held turn => turns m member a b known held turn) present

/-- What every turn of an actor keeps, a course keeps as long as nobody frees the actor. -/
theorem carries {P : Core → Prop} (course : Course w trace v) (rooted : w.Rooted)
    (found : w.find? id = some a) (kept : ∀ m ∈ trace, m.2 ≠ .free id) (first : P a.core)
    (turns : ∀ m ∈ trace, ∀ a b, m.1.find? id = some a → P a.core → Turn id m.2 a b → P b.core) :
    ∃ b, v.find? id = some b ∧ b.role.endsItself = a.role.endsItself ∧ P b.core := by
  induction course with
  | refl => exact ⟨a, found, rfl, first⟩
  | @act trace u earlier action ih =>
    obtain ⟨b, present, role, held⟩ := ih (fun m member => kept m (List.mem_append_left _ member))
      fun m member => turns m (List.mem_append_left _ member)
    have last : (u, action) ∈ trace ++ [(u, action)] :=
      List.mem_append_right _ List.mem_cons_self
    obtain ⟨freed, -⟩ | ⟨c, present', role', turn⟩ :=
      turn_act (earlier.rooted rooted) present action
    · exact absurd freed (kept _ last)
    · exact ⟨c, present', role'.trans role, turns _ last b c present held turn⟩
  | drift earlier calls journal ih => exact ih kept turns

end Course

def moments : World → List Action → List Moment
  | _, [] => []
  | w, action :: rest => (w, action) :: moments (w.act action) rest

theorem course_run (w : World) (actions : List Action) :
    Course w (w.moments actions) (w.run actions) := by
  induction actions generalizing w with
  | nil => exact .refl
  | cons action rest ih => exact (Course.refl.act action).trans (ih (w.act action))

end World

end Actors
