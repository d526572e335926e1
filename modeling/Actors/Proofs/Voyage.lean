import Actors.Proofs.Screening
import Mathlib.Data.List.Destutter

/-! Voyages. Where actors come about started, and nobody starts one of them again, no signal and no end
comes too early for its receiver: every operation answers, and every life goes through its phases in
their order, of which only the one with a pending exit may be left out. -/
namespace Actors

namespace Phase

def next : Phase → List Phase
  | init => [running]
  | running => [exiting, done]
  | exiting => [done]
  | done => []

def lifelines : Phase → List (List Phase)
  | init => [[init, running, exiting, done], [init, running, done]]
  | running => [[running, exiting, done], [running, done]]
  | exiting => [[exiting, done]]
  | done => [[done]]

def Passes (p q : Phase) : Prop := q = p ∨ q ∈ p.next

theorem lifelines_cons {p q : Phase} {life : List Phase} (later : q ∈ p.next)
    (member : life ∈ q.lifelines) : p :: life ∈ p.lifelines := by
  cases p <;> cases q <;> simp_all [next, lifelines]

/-- Phases that pass one to the next are the first ones of a life. -/
theorem prefix_lifeline {p : Phase} {phases : List Phase}
    (chain : (p :: phases).IsChain Passes) :
    ∃ life ∈ p.lifelines, phases.destutter' (· ≠ ·) p <+: life := by
  induction phases generalizing p with
  | nil => cases p <;> simp [lifelines, List.destutter'_nil]
  | cons q rest ih =>
    obtain ⟨passes, chain⟩ := List.isChain_cons_cons.mp chain
    obtain ⟨life, member, reached⟩ := ih chain
    by_cases same : p = q
    · subst same
      rw [List.destutter'_cons_neg _ (not_not.mpr rfl)]
      exact ⟨life, member, reached⟩
    · rw [List.destutter'_cons_pos _ same]
      exact ⟨p :: life, lifelines_cons (passes.resolve_left (Ne.symm same)) member,
        (List.prefix_cons_inj p).mpr reached⟩

end Phase

namespace Core

variable {c core : Core}

theorem phase_ne_init (born : c.life ≠ .init) : c.phase ≠ .init := by
  cases life : c.life with
  | init => exact absurd life born
  | _ => simp [phase, life, Life.phase]

/-- Strokes in turn leave a core in its phase or in one that may come right after it. -/
theorem Struck.passes {may : Core → Stroke → Prop} (struck : Struck may c core)
    (born : c.life ≠ .init) : c.phase.Passes core.phase := by
  apply struck.keeps (P := fun core => c.phase.Passes core.phase) (.inl rfl)
  intro core stroke passes suffers allowed
  -- a second start is out, since no phase passes to the first one
  have unborn : core.phase ≠ .init := by
    intro same
    rcases passes with equal | later
    · exact phase_ne_init born (equal.symm.trans same)
    · cases phase : c.phase <;> simp [phase, same, Phase.next] at later
  cases stroke with
  | start => simp [phase, show core.life = .init from suffers, Life.phase] at unborn
  | accept sender reason =>
    have runs : core.phase = .running := by
      simp [phase, show core.life = .running from suffers, Life.phase]
    have exits : (core.struck (.accept sender reason)).phase = .exiting := rfl
    rw [runs] at passes
    rw [exits]
    cases phase : c.phase with
    | init => exact absurd phase (phase_ne_init born)
    | _ => simp_all [Phase.Passes, Phase.next]
  | finish reason =>
    have ends : (core.struck (.finish reason)).phase = .done := rfl
    rw [ends]
    cases phase : c.phase with
    | init => exact absurd phase (phase_ne_init born)
    | _ => simp [Phase.Passes, Phase.next]
  | _ => exact passes

end Core

def Action.isLawful : Action → Bool
  | .allocate _ _ | .operate _ .start => false
  | _ => true

namespace World

variable {w v u : World} {id : Identity} {a b : Actor} {trace past : List Moment} {action : Action}
  {m : Moment}

def outcome (w : World) (id : Identity) : Operation → Outcome Unit
  | .start => w.start id
  | .signal sender reason => w.deliver id sender reason
  | .forward sender reason => w.forward id sender reason
  | .terminate reason =>
    match w.terminate id reason with
    | .ok _ w => .ok () w
    | .error fault w => .error fault w
  | op => .ok () (w.operate id op)

structure Proper (w : World) : Prop where
  keyed : w.Keyed
  bodied : w.Bodied
  started : ∀ ⦃i a⦄, w.find? i = some a → a.core.life ≠ .init

namespace Proper

theorem empty : Proper {} :=
  ⟨fun _ _ found => (by cases found), fun _ _ found => (by cases found),
    fun _ _ found => (by cases found)⟩

theorem of_find? (proper : w.Proper) (kept : ∀ i a, v.find? i = some a → w.find? i = some a) :
    v.Proper :=
  ⟨fun i a found => proper.keyed (kept i a found), fun i a found => proper.bodied (kept i a found),
    fun i a found => proper.started (kept i a found)⟩

theorem quiet (proper : w.Proper) (found : w.find? id = some a) : a.role.isQuiet = true := by
  cases role : a.role with
  | plain hook => exact absurd role (proper.bodied found hook)
  | _ => rfl

theorem welcomes (proper : w.Proper) (found : w.find? id = some a) (sender : Identity)
    (reason : Exit) : a.refuses sender reason = false := by
  simp [Actor.refuses, Core.phase_ne_init (proper.started found)]

theorem terminate (proper : w.Proper) (id : Identity) (reason : Exit) :
    ∃ answer, w.terminate id reason = .ok answer (w.terminate id reason).world := by
  cases found : w.find? id with
  | none =>
    obtain ⟨v, answers, -⟩ := terminate_gone found reason
    exact ⟨none, by rw [answers]; rfl⟩
  | some a =>
    cases finished : a.core.isDone with
    | true =>
      obtain ⟨v, answers, -⟩ := terminate_done found finished reason
      exact ⟨none, by rw [answers]; rfl⟩
    | false =>
      obtain ⟨v, answers, -⟩ := terminate_ended proper.keyed found finished
        (fun peer member b present => proper.quiet present) reason
        fun peer member ⟨b, present, refused⟩ => by
          cases refused.symm.trans (proper.welcomes present _ _)
      exact ⟨_, by rw [answers]; rfl⟩

theorem deliver (proper : w.Proper) (id sender : Identity) (reason : Exit) :
    w.deliver id sender reason = .ok () (w.deliver id sender reason).world := by
  cases found : w.find? id with
  | none =>
    obtain ⟨v, answers, -⟩ := deliver_absent found sender reason
    rw [answers]
    rfl
  | some a =>
    obtain ⟨refused, -⟩ | ⟨-, v, answers, -⟩ :=
      deliver_quiet proper.keyed found (proper.quiet found) sender reason
    · cases refused.symm.trans (proper.welcomes found sender reason)
    · rw [answers]
      rfl

theorem forward (proper : w.Proper) (id sender : Identity) (reason : Exit) :
    w.forward id sender reason = .ok () (w.forward id sender reason).world := by
  by_cases own : sender = id
  · simp [World.forward, forwardWith, own]
  · cases found : w.find? id with
    | none =>
      have gone : w.offer id sender reason = .ok false (w.offer id sender reason).world := by
        have offered := offered proper.keyed id sender reason
        revert offered
        generalize w.offer id sender reason = result
        rintro (⟨missing, alike⟩ | ⟨present, unborn, alike⟩ | ⟨present, accepted, replaces, same⟩ |
          ⟨present, surfaced, alike⟩)
        · rfl
        · cases found.symm.trans present
        · cases found.symm.trans present
        · rfl
      rw [World.forward, forwardWith, if_neg own, gone]
      rfl
    | some a =>
      obtain ⟨unborn, -⟩ | ⟨-, v, answers, -⟩ :=
        forward_quiet proper.keyed found (proper.quiet found) own reason
      · exact absurd unborn (proper.started found)
      · rw [answers]
        rfl

/-- No operation comes too early for an actor. -/
theorem answers (proper : w.Proper) {op : Operation}
    (lawful : (Action.operate id op).isLawful = true) :
    w.outcome id op = .ok () (w.operate id op) := by
  cases op with
  | start => cases lawful
  | signal sender reason => exact proper.deliver id sender reason
  | forward sender reason => exact proper.forward id sender reason
  | terminate reason =>
    obtain ⟨answer, answers⟩ := proper.terminate id reason
    rw [outcome, answers]
    rfl
  | _ => rfl

theorem passes (proper : w.Proper) {op : Operation} (found : w.find? id = some a) {other : Identity}
    (present : (w.operate other op).find? id = some b) :
    a.role.Stays b.role ∧ b.core.life ≠ .init ∧ a.core.phase.Passes b.core.phase := by
  have born := proper.started found
  obtain ⟨stays, treated⟩ :=
    treated_operate proper.keyed found Traffic.spreads_any (op.sends_any w other) present
  refine ⟨stays, ?_⟩
  cases treated with
  | waited waits waited queue =>
    exact ⟨waited.life ▸ born, .inl (congrArg Life.phase waited.life)⟩
  | struck struck => exact ⟨struck.born born, struck.passes born⟩

theorem operate (proper : w.Proper) (other : Identity) (op : Operation) :
    (w.operate other op).Proper := by
  have peopled := peopled_operate proper.keyed other op
  have known {i : Identity} {b : Actor} (present : (w.operate other op).find? i = some b) :
      ∃ a, w.find? i = some a := by
    cases found : w.find? i with
    | none => cases (peopled.missing i found).symm.trans present
    | some a => exact ⟨a, rfl⟩
  refine ⟨peopled.keyed, fun i b present hook plain => ?_, fun i b present => ?_⟩
  · obtain ⟨a, found⟩ := known present
    exact proper.bodied found hook ((proper.passes found present).1.plain plain)
  · obtain ⟨a, found⟩ := known present
    exact (proper.passes found present).2.1

end Proper

/-- An action that is no operation and creates no actor leaves the actors as they are, one that is
freed apart. -/
theorem kept_act (lawful : action.isLawful = true) (still : ∀ id op, action ≠ .operate id op)
    (present : (w.act action).find? id = some a) : w.find? id = some a := by
  cases action with
  | allocate tag role => cases lawful
  | allocateStub tag stub =>
    rw [act, world_issue] at present
    split at present <;> exact present
  | setStub other isLive =>
    rw [act, World.setStub] at present
    split at present <;> exact present
  | free other =>
    rw [act, find?_free] at present
    split at present
    · cases present
    · exact present
  | operate other op => exact absurd rfl (still other op)

theorem Proper.act (proper : w.Proper) (lawful : action.isLawful = true) :
    (w.act action).Proper := by
  cases action with
  | operate other op => exact proper.operate other op
  | _ => exact proper.of_find? fun i a => kept_act lawful fun id op same => by cases same

theorem start_allocated (w : World) (tag : Tag) (role : Role) :
    ∃ v, (w.allocate tag role).2.start (.ofSerial w.serial tag) = .ok () v := by
  unfold start
  rw [find?_allocate, if_pos rfl]
  exact ⟨_, rfl⟩

/-- A new actor that has been started is as proper as the others. -/
theorem Proper.found (proper : w.Proper) (room : w.serial ≤ Identity.maxSerial) {tag : Tag}
    {role : Role} (bodied : ∀ hook, role ≠ .plain hook) :
    ((w.allocate tag role).2.start (.ofSerial w.serial tag)).world.Proper := by
  obtain ⟨v, -, rfl, find?⟩ := allocateStarted_ok room tag role
  refine ⟨fun i a present => ?_, fun i a present => ?_, fun i a present => ?_⟩ <;>
    rw [find?] at present <;> split at present
  · next same =>
    cases present
    exact same.symm
  · exact proper.keyed present
  · cases present
    exact bodied
  · exact proper.bodied present
  · cases present
    exact fun same => by cases same
  · exact proper.started present

/-- A course from the empty world on in which every actor is created to run code or to stand for a
resource and is started at once, and none is started otherwise. -/
inductive Voyage : List Moment → World → Prop
  | start : Voyage [] {}
  | found {trace : List Moment} {w : World} (earlier : Voyage trace w) {tag : Tag} {role : Role}
      (bodied : ∀ hook, role ≠ .plain hook) (room : w.serial ≤ Identity.maxSerial) :
      Voyage (trace ++ [(w, .allocate tag role),
          ((w.allocate tag role).2, .operate (.ofSerial w.serial tag) .start)])
        ((w.allocate tag role).2.start (.ofSerial w.serial tag)).world
  | act {trace : List Moment} {w : World} (earlier : Voyage trace w) (action : Action)
      (lawful : action.isLawful = true) : Voyage (trace ++ [(w, action)]) (w.act action)
  | drift {trace : List Moment} {w : World} (earlier : Voyage trace w) (calls : List Identity)
      (journal : Journal) : Voyage trace { w with calls, journal }

namespace Voyage

theorem course (voyage : Voyage trace w) : Course {} trace w := by
  induction voyage with
  | start => exact .refl
  | @found trace w earlier tag role bodied room ih =>
    have allocated := ih.act (.allocate tag role)
    rw [World.act, issue_room room] at allocated
    have started := allocated.act (.operate (.ofSerial w.serial tag) .start)
    rwa [List.append_assoc] at started
  | act earlier action lawful ih => exact ih.act action
  | drift earlier calls journal ih => exact ih.drift calls journal

theorem proper (voyage : Voyage trace w) : w.Proper := by
  induction voyage with
  | start => exact .empty
  | found earlier bodied room ih => exact ih.found room bodied
  | act earlier action lawful ih => exact ih.act lawful
  | drift earlier calls journal ih => exact ih.of_find? fun _ _ found => found

/-- No operation of a voyage ends with a fault. -/
theorem answers (voyage : Voyage trace w) (member : m ∈ trace) {op : Operation}
    (acts : m.2 = .operate id op) : m.1.outcome id op = .ok () (m.1.operate id op) := by
  induction voyage with
  | start => cases member
  | @found trace w earlier tag role bodied room ih =>
    rcases List.mem_append.mp member with inside | last
    · exact ih inside
    · obtain rfl | last := List.mem_cons.mp last
      · cases acts
      · cases List.mem_singleton.mp last
        cases acts
        obtain ⟨v, started⟩ := w.start_allocated tag role
        rw [outcome, World.operate, started]
        rfl
  | @act trace w earlier action lawful ih =>
    rcases List.mem_append.mp member with inside | last
    · exact ih inside
    · cases List.mem_singleton.mp last
      obtain rfl : action = .operate id op := acts
      exact earlier.proper.answers lawful
  | drift earlier calls journal ih => exact ih member

end Voyage

def phases (w : World) (id : Identity) (trace : List Moment) : List Phase :=
  (trace.map Prod.fst ++ [w]).filterMap fun u => (u.find? id).map (·.core.phase)

structure Lives (id : Identity) (trace : List Moment) (w : World) : Prop where
  chain : (w.phases id trace).IsChain Phase.Passes
  first : ∀ p ∈ (w.phases id trace).head?, p = .init

theorem phases_snoc (v : World) (m : Moment) (id : Identity) (trace : List Moment) :
    v.phases id (trace ++ [m]) = m.1.phases id trace ++ ((v.find? id).map (·.core.phase)).toList := by
  simp only [phases, List.map_append, List.map_cons, List.map_nil, List.filterMap_append]
  cases found : v.find? id <;> simp [found]

theorem getLast?_phases (found : w.find? id = some a) (trace : List Moment) :
    (w.phases id trace).getLast? = some a.core.phase := by
  simp [phases, List.filterMap_append, found]

namespace Lives

theorem carry (lives : Lives id trace m.1)
    (passes : ∀ b, v.find? id = some b →
      ∃ a, m.1.find? id = some a ∧ a.core.phase.Passes b.core.phase) :
    Lives id (trace ++ [m]) v := by
  cases present : v.find? id with
  | none =>
    have same : v.phases id (trace ++ [m]) = m.1.phases id trace := by
      simp [phases_snoc, present]
    exact ⟨same ▸ lives.chain, same ▸ lives.first⟩
  | some b =>
    obtain ⟨a, found, passes⟩ := passes b present
    have last := getLast?_phases found trace
    have more : v.phases id (trace ++ [m]) = m.1.phases id trace ++ [b.core.phase] := by
      simp [phases_snoc, present]
    refine ⟨?_, ?_⟩
    · rw [more, List.isChain_append]
      refine ⟨lives.chain, .singleton _, fun p member q same => ?_⟩
      cases last.symm.trans member
      cases same
      exact passes
    · rw [more]
      cases phases : m.1.phases id trace with
      | nil => simp [phases] at last
      | cons p rest =>
        have first := lives.first
        rw [phases] at first
        exact first

/-- The life of a new actor begins. -/
theorem begin (unseen : m.1.phases id trace = []) (present : v.find? id = some b)
    (fresh : b.core.phase = .init) : Lives id (trace ++ [m]) v := by
  have same : v.phases id (trace ++ [m]) = [.init] := by
    simp [phases_snoc, unseen, present, fresh]
  refine ⟨?_, ?_⟩
  · rw [same]
    exact .singleton _
  · rw [same]
    rintro p ⟨⟩
    rfl

end Lives

/-- An actor has phases only after its identity was given out. -/
theorem Course.phases_eq_nil (course : Course {} trace w) (ungiven : ¬w.Gave id) :
    w.phases id trace = [] := by
  refine List.filterMap_eq_nil_iff.mpr fun u member => ?_
  cases found : u.find? id with
  | none => rfl
  | some a =>
    refine absurd ?_ ungiven
    rcases List.mem_append.mp member with inside | last
    · obtain ⟨m, moment, rfl⟩ := List.mem_map.mp inside
      obtain ⟨before, after, -, first, second⟩ := course.cut moment
      have rooted := first.rooted rooted_empty
      exact second.gave (rooted.act m.2) ((rooted.given found).act rooted.keyed m.2)
    · cases List.mem_singleton.mp last
      exact (course.rooted rooted_empty).given found

/-- Where an actor is created and started, its own life begins, and those of the others go on. -/
theorem Lives.found (lives : Lives id trace w) (course : Course {} trace w)
    (room : w.serial ≤ Identity.maxSerial) (tag : Tag) (role : Role) :
    Lives id (trace ++ [(w, .allocate tag role),
        ((w.allocate tag role).2, .operate (.ofSerial w.serial tag) .start)])
      ((w.allocate tag role).2.start (.ofSerial w.serial tag)).world := by
  obtain ⟨v, -, rfl, find?⟩ := allocateStarted_ok room tag role
  rw [List.append_cons]
  by_cases new : id = .ofSerial w.serial tag
  · -- the identity is given out only now, so there are no phases before
    subst new
    have ungiven : ¬w.Gave (.ofSerial w.serial tag) := fun gave => gave.different room tag rfl
    have allocated := (find?_allocate w tag role (.ofSerial w.serial tag)).trans (if_pos rfl)
    have born : Lives (.ofSerial w.serial tag) (trace ++ [(w, .allocate tag role)])
        (w.allocate tag role).2 :=
      .begin (course.phases_eq_nil ungiven) allocated rfl
    refine born.carry (m := ((w.allocate tag role).2, _)) fun b present => ⟨_, allocated, ?_⟩
    rw [find?, if_pos rfl] at present
    cases present
    exact .inr (List.mem_singleton.mpr rfl)
  · have allocated := (find?_allocate w tag role id).trans (if_neg new)
    have same : Lives id (trace ++ [(w, .allocate tag role)]) (w.allocate tag role).2 :=
      lives.carry (m := (w, _)) fun b present => ⟨b, allocated.symm.trans present, .inl rfl⟩
    refine same.carry (m := ((w.allocate tag role).2, _)) fun b present => ⟨b, ?_, .inl rfl⟩
    rw [find?, if_neg new] at present
    exact allocated.trans present

/-- In a voyage the phases of every actor pass one to the next. -/
theorem Voyage.lives (voyage : Voyage trace w) (id : Identity) : Lives id trace w := by
  induction voyage with
  | start => exact ⟨.nil, fun p first => by cases first⟩
  | found earlier bodied room ih => exact ih.found earlier.course room _ _
  | @act trace w earlier action lawful ih =>
    refine ih.carry (m := (w, action)) fun b present => ?_
    cases action with
    | operate other op =>
      cases found : w.find? id with
      | none =>
        cases ((peopled_operate earlier.proper.keyed other op).missing id found).symm.trans present
      | some a => exact ⟨a, rfl, (earlier.proper.passes found present).2.2⟩
    | _ => exact ⟨b, kept_act lawful (fun id op same => by cases same) present, .inl rfl⟩
  | @drift trace w earlier calls journal ih =>
    have same : World.phases { w with calls, journal } id trace = w.phases id trace := by
      simp only [phases, List.filterMap_append]
      rfl
    exact ⟨same ▸ ih.chain, same ▸ ih.first⟩

/-- The phases of an actor are the first ones of a life. -/
theorem Voyage.lifeline (voyage : Voyage trace w) (id : Identity) :
    ∃ life ∈ Phase.init.lifelines, (w.phases id trace).destutter (· ≠ ·) <+: life := by
  have lives := voyage.lives id
  cases phases : w.phases id trace with
  | nil => exact ⟨_, List.mem_cons_self, List.nil_prefix⟩
  | cons p rest =>
    have chain := lives.chain
    have first := lives.first p (by rw [phases]; rfl)
    rw [phases, first] at chain
    rw [first]
    exact Phase.prefix_lifeline chain

def Sails (past : List Moment) (w : World) : Prop := ∃ more, Voyage (past ++ more) w

/-- Work that gives out an identity in a world under way: it answers and leaves such a world, or does
nothing where the serials are used up. -/
def Issues {α : Type} (past : List Moment) (w : World) (result : Outcome α) : Prop :=
  (∃ made v, result = .ok made v ∧ Sails past v) ∨
    Identity.maxSerial < w.serial ∧ result = .error (.exception .exhausted) w

theorem issues_of {α : Type} {result : Outcome α}
    (refused : Identity.maxSerial < w.serial → result = .error (.exception .exhausted) w)
    (made : w.serial ≤ Identity.maxSerial → ∃ made v, result = .ok made v ∧ Sails past v) :
    Issues past w result := by
  rcases Nat.lt_or_ge Identity.maxSerial w.serial with full | room
  · exact .inr ⟨full, refused full⟩
  · exact .inl (made room)

namespace Sails

theorem of_voyage (voyage : Voyage trace w) : Sails trace w := ⟨[], by rwa [List.append_nil]⟩

theorem proper (sails : Sails past w) : w.Proper :=
  let ⟨_, voyage⟩ := sails
  voyage.proper

theorem act (sails : Sails past w) (action : Action) (lawful : action.isLawful = true) :
    Sails past (w.act action) := by
  obtain ⟨more, voyage⟩ := sails
  exact ⟨more ++ [(w, action)], by rw [← List.append_assoc]; exact voyage.act action lawful⟩

theorem operate (sails : Sails past w) (id : Identity) (op : Operation)
    (lawful : (Action.operate id op).isLawful = true) : Sails past (w.operate id op) :=
  sails.act (.operate id op) lawful

theorem drift (sails : Sails past w) (calls : List Identity) (journal : Journal) :
    Sails past { w with calls, journal } := by
  obtain ⟨more, voyage⟩ := sails
  exact ⟨more, voyage.drift calls journal⟩

theorem emit (sails : Sails past w) (event : Event) : Sails past (w.emit event) :=
  sails.drift w.calls _

theorem founded (sails : Sails past w) (room : w.serial ≤ Identity.maxSerial) (tag : Tag)
    (role : Role) (bodied : ∀ hook, role ≠ .plain hook) :
    ∃ child v, w.allocateStarted tag role = .ok child v ∧ Sails past v := by
  obtain ⟨v, made, steps, -⟩ := allocateStarted_ok room tag role
  obtain ⟨more, voyage⟩ := sails
  have found := @Voyage.found _ w voyage tag role bodied room
  rw [List.append_assoc, ← steps] at found
  exact ⟨_, v, made, _, found⟩

theorem terminate (sails : Sails past w) (id : Identity) (reason : Exit) :
    ∃ answer v, w.terminate id reason = .ok answer v ∧ Sails past v := by
  obtain ⟨answer, answers⟩ := sails.proper.terminate id reason
  exact ⟨answer, _, answers, sails.operate id (.terminate reason) rfl⟩

theorem adopt (sails : Sails past w) (parent child : Identity) :
    ∃ linked v, w.adopt parent child = .ok linked v ∧ Sails past v := by
  have linked : Sails past (w.link parent child).2 := sails.operate parent (.link child) rfl
  unfold World.adopt
  revert linked
  generalize w.link parent child = result
  intro linked
  obtain ⟨interrupt | _, v⟩ := result
  · obtain ⟨answer, u, ended, sails⟩ := linked.terminate child interrupt.reason
    dsimp only
    rw [ended]
    exact ⟨_, u, rfl, sails⟩
  · exact ⟨_, v, rfl, linked⟩

theorem announced (sails : Sails past w) (parent child : Identity) (event : Event) :
    ∃ made v, announce child event (w.adopt parent child) = .ok made v ∧ Sails past v := by
  obtain ⟨linked, v, adopted, sails⟩ := sails.adopt parent child
  rw [adopted]
  cases linked with
  | error interrupt => exact ⟨_, v, rfl, sails⟩
  | ok done => exact ⟨_, _, rfl, sails.emit event⟩

theorem allocateStub (sails : Sails past w) (tag : Tag) (stub : Stub) :
    Issues past w (w.issue (·.allocateStub tag stub)) := by
  refine issues_of (fun full => issue_full full _) fun room => ?_
  have made := sails.act (.allocateStub tag stub) rfl
  rw [World.act, issue_room room] at made
  exact ⟨_, _, issue_room room _, made⟩

theorem spawn (sails : Sails past w) {parent : Option Identity} {options : SpawnOptions}
    (lawful : options.link = true → parent.isSome = true) :
    Issues past w (w.spawn parent options) := by
  refine issues_of (fun full => spawn_full full parent options) fun room => ?_
  obtain ⟨child, v, started, sails⟩ := sails.founded room .process (.process options.flags)
    fun hook same => by cases same
  cases linked : options.link with
  | false =>
    simp only [World.spawn, started, linked, Bool.false_eq_true, if_false]
    exact ⟨_, _, rfl, sails.emit _⟩
  | true =>
    obtain ⟨parent, rfl⟩ := Option.isSome_iff_exists.mp (lawful linked)
    rw [spawn_linked linked started]
    exact sails.announced parent child _

theorem openPort (sails : Sails past w) (owner : Identity) (name : Atom) :
    Issues past w (w.openPort owner name) := by
  refine issues_of (fun full => openPort_full full owner name) fun room => ?_
  obtain ⟨child, v, started, sails⟩ := sails.founded room .port (.port name owner)
    fun hook same => by cases same
  rw [openPort_started started]
  exact sails.announced owner child _

end Sails

end World

end Actors
