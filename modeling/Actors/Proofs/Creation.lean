import Actors.Proofs.Linking

/-! Creation. An actor that is created with a link to another one is linked to it, and runs, exactly if
the other one is live. Otherwise the new actor is ended at once, with `noproc`: nobody hears of it, and
its body is given to no driver. All that can be left of it is its entry in the links of a parent that
has an exit pending. -/
namespace Actors

inductive Creation
  | spawn (options : SpawnOptions) (linked : options.link = true)
  | openPort (name : Atom)

namespace Creation

def kind : Creation → ActorKind
  | spawn _ _ => .process
  | openPort _ => .port

def tag : Creation → Tag
  | spawn _ _ => .process
  | openPort _ => .port

def role (parent : Identity) : Creation → Role
  | spawn options _ => .process options.flags
  | openPort name => .port name parent

def event (parent child : Identity) : Creation → Event
  | spawn _ _ => .spawned child (some parent)
  | openPort name => .portOpened child name parent

def create (w : World) (parent : Identity) :
    Creation → World.Outcome (Except Interrupt Identity)
  | spawn options _ => w.spawn (some parent) options
  | openPort name => w.openPort parent name

/-- The step that creates an actor with a body. With a text, the body fails with it before it is there. -/
def step (parent : Ref) (body : List Line) (failure : Option String) : Creation → Step
  | spawn options _ => .spawn (some parent) options body failure
  | openPort name => .openPort parent name body failure

variable {w v : World} {parent child : Identity}

theorem create_started (c : Creation) (started : w.allocateStarted c.tag (c.role parent) = .ok child v) :
    c.create w parent = World.announce child (c.event parent child) (v.adopt parent child) := by
  cases c with
  | spawn options linked => exact World.spawn_linked linked started parent
  | openPort name => exact World.openPort_started started

theorem create_full (full : Identity.maxSerial < w.serial) (c : Creation) :
    c.create w parent = .error (.exception .exhausted) w := by
  cases c with
  | spawn options _ => exact World.spawn_full full (some parent) options
  | openPort name => exact World.openPort_full full parent name

end Creation

theorem Core.isLive_iff_phase {c : Core} :
    c.isLive = true ↔ c.phase = .init ∨ c.phase = .running := by
  rw [Core.isLive]
  cases c.phase <;> decide

namespace World

variable {w v u : World} {parent child : Identity} {a b : Actor}

theorem start_written (w : World) (id : Identity) :
    (w.start id).world.journal = w.journal ∧ (w.start id).world.stubs = w.stubs := by
  unfold start
  split
  · exact ⟨rfl, rfl⟩
  · split <;> exact ⟨rfl, rfl⟩

/-- A parent that is not live refuses a live child. One that is not done has recorded its own half. -/
theorem link_dead (keyed : w.Keyed) (found : w.find? parent = some a)
    (present : w.find? child = some b) (other : child ≠ parent) (born : b.core.isLive = true)
    (dead : a.core.isLive = false) :
    ∃ m : World, w.link parent child = (.error .noproc, m.emit (.linkRefused child parent)) ∧
      m.Keyed ∧ m.find? parent
        = some (if a.core.phase = .exiting then { a with core := a.core.insertLink child } else a) ∧
      (∀ i, i ≠ parent → m.find? i = w.find? i) ∧ m.stubs = w.stubs ∧ m.journal = w.journal := by
  have live : w.isLive child = true := by simp [isLive, present, born]
  unfold link
  cases done : a.core.isDone with
  | true =>
    obtain ⟨final, life⟩ := Core.isDone_iff.mp done
    have phase : a.core.phase ≠ .exiting := by simp [Core.phase, life, Life.phase]
    refine ⟨w, ?_, keyed, by rw [if_neg phase, found], fun i _ => rfl, rfl, rfl⟩
    simp [recordLink, other, live, found, done]
  | false =>
    obtain ⟨reason, life⟩ := Core.exiting_of_dead done dead
    have phase : a.core.phase = .exiting := by simp [Core.phase, life, Life.phase]
    have name : a.id = parent := keyed found
    have half := received_changeCore found (·.insertLink child)
    have own : (w.changeCore parent (·.insertLink child)).find? parent
        = some { a with core := a.core.insertLink child } := by rw [half.find?, if_pos name.symm]
    have rest (i : Identity) (different : i ≠ parent) :
        (w.changeCore parent (·.insertLink child)).find? i = w.find? i := by
      rw [half.find?, name, if_neg different]
    have first : w.recordLink parent child
        = (.ok (), w.changeCore parent (·.insertLink child)) := by
      simp [recordLink, other, live, found, done]
    have gone : (w.changeCore parent (·.insertLink child)).isLive parent = false := by
      rw [isLive, own]
      exact dead
    refine ⟨w.changeCore parent (·.insertLink child), ?_, half.keyed rfl keyed,
      by rw [own, if_pos phase], rest, half.stubs, by rw [changeCore_found found]; rfl⟩
    rw [first]
    simp [linkThrough_found ((rest child other).trans present), recordLink, Ne.symm other, gone]

/-- A running actor without links is ended without anyone hearing of it. -/
theorem terminate_lonely (keyed : w.Keyed) (present : w.find? child = some b)
    (runs : b.core.life = .running) (lonely : b.core.links.members = []) (reason : Exit) :
    w.terminate child reason = .ok (some reason) ((w.ended b reason).leaving w) := by
  have alive : b.core.isDone = false := by simp [Core.isDone, Core.phase, runs, Life.phase]
  have final : b.core.finalReason reason = reason := by
    simp [Core.finalReason, runs, Life.pending?]
  rw [terminate_alive keyed present alive, lonely, final]
  rfl

structure Joined (w : World) (parent child : Identity) (a : Actor) (role : Role) (v : World) :
    Prop where
  linked : v.find? parent = some { a with core := a.core.insertLink child }
  created : ∃ b, v.find? child = some b ∧ b.role = role ∧ b.core.phase = .running ∧
    b.core.links.members = [parent] ∧ b.core.mailbox.queue = []
  others : ∀ i, i ≠ parent → i ≠ child → v.find? i = w.find? i
  stubs : v.stubs = w.stubs

/-- A child has ended before anyone heard of it. Nothing else has changed, but that a parent with a
pending exit keeps the link, and all that is on record is the link that was refused and the end. -/
structure Stillborn (w : World) (parent child : Identity) (a : Actor) (role : Role) (v : World) :
    Prop where
  kept : v.find? parent
    = some (if a.core.phase = .exiting then { a with core := a.core.insertLink child } else a)
  ended : ∃ b, v.find? child = some b ∧ b.role = role ∧ b.core.life = .done .noproc ∧
    b.core.links.members = [] ∧ b.core.mailbox.queue = []
  others : ∀ i, i ≠ parent → i ≠ child → v.find? i = w.find? i
  stubs : v.stubs = w.stubs
  notes : v.journal.notes = w.journal.notes
  records : v.journal.records = w.journal.records ++
    [⟨w.journal.spans, .linkRefused child parent⟩,
      ⟨w.journal.spans ++ [.termination child], .terminated .noproc 0⟩]

section Adoption

variable {role : Role} (keyed : w.Keyed) (found : w.find? parent = some a)
  (present : w.find? child = some { core := { id := child, life := .running }, role })
  (other : child ≠ parent)
include keyed found present other

theorem adopt_live (live : a.core.isLive = true) :
    ∃ v, w.adopt parent child = .ok (.ok ()) v ∧ Joined w parent child a role v := by
  have outcome := linking keyed (fun missing => by cases present.symm.trans missing) found other
  have able := (outcome.outcome (fun missing => by cases present.symm.trans missing) other).1.mpr
    ⟨live, _, present, rfl⟩
  unfold adopt
  revert outcome able
  generalize w.link parent child = result
  intro outcome able
  cases outcome with
  | @joined b v live known live' stubs serial find? =>
    cases present.symm.trans known
    refine ⟨v, rfl, (find? parent).trans (if_pos rfl), ?_, fun i first second => ?_, stubs⟩
    · exact ⟨_, (find? child).trans ((if_neg other).trans (if_pos rfl)), rfl, rfl, rfl, rfl⟩
    · rw [find?, if_neg first, if_neg second]
  | half exiting live stubs serial find? => cases able
  | refused dead alike => cases able

theorem adopt_dead (dead : a.core.isLive = false) :
    ∃ v, w.adopt parent child = .ok (.error .noproc) v ∧ Stillborn w parent child a role v := by
  obtain ⟨m, linked, keyed', own, rest, stubs, journal⟩ :=
    link_dead keyed found present other rfl dead
  have present' : (m.emit (.linkRefused child parent)).find? child
      = some { core := { id := child, life := .running }, role } := (rest child other).trans present
  have told := terminate_lonely (w := m.emit (.linkRefused child parent)) keyed' present' rfl rfl
    .noproc
  have ended := find?_ended (w := m.emit (.linkRefused child parent))
    { core := { id := child, life := .running }, role } .noproc
  unfold adopt
  rw [linked]
  dsimp only
  rw [show Interrupt.noproc.reason = .noproc from rfl, told]
  refine ⟨_, rfl, ?_, ⟨_, (ended child).trans (if_pos rfl), rfl, rfl, rfl, rfl⟩,
    fun i first second => ?_, stubs, ?_, ?_⟩
  · exact (ended parent).trans ((if_neg (Ne.symm other)).trans own)
  · exact (ended i).trans ((if_neg second).trans (rest i first))
  · change m.journal.notes = w.journal.notes
    rw [journal]
  · change (m.journal.records ++ [⟨m.journal.spans, _⟩]) ++ [⟨m.journal.spans ++ _, _⟩] = _
    rw [journal, List.append_assoc]
    rfl

end Adoption

theorem Joined.emit {role : Role} (joined : Joined w parent child a role v) (event : Event) :
    Joined w parent child a role (v.emit event) :=
  ⟨joined.linked, joined.created, joined.others, joined.stubs⟩

section Creation

variable (rooted : w.Rooted) (room : w.serial ≤ Identity.maxSerial) (found : w.find? parent = some a)
  (c : Creation)
include rooted room found

/-- Before it is linked, a new actor runs and nothing else has changed. -/
theorem allocateStarted_new (tag : Tag) (role : Role) :
    let child := Identity.ofSerial w.serial tag
    ∃ v, w.allocateStarted tag role = .ok child v ∧ v.Keyed ∧ child ≠ parent ∧
      v.find? parent = some a ∧
      v.find? child = some { core := { id := child, life := .running }, role } ∧
      (∀ i, i ≠ child → v.find? i = w.find? i) ∧ v.stubs = w.stubs ∧ v.journal = w.journal := by
  intro child
  obtain ⟨v, started, steps, find?⟩ := allocateStarted_ok room tag role
  have other : child ≠ parent := ((rooted.given found).different room tag).symm
  have rest (i : Identity) (different : i ≠ child) : v.find? i = w.find? i := by
    rw [find?, if_neg different]
  obtain ⟨journal, stubs⟩ := (w.allocate tag role).2.start_written (w.allocate tag role).1
  have keyed : v.Keyed := by
    intro i b present
    rw [find?] at present
    split at present
    · next same =>
      cases present
      exact same.symm
    · exact rooted.keyed present
  exact ⟨v, started, keyed, other, (rest parent (Ne.symm other)).trans found,
    (find? child).trans (if_pos rfl), rest, steps ▸ stubs, steps ▸ journal⟩

theorem create_live (live : a.core.isLive = true) :
    ∃ v, c.create w parent = .ok (.ok (.ofSerial w.serial c.tag)) v ∧
      Joined w parent (.ofSerial w.serial c.tag) a (c.role parent) v := by
  obtain ⟨v, started, keyed, other, known, present, rest, stubs, -⟩ :=
    allocateStarted_new rooted room found c.tag (c.role parent)
  obtain ⟨u, adopted, joined⟩ := adopt_live keyed known present other live
  refine ⟨u.emit (c.event parent (.ofSerial w.serial c.tag)), ?_, ?_⟩
  · rw [c.create_started started, adopted]
    rfl
  · exact Joined.emit ⟨joined.linked, joined.created,
      fun i first second => (joined.others i first second).trans (rest i second),
      joined.stubs.trans stubs⟩ _

theorem create_dead (dead : a.core.isLive = false) :
    ∃ v, c.create w parent = .ok (.error .noproc) v ∧
      Stillborn w parent (.ofSerial w.serial c.tag) a (c.role parent) v := by
  obtain ⟨v, started, keyed, other, known, present, rest, stubs, journal⟩ :=
    allocateStarted_new rooted room found c.tag (c.role parent)
  obtain ⟨u, adopted, stillborn⟩ := adopt_dead keyed known present other dead
  refine ⟨u, ?_, stillborn.kept, stillborn.ended,
    fun i first second => (stillborn.others i first second).trans (rest i second),
    stillborn.stubs.trans stubs, journal ▸ stillborn.notes, journal ▸ stillborn.records⟩
  rw [c.create_started started, adopted]
  rfl

end Creation

end World

namespace Node

variable {n : Node} {scope : Scope} {u : Ref} {a : Actor} {v : World}

theorem onWorld_bind {α β : Type} {work : World → World.Outcome α} {answer : α}
    (answered : work n.world = .ok answer v) (next : α → Job β) :
    (onWorld work >>= next) n = next answer { n with world := v } := by
  simp only [bind, EStateM.bind, onWorld, answered]

theorem onWorld_raise {α β : Type} {work : World → World.Outcome α} {fault : Fault}
    (raised : work n.world = .error fault v) (next : α → Job β) :
    (onWorld work >>= next) n = .error fault { n with world := v } := by
  simp only [bind, EStateM.bind, onWorld, raised]

/-- What a step that creates an actor comes to, once the world has answered. -/
theorem perform_create (keyed : n.world.Keyed) (found : n.world.find? (scope.find u) = some a)
    (c : Creation) {result : Except Interrupt Identity}
    (created : c.create n.world (scope.find u) = .ok result v) (body : List Line)
    (failure : Option String) :
    perform scope (c.step u body failure) n
      = launchNew c.kind body failure result { n with world := v } := by
  rw [← keyed found] at created
  cases c with
  | spawn options linked => exact (onActor_found found).trans (onWorld_bind created _)
  | openPort name => exact (onActor_found found).trans (onWorld_bind created _)

/-- Where the serials are used up, no actor is created and nothing changes, whatever its parent is. -/
theorem perform_create_full (full : Identity.maxSerial < n.world.serial)
    (found : n.world.find? (scope.find u) = some a) (c : Creation) (body : List Line)
    (failure : Option String) :
    perform scope (c.step u body failure) n = .error (.exception .exhausted) n := by
  have raised : c.create n.world a.id = .error (.exception .exhausted) n.world := c.create_full full
  cases c with
  | spawn options linked => exact (onActor_found found).trans (onWorld_raise raised _)
  | openPort name => exact (onActor_found found).trans (onWorld_raise raised _)

/-- Where the new actor is joined to its parent, its body is given to a driver. -/
theorem launchNew_joined {parent child : Identity} {role : Role}
    (joined : World.Joined n.world parent child a role v) (kind : ActorKind) (body : List Line) :
    ∃ m, launchNew kind body none (.ok child) { n with world := v }
        = .ok (.actor n.entries.length) m ∧ World.Joined n.world parent child a role m.world ∧
      ∃ driver, m.drivers = n.drivers.put child driver ∧
        driver.activity? = some { lines := body } :=
  ⟨_, rfl, ⟨joined.linked, joined.created, joined.others, joined.stubs⟩, _, rfl, rfl⟩

section Linked

variable {trace : List World.Moment} (reached : World.Course {} trace n.world)
  (room : n.world.serial ≤ Identity.maxSerial) (found : n.world.find? (scope.find u) = some a)
  (c : Creation)
include reached room found

theorem perform_create_live (live : a.core.isLive = true) (body : List Line) :
    let parent := scope.find u
    let child := Identity.ofSerial n.world.serial c.tag
    ∃ m, perform scope (c.step u body none) n = .ok (.actor n.entries.length) m ∧
      World.Joined n.world parent child a (c.role parent) m.world ∧
      ∃ driver, m.drivers = n.drivers.put child driver ∧
        driver.activity? = some { lines := body } := by
  intro parent child
  have rooted := reached.rooted World.rooted_empty
  obtain ⟨v, created, joined⟩ := World.create_live rooted room found c live
  rw [perform_create rooted.keyed found c created body none]
  exact launchNew_joined joined c.kind body

theorem perform_create_dead (dead : a.core.isLive = false) :
    let parent := scope.find u
    let child := Identity.ofSerial n.world.serial c.tag
    ∃ v, World.Stillborn n.world parent child a (c.role parent) v ∧ ∀ body failure,
      perform scope (c.step u body failure) n = .ok (.failed .noproc) { n with world := v } := by
  have rooted := reached.rooted World.rooted_empty
  obtain ⟨v, created, stillborn⟩ := World.create_dead rooted room found c dead
  exact ⟨v, stillborn, perform_create rooted.keyed found c created⟩

end Linked

/-- The creation of an actor that is linked to a parent, with a body that does not fail while it is
made, answers with the new actor exactly if the parent is live. Then the actor runs, the two are linked,
and a driver has the body. Otherwise the answer is `noproc`, whatever the body is and whether it could be
made or not, no driver has changed, and the new actor has ended alone. Once the serials are used up no
creation answers, and none changes anything. -/
theorem linked_creation {trace : List World.Moment} (reached : World.Course {} trace n.world)
    (found : n.world.find? (scope.find u) = some a) (c : Creation) :
    let parent := scope.find u
    let child := Identity.ofSerial n.world.serial c.tag
    let role := c.role parent
    (n.world.serial ≤ Identity.maxSerial →
      (∀ body, (∃ index m, perform scope (c.step u body none) n = .ok (.actor index) m) ↔
        a.core.phase = .init ∨ a.core.phase = .running) ∧
      (a.core.isLive = true → ∀ body,
        ∃ m, perform scope (c.step u body none) n = .ok (.actor n.entries.length) m ∧
          World.Joined n.world parent child a role m.world ∧
          ∃ driver, m.drivers = n.drivers.put child driver ∧
            driver.activity? = some { lines := body }) ∧
      (a.core.isLive = false → ∃ v, World.Stillborn n.world parent child a role v ∧
        ∀ body failure,
          perform scope (c.step u body failure) n = .ok (.failed .noproc) { n with world := v })) ∧
    (Identity.maxSerial < n.world.serial → ∀ body failure,
      perform scope (c.step u body failure) n = .error (.exception .exhausted) n) := by
  intro parent child role
  refine ⟨fun room => ⟨fun body => ?_, perform_create_live reached room found c,
    perform_create_dead reached room found c⟩, fun full => perform_create_full full found c⟩
  rw [← Core.isLive_iff_phase]
  constructor
  · rintro ⟨index, m, answered⟩
    by_contra dead
    obtain ⟨v, -, refused⟩ :=
      perform_create_dead reached room found c (Bool.eq_false_iff.mpr dead)
    cases answered.symm.trans (refused body none)
  · intro live
    obtain ⟨m, answered, -⟩ := perform_create_live reached room found c live body
    exact ⟨_, m, answered⟩

def parenthood (ops : List Operation) : Node where
  world := World.run {} (.allocate .process (.process .empty) ::
    ops.map (.operate (.ofSerial 1 .process)))
  entries := [⟨.ofSerial 1 .process, some .process⟩]
  held := [.ofSerial 1 .process]

theorem exiting_keeps_port : let n := parenthood [.start, .signal .nobody .kill]
    let body : List Line := [.mk "receive" false .receive]
    ∃ v, perform (n.scope none none) (.openPort (.index 0) ⟨"stdio"⟩ body none) n
        = .ok (.failed .noproc) { n with world := v } ∧
      (v.find? (.ofSerial 1 .process)).map (·.core.links.members) = some [.ofSerial 2 .port] ∧
      ∃ b, v.find? (.ofSerial 2 .port) = some b ∧ b.core.life = .done .noproc := by
  intro n body
  obtain ⟨a, found, exiting, dead, lonely⟩ : ∃ a,
      n.world.find? ((n.scope none none).find (.index 0)) = some a ∧ a.core.phase = .exiting ∧
      a.core.isLive = false ∧ a.core.links = {} :=
    ⟨_, rfl, rfl, rfl, rfl⟩
  obtain ⟨creates, -⟩ := linked_creation (World.course_run ..) found (.openPort ⟨"stdio"⟩)
  obtain ⟨-, -, refuses⟩ := creates (by decide)
  obtain ⟨v, ⟨kept, ⟨b, present, -, ended, -⟩, -⟩, answers⟩ := refuses dead
  refine ⟨v, answers _ _, ?_, b, present, ended⟩
  rw [if_pos exiting] at kept
  rw [show v.find? (.ofSerial 1 .process) = _ from kept, Option.map_some, Core.insertLink, lonely]
  rfl

/-- The parent is running, but its process has a body that fails while it is made. The creation ends with
that fault, and nobody holds the process any more, which was linked and has come to no end. -/
theorem failing_body_answers_nothing : let n := parenthood [.start]
    let parent := (n.scope none none).find (.index 0)
    let step : Step := .spawn (some (.index 0)) .linked [] (some "boom")
    ∃ a m, n.world.find? parent = some a ∧ a.core.phase = .running ∧
      perform (n.scope none none) step n = .error (.message "boom") m ∧
      (¬∃ reply m, perform (n.scope none none) step n = .ok reply m) ∧
      m.reclaim.world.find? (.ofSerial 2 .process) = none ∧
      (m.reclaim.world.find? parent).map (·.core.links.members) = some [.ofSerial 2 .process] ∧
      m.reclaim.world.journal.records.map (·.event)
        = [.spawned (.ofSerial 2 .process) (some parent)] := by
  refine ⟨_, _, rfl, rfl, rfl, ?_, rfl, rfl, rfl⟩
  rintro ⟨reply, m, answered⟩
  cases answered

end Node

end Actors
