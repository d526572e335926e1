import Actors.Proofs.Linking

/-! Ownership. A port stays in the links of its owner until the owner ends, and then takes the reason
of its end, be it a normal one, unless it has taken another reason before. From anyone else a normal
exit is nothing to it. -/
namespace Actors

namespace Actor

variable {a : Actor} {name : Atom} {owner sender : Identity}

theorem reaching_owner (role : a.role = .port name owner) (other : owner ≠ a.id) (reason : Exit) :
    a.reaching owner reason = some (if reason.isKill then .killed else reason) := by
  unfold reaching screen Role.screen
  rw [role]
  cases reason.isKill <;> simp [other]

theorem heeds_owner (role : a.role = .port name owner) (other : owner ≠ a.id) (reason : Exit) :
    World.Heeds a owner reason := by
  intro sender taken reaches
  rw [reaching_owner role other]
  unfold reaching screen Role.screen at reaches
  rw [role] at reaches
  cases kills : reason.isKill <;> cases normal : reason.isNormal <;> by_cases own : sender = owner <;>
    simp_all

theorem screen_normal (role : a.role = .port name owner) (other : sender ≠ owner) :
    a.screen sender .normal = .ignoreNormal := by
  unfold screen Role.screen
  rw [role]
  simp [other, show Exit.normal.isKill = false from rfl, show Exit.normal.isNormal = true from rfl]

end Actor

namespace World

variable {w v u x y : World} {owner port : Identity} {a b : Actor} {m : Moment}
  {trace : List Moment} {exit reason : Exit} {name : Atom}

/-- The worlds in the course of an action, up to strokes that it could have dealt or that could have
followed. -/
def Midst (m : Moment) (x : World) : Prop :=
  Strikes (fun w a stroke => Cause (fun _ _ _ _ => True) w a stroke ∨
    ∃ id op, m.2 = .operate id op ∧ op.Deals id a.id stroke) m.1 x

structure Owned (owner port : Identity) (name : Atom) (w : World) : Prop where
  keyed : w.Keyed
  other : port ≠ owner
  holds : ∀ a, w.find? owner = some a → a.role ≠ .plain .unlink ∧ a.core.Tethered port
  port : ∀ b, w.find? port = some b → b.role = .port name owner ∧ b.core.life ≠ .init

theorem Adopted.owned {old : Role} (adopted : Adopted owner port old (.port name owner) v)
    (loyal : old ≠ .plain .unlink) (course : Course v trace u)
    (kept : ∀ m ∈ trace, m.2 ≠ .operate owner (.unlink port)) : Owned owner port name u := by
  have rooted := adopted.rooted
  obtain ⟨parent, held, same, linked⟩ := adopted.linked
  obtain ⟨child, created, role, runs, -⟩ := adopted.created
  refine ⟨(course.rooted rooted).keyed, adopted.other, fun a found => ⟨fun plain => ?_, ?_⟩,
    fun b present => ⟨(course.stays rooted created present).port role, ?_⟩⟩
  · exact loyal (same.symm.trans ((course.stays rooted held found).plain plain))
  · exact course.tethered rooted held (same ▸ loyal) kept (fun _ => linked) found
  · exact course.born rooted created (by simp [runs]) present

/-- A port can rely on its owner also in the middle of an action. -/
theorem Owned.midst (owned : Owned owner port name m.1)
    (kept : m.2 ≠ .operate owner (.unlink port)) (midst : Midst m x) :
    Owned owner port name x := by
  have known {i : Identity} {b : Actor} (present : x.find? i = some b) :
      ∃ a, m.1.find? i = some a := by
    by_contra missing
    have gone := midst.missing (Option.eq_none_iff_forall_ne_some.mpr (not_exists.mp missing))
    cases gone.symm.trans present
  refine ⟨midst.keyed owned.keyed, owned.other, fun b present => ?_, fun b present => ?_⟩
  · obtain ⟨a, found⟩ := known present
    obtain ⟨loyal, tethered⟩ := owned.holds a found
    obtain ⟨c, present', role, struck⟩ := midst.actor found
    cases present.symm.trans present'
    refine ⟨role ▸ loyal, struck.tethered ?_ tethered⟩
    rintro core ⟨u, -, same, cause | ⟨id, op, acts, deals⟩⟩
    · cases cause with
      | parted plain => exact loyal plain
    · cases deals with
      | unlink peer =>
        cases same
        exact kept acts
  · obtain ⟨a, found⟩ := known present
    obtain ⟨port, born⟩ := owned.port a found
    obtain ⟨c, present', role, struck⟩ := midst.actor found
    cases present.symm.trans present'
    exact ⟨role.trans port, struck.born born⟩

theorem terminate_some (keyed : x.Keyed) (ended : x.terminate owner reason = .ok (some exit) y) :
    ∃ a, x.find? owner = some a ∧ a.core.isDone = false ∧ a.core.finalReason reason = exit := by
  cases found : x.find? owner with
  | none =>
    obtain ⟨t, answered, -⟩ := terminate_gone found reason
    cases answered.symm.trans ended
  | some a =>
    cases alive : a.core.isDone with
    | true =>
      obtain ⟨t, answered, -⟩ := terminate_done found alive reason
      cases answered.symm.trans ended
    | false =>
      rw [terminate_alive keyed found alive] at ended
      exact ⟨a, rfl, alive, (Option.some.inj (concluding_ok_iff.mp ended).1).symm⟩

/-- What the end of an owner makes of the life of its port. -/
theorem Owned.heeds (owned : Owned owner port name x) (present : x.find? port = some b)
    (ended : x.terminate owner reason = .ok (some exit) y) :
    ∃ d, y.find? port = some d ∧
      d.core.life = b.core.life.heeding (some (if exit.isKill then .killed else exit)) := by
  have keyed := owned.keyed
  obtain ⟨role, -⟩ := owned.port b present
  have outcome : (x.terminate owner reason).world = y := by rw [ended]; rfl
  obtain ⟨a, found, alive, final⟩ := terminate_some keyed ended
  cases going : b.core.isDone with
  | true =>
    -- a port that is done is in no state to take anything
    have strikes : Strikes (fun _ _ _ => True) x (x.terminate owner reason).world :=
      strikes_terminate Traffic.spreads_any keyed (fun _ _ _ _ => trivial)
        (fun _ _ _ => trivial) fun _ _ _ _ _ => trivial
    obtain ⟨d, last, -, struck⟩ := strikes.actor present
    obtain ⟨-, life, -⟩ := struck.past going
    obtain ⟨first, done⟩ := Core.isDone_iff.mp going
    refine ⟨d, outcome ▸ last, life.trans ?_⟩
    rw [done]
    rfl
  | false =>
    have other : owner ≠ b.id := keyed present ▸ Ne.symm owned.other
    obtain ⟨d, last, -, life, -⟩ := end_reaches keyed found alive
      (fun fault t raised => by cases raised.symm.trans ended)
      ((owned.holds a found).2 alive) owned.other present going (fun hook => by simp [role])
      (b.heeds_owner role other _)
    rw [final, b.reaching_owner role other] at life
    exact ⟨d, outcome ▸ last, life⟩

theorem ignores_normal (R : Reaction) (present : x.find? port = some b)
    (role : b.role = .port name owner) {sender : Identity} (other : sender ≠ owner) :
    ∃ y, deliverWith R x port sender .normal = .ok () y ∧ Alike x y := by
  refine ⟨x.emit (.normalIgnored b.id sender), ?_, alike_emit _ _ fun _ => rfl⟩
  unfold deliverWith signalWith
  rw [present]
  dsimp only
  rw [b.screen_normal role other]

/-- A port whose owner does not unlink it closes with it: whenever an end of the owner takes effect
and nothing raises, the port has taken the reason of that end, or keeps the one that it had taken
before. A normal exit of anyone else never changes it. -/
theorem port_closes_with_owner {earlier : List Moment} (reached : Course {} earlier w)
    (room : w.serial ≤ Identity.maxSerial) (found : w.find? owner = some a)
    (loyal : a.role ≠ .plain .unlink) (made : w.openPort owner name = .ok (.ok port) v)
    (course : Course v trace u) (kept : ∀ m ∈ trace, m.2 ≠ .operate owner (.unlink port)) :
    ∀ m ∈ trace, ∀ x, Midst m x → ∀ b, x.find? port = some b →
      (∀ depth, x.running ≤ depth → ∀ reason exit y,
        finishWith (react depth) x owner reason = .ok (some exit) y →
        ∃ d, y.find? port = some d ∧ (d.core.phase = .exiting ∨ d.core.phase = .done) ∧
          (b.core.life.surfaced? = none →
            d.core.life = .exiting (if exit.isKill then .killed else exit)) ∧
          (b.core.life.surfaced? ≠ none → d.core.life = b.core.life)) ∧
      ∀ (R : Reaction) (sender : Identity), sender ≠ owner →
        ∃ y, deliverWith R x port sender .normal = .ok () y ∧ Alike x y := by
  have adopted := opened (reached.rooted rooted_empty) room found made
  intro m member x midst b present
  obtain ⟨before, after, split, first, -⟩ := course.cut member
  have owned : Owned owner port name x := by
    refine (adopted.owned loyal first fun n inside => kept n ?_).midst (kept m member) midst
    rw [split]
    exact List.mem_append_left _ inside
  refine ⟨fun depth deep reason exit y ended => ?_, fun R sender other =>
    ignores_normal R present (owned.port b present).1 other⟩
  have same : finishWith (react depth) x owner reason = x.terminate owner reason :=
    finishWith_agree (agree_react deep le_rfl) owned.keyed le_rfl (reacts_react deep) owner reason
  obtain ⟨d, last, life⟩ := owned.heeds present (same ▸ ended)
  refine ⟨d, last, ?_⟩
  unfold Core.phase
  rw [life]
  cases before : b.core.life with
  | init => exact absurd before (owned.port b present).2
  | running => simp [Life.heeding, Life.phase, Life.surfaced?]
  | exiting first => simp [Life.heeding, Life.phase, Life.surfaced?]
  | done first => simp [Life.heeding, Life.phase, Life.surfaced?]

def workshop : World :=
  run {} [.allocate .process (.plain .raise), .operate (.ofSerial 1 .process) .start,
    .allocate .process (.process .empty), .operate (.ofSerial 2 .process) .start]

theorem workshop_port_closes :
    let owner : Identity := .ofSerial 2 .process
    let port : Identity := .ofSerial 3 .port
    ∃ v y d exit, workshop.openPort owner ⟨"stdio"⟩ = .ok (.ok port) v ∧
      v.terminate owner .normal = .ok (some exit) y ∧ exit.isKill = false ∧
      y.find? port = some d ∧ d.core.life = .exiting exit := by
  intro owner port
  let spares (v : World) : Bool := match v.terminate owner .normal with
    | .ok answer _ => answer.any (!·.isKill)
    | .error _ _ => false
  obtain ⟨v, made, spared, runs⟩ : ∃ v, workshop.openPort owner ⟨"stdio"⟩ = .ok (.ok port) v ∧
      spares v = true ∧ (v.find? port).map (·.core.phase) = some .running :=
    ⟨(workshop.openPort owner ⟨"stdio"⟩).world, rfl, by decide +kernel, by decide +kernel⟩
  obtain ⟨a, found, loyal⟩ : ∃ a, workshop.find? owner = some a ∧ a.role ≠ .plain .unlink :=
    ⟨_, rfl, fun plain => by cases plain⟩
  obtain ⟨b, present, running⟩ := Option.map_eq_some_iff.mp runs
  have fresh : b.core.life.surfaced? = none := by
    cases life : b.core.life <;> simp_all [Core.phase, Life.phase, Life.surfaced?]
  have closes := port_closes_with_owner (course_run {} _) (by decide) found loyal made
    (course_run v [.operate owner (.terminate .normal)]) (by simp [moments])
    _ List.mem_cons_self v (Strikes.refl v) b present
  cases answered : v.terminate owner .normal with
  | error fault y => simp [spares, answered] at spared
  | ok answer y =>
    cases answer with
    | none => simp [spares, answered] at spared
    | some exit =>
      have lives : exit.isKill = false := by simpa [spares, answered] using spared
      obtain ⟨d, last, -, taken, -⟩ := closes.1 _ le_rfl .normal exit y answered
      refine ⟨v, y, d, exit, made, answered, lives, last, ?_⟩
      rw [taken fresh, lives]
      rfl

/-- The hook of the first link raises, and the port is not told. -/
theorem raising_link_spares_port :
    let owner : Identity := .ofSerial 2 .process
    let port : Identity := .ofSerial 3 .port
    ∃ v, workshop.openPort owner ⟨"stdio"⟩ = .ok (.ok port) v ∧
      (v.link owner (.ofSerial 1 .process)).1 = .ok () ∧
      let linked := v.act (.operate owner (.link (.ofSerial 1 .process)))
      let ended := linked.act (.operate owner (.terminate (.atom ⟨"crash"⟩)))
      (∀ answer t, linked.terminate owner (.atom ⟨"crash"⟩) ≠ .ok answer t) ∧
      (ended.find? owner).map (·.core.phase) = some .done ∧
      (ended.find? port).map (·.core.phase) = some .running := by
  intro owner port
  let raises (v : World) : Bool := match v.terminate owner (.atom ⟨"crash"⟩) with
    | .ok _ _ => false
    | .error _ _ => true
  obtain ⟨v, made, linked, raised, past, runs⟩ : ∃ v,
      workshop.openPort owner ⟨"stdio"⟩ = .ok (.ok port) v ∧
      (v.link owner (.ofSerial 1 .process)).1 = .ok () ∧
      let linked := v.act (.operate owner (.link (.ofSerial 1 .process)))
      let ended := linked.act (.operate owner (.terminate (.atom ⟨"crash"⟩)))
      raises linked = true ∧ (ended.find? owner).map (·.core.phase) = some .done ∧
      (ended.find? port).map (·.core.phase) = some .running :=
    ⟨(workshop.openPort owner ⟨"stdio"⟩).world, rfl, rfl, by decide +kernel, by decide +kernel,
      by decide +kernel⟩
  exact ⟨v, made, linked, fun answer t answered => by simp [raises, answered] at raised, past, runs⟩

end World

end Actors
