import Actors.Proofs.FinalReason
import Actors.Proofs.Linking

/-! Supervision. A process that traps exits is told that a child of its own has ended, once, at the
moment of that end, with the reason that the driver of the child reports. In between nothing but the
end of the child makes a message in the name of the child. -/
namespace Actors

namespace Actor

variable {a : Actor} {flags : Flags} {sender : Identity}

section Trapping

variable (role : a.role = .process flags) (traps : flags.traps = true)
include role traps

theorem reaching_traps (other : sender ≠ a.id) (reason : Exit) :
    a.reaching sender reason = if reason.isKill then some .killed else none := by
  unfold reaching screen Role.screen
  rw [role]
  simp only [if_neg other, traps, if_true]
  cases reason.isKill <;> rfl

theorem trapping_traps (other : sender ≠ a.id) (reason : Exit) :
    a.trapping sender reason = if reason.isKill then none else some reason := by
  unfold trapping screen Role.screen
  rw [role]
  simp only [if_neg other, traps, if_true]
  cases reason.isKill <;> rfl

end Trapping

theorem reaching_own (role : a.role = .process flags) (reason : Exit) :
    a.reaching a.id reason = none := by
  unfold reaching screen Role.screen
  rw [role]
  simp

end Actor

def Action.posts (id : Identity) : Action → Bool
  | .operate other (.send _) => other == id
  | _ => false

namespace World

variable {w v u : World} {p c : Identity} {a b : Actor} {m : Moment} {trace : List Moment}
  {exit : Exit}

def arrivals (id : Identity) (m : Moment) : List Term :=
  match m.1.find? id, (m.1.act m.2).find? id with
  | some a, some b => b.core.mailbox.queue.drop a.core.mailbox.queue.length
  | _, _ => []

/-- The reasons of the exit messages in the name of some actor that another one gets at a moment,
where nobody forges them. -/
def noticed (p c : Identity) (m : Moment) : List Exit :=
  if m.2.posts p then [] else (arrivals p m).filterMap (·.exitFrom? c)

def EndsAt (id : Identity) (exit : Exit) (m : Moment) : Prop :=
  ∃ given a, m.2 = .operate id (.terminate given) ∧ m.1.find? id = some a ∧
    a.core.isDone = false ∧ a.core.finalReason given = exit

theorem arrivals_of {action : Action} (found : w.find? p = some a)
    (present : (w.act action).find? p = some b) :
    arrivals p (w, action) = b.core.mailbox.queue.drop a.core.mailbox.queue.length := by
  simp [arrivals, found, present]

theorem noticed_nil (none : ∀ message ∈ arrivals p m, message.exitFrom? c = none) :
    noticed p c m = [] := by
  unfold noticed
  split
  · rfl
  · exact List.filterMap_eq_nil_iff.mpr none

def besides (p c : Identity) : Traffic := fun w receiver sender _ =>
  (receiver = p → sender ≠ c) ∧ ∀ a, w.find? c = some a → ∀ hook, a.role ≠ .plain hook

theorem spreads_besides (p c : Identity) : (besides p c).Spreads where
  keeps := by
    rintro w v receiver sender reason strikes ⟨other, bodied⟩
    refine ⟨other, fun b present hook role => ?_⟩
    cases known : w.find? c with
    | none => cases (strikes.missing known).symm.trans present
    | some a =>
      obtain ⟨d, present', same, -⟩ := strikes.actor known
      cases present.symm.trans present'
      exact bodied a known hook (same.symm.trans role)
  ends := by
    rintro w a sender reason last found role exiting ⟨-, bodied⟩ peer member
    have different : a.id ≠ c := by
      rintro rfl
      exact bodied a found _ role
    refine ⟨fun _ => different, fun b present => ?_⟩
    rw [find?_ended, if_neg (Ne.symm different)] at present
    exact bodied b present
  replies := by
    rintro w a sender reason answer found role exiting ⟨-, bodied⟩
    refine ⟨fun _ => ?_, bodied⟩
    rintro rfl
    exact bodied a found _ role

section Quiet

variable {action : Action} (rooted : w.Rooted)
  (bodied : ∀ a, w.find? c = some a → ∀ hook, a.role ≠ .plain hook)
  (own : ∀ reason, action ≠ .operate p (.signal c reason) ∧ action ≠ .operate p (.forward c reason))
  (stays : ∀ exit, ¬EndsAt c exit (w, action))
include rooted bodied own stays

theorem sends_besides : action.Sends (besides p c) w := by
  cases action with
  | operate id op =>
    cases op with
    | signal sender reason =>
      refine ⟨?_, bodied⟩
      rintro rfl rfl
      exact (own reason).1 rfl
    | forward sender reason =>
      refine ⟨?_, bodied⟩
      rintro rfl rfl
      exact (own reason).2 rfl
    | terminate reason =>
      intro a found alive peer member
      have different : id ≠ c := by
        rintro rfl
        exact stays _ ⟨reason, a, rfl, found, alive, rfl⟩
      refine ⟨fun _ => different, fun b present => ?_⟩
      rw [find?_ended, rooted.keyed found, if_neg (Ne.symm different)] at present
      exact bodied b present
    | _ => trivial
  | _ => trivial

/-- Nothing but the end of an actor with a body puts an exit message in its name into a mailbox. -/
theorem noticed_quiet : noticed p c (w, action) = [] := by
  have sends := sends_besides rooted bodied own stays
  cases forged : action.posts p with
  | true => exact if_pos forged
  | false =>
    apply noticed_nil
    cases known : w.find? p with
    | none => simp [arrivals, known]
    | some a =>
      cases present : (w.act action).find? p with
      | none => simp [arrivals, known, present]
      | some b =>
        rw [arrivals_of known present]
        obtain ⟨-, treated⟩ := treated_act rooted known (spreads_besides p c) sends present
        cases treated with
        | waited waits waited queue =>
          rw [List.drop_eq_nil_of_le queue.length_le]
          simp
        | struck struck =>
          have posted (core : Core) (message : Term)
              (dealt : Dealt (besides p c) p action a.role core (.post message)) :
              message.exitFrom? c = none := by
            obtain ⟨u, found, same, cause⟩ | ⟨other, op, rfl, deals⟩ := dealt
            · cases cause with
              | trapped sent trapping => exact if_neg (sent.1 same)
              | greeted => rfl
            · cases deals with
              | send message => simp [Action.posts] at forged
          obtain ⟨extra, queue, kind⟩ | ⟨-, queue⟩ := struck.grown posted
          · rw [queue, List.drop_left]
            exact kind
          · simp [queue]

end Quiet

/-- A supervisor that is done notices nothing. -/
theorem noticed_over (rooted : m.1.Rooted) (known : m.1.find? p = some a)
    (done : a.core.isDone = true) : noticed p c m = [] := by
  obtain ⟨w, action⟩ := m
  apply noticed_nil
  cases present : (w.act action).find? p with
  | none => simp [arrivals, known, present]
  | some b =>
    have short : b.core.mailbox.queue.length ≤ a.core.mailbox.queue.length := by
      obtain ⟨-, treated⟩ :=
        treated_act rooted known Traffic.spreads_any (sends_any action) present
      cases treated with
      | waited waits waited queue => exact queue.length_le
      | struck struck => exact (congrArg List.length (struck.past done).2.2).le
    rw [arrivals_of known present, List.drop_eq_nil_of_le short]
    simp

namespace EndsAt

theorem past (ends : EndsAt c exit m) (keyed : m.1.Keyed) :
    ∃ b, (m.1.act m.2).find? c = some b ∧ b.core.life = .done exit := by
  obtain ⟨given, a, same, found, alive, rfl⟩ := ends
  have operated := operated_terminate keyed found given
  rw [same]
  refine ⟨_, operated.found, ?_⟩
  rw [Operation.core, Core.finish_alive alive]
  rfl

/-- An actor ends once. -/
theorem once (ends : EndsAt c exit m) (rooted : m.1.Rooted)
    (course : Course (m.1.act m.2) trace v) {last : Moment} (member : last ∈ trace) {other : Exit} :
    ¬EndsAt c other last := by
  rintro ⟨given, a, -, found, alive, -⟩
  obtain ⟨b, present, done⟩ := ends.past rooted.keyed
  obtain ⟨before, after, -, first, -⟩ := course.cut member
  have past := first.past (rooted.act m.2) present (Core.isDone_iff.mpr ⟨exit, done⟩) found
  cases alive.symm.trans past

end EndsAt

structure Supervises (p c : Identity) (m : Moment) : Prop where
  rooted : m.1.Rooted
  other : c ≠ p
  bodied : ∀ a, m.1.find? c = some a → ∀ hook, a.role ≠ .plain hook
  tethered : ∀ a, m.1.find? c = some a → a.core.Tethered p
  traps : ∀ a, m.1.find? p = some a → ∃ flags, a.role = .process flags ∧ flags.traps = true
  own : ∀ reason, m.2 ≠ .operate p (.signal c reason) ∧ m.2 ≠ .operate p (.forward c reason)
  calm : ∀ given, m.2 = .operate c (.terminate given) →
    ∀ fault v, m.1.terminate c given ≠ .error fault v

namespace Supervises

variable (supervises : Supervises p c m)
include supervises

/-- The end of the actor comes to one message, unless it is one that kills the supervisor. -/
theorem notices_end (ends : EndsAt c exit m) (known : m.1.find? p = some b)
    (going : b.core.isDone = false) :
    noticed p c m = (if exit.isKill then [] else [exit]) ∧
      ∃ d, (m.1.act m.2).find? p = some d ∧
        d.core.life = b.core.life.heeding (if exit.isKill then some .killed else none) := by
  obtain ⟨w, action⟩ := m
  obtain ⟨given, a, rfl, found, alive, rfl⟩ := ends
  have keyed : w.Keyed := supervises.rooted.keyed
  obtain ⟨flags, role, traps⟩ := supervises.traps b known
  have name : b.id = p := keyed known
  have other : c ≠ b.id := name ▸ supervises.other
  have heeds : Heeds b c (a.core.finalReason given) := by
    intro sender taken reaches
    rw [b.reaching_traps role traps other]
    by_cases own : sender = b.id
    · rw [own, b.reaching_own role] at reaches
      cases reaches
    · exact (b.reaching_traps role traps own _).symm.trans reaches
  obtain ⟨d, present, -, life, earlier, later, queue, foreign⟩ :=
    end_reaches keyed found alive (supervises.calm given rfl) (supervises.tethered a found alive)
      (Ne.symm supervises.other) known going (fun hook => by simp [role]) heeds
  obtain ⟨before, after⟩ := List.forall_mem_append.mp foreign
  refine ⟨?_, d, present, ?_⟩
  · have told : (w.act (.operate c (.terminate given))).find? p = some d := present
    have arrived := arrivals_of known told
    rw [queue, List.append_assoc, List.append_assoc, List.drop_left] at arrived
    have unforged : Action.posts p (.operate c (.terminate given)) = false := rfl
    rw [noticed, unforged, arrived, b.trapping_traps role traps other]
    simp only [List.filterMap_append, List.filterMap_eq_nil_iff.mpr before,
      List.filterMap_eq_nil_iff.mpr after]
    cases (a.core.finalReason given).isKill <;> simp [Term.exitFrom?]
  · rw [life, b.reaching_traps role traps other]

theorem noticed_ends (heard : noticed p c m ≠ []) : ∃ exit, EndsAt c exit m := by
  by_contra stays
  exact heard (noticed_quiet supervises.rooted supervises.bodied supervises.own
    (not_exists.mp stays))

theorem length_noticed : (noticed p c m).length ≤ 1 := by
  by_cases heard : noticed p c m = []
  · simp [heard]
  · obtain ⟨exit, ends⟩ := supervises.noticed_ends heard
    cases known : m.1.find? p with
    | none => exact absurd (noticed_nil (by simp [arrivals, known])) heard
    | some b =>
      cases going : b.core.isDone with
      | true => exact absurd (noticed_over supervises.rooted known going) heard
      | false =>
        rw [(supervises.notices_end ends known going).1]
        split <;> simp

end Supervises

section Run

variable (course : Course v trace u) (rooted : v.Rooted)
include course rooted

/-- Right after its creation, the supervisor of a child can rely on what a supervisor relies on. -/
theorem Adopted.supervises {old : Role} {options : SpawnOptions}
    (adopted : Adopted p c old (.process options.flags) v)
    (traps : ∀ m ∈ trace, ∀ a, m.1.find? p = some a →
      ∃ flags, a.role = .process flags ∧ flags.traps = true)
    (kept : ∀ m ∈ trace, m.2 ≠ .operate c (.unlink p))
    (own : ∀ m ∈ trace, ∀ reason,
      m.2 ≠ .operate p (.signal c reason) ∧ m.2 ≠ .operate p (.forward c reason))
    (calm : ∀ m ∈ trace, ∀ given, m.2 = .operate c (.terminate given) →
      ∀ fault t, m.1.terminate c given ≠ .error fault t) :
    ∀ m ∈ trace, Supervises p c m := by
  intro m member
  obtain ⟨child, created, role, -, linked⟩ := adopted.created
  obtain ⟨before, after, split, first, -⟩ := course.cut member
  have plainless (hook : Hook) : child.role ≠ .plain hook := by simp [role]
  refine ⟨first.rooted rooted, adopted.other, fun a found hook same => ?_, fun a found => ?_,
    traps m member, own m member, calm m member⟩
  · exact plainless hook ((first.stays rooted created found).plain same)
  · refine first.tethered rooted created (plainless _) (fun n inside => kept n ?_) (fun _ => linked)
      found
    rw [split]
    exact List.mem_append_left _ inside

/-- No more than one message comes of all that happens. -/
theorem noticed_once (supervises : ∀ m ∈ trace, Supervises p c m) :
    (trace.flatMap (noticed p c)).length ≤ 1 := by
  by_cases quiet : ∀ m ∈ trace, noticed p c m = []
  · simp [List.flatMap_eq_nil_iff.mpr quiet]
  · push Not at quiet
    obtain ⟨m, member, heard⟩ := quiet
    obtain ⟨exit, ends⟩ := (supervises m member).noticed_ends heard
    have mine := (supervises m member).length_noticed
    obtain ⟨before, after, rfl, first, last⟩ := course.cut member
    have silent (n : Moment) (inside : n ∈ before ++ m :: after)
        (stays : ∀ other, ¬EndsAt c other n) : noticed p c n = [] := by
      by_contra told
      obtain ⟨other, past⟩ := (supervises n inside).noticed_ends told
      exact stays other past
    have earlier : ∀ n ∈ before, noticed p c n = [] := by
      intro n inside
      apply silent n (List.mem_append_left _ inside)
      intro other past
      obtain ⟨start, rest, -, reached, later⟩ := first.cut inside
      exact past.once (reached.rooted rooted) (later.act m.2)
        (List.mem_append_right _ List.mem_cons_self) ends
    have later : ∀ n ∈ after, noticed p c n = [] := by
      intro n inside
      apply silent n (List.mem_append_right _ (List.mem_cons_of_mem _ inside))
      intro other past
      exact ends.once (first.rooted rooted) last inside past
    rw [List.flatMap_append, List.flatMap_cons, List.flatMap_eq_nil_iff.mpr earlier,
      List.flatMap_eq_nil_iff.mpr later]
    simpa using mine

/-- Whenever an actor is told to end, it is then done with what it ends with at whatever moment. -/
theorem ends_alike {t : World} {given : Exit} (told : (t, .operate c (.terminate given)) ∈ trace)
    (found : t.find? c = some b) (member : m ∈ trace) (ends : EndsAt c exit m) :
    b.core.life.surfaced?.getD given = exit := by
  obtain ⟨before, after, rfl, first, last⟩ := course.cut member
  have rooted' : m.1.Rooted := first.rooted rooted
  rcases List.mem_append.mp told with inside | here
  · -- told before, the actor would be done at the moment at which it ends
    obtain ⟨start, rest, -, reached, later⟩ := first.cut inside
    obtain ⟨last, a, -, known, alive, -⟩ := ends
    have operated := operated_terminate (reached.rooted rooted).keyed found given
    have past : ((Operation.terminate given).core t b).isDone = true := by
      cases done : b.core.isDone with
      | true => rw [Operation.core, Core.finish_done done, done]
      | false =>
        rw [Operation.core, Core.finish_alive done]
        rfl
    have done := later.past ((reached.rooted rooted).act _) operated.found past known
    cases alive.symm.trans done
  · rcases List.mem_cons.mp here with rfl | inside
    · obtain ⟨reason, a, same, known, alive, rfl⟩ := ends
      cases same
      cases found.symm.trans known
      cases life : b.core.life with
      | done final => simp [Core.isDone, Core.phase, life, Life.phase] at alive
      | _ => simp [Core.finalReason, life, Life.pending?, Life.surfaced?]
    · obtain ⟨start, rest, -, reached, -⟩ := last.cut inside
      obtain ⟨a, present, done⟩ := ends.past rooted'.keyed
      have recorded : a.core.life.surfaced? = some exit := by rw [done]; rfl
      rw [reached.keeps (P := fun core => core.life.surfaced? = some exit) (rooted'.act m.2) present
        recorded (fun _ _ _ _ _ seen turn => turn.surfaced seen) found]
      rfl

end Run

/-- A process that traps exits is told of the end of a child of its own once, when the child ends,
with the reason that the driver of the child reports; a child that ends with `kill` kills it instead.
No delivery of the end of the child must raise. -/
theorem supervisor_sees_one_exit {earlier : List Moment} {options : SpawnOptions}
    (reached : Course {} earlier w) (room : w.serial ≤ Identity.maxSerial)
    (found : w.find? p = some a) (linked : options.link = true)
    (made : w.spawn (some p) options = .ok (.ok c) v) (course : Course v trace u)
    (traps : ∀ m ∈ trace, ∀ a, m.1.find? p = some a →
      ∃ flags, a.role = .process flags ∧ flags.traps = true)
    (kept : ∀ m ∈ trace, m.2 ≠ .operate c (.unlink p))
    (own : ∀ m ∈ trace, ∀ reason,
      m.2 ≠ .operate p (.signal c reason) ∧ m.2 ≠ .operate p (.forward c reason))
    (calm : ∀ m ∈ trace, ∀ given, m.2 = .operate c (.terminate given) →
      ∀ fault t, m.1.terminate c given ≠ .error fault t) :
    (∀ m ∈ trace, noticed p c m ≠ [] → ∃ exit, EndsAt c exit m) ∧
    (∀ m ∈ trace, ∀ exit b, EndsAt c exit m → m.1.find? p = some b → b.core.isDone = false →
      ∃ d, (m.1.act m.2).find? p = some d ∧
        (exit.isKill = false → noticed p c m = [exit] ∧ d.core.life = b.core.life) ∧
        (exit.isKill = true → noticed p c m = [] ∧
          (b.core.life = .running → d.core.life = .exiting .killed) ∧
          (b.core.life ≠ .running → d.core.life = b.core.life))) ∧
    (trace.flatMap (noticed p c)).length ≤ 1 ∧
    ∀ (β : Type) (resume : β → Node → Progress β × Node) (abandon : β → Node → Node)
      (exitWait : Option Nat) (body : β) (n left : Node) (last : List Moment) (given : Exit) (b d),
      Node.Closes resume abandon c exitWait body n last given left →
      n.world.find? c = some b → left.world.find? c = some d →
      (left.world, .operate c (.terminate given)) ∈ trace →
      ∃ exit m, Node.drive resume abandon c exitWait body n = (.ended exit, m) ∧
        (∀ driver, m.drivers.find? c = some driver →
          ((m.conclude c exit).drivers.find? c).bind Driver.exit? = some exit) ∧
        ∀ moment ∈ trace, ∀ reason, EndsAt c reason moment → reason = exit := by
  have adopted := spawned (reached.rooted rooted_empty) room found linked made
  have rooted := adopted.rooted
  have supervises := adopted.supervises course rooted traps kept own calm
  refine ⟨fun m member => (supervises m member).noticed_ends, ?_,
    noticed_once course rooted supervises, ?_⟩
  · intro m member exit b ends known going
    obtain ⟨heard, d, present, life⟩ := (supervises m member).notices_end ends known going
    refine ⟨d, present, fun spares => ?_, fun kills => ?_⟩
    · rw [spares] at heard life
      exact ⟨heard, life.trans (Life.heeding_none _)⟩
    · rw [kills] at heard life
      refine ⟨heard, fun runs => ?_, fun stopped => ?_⟩
      · rw [life, runs]
        rfl
      · rw [life]
        cases before : b.core.life with
        | running => exact absurd before stopped
        | _ => rfl
  · intro β resume abandon exitWait body n left last given b d closes known present told
    obtain ⟨start, rest, -, first, -⟩ := course.cut told
    have keyed : left.world.Keyed := (first.rooted rooted).keyed
    obtain ⟨m, e, settles, -⟩ :=
      @Node.settled β c left d keyed present given (calm _ told given rfl)
    refine ⟨_, m, (closes.drive known).trans settles, fun driver active =>
      Node.conclude_exit active _, fun moment member reason ends => ?_⟩
    exact (ends_alike course rooted told present member ends).symm

def nursery : World :=
  run {} [.allocate .process (.plain .raise), .operate (.ofSerial 1 .process) .start,
    .allocate .process (.process .trap), .operate (.ofSerial 2 .process) .start]

theorem nursery_sees_one_exit :
    let parent : Identity := .ofSerial 2 .process
    let child : Identity := .ofSerial 3 .process
    let crash : Exit := .atom ⟨"crash"⟩
    ∃ v, nursery.spawn (some parent) .linked = .ok (.ok child) v ∧
      EndsAt child crash (v, .operate child (.terminate crash)) ∧
      noticed parent child (v, .operate child (.terminate crash)) = [crash] := by
  intro parent child crash
  let quiet (v : World) : Bool := match v.terminate child crash with
    | .ok _ _ => true
    | .error _ _ => false
  obtain ⟨v, made, flagged, runs, going, calm⟩ : ∃ v,
      nursery.spawn (some parent) .linked = .ok (.ok child) v ∧
      (v.find? parent).map (fun a => a.role.flags?.any Flags.traps) = some true ∧
      (v.find? child).map (·.core.phase) = some .running ∧
      (v.find? parent).map (·.core.phase) = some .running ∧ quiet v = true :=
    ⟨(nursery.spawn (some parent) .linked).world, rfl, by decide +kernel, by decide +kernel,
      by decide +kernel, by decide +kernel⟩
  obtain ⟨a, found⟩ : ∃ a, nursery.find? parent = some a := ⟨_, rfl⟩
  obtain ⟨c, present, runs⟩ := Option.map_eq_some_iff.mp runs
  obtain ⟨b, known, going⟩ := Option.map_eq_some_iff.mp going
  have traps : ∃ flags, b.role = .process flags ∧ flags.traps = true := by
    rw [known] at flagged
    cases role : b.role <;> simp_all [Role.flags?]
  have ends : EndsAt child crash (v, .operate child (.terminate crash)) := by
    refine ⟨crash, c, rfl, present, by simp [Core.isDone, runs], ?_⟩
    cases life : c.core.life <;>
      simp_all [Core.phase, Life.phase, Core.finalReason, Life.pending?]
  obtain ⟨-, told, -⟩ := supervisor_sees_one_exit (course_run {} _) (by decide) found rfl made
    (course_run v [.operate child (.terminate crash)])
    (fun m member a found => by
      cases List.mem_singleton.mp member
      cases known.symm.trans found
      exact traps)
    (by simp [moments]) (by simp [moments])
    (fun m member given same fault t raised => by
      cases List.mem_singleton.mp member
      cases same
      have raised : v.terminate child crash = .error fault t := raised
      simp [quiet, raised] at calm)
  obtain ⟨d, -, heard, -⟩ :=
    told _ List.mem_cons_self crash b ends known (by simp [Core.isDone, going])
  exact ⟨v, made, ends, (heard rfl).1⟩

/-- The hook of the first link raises, and the parent is not told. -/
theorem raising_link_hides_exit :
    let parent : Identity := .ofSerial 2 .process
    let child : Identity := .ofSerial 3 .process
    let crash : Exit := .atom ⟨"crash"⟩
    ∃ v, nursery.spawn (some parent) .linked = .ok (.ok child) v ∧
      (v.link child (.ofSerial 1 .process)).1 = .ok () ∧
      let linked := v.act (.operate child (.link (.ofSerial 1 .process)))
      let ending : Action := .operate child (.terminate crash)
      EndsAt child crash (linked, ending) ∧
      (∀ answer t, linked.terminate child crash ≠ .ok answer t) ∧
      noticed parent child (linked, ending) = [] ∧
      ((linked.act ending).find? child).map (·.core.phase) = some .done ∧
      ((linked.act ending).find? parent).map (·.core.phase) = some .running := by
  intro parent child crash
  let raises (v : World) : Bool := match v.terminate child crash with
    | .ok _ _ => false
    | .error _ _ => true
  obtain ⟨v, made, linked, ends, raised, unheard, past, runs⟩ : ∃ v,
      nursery.spawn (some parent) .linked = .ok (.ok child) v ∧
      (v.link child (.ofSerial 1 .process)).1 = .ok () ∧
      let linked := v.act (.operate child (.link (.ofSerial 1 .process)))
      let ending : Action := .operate child (.terminate crash)
      EndsAt child crash (linked, ending) ∧ raises linked = true ∧
      (noticed parent child (linked, ending)).isEmpty = true ∧
      ((linked.act ending).find? child).map (·.core.phase) = some .done ∧
      ((linked.act ending).find? parent).map (·.core.phase) = some .running :=
    ⟨(nursery.spawn (some parent) .linked).world, rfl, rfl, ⟨crash, _, rfl, rfl, rfl, rfl⟩,
      by decide +kernel, by decide +kernel, by decide +kernel, by decide +kernel⟩
  exact ⟨v, made, linked, ends, fun answer t answered => by simp [raises, answered] at raised,
    List.isEmpty_iff.mp unheard, past, runs⟩

end World

end Actors
