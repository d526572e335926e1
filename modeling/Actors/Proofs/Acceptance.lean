import Actors.Proofs.Outline

/-! Acceptance. Closed a run of operations on one actor, of the signals that reach its core from other
actors it accepts the first to come while it runs, reacts to this one alone, and keeps its reason. -/
namespace Actors

abbrev Heard := Phase × Identity × Exit

namespace Operation

variable {w : World} {a : Actor} {op : Operation}

def hearing (a : Actor) (op : Operation) : List Heard :=
  ((op.signal? a).map (a.core.phase, ·)).toList

theorem life_core_heard {signal : Identity × Exit} (heard : op.heard a = some signal) :
    (op.core w a).life = .exiting signal.2 := by
  obtain ⟨sent, runs⟩ := Option.filter_eq_some_iff.mp heard
  cases op with
  | signal sender reason =>
    obtain ⟨taken, reached, rfl⟩ := Option.map_eq_some_iff.mp sent
    have untrapped : a.trapping sender reason = none := by
      cases trap : a.trapping sender reason with
      | none => rfl
      | some trapped => cases (Actor.reaching_of_trapping trap).symm.trans reached
    rw [core, Actor.coreAfter_untrapped untrapped, reached, Core.taking_running runs]
    rfl
  | forward sender reason =>
    by_cases own : sender = a.id
    · simp [signal?, own] at sent
    · obtain rfl : (sender, reason) = signal := by simpa [signal?, own] using sent
      rw [core, if_neg own, Core.taking_running runs]
      rfl
  | _ => cases sent

/-- Without a signal, only a start and an end make a difference to a life. -/
theorem life_core_unheard (unheard : op.heard a = none) (unstarted : op ≠ .start)
    (unended : ∀ reason, op ≠ .terminate reason) : (op.core w a).life = a.core.life := by
  cases op with
  | start => exact absurd rfl unstarted
  | terminate reason => exact absurd rfl (unended reason)
  | signal sender reason =>
    rw [heard_signal, Option.map_eq_none_iff] at unheard
    rw [core, Actor.coreAfter]
    split
    · exact Core.life_post ..
    · rw [Core.taking, unheard]
  | forward sender reason =>
    by_cases own : sender = a.id
    · rw [core, if_pos own]
    · rw [heard_forward own, Option.map_eq_none_iff] at unheard
      rw [core, if_neg own, Core.taking, unheard]
  | send message => exact Core.life_post ..
  | record peer => rw [core]; split <;> rfl
  | link peer => rw [core]; split <;> rfl
  | unlink peer => rfl
  | poll errand sleeper ticket => exact (Core.waited_polled ..).life
  | cancel bell ticket => exact (Core.waited_cancel ..).life
  | setFlags flags => rfl

end Operation

namespace World

variable {w v : World} {id : Identity}

structure Keeps (id : Identity) (w v : World) : Prop where
  keyed : v.Keyed
  actor : ∀ a, w.find? id = some a →
    ∃ b, v.find? id = some b ∧ b.role = a.role ∧ b.core.life = a.core.life
  reactions : v.reactions id = w.reactions id

theorem Spares.keeps (spares : Spares id w v) : Keeps id w v :=
  ⟨spares.keyed, fun a found => ⟨a, spares.find?.trans found, rfl, rfl⟩, spares.reactions⟩

/-- A run of operations on an actor, with what reaches its core from other actors. What happens
elsewhere leaves its life alone. -/
inductive Run (id : Identity) (w : World) : List Heard → World → Prop
  | refl : Run id w [] w
  | operate {heard : List Heard} {v : World} {a : Actor} (run : Run id w heard v)
      (found : v.find? id = some a) (op : Operation) :
      Run id w (heard ++ op.hearing a) (v.operate id op)
  | elsewhere {heard : List Heard} {v u : World} (run : Run id w heard v) (keeps : Keeps id v u) :
      Run id w heard u

theorem Run.trans {heard later : List Heard} {u : World} (run : Run id w heard v)
    (next : Run id v later u) : Run id w (heard ++ later) u := by
  induction next with
  | refl => simpa using run
  | operate next found op ih =>
    rw [← List.append_assoc]
    exact .operate ih found op
  | elsewhere next keeps ih => exact .elsewhere ih keeps

theorem Run.spare {u : World} {heard : List Heard} (run : Run id w heard v)
    (spares : Spares id v u) : Run id w heard u := .elsewhere run spares.keeps

section Others

variable (keyed : w.Keyed) (records : w.Records)
include keyed records

theorem run_deliver (id receiver sender : Identity) (reason : Exit) :
    ∃ heard, Run id w heard (w.deliver receiver sender reason).world := by
  cases found : w.find? receiver with
  | none =>
    obtain ⟨v, sent, alike⟩ := deliver_absent found sender reason
    rw [sent]
    exact ⟨[], Run.refl.spare (alike.spares id keyed)⟩
  | some a =>
    by_cases own : receiver = id
    · subst own
      exact ⟨_, Run.refl.operate found (.signal sender reason)⟩
    · have other : id ≠ a.id := fun same => own (same.trans (keyed found)).symm
      obtain ⟨-, v, sent, alike⟩ | ⟨-, v, sent, received⟩ :=
        deliver_quiet keyed found (records found) sender reason
      · rw [sent]
        exact ⟨[], Run.refl.spare (alike.spares id keyed)⟩
      · rw [sent]
        exact ⟨[], Run.refl.spare (received.spares (a.id_coreAfter ..) other keyed)⟩

theorem run_broadcast (id sender : Identity) (reason : Exit) (peers : List Identity) :
    ∃ heard, Run id w heard (broadcast sender reason peers w).world := by
  induction peers generalizing w with
  | nil => exact ⟨[], .refl⟩
  | cons peer rest ih =>
    have emitted := alike_emit w (.linkExit peer) fun _ => rfl
    have steady := emitted.steady keyed records
    have next := steady_deliver steady.keyed steady.records peer sender reason
    obtain ⟨heard, run⟩ := run_deliver steady.keyed steady.records id peer sender reason
    have first := (Run.refl.spare (emitted.spares id keyed)).trans run
    unfold broadcast
    revert first next
    generalize (w.emit (.linkExit peer)).deliver peer sender reason = result
    intro next first
    cases result with
    | error fault v => exact ⟨_, first⟩
    | ok answer v =>
      obtain ⟨later, others⟩ := ih next.keyed next.records
      exact ⟨_, first.trans others⟩

/-- The end of another actor is a run of operations on each actor: its links hear of it. -/
theorem run_terminate {other : Identity} (different : id ≠ other) (reason : Exit) :
    ∃ heard, Run id w heard (w.terminate other reason).world := by
  cases found : w.find? other with
  | none =>
    obtain ⟨v, answered, alike⟩ := terminate_gone found reason
    rw [answered]
    exact ⟨[], Run.refl.spare (alike.spares id keyed)⟩
  | some a =>
    have name : a.id = other := keyed found
    subst name
    cases finished : a.core.isDone with
    | true =>
      obtain ⟨v, answered, alike⟩ := terminate_done found finished reason
      rw [answered]
      exact ⟨[], Run.refl.spare (alike.spares id keyed)⟩
    | false =>
      have ended := reshapes_ended keyed records found finished reason
      have received := (replaces_ended found finished reason).received (reactions_ended a reason)
      have told := steady_broadcast ended.keyed ended.records a.id (a.core.finalReason reason)
        a.core.links.members
      obtain ⟨heard, run⟩ := run_broadcast ended.keyed ended.records id a.id
        (a.core.finalReason reason) a.core.links.members
      have first := (Run.refl.spare (received.spares rfl different keyed)).trans run
      rw [terminate_alive keyed found finished, Outcome.world_concluding]
      exact ⟨_, first.spare ((alike_leaving ..).spares id told.keyed)⟩

end Others

def first? (heard : List Heard) : Option (Identity × Exit) :=
  (heard.find? (·.1 == .running)).map (·.2)

theorem first?_append (heard later : List Heard) :
    first? (heard ++ later) = (first? heard).or (first? later) := by
  simp only [first?, List.find?_append, Option.map_or]

theorem first?_hearing (a : Actor) (op : Operation) : first? (op.hearing a) = op.heard a := by
  unfold first? Operation.hearing Operation.heard Core.isRunning
  cases op.signal? a with
  | none => rfl
  | some signal => cases runs : a.core.phase == .running <;> simp [runs, Option.filter]

def Stands : Option (Identity × Exit) → Life → Prop
  | none, life => ∀ reason, life ≠ .exiting reason
  | some signal, life => life = .exiting signal.2 ∨ life = .done signal.2

theorem Stands.unheard {a : Actor} {signal : Identity × Exit}
    (stands : Stands (some signal) a.core.life) (op : Operation) : op.heard a = none := by
  have stopped : a.core.isRunning = false := by
    rcases stands with exiting | done
    · simp [Core.isRunning, Core.phase, exiting, Life.phase]
    · simp [Core.isRunning, Core.phase, done, Life.phase]
  simp [Operation.heard, stopped]

theorem stands_start {c : Core} {first : Option (Identity × Exit)} (stands : Stands first c.life) :
    Stands first (c.start.toOption.getD c).life := by
  cases started : c.start with
  | error refusal => exact stands
  | ok core =>
    obtain ⟨unborn, runs⟩ := Core.life_start started
    rw [unborn] at stands
    cases first with
    | none => exact fun reason exiting => by cases runs.symm.trans exiting
    | some signal => obtain exiting | done := stands <;> contradiction

theorem stands_finish {c : Core} {first : Option (Identity × Exit)} (stands : Stands first c.life)
    (reason : Exit) : Stands first (c.finish reason).2.life := by
  cases finished : c.isDone with
  | true => rwa [Core.finish_done finished]
  | false =>
    rw [Core.finish_alive finished]
    cases first with
    | none => exact fun pending exiting => by cases exiting
    | some signal =>
      rcases stands with exiting | done
      · have final : c.finalReason reason = signal.2 := by
          simp [Core.finalReason, exiting, Life.pending?]
        exact .inr (by rw [← final]; rfl)
      · cases finished.symm.trans (Core.isDone_iff.mpr ⟨_, done⟩)

/-- An operation brings one signal to the core at most, which stands if none did before. -/
theorem stands_operate {a : Actor} {first : Option (Identity × Exit)}
    (stands : Stands first a.core.life) (op : Operation) :
    Stands (first.or (op.heard a)) (op.core w a).life := by
  cases heard : op.heard a with
  | some signal =>
    cases first with
    | none => exact .inl (Operation.life_core_heard heard)
    | some earlier => cases heard.symm.trans (stands.unheard op)
  | none =>
    rw [Option.or_none]
    by_cases started : op = .start
    · subst started
      exact stands_start stands
    · by_cases ended : ∃ reason, op = .terminate reason
      · obtain ⟨reason, rfl⟩ := ended
        exact stands_finish stands reason
      · rw [Operation.life_core_unheard heard started (not_exists.mp ended)]
        exact stands

structure Held (w : World) (id : Identity) (heard : List Heard) (v : World) : Prop where
  keyed : v.Keyed
  actor : ∃ a, v.find? id = some a ∧ a.role.isQuiet = true ∧ Stands (first? heard) a.core.life
  reactions : v.reactions id = w.reactions id + ↑(first? heard).toList

/-- In a run from before its start, an actor has accepted the first signal to come while it ran, and
has reacted to no other. -/
theorem run_held {a : Actor} (keyed : w.Keyed) (found : w.find? id = some a)
    (quiet : a.role.isQuiet = true) (unborn : a.core.life = .init) {heard : List Heard}
    (run : Run id w heard v) : Held w id heard v := by
  induction run with
  | refl => exact ⟨keyed, ⟨a, found, quiet, fun reason => by simp [unborn]⟩, by simp [first?]⟩
  | @operate heard v b run present op ih =>
    obtain ⟨keyed', ⟨b', present', quiet', stands⟩, reactions⟩ := ih
    cases present.symm.trans present'
    have operated := operated keyed' present quiet' op
    refine ⟨operated.keyed, ⟨_, operated.found, op.role_isQuiet quiet', ?_⟩, ?_⟩
    · rw [first?_append, first?_hearing]
      exact stands_operate stands op
    · rw [operated.reactions, reactions, first?_append, first?_hearing]
      cases earlier : first? heard with
      | none => simp
      | some signal =>
        rw [earlier] at stands
        rw [stands.unheard op]
        simp
  | elsewhere run keeps ih =>
    obtain ⟨keyed', ⟨b, present, quiet', stands⟩, reactions⟩ := ih
    obtain ⟨c, present', role, life⟩ := keeps.actor b present
    exact ⟨keeps.keyed, ⟨c, present', role ▸ quiet', life ▸ stands⟩,
      keeps.reactions.trans reactions⟩

theorem Stands.finalReason {c : Core} {signal : Identity × Exit} (stands : Stands (some signal) c.life)
    (alive : c.isDone = false) (given : Exit) : c.finalReason given = signal.2 := by
  rcases stands with exiting | done
  · simp [Core.finalReason, exiting, Life.pending?]
  · cases alive.symm.trans (Core.isDone_iff.mpr ⟨_, done⟩)

/-- An operation makes an actor react exactly if it takes it from running to exiting. -/
theorem heard_iff_exiting {b : Actor} {first : Option (Identity × Exit)}
    (stands : Stands first b.core.life) (op : Operation) :
    (op.heard b).isSome = true ↔
      b.core.phase = .running ∧ (op.core w b).phase = .exiting := by
  constructor
  · intro accepted
    obtain ⟨signal, heard⟩ := Option.isSome_iff_exists.mp accepted
    have runs := (Option.filter_eq_some_iff.mp heard).2
    refine ⟨by simpa [Core.isRunning] using runs, ?_⟩
    rw [Core.phase, Operation.life_core_heard heard]
    rfl
  · rintro ⟨runs, exiting⟩
    have after := stands_operate (w := w) stands op
    cases heard : op.heard b with
    | some signal => rfl
    | none =>
      rw [heard, Option.or_none] at after
      cases first with
      | some signal =>
        rcases stands with pending | done
        · simp [Core.phase, pending, Life.phase] at runs
        · simp [Core.phase, done, Life.phase] at runs
      | none =>
        cases life : (op.core w b).life with
        | exiting reason => exact absurd life (after reason)
        | _ => simp [Core.phase, life, Life.phase] at exiting

section Recorded

variable {b : Actor} {signal : Identity × Exit} (stands : Stands (some signal) b.core.life)
include stands

theorem Stands.reason? : b.core.life.reason? = some signal.2 := by
  rcases stands with exiting | done
  · rw [exiting]; rfl
  · rw [done]; rfl

theorem Stands.ensureNoExit : b.core.ensureNoExit = .error (.exit signal.2) := by
  rcases stands with exiting | done
  · rw [Core.ensureNoExit, exiting]; rfl
  · rw [Core.ensureNoExit, done]; rfl

variable (keyed : v.Keyed) (present : v.find? id = some b)
include keyed present

theorem Stands.answer {given : Exit} {answer : Option Exit} {u : World}
    (answered : v.terminate id given = .ok answer u) :
    answer = if b.core.isDone then none else some signal.2 := by
  cases finished : b.core.isDone with
  | true =>
    obtain ⟨t, ended, -⟩ := terminate_done present finished given
    cases answered.symm.trans ended
    rfl
  | false =>
    rw [terminate_alive keyed present finished] at answered
    obtain ⟨rfl, -⟩ := concluding_ok_iff.mp answered
    rw [stands.finalReason finished]
    rfl

theorem Stands.answers (calm : v.Quiet b.core.links.members)
    (willing : ∀ peer ∈ b.core.links.members, ¬v.Refuses id signal.2 peer) (given : Exit) :
    ∃ u, v.terminate id given = .ok (if b.core.isDone then none else some signal.2) u := by
  cases finished : b.core.isDone with
  | true =>
    obtain ⟨t, ended, -⟩ := terminate_done present finished given
    exact ⟨t, ended⟩
  | false =>
    have final := stands.finalReason finished given
    obtain ⟨u, answered, -, -⟩ := terminate_ended keyed present finished calm given
      (by rwa [final])
    rw [final] at answered
    exact ⟨u, answered⟩

end Recorded

/-- An actor reacts at most once in a run from before its start: to the first signal of another actor
that reaches its core while it runs, when this signal takes it from running to exiting. The reason
of the signal is recorded, surfaces, and is what the one effective end answers from then on. -/
theorem accepts_once {a : Actor} (keyed : w.Keyed) (found : w.find? id = some a)
    (quiet : a.role.isQuiet = true) (unborn : a.core.life = .init) (silent : w.reactions id = 0)
    {heard : List Heard} (run : Run id w heard v) :
    v.reactions id = ↑(first? heard).toList ∧ (v.reactions id).card ≤ 1 ∧
    ∃ b, v.find? id = some b ∧
      (∀ op, ∃ c, (v.operate id op).find? id = some c ∧
        ((v.operate id op).reactions id ≠ v.reactions id ↔
          b.core.phase = .running ∧ c.core.phase = .exiting)) ∧
      ∀ sender reason, first? heard = some (sender, reason) →
        b.core.life.reason? = some reason ∧ b.core.ensureNoExit = .error (.exit reason) ∧
        (∀ given answer u, v.terminate id given = .ok answer u →
          answer = if b.core.isDone then none else some reason) ∧
        (v.Quiet b.core.links.members →
          (∀ peer ∈ b.core.links.members, ¬v.Refuses id reason peer) →
          ∀ given, ∃ u, v.terminate id given
            = .ok (if b.core.isDone then none else some reason) u) ∧
        ∀ later u, Run id v later u → first? (heard ++ later) = some (sender, reason) ∧
          u.reactions id = {(sender, reason)} := by
  obtain ⟨keyed', ⟨b, present, quiet', stands⟩, reactions⟩ := run_held keyed found quiet unborn run
  rw [silent, zero_add] at reactions
  refine ⟨reactions, ?_, b, present, fun op => ?_, fun sender reason first => ?_⟩
  · rw [reactions, Multiset.coe_card]
    cases first? heard <;> simp
  · have operated := operated keyed' present quiet' op
    refine ⟨_, operated.found, ?_⟩
    rw [operated.reactions, ← heard_iff_exiting stands op]
    cases op.heard b <;> simp
  · rw [first] at stands
    refine ⟨stands.reason?, stands.ensureNoExit, fun _ _ _ => stands.answer keyed' present,
      stands.answers keyed' present, fun later u next => ?_⟩
    have same : first? (heard ++ later) = some (sender, reason) := by
      rw [first?_append, first]
      rfl
    have reacted := (run_held keyed found quiet unborn (run.trans next)).reactions
    rw [silent, zero_add, same] at reacted
    exact ⟨same, reacted⟩

def newborn : World := (({} : World).allocate .process (.process .empty)).2

/-- A process is started, hears of two ends, of which it accepts the first, and ends. -/
theorem newborn_accepts_once :
    ∃ heard v, Run (.ofSerial 1 .process) newborn heard v ∧ heard.length = 2 ∧
      v.reactions (.ofSerial 1 .process) = {(.ofSerial 2 .process, .noproc)} ∧
      ∃ u, v.terminate (.ofSerial 1 .process) .killed = .ok (some .noproc) u := by
  let self : Identity := .ofSerial 1 .process
  have keyed : newborn.Keyed := keyed_of_entries (by decide)
  obtain ⟨a, found, quiet, unborn⟩ : ∃ a, newborn.find? self = some a ∧
    a.role.isQuiet = true ∧ a.core.life = .init := ⟨_, rfl, rfl, rfl⟩
  have started := (Run.refl : Run self newborn [] newborn).operate found .start
  have struck := started.operate rfl (.signal (.ofSerial 2 .process) .noproc)
  have again := struck.operate rfl (.forward (.ofSerial 3 .port) .killed)
  obtain ⟨reactions, -, b, present, -, settled⟩ :=
    accepts_once keyed found quiet unborn rfl again
  obtain ⟨-, -, -, ends, -⟩ := settled (.ofSerial 2 .process) .noproc rfl
  cases found
  cases present
  refine ⟨_, _, again, rfl, reactions, ends ?_ ?_ .killed⟩
  · intro peer member
    cases member
  · intro peer member
    cases member

end World

end Actors
