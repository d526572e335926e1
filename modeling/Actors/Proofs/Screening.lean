import Actors.Proofs.Supervision

/-! Screening. Where every signal passes the role of its receiver, the role decides which reasons can be
recorded and which can come as a message: never a request to kill, for a process no normal exit, and
for a port a normal exit of its owner only. -/
namespace Actors

def Action.isScreened : Action → Bool
  | .allocate _ (.plain _) | .operate _ (.forward _ _) => false
  | _ => true

namespace Exit

theorem isAtom_iff {exit : Exit} {atom : Atom} : exit.isAtom atom = true ↔ exit = .atom atom := by
  cases exit <;> simp [isAtom]

theorem isKill_iff {exit : Exit} : exit.isKill = true ↔ exit = .kill := isAtom_iff

theorem isNormal_iff {exit : Exit} : exit.isNormal = true ↔ exit = .normal := isAtom_iff

theorem killed_ne_kill : killed ≠ kill := by simp [killed, kill, Atom.killed, Atom.kill]

theorem killed_ne_normal : killed ≠ normal := by simp [killed, normal, Atom.killed, Atom.normal]

end Exit

namespace Role.Stays

variable {old new : Role}

theorem was_process {flags : Flags} (stays : old.Stays new) (process : new = .process flags) :
    ∃ before, old = .process before := by
  cases stays with
  | same => exact ⟨flags, process⟩
  | flagged before _ => exact ⟨_, before⟩

theorem was_port {name : Atom} {owner : Identity} (stays : old.Stays new)
    (port : new = .port name owner) : old = .port name owner := by
  cases stays with
  | same => exact port
  | flagged _ _ => cases port

end Role.Stays

namespace Actor

variable {a : Actor} {flags : Flags} {name : Atom} {owner sender : Identity} {signal reason : Exit}

/-- A process records signals of others, a request to kill as `killed`, and otherwise, unless it traps
exits, what is no normal exit. -/
theorem reaching_process (role : a.role = .process flags)
    (reaches : a.reaching sender signal = some reason) :
    sender ≠ a.id ∧ (signal = .kill ∧ reason = .killed ∨
      flags.traps = false ∧ signal ≠ .kill ∧ signal ≠ .normal ∧ reason = signal) := by
  have other : sender ≠ a.id := by
    rintro rfl
    cases (reaching_own role signal).symm.trans reaches
  refine ⟨other, ?_⟩
  unfold reaching screen Role.screen at reaches
  rw [role] at reaches
  simp only [if_neg other] at reaches
  cases kills : signal.isKill with
  | true => exact .inl ⟨Exit.isKill_iff.mp kills, by simpa [kills, eq_comm] using reaches⟩
  | false =>
    have gentle : signal ≠ .kill := fun same => by cases kills.symm.trans (Exit.isKill_iff.mpr same)
    cases traps : flags.traps with
    | true => simp [kills, traps] at reaches
    | false =>
      cases normal : signal.isNormal with
      | true => simp [kills, traps, normal] at reaches
      | false =>
        refine .inr ⟨rfl, gentle, fun same => ?_, by simpa [kills, traps, normal, eq_comm] using reaches⟩
        cases normal.symm.trans (Exit.isNormal_iff.mpr same)

/-- A port records a request to kill as `killed`, a normal exit of its owner, and every other exit. -/
theorem reaching_port (role : a.role = .port name owner)
    (reaches : a.reaching sender signal = some reason) :
    signal = .kill ∧ reason = .killed ∨
      signal ≠ .kill ∧ reason = signal ∧ (signal = .normal → sender = owner) := by
  unfold reaching screen Role.screen at reaches
  rw [role] at reaches
  cases kills : signal.isKill with
  | true =>
    refine .inl ⟨Exit.isKill_iff.mp kills, ?_⟩
    simp only [kills, if_true] at reaches
    split at reaches
    · cases reaches
    · exact (Option.some.inj reaches).symm
  | false =>
    have gentle : signal ≠ .kill := fun same => by cases kills.symm.trans (Exit.isKill_iff.mpr same)
    cases foreign : signal.isNormal && sender != owner with
    | true => simp [kills, foreign] at reaches
    | false =>
      simp only [kills, foreign, Bool.false_eq_true, if_false] at reaches
      split at reaches
      · cases reaches
      · refine .inr ⟨gentle, (Option.some.inj reaches).symm, fun normal => ?_⟩
        simpa [Exit.isNormal_iff.mpr normal] using foreign

/-- What comes as a message is a signal of another actor, and no request to kill. -/
theorem trapping_foreign (trap : a.trapping sender signal = some reason) :
    sender ≠ a.id ∧ signal ≠ .kill := by
  unfold trapping screen Role.screen at trap
  cases role : a.role with
  | process flags =>
    simp only [role] at trap
    split_ifs at trap with own kills traps
    exact ⟨own, fun same => kills (Exit.isKill_iff.mpr same)⟩
  | port name owner =>
    simp only [role] at trap
    split_ifs at trap
  | plain hook => simp [role] at trap

end Actor

namespace Core

variable {c core : Core} {may : Core → Stroke → Prop} {reason : Exit}

/-- An actor has an exit pending because it had it before, or because it accepted a signal. -/
theorem Struck.entered (struck : Struck may c core) (exiting : core.life = .exiting reason) :
    c.life = .exiting reason ∨
      c.life.surfaced? = none ∧ ∃ mid sender, may mid (.accept sender reason) := by
  have both : (core.life.surfaced? = none → c.life.surfaced? = none) ∧
      ∀ reason, core.life = .exiting reason → c.life = .exiting reason ∨
        c.life.surfaced? = none ∧ ∃ mid sender, may mid (.accept sender reason) := by
    apply struck.keeps (P := fun core => (core.life.surfaced? = none → c.life.surfaced? = none) ∧
      ∀ reason, core.life = .exiting reason → c.life = .exiting reason ∨
        c.life.surfaced? = none ∧ ∃ mid sender, may mid (.accept sender reason))
      ⟨fun unseen => unseen, fun _ => .inl⟩
    rintro core stroke ⟨unseen, entered⟩ suffers allowed
    cases stroke with
    | start =>
      have unborn : core.life = .init := suffers
      exact ⟨fun _ => unseen (by rw [unborn]; rfl), fun reason exits => (by cases exits)⟩
    | accept sender taken =>
      have runs : core.life = .running := suffers
      refine ⟨fun none => (by cases none), fun reason exits => ?_⟩
      cases exits
      exact .inr ⟨unseen (by rw [runs]; rfl), core, sender, allowed⟩
    | finish last => exact ⟨fun none => (by cases none), fun reason exits => (by cases exits)⟩
    | post message => exact ⟨unseen, entered⟩
    | join peer => exact ⟨unseen, entered⟩
    | part peer => exact ⟨unseen, entered⟩
  exact both.2 reason exiting

end Core

namespace World

variable {w v : World} {id receiver sender : Identity} {a b : Actor} {m : Moment}
  {trace : List Moment} {signal reason : Exit}

def Bodied (w : World) : Prop := ∀ ⦃i a⦄, w.find? i = some a → ∀ hook, a.role ≠ .plain hook

/-- An exit signal that is sent at a moment: by itself, or to a link of an actor that ends. -/
inductive Signalled (m : Moment) (receiver sender : Identity) (reason : Exit) : Prop
  | alone (signals : m.2 = .operate receiver (.signal sender reason))
  | broadcast {a : Actor} {given : Exit} (ends : m.2 = .operate sender (.terminate given))
      (found : m.1.find? sender = some a) (alive : a.core.isDone = false)
      (linked : receiver ∈ a.core.links.members) (final : reason = a.core.finalReason given)

structure Accepts (id : Identity) (a : Actor) (sender : Identity) (signal reason : Exit)
    (m : Moment) : Prop where
  found : m.1.find? id = some a
  unseen : a.core.life.surfaced? = none
  sent : Signalled m id sender signal
  reaching : a.reaching sender signal = some reason
  exiting : ∃ b, (m.1.act m.2).find? id = some b ∧ b.core.life = .exiting reason

def TrapsAt (id : Identity) (m : Moment) : Prop :=
  ∀ sender signal, Signalled m id sender signal → ∀ a flags, m.1.find? id = some a →
    a.role = .process flags → flags.traps = true

/-- The signals of one moment, in a world in which nobody reacts to them with others. -/
def signals (m : Moment) : Traffic := fun w receiver sender reason =>
  Signalled m receiver sender reason ∧ w.Bodied

theorem Bodied.strikes {may : World → Actor → Stroke → Prop} (bodied : w.Bodied)
    (strikes : Strikes may w v) : v.Bodied := by
  intro i b present hook role
  cases known : w.find? i with
  | none =>
    have unborn := strikes.mono fun _ _ _ _ => trivial
    cases (unborn.missing known).symm.trans present
  | some a =>
    obtain ⟨c, present', same, -⟩ := strikes.actor known
    cases present.symm.trans present'
    exact bodied known hook (same.symm.trans role)

theorem spreads_signals (m : Moment) : (signals m).Spreads where
  keeps := fun _ _ _ _ _ strikes ⟨sent, bodied⟩ => ⟨sent, bodied.strikes strikes⟩
  ends := fun _ _ _ _ _ found role _ ⟨_, bodied⟩ => absurd role (bodied found _)
  replies := fun _ _ _ _ _ found role _ ⟨_, bodied⟩ => absurd role (bodied found _)

theorem sends_signals (keyed : w.Keyed) (bodied : w.Bodied) {action : Action}
    (screened : action.isScreened = true) : action.Sends (signals (w, action)) w := by
  cases action with
  | operate other op =>
    cases op with
    | signal sender reason => exact ⟨.alone rfl, bodied⟩
    | forward sender reason => cases screened
    | terminate reason =>
      intro a found alive peer member
      have name : a.id = other := keyed found
      subst name
      have ended : Strikes (fun _ _ _ => True) w (w.ended a reason) :=
        strikes_ended found alive fun _ => trivial
      exact ⟨.broadcast rfl found alive member rfl, bodied.strikes ended⟩
    | _ => trivial
  | _ => trivial

theorem Course.bodied (course : Course {} trace w) (screened : ∀ m ∈ trace, m.2.isScreened = true) :
    w.Bodied := by
  intro id a found
  apply course.accrues (P := fun _ a => ∀ hook, a.role ≠ .plain hook) rooted_empty
    (fun a found => (by cases found)) _ _ found
  · rintro earlier m member tag role allocates hook rfl
    have allowed := screened m member
    rw [allocates] at allowed
    cases allowed
  · intro earlier m member a b rooted known last bodied hook role
    obtain ⟨stays, -⟩ := treated_act rooted known Traffic.spreads_any (sends_any m.2) last
    exact bodied hook (stays.plain role)

section Screened

variable (course : Course {} trace w) (screened : ∀ m ∈ trace, m.2.isScreened = true)
include course screened

/-- What is done to an actor at a moment has its causes in the signals of the moment. -/
theorem Course.treats (member : m ∈ trace) (found : m.1.find? id = some a)
    (present : (m.1.act m.2).find? id = some b) :
    a.role.Stays b.role ∧ Treated (signals m) id m.2 a b := by
  obtain ⟨⟨before, start⟩, -⟩ := course.split member
  obtain ⟨before', after, split, start', -⟩ := course.cut member
  have bodied : m.1.Bodied := start'.bodied fun n inside =>
    screened n (split ▸ List.mem_append_left _ inside)
  have rooted := start.rooted rooted_empty
  exact treated_act rooted found (spreads_signals m)
    (sends_signals rooted.keyed bodied (screened m member)) present

/-- An exit becomes pending at a moment only if the actor accepts a signal then. -/
theorem Course.accepts (member : m ∈ trace) (found : m.1.find? id = some a)
    (present : (m.1.act m.2).find? id = some b) (exiting : b.core.life = .exiting reason) :
    a.core.life = .exiting reason ∨ ∃ sender signal, Accepts id a sender signal reason m := by
  obtain ⟨⟨before, start⟩, -⟩ := course.split member
  have name : a.id = id := (start.rooted rooted_empty).keyed found
  obtain ⟨-, treated⟩ := course.treats screened member found present
  cases treated with
  | waited waits waited queue => exact .inl (waited.life.symm.trans exiting)
  | struck struck =>
    refine (struck.entered exiting).imp_right ?_
    rintro ⟨unseen, core, sender, ⟨u, -, same, cause⟩ | ⟨other, op, acts, deals⟩⟩
    · cases cause with
      | @reached _ signal _ sent reaching =>
        obtain ⟨sent, -⟩ := sent
        have reaches : a.reaching sender signal = some reason :=
          (Actor.reaching_congr (a := a) (b := ⟨core, a.role⟩) rfl (same.trans name.symm) sender
            signal).symm.trans reaching
        exact ⟨sender, signal, found, unseen, same ▸ sent, reaches, b, present, exiting⟩
    · cases deals with
      | forward sender reason =>
        have allowed := screened m member
        rw [acts] at allowed
        cases allowed

/-- An actor that has an exit pending has accepted a signal at some moment. -/
theorem Course.entered (found : w.find? id = some a) (exiting : a.core.life = .exiting reason) :
    ∃ m ∈ trace, ∃ c sender signal, Accepts id c sender signal reason m ∧ c.role.Stays a.role := by
  apply course.accrues (P := fun trace a => ∀ reason, a.core.life = .exiting reason →
    ∃ m ∈ trace, ∃ c sender signal, Accepts id c sender signal reason m ∧ c.role.Stays a.role)
    rooted_empty (fun a found => (by cases found)) _ _ found reason exiting
  · intro earlier m member tag role allocates reason exits
    cases exits
  · intro earlier m member a b rooted known last entered reason exits
    obtain ⟨stays, -⟩ := course.treats screened member known last
    obtain already | ⟨sender, signal, accepts⟩ := course.accepts screened member known last exits
    · obtain ⟨n, before, c, sender, signal, accepts, role⟩ := entered reason already
      exact ⟨n, List.mem_append_left _ before, c, sender, signal, accepts, role.trans stays⟩
    · exact ⟨m, List.mem_append_right _ List.mem_cons_self, a, sender, signal, accepts, stays⟩

/-- An exit message that nobody has posted as such names another actor and no request to kill. -/
theorem Course.arrives (member : m ∈ trace) (unsent : m.2.posts id = false)
    (arrived : .exitMessage sender reason ∈ arrivals id m) : sender ≠ id ∧ reason ≠ .kill := by
  obtain ⟨⟨before, start⟩, -⟩ := course.split member
  have keyed := (start.rooted rooted_empty).keyed
  unfold arrivals at arrived
  split at arrived
  · next a b found present =>
    obtain ⟨-, treated⟩ := course.treats screened member found present
    cases treated with
    | waited waits waited queue =>
      rw [List.drop_eq_nil_of_le queue.length_le] at arrived
      cases arrived
    | struck struck =>
      have posted (core : Core) (message : Term)
          (dealt : Dealt (signals m) id m.2 a.role core (.post message)) (sender : Identity)
          (reason : Exit) (notice : message = .exitMessage sender reason) :
          sender ≠ id ∧ reason ≠ .kill := by
        subst notice
        obtain ⟨u, -, same, cause⟩ | ⟨other, op, acts, deals⟩ := dealt
        · cases cause with
          | trapped sent trapping =>
            obtain ⟨other, gentle⟩ := Actor.trapping_foreign trapping
            exact ⟨fun own => other (own.trans same.symm), gentle⟩
        · cases deals with
          | send message =>
            rw [acts] at unsent
            simp [Action.posts] at unsent
      obtain ⟨extra, queue, kind⟩ | ⟨-, queue⟩ := struck.grown posted
      · rw [queue, List.drop_left] at arrived
        exact kind _ arrived sender reason rfl
      · rw [queue, List.drop_nil] at arrived
        cases arrived
  · cases arrived

end Screened

/-- A signal of an actor to itself is written of, and that is all. -/
theorem deliver_own (keyed : w.Keyed) (found : w.find? id = some a) (reason : Exit) :
    ∃ event, w.deliver id id reason = .ok () (w.emit event) := by
  have name : a.id = id := keyed found
  subst name
  unfold deliver deliverWith
  rw [found]
  dsimp only [signalWith]
  cases screened : a.screen a.id reason with
  | ignoreSelf => exact ⟨_, rfl⟩
  | ignoreNormal => exact ⟨_, rfl⟩
  | trap trapped =>
    have trapping : a.trapping a.id reason = some trapped := by
      simp only [Actor.trapping, screened]
    exact absurd rfl (Actor.trapping_foreign trapping).1
  | forward converted =>
    dsimp only
    rw [forwardWith, if_pos rfl]
    exact ⟨_, rfl⟩

theorem founds_screened : Founds (·.isScreened = true) := by
  refine ⟨fun tag role bodied => ?_, fun _ => rfl, fun _ _ => rfl, fun _ _ => rfl⟩
  cases role with
  | plain hook => exact absurd rfl (bodied hook)
  | _ => rfl

theorem Accepts.process {flags : Flags} (accepts : Accepts id a sender signal reason m)
    (keyed : m.1.Keyed) (role : a.role = .process flags) :
    sender ≠ id ∧ (signal = .kill ∧ reason = .killed ∨
      ¬TrapsAt id m ∧ signal ≠ .kill ∧ signal ≠ .normal ∧ reason = signal) := by
  obtain ⟨other, reached⟩ := Actor.reaching_process role accepts.reaching
  refine ⟨fun own => other (own.trans (keyed accepts.found).symm), reached.imp_right ?_⟩
  rintro ⟨untrapped, kinds⟩
  refine ⟨fun traps => ?_, kinds⟩
  cases untrapped.symm.trans (traps sender signal accepts.sent a flags accepts.found role)

/-- Where every signal passes the role of its receiver, no actor has a request to kill pending, no
process a normal exit, and a port one that it accepted from its owner at most; a process that traps
exits whenever it is signalled accepts nothing but a request of another actor to kill it. No exit
message is a request to kill or one of the receiver, and a signal of an actor to itself does nothing.
A term is none of these reasons, whatever is in it. -/
theorem screened_reasons (course : Course {} trace w)
    (screened : ∀ m ∈ trace, m.2.isScreened = true) :
    (∀ id a reason, w.find? id = some a → a.core.life = .exiting reason →
      reason ≠ .kill ∧
      (∀ flags, a.role = .process flags → reason ≠ .normal ∧
        ((∀ m ∈ trace, TrapsAt id m) → reason = .killed ∧
          ∃ m ∈ trace, ∃ c, ∃ sender ≠ id, Accepts id c sender .kill .killed m)) ∧
      ∀ name owner, a.role = .port name owner → reason = .normal →
        ∃ m ∈ trace, ∃ c, Accepts id c owner .normal .normal m) ∧
    (∀ m ∈ trace, ∀ id sender reason, m.2.posts id = false →
      .exitMessage sender reason ∈ arrivals id m → sender ≠ id ∧ reason ≠ .kill) ∧
    (∀ id a reason, w.find? id = some a →
      ∃ event, w.deliver id id reason = .ok () (w.emit event)) ∧
    (∀ value, (Exit.term value).isKill = false ∧ (Exit.term value).isNormal = false) ∧
    (∀ parent options, Leads (·.isScreened = true) w (w.spawn parent options).world) ∧
    ∀ owner name, Leads (·.isScreened = true) w (w.openPort owner name).world := by
  have keyed := (course.rooted rooted_empty).keyed
  refine ⟨fun id a reason found exiting => ?_,
    fun m member id sender reason unsent arrived => course.arrives screened member unsent arrived,
    fun id a reason found => deliver_own keyed found reason, fun value => ⟨rfl, rfl⟩,
    fun parent options => leads_spawn founds_screened keyed parent options,
    fun owner name => leads_openPort founds_screened keyed owner name⟩
  obtain ⟨m, member, c, sender, signal, accepts, stays⟩ := course.entered screened found exiting
  obtain ⟨⟨before, start⟩, -⟩ := course.split member
  have keyed' := (start.rooted rooted_empty).keyed
  cases role : a.role with
  | plain hook => exact absurd role (course.bodied screened found hook)
  | process flags =>
    obtain ⟨old, was⟩ := stays.was_process role
    obtain ⟨other, ⟨rfl, rfl⟩ | ⟨untrapped, gentle, strange, rfl⟩⟩ := accepts.process keyed' was
    · refine ⟨Exit.killed_ne_kill, fun flags _ => ⟨Exit.killed_ne_normal, fun traps => ?_⟩,
        fun name owner same => by cases same⟩
      exact ⟨rfl, m, member, c, sender, other, accepts⟩
    · exact ⟨gentle, fun flags _ => ⟨strange, fun traps => absurd (traps m member) untrapped⟩,
        fun name owner same => by cases same⟩
  | port name owner =>
    have reached := Actor.reaching_port (stays.was_port role) accepts.reaching
    obtain ⟨rfl, rfl⟩ | ⟨gentle, rfl, owned⟩ := reached
    · exact ⟨Exit.killed_ne_kill, fun flags same => (by cases same),
        fun name owner _ normal => absurd normal Exit.killed_ne_normal⟩
    · refine ⟨gentle, fun flags same => (by cases same), ?_⟩
      rintro _ _ ⟨⟩ rfl
      exact ⟨m, member, c, owned rfl ▸ accepts⟩

def workshopClosing : List Action :=
  let id (serial : Nat) : Identity := .ofSerial serial .process
  let port : Identity := .ofSerial 3 .port
  [.allocate .process (.process .trap), .allocate .process (.process .empty),
    .allocate .port (.port ⟨"stdio"⟩ (id 2)), .operate (id 1) .start, .operate (id 2) .start,
    .operate port .start, .operate (id 2) (.link port),
    .operate (id 1) (.signal (id 2) (.atom ⟨"crash"⟩)), .operate (id 2) (.signal (id 2) .kill),
    .operate (id 2) (.terminate .normal), .operate (id 1) (.signal port .kill)]

theorem workshopClosing_reasons :
    let w := run {} workshopClosing
    ∃ a b, w.find? (.ofSerial 1 .process) = some a ∧ w.find? (.ofSerial 3 .port) = some b ∧
      a.core.life = .exiting .killed ∧ b.core.life = .exiting .normal ∧
      (∃ m ∈ moments {} workshopClosing, ∃ c, ∃ sender ≠ .ofSerial 1 .process,
        Accepts (.ofSerial 1 .process) c sender .kill .killed m) ∧
      (∃ m ∈ moments {} workshopClosing, ∃ c,
        Accepts (.ofSerial 3 .port) c (.ofSerial 2 .process) .normal .normal m) := by
  intro w
  have course : Course {} (moments {} workshopClosing) w := course_run {} workshopClosing
  have screened : ∀ m ∈ moments {} workshopClosing, m.2.isScreened = true := by
    simp [workshopClosing, moments, Action.isScreened]
  have traps : ∀ m ∈ moments {} workshopClosing, (m.1.find? (.ofSerial 1 .process)).all
      (fun a => a.role.flags?.all (·.traps)) = true := by decide +kernel
  obtain ⟨a, found, role, exits⟩ : ∃ a, w.find? (.ofSerial 1 .process) = some a ∧
    a.role = .process .trap ∧ a.core.life = .exiting .killed := ⟨_, rfl, rfl, rfl⟩
  obtain ⟨b, present, port, closes⟩ : ∃ b, w.find? (.ofSerial 3 .port) = some b ∧
    b.role = .port ⟨"stdio"⟩ (.ofSerial 2 .process) ∧ b.core.life = .exiting .normal :=
      ⟨_, rfl, rfl, rfl⟩
  obtain ⟨pending, -⟩ := screened_reasons course screened
  obtain ⟨-, process, -⟩ := pending _ a _ found exits
  obtain ⟨-, -, owned⟩ := pending _ b _ present closes
  refine ⟨a, b, found, present, exits, closes, ?_, owned _ _ port rfl⟩
  refine ((process _ role).2 fun m member sender signal sent c flags known process => ?_).2
  have trapping := traps m member
  rw [known] at trapping
  simpa [process, Role.flags?] using trapping

end World

end Actors
