import Actors.Proofs.Ownership
import Actors.Proofs.Queueing
import Actors.Proofs.Sealing

/-! Setbacks. A start comes too late, a signal too early, a link finds its peer or its actor dead, and
what reads the mailbox finds an exit, or nothing yet. Wherever that happens, also in the middle of other
work, every actor stays as it was, no hook runs and nobody is woken. -/
namespace Actors

inductive Setback
  | raised (fault : Fault)
  | failed (interrupt : Interrupt)
  | waiting

def Life.objection : Life → Exception
  | init => .invariant "exit signal delivered before start"
  | life => .invariant ("start from state " ++ life.phase.name)

def Setback.IsDue (life : Option Life) : Setback → Prop
  | raised fault => ∃ l, life = some l ∧ fault = .exception l.objection
  | failed interrupt => interrupt = .noproc ∨
      ∃ reason, life.bind Life.surfaced? = some reason ∧ interrupt = .exit reason
  | waiting => True

def Poll.setback? {α : Type} : Poll (Except Interrupt α) → Option Setback
  | ready (.ok _) => none
  | ready (.error interrupt) => some (.failed interrupt)
  | pending _ => some .waiting

namespace Core

variable {c core last : Core} {b : Bell} {interrupt : Interrupt}

structure Undisturbed (c core : Core) : Prop where
  waited : Waited c core
  queue : core.mailbox.queue = c.mailbox.queue
  notified : ∀ b, ∀ wait ∈ (core.bell b).notified, wait ∈ (c.bell b).notified
  permit : ∀ b, (core.bell b).permit = true → (c.bell b).permit = true

namespace Undisturbed

theorem refl (c : Core) : Undisturbed c c := ⟨.refl c, rfl, fun _ _ told => told, fun _ kept => kept⟩

theorem trans (first : Undisturbed c core) (second : Undisturbed core last) : Undisturbed c last :=
  ⟨first.waited.trans second.waited, second.queue.trans first.queue,
    fun b wait told => first.notified b wait (second.notified b wait told),
    fun b kept => first.permit b (second.permit b kept)⟩

theorem setBell {waits : Notifier} (notified : ∀ wait ∈ waits.notified, wait ∈ (c.bell b).notified)
    (permit : waits.permit = true → (c.bell b).permit = true) :
    Undisturbed c (c.setBell b waits) := by
  refine ⟨.setBell c b waits, queue_setBell .., fun other => ?_, fun other => ?_⟩ <;>
    by_cases same : other = b
  · subst same
    rwa [bell_setBell]
  · rw [bell_setBell_ne same]
    exact fun wait told => told
  · subst same
    rwa [bell_setBell]
  · rw [bell_setBell_ne same]
    exact fun kept => kept

theorem woken (c : Core) (b : Bell) (ticket : Option Nat) : Undisturbed c (c.woken b ticket) := by
  cases ticket with
  | none => exact .refl c
  | some t => exact .setBell (fun wait told => List.mem_of_mem_filter told) fun kept => kept

theorem asleep (c : Core) (b : Bell) (sleeper : Option Identity) :
    Undisturbed c (c.asleep b sleeper) :=
  .setBell (fun wait told => told) fun kept => by cases kept

/-- A wait that is given up without a notification passes nothing on. -/
theorem cancel {ticket : Nat} (silent : (c.bell b).isNotified ticket = false) :
    Undisturbed c (c.cancel b ticket) := by
  refine .setBell (fun wait told => ?_) fun kept => ?_
  · rwa [Notifier.notified_cancel silent] at told
  · simpa [Notifier.cancel, silent] using kept

end Undisturbed

theorem ensureNoExit_error : c.ensureNoExit = .error interrupt ↔
    ∃ reason, c.life.surfaced? = some reason ∧ interrupt = .exit reason := by
  cases surfaced : c.life.surfaced? <;> simp [ensureNoExit, surfaced, eq_comm]

theorem peek_error (peeked : c.peek = .error interrupt) :
    ∃ reason, c.life.surfaced? = some reason ∧ interrupt = .exit reason := by
  unfold peek at peeked
  cases checked : c.ensureNoExit with
  | ok seen => simp [checked, Except.map] at peeked
  | error other =>
    simp only [checked, Except.map, Except.error.injEq] at peeked
    exact peeked ▸ ensureNoExit_error.mp checked

theorem lookMail_error (looked : c.lookMail = some (.error interrupt, core)) :
    ∃ reason, c.life.surfaced? = some reason ∧ interrupt = .exit reason := by
  unfold lookMail at looked
  split at looked
  · next failed =>
    cases looked
    exact ensureNoExit_error.mp failed
  · split at looked <;> cases looked

theorem lookMessage_error (looked : c.lookMessage = some (.error interrupt, core)) :
    core = c ∧ ∃ reason, c.life.surfaced? = some reason ∧ interrupt = .exit reason := by
  unfold lookMessage at looked
  split at looked
  · cases looked
  · next mail =>
    cases looked
    exact ⟨lookMail_eq mail, lookMail_error mail⟩
  · obtain ⟨taken, -, same⟩ := Option.map_eq_some_iff.mp looked
    cases same

section Polls

variable {α : Type} {look : Look (Except Interrupt α)} {idle : Core → Prop} {setback : Setback}
  {sleeper : Option Identity} {ticket : Option Nat}

/-- A poll that does not get what it waits for goes no further than the waits. -/
theorem Polled.undisturbed {result : Poll (Except Interrupt α) × Core}
    (polled : Polled b look idle sleeper c ticket result)
    (balks : ∀ ⦃core last interrupt⦄, look core = some (.error interrupt, last) →
      last = core ∧ ∃ reason, core.life.surfaced? = some reason ∧ interrupt = .exit reason)
    (vain : result.1.setback? = some setback) :
    Undisturbed c result.2 ∧ setback.IsDue (some c.life) := by
  cases polled with
  | unnotified silent =>
    cases vain
    exact ⟨.refl c, trivial⟩
  | @settled ticket value core busy told looked =>
    cases value with
    | ok answer => cases vain
    | error interrupt =>
      cases vain
      obtain ⟨rfl, reason, surfaced, due⟩ := balks looked
      rw [life_woken] at surfaced
      exact ⟨.woken c b ticket, .inr ⟨reason, surfaced, due⟩⟩
  | suspended nothing told =>
    cases vain
    exact ⟨(Undisturbed.woken c b _).trans (.asleep _ b sleeper), trivial⟩

theorem undisturbed_pollMail (vain : (c.pollMail sleeper ticket).1.setback? = some setback) :
    Undisturbed c (c.pollMail sleeper ticket).2 ∧ setback.IsDue (some c.life) :=
  (poll_polled watches_lookMail sleeper ticket c).undisturbed
    (fun _ _ _ looked => ⟨lookMail_eq looked, lookMail_error looked⟩) vain

theorem undisturbed_pollMessage (vain : (c.pollMessage sleeper ticket).1.setback? = some setback) :
    Undisturbed c (c.pollMessage sleeper ticket).2 ∧ setback.IsDue (some c.life) :=
  (poll_polled watches_lookMessage sleeper ticket c).undisturbed
    (fun _ _ _ looked => lookMessage_error looked) vain

/-- A timed wait that gets no answer changes nothing but the waits of its actor. -/
theorem undisturbed_pollTimed {expired : Bool}
    (vain : (c.pollTimed expired sleeper ticket).1.setback? = some setback) :
    Undisturbed c (c.pollTimed expired sleeper ticket).2 ∧ setback.IsDue (some c.life) := by
  have polled := poll_polled (b := .mail) watches_lookMail sleeper ticket c
  have settles := @undisturbed_pollMail c setback sleeper ticket
  have life := (waited_poll waited_lookMail .mail sleeper ticket c).life
  unfold pollTimed at vain ⊢
  unfold pollMail at settles vain ⊢
  revert polled settles life vain
  generalize poll .mail lookMail sleeper ticket c = result
  intro vain polled settles life
  obtain ⟨⟨_ | interrupt⟩ | t, core⟩ := result
  · exact settles vain
  · cases vain
  · cases expired with
    | false => exact settles vain
    | true =>
      -- the time is up while the wait is asleep, and the exit is there all the same
      cases looked : (core.cancel .mail t).ensureNoExit with
      | ok seen => simp [looked, Except.map, Poll.setback?] at vain
      | error interrupt =>
        simp only [if_true, looked, Except.map, Poll.setback?, Option.some.injEq] at vain
        subst vain
        obtain ⟨reason, surfaced, due⟩ := ensureNoExit_error.mp looked
        rw [(waited_cancel core .mail t).life, life] at surfaced
        cases polled with
        | unnotified silent => exact ⟨.cancel silent, .inr ⟨reason, surfaced, due⟩⟩
        | suspended nothing told => cases nothing.2.symm.trans surfaced

end Polls

end Core

namespace Actor

structure Kept (a b : Actor) : Prop where
  role : b.role = a.role
  core : a.core.Undisturbed b.core

end Actor

namespace World

variable {w v : World} {id : Identity} {a b : Actor} {trace : List Moment} {m : Moment}
  {setback : Setback}

/-- No actor has changed, whatever was written: neither its state nor its messages, links and flags. No
hook has run, no wait got a notification, no permit was stored and no driver was called. -/
structure Unmoved (w v : World) : Prop where
  missing : ∀ i, w.find? i = none → v.find? i = none
  kept : ∀ i a, w.find? i = some a → ∃ b, v.find? i = some b ∧ a.Kept b
  stubs : v.stubs = w.stubs
  serial : v.serial = w.serial
  calls : v.calls = w.calls
  reactions : ∀ i, v.reactions i = w.reactions i

/-- A call on an actor, directly or through a handle, that does not get its answer: what it gets and
the world that it leaves. A signal is one that finds the actor unborn, whoever delivers it. -/
inductive Balked (w : World) (id : Identity) : Setback → World → Prop
  | start {fault : Fault} {v : World} (raised : w.start id = .error fault v) :
      Balked w id (.raised fault) v
  | signal {R : Reaction} {sender : Identity} {reason : Exit} {fault : Fault} {v : World} {a : Actor}
      (found : w.find? id = some a) (unborn : a.core.phase = .init)
      (raised : deliverWith R w id sender reason = .error fault v) : Balked w id (.raised fault) v
  | forward {R : Reaction} {sender : Identity} {reason : Exit} {fault : Fault} {v : World} {a : Actor}
      (found : w.find? id = some a) (unborn : a.core.phase = .init)
      (raised : forwardWith R w id sender reason = .error fault v) : Balked w id (.raised fault) v
  | record {peer : Identity} {interrupt : Interrupt} {v : World}
      (failed : w.recordLink id peer = (.error interrupt, v)) : Balked w id (.failed interrupt) v
  | linkThrough {peer : Identity} {interrupt : Interrupt} {v : World}
      (failed : w.linkThrough id peer = (.error interrupt, v)) : Balked w id (.failed interrupt) v
  | check {interrupt : Interrupt} {a : Actor} (found : w.find? id = some a)
      (failed : a.core.ensureNoExit = .error interrupt) : Balked w id (.failed interrupt) w
  | peek {interrupt : Interrupt} {a : Actor} (found : w.find? id = some a)
      (failed : a.core.peek = .error interrupt) : Balked w id (.failed interrupt) w
  | mail {setback : Setback} {sleeper : Option Identity} {ticket : Option Nat} {a : Actor}
      (found : w.find? id = some a)
      (vain : (a.core.pollMail sleeper ticket).1.setback? = some setback) :
      Balked w id setback (w.putCore a (a.core.pollMail sleeper ticket).2)
  | message {setback : Setback} {sleeper : Option Identity} {ticket : Option Nat} {a : Actor}
      (found : w.find? id = some a)
      (vain : (a.core.pollMessage sleeper ticket).1.setback? = some setback) :
      Balked w id setback (w.putCore a (a.core.pollMessage sleeper ticket).2)
  | timed {setback : Setback} {expired : Bool} {sleeper : Option Identity} {ticket : Option Nat}
      {a : Actor} (found : w.find? id = some a)
      (vain : (a.core.pollTimed expired sleeper ticket).1.setback? = some setback) :
      Balked w id setback (w.putCore a (a.core.pollTimed expired sleeper ticket).2)

theorem Alike.unmoved (alike : Alike w v) (calls : v.calls = w.calls) : Unmoved w v where
  missing i missing := (alike.find? i).trans missing
  kept i a found := ⟨a, (alike.find? i).trans found, rfl, .refl a.core⟩
  stubs := alike.stubs
  serial := alike.serial
  calls := calls
  reactions := alike.reactions

theorem unmoved_putCore (keyed : w.Keyed) (found : w.find? id = some a) {core : Core}
    (undisturbed : a.core.Undisturbed core) : Unmoved w (w.putCore a core) := by
  have name : a.id = id := keyed found
  subst name
  have silent (b : Bell) : Notifier.awakened (a.core.bell b) (core.bell b) = [] := by
    have none : ((core.bell b).notified.filter
        fun wait => !(a.core.bell b).isNotified wait.ticket) = [] := by
      rw [List.filter_eq_nil_iff]
      intro wait told
      have before := Notifier.isNotified_iff.mpr ⟨wait, undisturbed.notified b wait told, rfl⟩
      simp [before]
    rw [Notifier.awakened, none]
    rfl
  refine ⟨fun i missing => ?_, fun i c present => ?_, rfl, rfl, ?_, fun _ => rfl⟩
  · rw [find?_putCore, if_neg, missing]
    rintro rfl
    cases found.symm.trans missing
  · rw [find?_putCore]
    by_cases same : i = a.id
    · subst same
      cases found.symm.trans present
      exact ⟨_, if_pos rfl, rfl, undisturbed⟩
    · exact ⟨c, by rw [if_neg same, present], rfl, .refl c.core⟩
  · have quiet : a.core.awakened core = [] := by
      rw [Core.awakened, show Notifier.awakened a.core.mailbox.waits core.mailbox.waits = [] from
        silent .mail, show Notifier.awakened a.core.exitWaits core.exitWaits = [] from silent .exit]
      rfl
    rw [putCore, quiet, List.append_nil]

/-- A start that comes too late says in which phase, and a world is not changed by it. -/
theorem start_error (found : w.find? id = some a) {fault : Fault} :
    w.start id = .error fault v ↔
      a.core.phase ≠ .init ∧ fault = .exception a.core.life.objection ∧ v = w := by
  unfold start Core.start
  rw [found]
  cases life : a.core.life <;>
    simp [life, Life.start, Life.objection, Except.map, Core.phase, Life.phase, eq_comm]

theorem offer_unborn (found : w.find? id = some a) (unborn : a.core.phase = .init)
    (sender : Identity) (reason : Exit) :
    w.offer id sender reason = .error (.exception a.core.life.objection) w := by
  have refusal : a.core.offer reason = .error a.core.life.objection := by
    cases life : a.core.life <;>
      simp_all [Core.offer, Life.accept, Life.objection, Core.phase, Life.phase]
  unfold offer
  exact within_error (v := w.entering (.offer sender id)) (by
    simp only [(alike_entering ..).find?, found, refusal])

theorem forwardWith_error (found : w.find? id = some a) (unborn : a.core.phase = .init)
    {R : Reaction} {sender : Identity} {reason : Exit} {fault : Fault} :
    forwardWith R w id sender reason = .error fault v ↔
      sender ≠ id ∧ fault = .exception a.core.life.objection ∧ v = w := by
  unfold forwardWith
  by_cases own : sender = id
  · simp [own]
  · simp [own, offer_unborn found unborn, eq_comm]

/-- A signal to an actor that is not born is raised if it is another's and the role lets it through. -/
theorem deliverWith_error (keyed : w.Keyed) (found : w.find? id = some a)
    (unborn : a.core.phase = .init) {R : Reaction} {sender : Identity} {reason : Exit}
    {fault : Fault} :
    deliverWith R w id sender reason = .error fault v ↔
      (sender ≠ id ∧ ∃ given, a.screen sender reason = .forward given) ∧
        fault = .exception a.core.life.objection ∧ v = w := by
  have name : a.id = id := keyed found
  unfold deliverWith
  rw [found]
  dsimp only
  unfold signalWith
  cases screened : a.screen sender reason with
  | forward given =>
    simp only [name, forwardWith_error found unborn]
    simp
  | _ => simp

theorem recordLink_error {peer : Identity} {interrupt : Interrupt}
    (failed : w.recordLink id peer = (.error interrupt, v)) :
    interrupt = .noproc ∧ Unmoved w v := by
  unfold recordLink at failed
  split at failed
  · cases failed
  · split at failed
    · cases failed
      exact ⟨rfl, (alike_emit _ _ fun _ => rfl).unmoved rfl⟩
    · split at failed
      · cases failed
        exact ⟨rfl, (Alike.refl w).unmoved rfl⟩
      · split at failed <;> cases failed
        exact ⟨rfl, (alike_emit _ _ fun _ => rfl).unmoved rfl⟩

theorem linkThrough_error {peer : Identity} {interrupt : Interrupt}
    (failed : w.linkThrough id peer = (.error interrupt, v)) :
    interrupt = .noproc ∧ Unmoved w v := by
  unfold linkThrough at failed
  split at failed
  · exact recordLink_error failed
  · split at failed
    · cases failed
      exact ⟨rfl, (Alike.refl w).unmoved rfl⟩
    · next stub _ =>
      obtain ⟨refused, rfl⟩ := Prod.mk.inj failed
      cases refuses : stub.refuses with
      | false => simp [refuses] at refused
      | true =>
        simp only [refuses, if_true] at refused
        cases refused
        exact ⟨rfl, (alike_note _ _ _ fun _ => rfl).unmoved rfl⟩

/-- Whatever keeps a call from its answer leaves the world as it was. -/
theorem Balked.unmoved (keyed : w.Keyed) (balked : Balked w id setback v) :
    Unmoved w v ∧ setback.IsDue ((w.find? id).map (·.core.life)) := by
  have still : Unmoved w w := (Alike.refl w).unmoved rfl
  cases balked with
  | @start fault _ raised =>
    cases found : w.find? id with
    | none => simp [World.start, found] at raised
    | some a =>
      obtain ⟨born, rfl, rfl⟩ := (start_error found).mp raised
      exact ⟨still, a.core.life, rfl, rfl⟩
  | signal found unborn raised =>
    obtain ⟨-, rfl, rfl⟩ := (deliverWith_error keyed found unborn).mp raised
    exact ⟨still, _, congrArg _ found, rfl⟩
  | forward found unborn raised =>
    obtain ⟨-, rfl, rfl⟩ := (forwardWith_error found unborn).mp raised
    exact ⟨still, _, congrArg _ found, rfl⟩
  | record failed =>
    obtain ⟨due, unmoved⟩ := recordLink_error failed
    exact ⟨unmoved, .inl due⟩
  | linkThrough failed =>
    obtain ⟨due, unmoved⟩ := linkThrough_error failed
    exact ⟨unmoved, .inl due⟩
  | check found failed =>
    obtain ⟨reason, surfaced, due⟩ := Core.ensureNoExit_error.mp failed
    exact ⟨still, .inr ⟨reason, by rw [found]; exact surfaced, due⟩⟩
  | peek found failed =>
    obtain ⟨reason, surfaced, due⟩ := Core.peek_error failed
    exact ⟨still, .inr ⟨reason, by rw [found]; exact surfaced, due⟩⟩
  | mail found vain =>
    obtain ⟨undisturbed, due⟩ := Core.undisturbed_pollMail vain
    exact ⟨unmoved_putCore keyed found undisturbed, by rw [found]; exact due⟩
  | message found vain =>
    obtain ⟨undisturbed, due⟩ := Core.undisturbed_pollMessage vain
    exact ⟨unmoved_putCore keyed found undisturbed, by rw [found]; exact due⟩
  | timed found vain =>
    obtain ⟨undisturbed, due⟩ := Core.undisturbed_pollTimed vain
    exact ⟨unmoved_putCore keyed found undisturbed, by rw [found]; exact due⟩

/-- A start of an actor that is not new, a signal that reaches an actor before its start, a link that is
refused and a reading of the mailbox that an exit interrupts: whenever one of them fails, in a world
between two actions or in the course of one, every actor is as it was before, and the setback says why.
So is it while a reading still waits. A start fails exactly after the first one, and a signal to an
actor that is not started exactly if it is another's and the role, if it is asked, lets it through. -/
theorem setbacks_move_nothing (reached : Course {} trace m.1) (midst : Midst m w) :
    (∀ id setback v, Balked w id setback v →
      Unmoved w v ∧ setback.IsDue ((w.find? id).map (·.core.life))) ∧
    ∀ id a, w.find? id = some a →
      ((∃ fault v, w.start id = .error fault v) ↔ a.core.phase ≠ .init) ∧
      (a.core.phase = .init → ∀ R sender reason,
        ((∃ fault v, deliverWith R w id sender reason = .error fault v) ↔
          sender ≠ id ∧ ∃ given, a.screen sender reason = .forward given) ∧
        ((∃ fault v, forwardWith R w id sender reason = .error fault v) ↔ sender ≠ id)) := by
  have keyed : w.Keyed := midst.keyed (reached.rooted rooted_empty).keyed
  refine ⟨fun id setback v balked => balked.unmoved keyed, fun id a found => ⟨?_, ?_⟩⟩
  · simp only [start_error found]
    simp
  · intro unborn R sender reason
    simp only [deliverWith_error keyed found unborn, forwardWith_error found unborn]
    simp

def antechamber : World :=
  let reader : Identity := .ofSerial 2 .process
  let late : Identity := .ofSerial 3 .process
  run {} [.allocate .process (.process .empty), .allocate .process (.process .empty),
    .operate reader .start, .operate reader (.poll .message none none),
    .operate reader (.send (.str "first")), .allocate .process (.process .empty),
    .operate late .start, .operate reader (.signal late (.atom ⟨"crash"⟩)),
    .operate late (.terminate .normal)]

theorem antechamber_unmoved :
    let new : Identity := .ofSerial 1 .process
    let reader : Identity := .ofSerial 2 .process
    let late : Identity := .ofSerial 3 .process
    let crash : Interrupt := .exit (.atom ⟨"crash"⟩)
    ∃ a b, antechamber.find? new = some a ∧ a.core.phase = .init ∧
      antechamber.find? reader = some b ∧ b.core.mailbox.queue = [.str "first"] ∧
      (∃ fault v, antechamber.deliver new late .kill = .error fault v ∧ Unmoved antechamber v) ∧
      (∃ fault v, antechamber.start reader = .error fault v ∧ Unmoved antechamber v) ∧
      (∃ v, antechamber.recordLink reader late = (.error .noproc, v) ∧ Unmoved antechamber v) ∧
      (b.core.pollMessage none (some 0)).1 = .ready (.error crash) ∧
      Unmoved antechamber (antechamber.putCore b (b.core.pollMessage none (some 0)).2) := by
  let new : Identity := .ofSerial 1 .process
  let reader : Identity := .ofSerial 2 .process
  let late : Identity := .ofSerial 3 .process
  have reached : Course {} _ antechamber := course_run {} _
  obtain ⟨unmoved, fails⟩ :=
    setbacks_move_nothing (m := (antechamber, .operate new .start)) reached (.refl _)
  obtain ⟨a, found, unborn, passes⟩ : ∃ a, antechamber.find? new = some a ∧ a.core.phase = .init ∧
    a.screen late .kill = .forward .killed := ⟨_, rfl, rfl, rfl⟩
  obtain ⟨b, present, queue, born, polled⟩ : ∃ b, antechamber.find? reader = some b ∧
    b.core.mailbox.queue = [.str "first"] ∧ b.core.phase ≠ .init ∧
    (b.core.pollMessage none (some 0)).1 = .ready (.error (.exit (.atom ⟨"crash"⟩))) :=
      ⟨_, rfl, rfl, by decide, rfl⟩
  obtain ⟨fault, v, raised⟩ := ((fails new a found).2 unborn antechamber.reaction late .kill).1.mpr
    ⟨by decide, _, passes⟩
  obtain ⟨late', u, started⟩ := (fails reader b present).1.mpr born
  obtain ⟨t, refused⟩ : ∃ t, antechamber.recordLink reader late = (.error .noproc, t) := ⟨_, rfl⟩
  exact ⟨a, b, found, unborn, present, queue,
    ⟨fault, v, raised, (unmoved _ _ _ (.signal found unborn raised)).1⟩,
    ⟨late', u, started, (unmoved _ _ _ (.start started)).1⟩,
    ⟨t, refused, (unmoved _ _ _ (.record refused)).1⟩, polled,
    (unmoved _ _ _ (.message present (congrArg Poll.setback? polled))).1⟩

end World

end Actors
