import Actors.Proofs.Heed
import Actors.Proofs.Notice

/-! Sealing. Once an exit has surfaced, whatever reads the mailbox fails with its reason, also a wait
that was suspended before or that a message has woken. No message is taken any more: the queue grows
at its end until the end of the actor clears it. -/
namespace Actors

def Poll.Fails {α : Type} (answer : Poll (Except Interrupt α)) (reason : Exit) : Prop :=
  ∀ result, answer = .ready result → result = .error (.exit reason)

namespace Core

variable {α : Type} {b : Bell} {look : Look (Except Interrupt α)} {c core last : Core} {reason : Exit}

structure Sealed (c : Core) (reason : Exit) : Prop where
  check : c.ensureNoExit = .error (.exit reason)
  peek : c.peek = .error (.exit reason)
  mail : ∀ sleeper ticket, (c.pollMail sleeper ticket).1.Fails reason
  message : ∀ sleeper ticket, (c.pollMessage sleeper ticket).1.Fails reason
  timed : ∀ expired sleeper ticket, (c.pollTimed expired sleeper ticket).1.Fails reason
  begun : ∀ expired sleeper, (c.pollMail sleeper none).1 = .ready (.error (.exit reason)) ∧
    (c.pollMessage sleeper none).1 = .ready (.error (.exit reason)) ∧
    (c.pollTimed expired sleeper none).1 = .ready (.error (.exit reason))

theorem ensureNoExit_surfaced (surfaced : c.life.surfaced? = some reason) :
    c.ensureNoExit = .error (.exit reason) := by
  rw [ensureNoExit, surfaced]

theorem lookMail_surfaced (surfaced : c.life.surfaced? = some reason) :
    c.lookMail = some (.error (.exit reason), c) := by
  rw [lookMail, ensureNoExit_surfaced surfaced]

theorem lookMessage_surfaced (surfaced : c.life.surfaced? = some reason) :
    c.lookMessage = some (.error (.exit reason), c) := by
  rw [lookMessage, lookMail_surfaced surfaced]

section Poll

variable (sees : ∀ ⦃core : Core⦄, core.life.surfaced? = some reason →
  look core = some (.error (.exit reason), core)) (surfaced : c.life.surfaced? = some reason)
include sees surfaced

theorem rounds_surfaced (sleeper : Option Identity) :
    rounds b look sleeper 2 c = (.ready (.error (.exit reason)), c) :=
  rounds_seen (sees surfaced) sleeper

/-- A poll ends with the failure and changes no more than the waits, unless it finds the wait
without a notification. -/
theorem poll_surfaced (sleeper : Option Identity) (ticket : Option Nat) :
    (poll b look sleeper ticket c).1.Fails reason ∧
      (poll b look sleeper ticket c).2.mailbox.queue = c.mailbox.queue := by
  cases ticket with
  | none =>
    have ended : poll b look sleeper none c = _ := rounds_surfaced sees surfaced sleeper
    rw [ended]
    exact ⟨fun result ready => (by cases ready; rfl), rfl⟩
  | some ticket =>
    cases told : (c.bell b).isNotified ticket with
    | false =>
      rw [poll_silent told]
      exact ⟨fun result ready => (by cases ready), rfl⟩
    | true =>
      have awake : (c.woken b (some ticket)).life.surfaced? = some reason := by
        rw [woken, life_setBell, surfaced]
      rw [poll_told told, rounds_surfaced sees awake]
      exact ⟨fun result ready => (by cases ready; rfl), queue_setBell ..⟩

end Poll

section Surfaced

variable (surfaced : c.life.surfaced? = some reason)
include surfaced

theorem timed_fails (expired : Bool) (sleeper : Option Identity) (ticket : Option Nat) :
    (c.pollTimed expired sleeper ticket).1.Fails reason := by
  obtain ⟨fails, -⟩ :=
    poll_surfaced (fun _ => lookMail_surfaced) surfaced (b := .mail) sleeper ticket
  have life := (waited_poll waited_lookMail .mail sleeper ticket c).life
  unfold pollTimed pollMail
  revert fails life
  generalize poll .mail lookMail sleeper ticket c = result
  intro fails life
  obtain ⟨answer | t, core⟩ := result
  · obtain rfl := fails answer rfl
    exact fun result ready => (by cases ready; rfl)
  · -- the time may be up while the wait is asleep, and then the state is looked at directly
    have checked : (core.cancel .mail t).ensureNoExit = .error (.exit reason) := by
      refine ensureNoExit_surfaced ?_
      rw [(core.waited_cancel .mail t).life, life, surfaced]
    intro result ready
    cases expired with
    | false => cases ready
    | true =>
      simp only [if_true, checked] at ready
      cases ready
      rfl

/-- A core whose exit has surfaced is sealed. -/
theorem sealed_surfaced : c.Sealed reason where
  check := ensureNoExit_surfaced surfaced
  peek := by rw [peek, ensureNoExit_surfaced surfaced]; rfl
  mail sleeper ticket := (poll_surfaced (fun _ => lookMail_surfaced) surfaced sleeper ticket).1
  message sleeper ticket :=
    (poll_surfaced (fun _ => lookMessage_surfaced) surfaced sleeper ticket).1
  timed := timed_fails surfaced
  begun expired sleeper := by
    have mail : c.pollMail sleeper none = _ :=
      rounds_surfaced (fun _ => lookMail_surfaced) surfaced sleeper
    have message : c.pollMessage sleeper none = _ :=
      rounds_surfaced (fun _ => lookMessage_surfaced) surfaced sleeper
    rw [pollTimed, mail, message]
    exact ⟨rfl, rfl, rfl⟩

theorem queue_polled (errand : Errand) (sleeper : Option Identity) (ticket : Option Nat) :
    (c.polled errand sleeper ticket).mailbox.queue = c.mailbox.queue := by
  have mail : (c.polled .mail sleeper ticket).mailbox.queue = c.mailbox.queue :=
    (poll_surfaced (fun _ => lookMail_surfaced) surfaced sleeper ticket).2
  cases errand with
  | mail => exact mail
  | message => exact (poll_surfaced (fun _ => lookMessage_surfaced) surfaced sleeper ticket).2
  | exit =>
    have mailbox := (poll_polled watches_lookExit (b := .exit) sleeper ticket c).mailbox
    exact congrArg Mailbox.queue mailbox
  | timed expired =>
    rcases c.polled_timed expired sleeper ticket with same | ⟨t, -, given⟩
    · rw [same, mail]
    · rw [given, cancel, queue_setBell, mail]

end Surfaced

def Cleared (c : Core) : Prop := c.isDone = true → c.mailbox.queue = []

theorem surfaced_done (done : c.isDone = true) : ∃ reason, c.life.surfaced? = some reason := by
  obtain ⟨final, life⟩ := isDone_iff.mp done
  exact ⟨final, by rw [life]; rfl⟩

/-- From one core to the other no message was taken: the queue has grown at its end, unless the
actor is done, which clears it. -/
structure Retains (c core : Core) : Prop where
  done : c.isDone = true → core.isDone = true
  grown : core.isDone = false → c.mailbox.queue <+: core.mailbox.queue
  cleared : core.Cleared

namespace Retains

theorem of_same (cleared : c.Cleared) (life : core.life = c.life)
    (queue : core.mailbox.queue = c.mailbox.queue) : Retains c core := by
  have done := isDone_of_life life
  refine ⟨fun past => done.trans past, fun _ => queue ▸ List.prefix_refl _, fun past => ?_⟩
  rw [queue]
  exact cleared (done.symm.trans past)

theorem of_ended (done : core.isDone = true) (empty : core.mailbox.queue = []) : Retains c core :=
  ⟨fun _ => done, fun alive => absurd done (by simp [alive]), fun _ => empty⟩

theorem trans (first : Retains c core) (second : Retains core last) : Retains c last := by
  refine ⟨fun past => second.done (first.done past), fun alive => ?_, second.cleared⟩
  have earlier : core.isDone = false := by
    refine Bool.eq_false_of_not_eq_true fun past => ?_
    cases alive.symm.trans (second.done past)
  exact (first.grown earlier).trans (second.grown alive)

end Retains

theorem Move.retains {leave : Prop} (move : Move leave c core) (cleared : c.Cleared) :
    Retains c core := by
  have alive {first : Core} (going : first.isDone = false) : first.Cleared :=
    fun past => by cases going.symm.trans past
  cases move with
  | start unborn => exact ⟨fun past => by simp [isDone, phase, unborn, Life.phase] at past,
      fun _ => List.prefix_refl _, alive rfl⟩
  | accept runs reason => exact ⟨fun past => by simp [isDone, phase, runs, Life.phase] at past,
      fun _ => List.prefix_refl _, alive rfl⟩
  | finish may running reason => exact .of_ended rfl rfl
  | post running message =>
    exact ⟨fun past => past, fun _ => List.prefix_append .., alive running⟩
  | relink links => exact .of_same cleared rfl rfl

theorem Moves.retains {leave : Core → Prop} (moves : Moves leave c core) (cleared : c.Cleared) :
    Retains c core := by
  induction moves with
  | refl => exact .of_same cleared rfl rfl
  | tail earlier move ih => exact ih.trans (move.retains ih.cleared)

theorem retains_finish (cleared : c.Cleared) (reason : Exit) : Retains c (c.finish reason).2 := by
  cases done : c.isDone with
  | true =>
    rw [finish_done done]
    exact .of_same cleared rfl rfl
  | false =>
    rw [finish_alive done]
    exact .of_ended rfl rfl

theorem retains_polled (cleared : c.Cleared) (surfaced : c.life.surfaced? = some reason)
    (errand : Errand) (sleeper : Option Identity) (ticket : Option Nat) :
    Retains c (c.polled errand sleeper ticket) :=
  .of_same cleared (c.waited_polled ..).life (queue_polled surfaced ..)

theorem retains_cancel (cleared : c.Cleared) (b : Bell) (ticket : Nat) :
    Retains c (c.cancel b ticket) :=
  .of_same cleared (c.waited_cancel b ticket).life (queue_setBell ..)

end Core

namespace World

variable {w v : World} {id : Identity} {a b : Actor} {reason : Exit} {trace : List Moment}

theorem Turn.retains {action : Action} (turn : Turn id action a b) (cleared : a.core.Cleared)
    (surfaced : a.core.life.surfaced? = some reason) : a.core.Retains b.core := by
  cases turn with
  | polled polls core => exact core ▸ Core.retains_polled cleared surfaced ..
  | cancelled cancels core => exact core ▸ Core.retains_cancel cleared ..
  | ended ends core => exact core ▸ Core.retains_finish cleared _
  | moved idle endless moves => exact moves.retains cleared

theorem Turn.cleared {action : Action} (turn : Turn id action a b) (cleared : a.core.Cleared) :
    b.core.Cleared := by
  cases surfaced : a.core.life.surfaced? with
  | some reason => exact (turn.retains cleared surfaced).cleared
  | none =>
    cases turn with
    | polled polls core =>
      -- a poll may take a message, but not of an actor that is done
      intro past
      rw [core, Core.isDone_of_life (a.core.waited_polled ..).life] at past
      obtain ⟨reason, recorded⟩ := Core.surfaced_done past
      cases surfaced.symm.trans recorded
    | cancelled cancels core => exact core ▸ (Core.retains_cancel cleared ..).cleared
    | ended ends core => exact core ▸ (Core.retains_finish cleared _).cleared
    | moved idle endless moves => exact (moves.retains cleared).cleared

theorem Course.cleared (course : Course {} trace v) (found : v.find? id = some a) :
    a.core.Cleared :=
  course.holds rooted_empty (fun past => by cases past) (fun a found => (by cases found))
    (fun _ _ _ _ _ cleared turn => turn.cleared cleared) found

/-- From the moment an exit reason has surfaced, whatever reads the mailbox fails with that reason
for ever, whether it was begun before or after. Until the actor is done its queue only grows at its
end, and then it is empty. -/
theorem exit_seals_mailbox {earlier later : List Moment} (reached : Course {} earlier w)
    (found : w.find? id = some a) (surfaced : a.core.life.surfaced? = some reason)
    (course : Course w later v) (present : v.find? id = some b) :
    b.core.life.surfaced? = some reason ∧ b.core.Sealed reason ∧
      (b.core.isDone = false → a.core.mailbox.queue <+: b.core.mailbox.queue) ∧
      (b.core.isDone = true → b.core.mailbox.queue = []) := by
  have before : a.core.Cleared := reached.cleared found
  obtain ⟨recorded, retains⟩ := course.keeps
    (P := fun core => core.life.surfaced? = some reason ∧ a.core.Retains core)
    (reached.rooted rooted_empty) found ⟨surfaced, .of_same before rfl rfl⟩
    (fun _ _ _ _ _ held turn =>
      ⟨turn.surfaced held.1, held.2.trans (turn.retains held.2.cleared held.1)⟩) present
  exact ⟨recorded, Core.sealed_surfaced recorded, retains.grown, retains.cleared⟩

def overtaken : World :=
  let self : Identity := .ofSerial 1 .process
  run {} [.allocate .process (.process .empty), .operate self .start,
    .operate self (.poll .message none none), .operate self (.send (.str "first")),
    .operate self (.signal (.ofSerial 2 .process) (.atom ⟨"crash"⟩))]

theorem overtaken_sealed : ∃ a b,
    overtaken.find? (.ofSerial 1 .process) = some a ∧
    a.core.life.surfaced? = some (.atom ⟨"crash"⟩) ∧ a.core.mailbox.queue = [.str "first"] ∧
    (overtaken.act (.operate (.ofSerial 1 .process) (.send (.str "second")))).find?
      (.ofSerial 1 .process) = some b ∧
    a.core.mailbox.queue <+: b.core.mailbox.queue ∧ b.core.mailbox.length = 2 ∧
    b.core.mailbox.waits.isNotified 0 = true ∧ b.core.Sealed (.atom ⟨"crash"⟩) := by
  let sending : Action := .operate (.ofSerial 1 .process) (.send (.str "second"))
  obtain ⟨a, found, surfaced, queued⟩ : ∃ a, overtaken.find? (.ofSerial 1 .process) = some a ∧
    a.core.life.surfaced? = some (.atom ⟨"crash"⟩) ∧ a.core.mailbox.queue = [.str "first"] :=
      ⟨_, rfl, rfl, rfl⟩
  obtain ⟨b, present, alive, two, told⟩ : ∃ b,
    (overtaken.act sending).find? (.ofSerial 1 .process) = some b ∧ b.core.isDone = false ∧
    b.core.mailbox.length = 2 ∧ b.core.mailbox.waits.isNotified 0 = true := ⟨_, rfl, rfl, rfl, rfl⟩
  have before : Course {} _ overtaken := course_run {} _
  have after : Course overtaken [(overtaken, sending)] (overtaken.act sending) :=
    Course.refl.act sending
  obtain ⟨-, closed, grown, -⟩ := exit_seals_mailbox before found surfaced after present
  exact ⟨a, b, found, surfaced, queued, present, grown alive, two, told, closed⟩

end World

end Actors
