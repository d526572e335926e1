import Actors.Proofs.Waking

/-! Heed. While at most one wait for a message is suspended at a time, it has a notification as soon
as there is a message or an exit to see, and then its next poll completes. -/
namespace Actors

namespace Core

variable {c core : Core}

def Heedful (c : Core) : Prop := c.mailbox.waits.waiting ≠ [] → c.Idle

theorem heedful_new (id : Identity) : Heedful { id } := fun waiting => absurd rfl waiting

theorem Heedful.congr (heedful : c.Heedful)
    (fewer : core.mailbox.waits.waiting.Sublist c.mailbox.waits.waiting)
    (idle : c.Idle → core.Idle) : core.Heedful := by
  intro waiting
  apply idle
  apply heedful
  intro none
  rw [none] at fewer
  exact waiting (List.sublist_nil.mp fewer)

theorem Move.heedful {leave : Prop} (move : Move leave c core)
    (solo : c.mailbox.waits.waiting.length ≤ 1) (heedful : c.Heedful) : core.Heedful := by
  -- the only wait that can be waiting is the one that a ring goes to
  have rung : c.mailbox.waits.notify.waiting = [] := by
    rw [Notifier.waiting_notify]
    exact List.eq_nil_of_length_eq_zero (by rw [List.length_tail]; omega)
  cases move with
  | start unborn => exact heedful.congr (.refl _) fun idle => ⟨idle.1, rfl⟩
  | accept runs reason => exact fun waiting => absurd rung waiting
  | finish may alive reason => exact fun waiting => absurd rung waiting
  | post alive message => exact fun waiting => absurd rung waiting
  | relink links => exact heedful.congr (.refl _) fun idle => idle

theorem Moves.heedful {leave : Core → Prop} (moves : Moves leave c core)
    (solo : c.mailbox.waits.waiting.length ≤ 1) (heedful : c.Heedful) : core.Heedful := by
  suffices core.mailbox.waits.waiting.length ≤ 1 ∧ core.Heedful from this.2
  induction moves with
  | refl => exact ⟨solo, heedful⟩
  | tail earlier move ih =>
    obtain ⟨few, heedful⟩ := ih
    exact ⟨(move.waiting .mail).length_le.trans few, move.heedful few heedful⟩

theorem Heedful.cancel (heedful : c.Heedful) (b : Bell) (ticket : Nat) :
    (c.cancel b ticket).Heedful := by
  cases b with
  | mail => exact heedful.congr (Notifier.waiting_cancel _ ticket) fun idle => idle
  | exit => exact heedful

section Polls

variable {α : Type} {look : Look α} {sleeper : Option Identity} {ticket : Option Nat}
  {result : Poll α × Core}

theorem Polled.heedful (polled : Polled .mail look Idle sleeper c ticket result)
    (watches : Watches look Idle) (heedful : c.Heedful) : result.2.Heedful := by
  cases polled with
  | unnotified silent => exact heedful
  | @settled ticket value core busy told looked =>
    refine fun waiting => absurd (heedful ?_) busy
    have kept : (core.bell .mail).waiting = (c.bell .mail).waiting := by
      rw [watches.keeps looked, waiting_woken]
    exact kept ▸ waiting
  | suspended nothing told =>
    exact fun waiting => (watches.blind _ .mail _).mpr ((watches.woken c .mail ticket).mpr nothing)

theorem Polled.mailbox {idle : Core → Prop} {result : Poll Exit × Core}
    (polled : Polled .exit lookExit idle sleeper c ticket result) :
    result.2.mailbox = c.mailbox := by
  have woken : (c.woken .exit ticket).mailbox = c.mailbox := by
    cases ticket <;> rfl
  cases polled with
  | unnotified silent => rfl
  | settled busy told looked =>
    obtain ⟨reason, -, same⟩ := Option.map_eq_some_iff.mp looked
    cases same
    exact woken
  | suspended nothing told => exact woken

end Polls

/-- Whichever wait is polled, the others sleep on only while there is nothing to see. -/
theorem Heedful.polled (heedful : c.Heedful) (errand : Errand) (sleeper : Option Identity)
    (ticket : Option Nat) : (c.polled errand sleeper ticket).Heedful := by
  have mail : (c.polled .mail sleeper ticket).Heedful :=
    (poll_polled watches_lookMail sleeper ticket c).heedful watches_lookMail heedful
  cases errand with
  | mail => exact mail
  | message =>
    exact (poll_polled watches_lookMessage sleeper ticket c).heedful watches_lookMessage heedful
  | exit =>
    have mailbox := (poll_polled watches_lookExit sleeper ticket c).mailbox
    have life := (c.waited_polled .exit sleeper ticket).life
    have same : (c.polled .exit sleeper ticket).mailbox = c.mailbox := mailbox
    refine heedful.congr (by rw [same]) fun idle => ⟨same ▸ idle.1, life ▸ idle.2⟩
  | timed expired =>
    rcases c.polled_timed expired sleeper ticket with same | ⟨t, -, given⟩
    · exact same ▸ mail
    · exact given ▸ mail.cancel .mail t

structure Completes (c : Core) (ticket : Nat) (waited : Except Interrupt Unit)
    (received : Except Interrupt Term) : Prop where
  mail : ∀ sleeper, (c.pollMail sleeper (some ticket)).1 = .ready waited
  message : ∀ sleeper, (c.pollMessage sleeper (some ticket)).1 = .ready received
  timed : ∀ expired sleeper,
    (c.pollTimed expired sleeper (some ticket)).1 = .ready (waited.map fun _ => true)

theorem completes {last : Core} {ticket : Nat} {waited : Except Interrupt Unit}
    {received : Except Interrupt Term} (told : (c.bell .mail).isNotified ticket = true)
    (sees : lookMail (c.woken .mail (some ticket)) = some (waited, core))
    (takes : lookMessage (c.woken .mail (some ticket)) = some (received, last)) :
    c.Completes ticket waited received := by
  have ready (sleeper : Option Identity) : (c.pollMail sleeper (some ticket)).1 = .ready waited :=
    poll_seen told sees sleeper
  refine ⟨ready, poll_seen told takes, fun expired sleeper => ?_⟩
  have mailed := ready sleeper
  unfold pollTimed
  revert mailed
  generalize c.pollMail sleeper (some ticket) = result
  intro mailed
  obtain ⟨answer, last⟩ := result
  cases mailed
  rfl

theorem completes_surfaced {ticket : Nat} {reason : Exit}
    (told : c.mailbox.waits.isNotified ticket = true) (surfaced : c.life.surfaced? = some reason) :
    c.Completes ticket (.error (.exit reason)) (.error (.exit reason)) := by
  have seen : (c.woken .mail (some ticket)).ensureNoExit = .error (.exit reason) := by
    rw [ensureNoExit, woken, life_setBell, surfaced]
  have sees : lookMail (c.woken .mail (some ticket))
      = some (.error (.exit reason), c.woken .mail (some ticket)) := by
    rw [lookMail, seen]
  have takes : lookMessage (c.woken .mail (some ticket))
      = some (.error (.exit reason), c.woken .mail (some ticket)) := by
    rw [lookMessage, sees]
  exact completes told sees takes

theorem completes_queued {ticket : Nat} {first : Term} {rest : List Term}
    (told : c.mailbox.waits.isNotified ticket = true) (alive : c.life.surfaced? = none)
    (queue : c.mailbox.queue = first :: rest) : c.Completes ticket (.ok ()) (.ok first) := by
  let awake := c.woken .mail (some ticket)
  have queued : awake.mailbox.queue = first :: rest := by
    rw [show awake.mailbox.queue = c.mailbox.queue from queue_setBell .., queue]
  have seen : awake.ensureNoExit = .ok () := by
    rw [ensureNoExit, show awake.life = c.life from life_setBell .., alive]
  have sees : lookMail awake = some (.ok (), awake) := by
    rw [lookMail, seen]
    simp [Mailbox.isEmpty, queued]
  have takes : lookMessage awake
      = some (.ok first, { awake with mailbox := { awake.mailbox with queue := rest } }) := by
    rw [lookMessage, sees]
    simp only [Mailbox.pop?, queued]
    rfl
  exact completes told sees takes

theorem phase_of_unsurfaced (alive : c.life.surfaced? = none) :
    c.phase ≠ .exiting ∧ c.phase ≠ .done := by
  cases life : c.life <;> simp_all [Life.surfaced?, phase, Life.phase]

end Core

namespace World

variable {w v : World} {id : Identity} {a b : Actor} {trace : List Moment}

theorem Turn.heedful {action : Action} (turn : Turn id action a b)
    (solo : a.core.mailbox.waits.waiting.length ≤ 1) (heedful : a.core.Heedful) :
    b.core.Heedful := by
  cases turn with
  | polled polls core => exact core ▸ heedful.polled _ _ _
  | cancelled cancels core => exact core ▸ heedful.cancel _ _
  | ended ends core => exact core ▸ (Core.moves_finish ..).heedful solo heedful
  | moved idle endless moves => exact moves.heedful solo heedful

theorem Course.heedful (course : Course {} trace v)
    (solo : ∀ m ∈ trace, ∀ b, m.1.find? id = some b →
      b.core.mailbox.waits.outstanding.length ≤ 1)
    (found : v.find? id = some a) : a.core.Heedful := by
  refine course.holds rooted_empty (Core.heedful_new id) (fun a found => (by cases found)) ?_ found
  intro m member b c present heedful turn
  refine turn.heedful (le_trans ?_ (solo m member b present)) heedful
  simp [Notifier.outstanding]

/-- While at most one wait for a message is suspended at a time, it holds a notification unless the
mailbox is empty and no exit is recorded. The action that made it hold one called its sleeper, and
its next poll completes: with the exit if there is one, and otherwise with what is queued. -/
theorem mail_wait_wakes (course : Course {} trace v)
    (solo : ∀ m ∈ trace, ∀ b, m.1.find? id = some b →
      b.core.mailbox.waits.outstanding.length ≤ 1)
    (found : v.find? id = some a) {wait : Wait}
    (suspended : wait ∈ a.core.mailbox.waits.outstanding) :
    (a.core.mailbox.waits.isNotified wait.ticket = false →
      a.core.mailbox.queue = [] ∧ a.core.phase ≠ .exiting ∧ a.core.phase ≠ .done) ∧
    (∀ reason, a.core.life.surfaced? = some reason →
      (∃ m ∈ trace, Wakes id .mail wait m) ∧
        a.core.Completes wait.ticket (.error (.exit reason)) (.error (.exit reason))) ∧
    ∀ first rest, a.core.life.surfaced? = none → a.core.mailbox.queue = first :: rest →
      (∃ m ∈ trace, Wakes id .mail wait m) ∧ a.core.Completes wait.ticket (.ok ()) (.ok first) := by
  have sound : a.core.mailbox.waits.Sound := course.sound found .mail
  have silent (untold : a.core.mailbox.waits.isNotified wait.ticket = false) : a.core.Idle := by
    refine course.heedful solo found fun none => ?_
    rw [Notifier.outstanding, none, List.append_nil] at suspended
    cases untold.symm.trans (Notifier.isNotified_iff.mpr ⟨wait, suspended, rfl⟩)
  have woken (busy : ¬a.core.Idle) : a.core.mailbox.waits.isNotified wait.ticket = true ∧
      ∃ m ∈ trace, Wakes id .mail wait m := by
    have told : a.core.mailbox.waits.isNotified wait.ticket = true := by
      by_contra untold
      exact busy (silent (Bool.eq_false_of_not_eq_true untold))
    exact ⟨told, course.wakes found (sound.mem_notified suspended told)⟩
  refine ⟨fun untold => ?_, fun reason surfaced => ?_, fun first rest alive queue => ?_⟩
  · obtain ⟨queue, alive⟩ := silent untold
    exact ⟨queue, Core.phase_of_unsurfaced alive⟩
  · obtain ⟨told, wakes⟩ := woken fun idle => by cases idle.2.symm.trans surfaced
    exact ⟨wakes, Core.completes_surfaced told surfaced⟩
  · obtain ⟨told, wakes⟩ := woken fun idle => by cases idle.1.symm.trans queue
    exact ⟨wakes, Core.completes_queued told alive queue⟩

def receiver : List Action :=
  let self : Identity := .ofSerial 1 .process
  [.allocate .process (.process .empty), .operate self .start,
    .operate self (.poll .mail (some self) none), .operate self (.send (.str "ping")),
    .operate self (.cancel .mail 0), .operate self (.poll .message (some self) none),
    .operate self (.poll .message (some self) none),
    .operate self (.signal (.ofSerial 2 .process) .noproc)]

theorem receiver_wakes : ∃ trace v a wait, Course {} trace v ∧
    v.find? (.ofSerial 1 .process) = some a ∧ wait ∈ a.core.mailbox.waits.outstanding ∧
    a.core.life.surfaced? = some .noproc ∧
    (∃ m ∈ trace, Wakes (.ofSerial 1 .process) .mail wait m) ∧
    a.core.Completes wait.ticket (.error (.exit .noproc)) (.error (.exit .noproc)) := by
  have course := course_run {} receiver
  have solo : ∀ m ∈ moments {} receiver, (m.1.find? (.ofSerial 1 .process)).all (fun b =>
      decide (b.core.mailbox.waits.outstanding.length ≤ 1)) = true := by decide
  obtain ⟨a, found, waits, surfaced⟩ : ∃ a,
    (run {} receiver).find? (.ofSerial 1 .process) = some a ∧
    ⟨1, some (.ofSerial 1 .process)⟩ ∈ a.core.mailbox.waits.outstanding ∧
    a.core.life.surfaced? = some .noproc := ⟨_, rfl, by decide, rfl⟩
  obtain ⟨-, exits, -⟩ := mail_wait_wakes course (fun m member b present => by
    simpa [present] using solo m member) found waits
  obtain ⟨wakes, completes⟩ := exits .noproc surfaced
  exact ⟨_, _, a, _, course, found, waits, surfaced, wakes, completes⟩

end World

end Actors
