import Actors.Proofs.Queueing

/-! Rounds. A poll of a wait goes round its loop until there is something to see or the wait is
suspended. No round brings a permit, so the first one uses up the only one there can be, and the
second one is the last: no poll goes on for ever, and none is cut short. -/
namespace Actors

namespace Notifier

variable {n : Notifier}

def Frugal (n : Notifier) : Prop := n.waiting ≠ [] → n.permit = false

theorem Frugal.notify (frugal : n.Frugal) : n.notify.Frugal := by
  unfold Notifier.notify
  split
  · next none => exact fun waiting => absurd none waiting
  · next slept => exact fun _ => frugal (by simp [slept])

theorem lasting_frugal : Lasting Frugal where
  empty waiting := absurd rfl waiting
  notify _ frugal := frugal.notify
  suspend _ _ _ _ := rfl
  consume _ frugal _ := frugal
  cancel n frugal ticket := by
    unfold Notifier.cancel
    split
    · exact Frugal.notify (n := n.consume ticket) frugal
    · intro waiting
      refine frugal fun none => waiting ?_
      simp [none]

def Awaits (n : Notifier) (ticket : Option Nat) : Prop := ∀ t, ticket = some t → n.holds t = true

/-- A wait that holds no notification is asleep, and then no permit is left over. -/
theorem Frugal.spent (frugal : n.Frugal) {ticket : Nat} (held : n.holds ticket = true)
    (silent : n.isNotified ticket = false) : n.permit = false := by
  refine frugal fun none => ?_
  have told : n.isNotified ticket = true := by
    rwa [holds, outstanding, none, List.append_nil] at held
  cases told.symm.trans silent

end Notifier

namespace Core

variable {α : Type} {b : Bell} {look : Look α} {sleeper : Option Identity} {c : Core}

/-- The loop of a wait, through all the rounds that it takes, and how often it looks on the way; each
look asks for the exit once. If there is nothing to see, it takes the permit and begins anew, or is
suspended. -/
inductive Loops (b : Bell) (look : Look α) (sleeper : Option Identity) :
    Core → Nat → Poll α × Core → Prop
  | settled {c core : Core} {value : α} (seen : look c = some (value, core)) :
      Loops b look sleeper c 1 (.ready value, core)
  | suspended {c : Core} {ticket : Nat} {waits : Notifier} (nothing : look c = none)
      (entered : (c.bell b).enter sleeper = (some ticket, waits)) :
      Loops b look sleeper c 1 (.pending ticket, c.setBell b waits)
  | again {c : Core} {waits : Notifier} {looks : Nat} {result : Poll α × Core}
      (nothing : look c = none) (entered : (c.bell b).enter sleeper = (none, waits))
      (rest : Loops b look sleeper (c.setBell b waits) looks result) :
      Loops b look sleeper c (looks + 1) result

inductive Received :
    Poll (Except Interrupt Unit) × Core → Poll (Except Interrupt Term) × Core → Prop
  | taken {core : Core} {message : Term} {mailbox : Mailbox}
      (popped : core.mailbox.pop? = some (message, mailbox)) :
      Received (.ready (.ok ()), core) (.ready (.ok message), { core with mailbox })
  | failed {core : Core} {interrupt : Interrupt} :
      Received (.ready (.error interrupt), core) (.ready (.error interrupt), core)
  | suspended {core : Core} {ticket : Nat} :
      Received (.pending ticket, core) (.pending ticket, core)

/-- The loop of a wait for a message. It waits for the mailbox and takes the first message; if there
is none after all, it begins anew. -/
inductive Receives (sleeper : Option Identity) :
    Core → Nat → Poll (Except Interrupt Term) × Core → Prop
  | ended {c : Core} {looks : Nat} {waited : Poll (Except Interrupt Unit) × Core}
      {result : Poll (Except Interrupt Term) × Core}
      (loops : Loops .mail lookMail sleeper c looks waited) (received : Received waited result) :
      Receives sleeper c looks result
  | missed {c core : Core} {looks more : Nat} {result : Poll (Except Interrupt Term) × Core}
      (loops : Loops .mail lookMail sleeper c looks (.ready (.ok ()), core))
      (popped : core.mailbox.pop? = none) (rest : Receives sleeper core more result) :
      Receives sleeper c (looks + more) result

inductive Enters (b : Bell) (loop : Core → Nat → Poll α × Core → Prop) (c : Core) :
    Option Nat → Nat → Poll α × Core → Prop
  | begun {looks : Nat} {result : Poll α × Core} (loops : loop c looks result) :
      Enters b loop c none looks result
  | resumed {ticket looks : Nat} {result : Poll α × Core}
      (told : (c.bell b).isNotified ticket = true)
      (loops : loop (c.woken b (some ticket)) looks result) :
      Enters b loop c (some ticket) looks result
  | asleep {ticket : Nat} (silent : (c.bell b).isNotified ticket = false) :
      Enters b loop c (some ticket) 0 (.pending ticket, c)

/-- The loop of a wait has one result, after a definite number of looks. -/
theorem Loops.unique {looks more : Nat} {result other : Poll α × Core}
    (first : Loops b look sleeper c looks result) (second : Loops b look sleeper c more other) :
    looks = more ∧ result = other := by
  -- the look and the notifier decide each step, so the second run takes the same ones as the first
  induction first generalizing more with
  | settled seen =>
    cases second with
    | settled seen' =>
      cases seen.symm.trans seen'
      exact ⟨rfl, rfl⟩
    | suspended nothing entered => cases seen.symm.trans nothing
    | again nothing entered rest => cases seen.symm.trans nothing
  | suspended nothing entered =>
    cases second with
    | settled seen => cases seen.symm.trans nothing
    | suspended nothing' entered' =>
      cases entered.symm.trans entered'
      exact ⟨rfl, rfl⟩
    | again nothing' entered' rest => cases entered.symm.trans entered'
  | again nothing entered rest ih =>
    cases second with
    | settled seen => cases seen.symm.trans nothing
    | suspended nothing' entered' => cases entered.symm.trans entered'
    | again nothing' entered' rest' =>
      cases entered.symm.trans entered'
      obtain ⟨rfl, rfl⟩ := ih rest'
      exact ⟨rfl, rfl⟩

theorem Received.unique {waited : Poll (Except Interrupt Unit) × Core}
    {result other : Poll (Except Interrupt Term) × Core} (first : Received waited result)
    (second : Received waited other) : result = other := by
  cases first with
  | taken popped =>
    cases second with
    | taken popped' =>
      cases popped.symm.trans popped'
      rfl
  | failed =>
    cases second
    rfl
  | suspended =>
    cases second
    rfl

/-- A wait for the mailbox that ends well has seen a message. -/
theorem lookMail_queued {core : Core} (seen : c.lookMail = some (.ok (), core)) :
    ∃ message mailbox, core.mailbox.pop? = some (message, mailbox) := by
  obtain rfl := lookMail_eq seen
  unfold lookMail at seen
  cases checked : core.ensureNoExit with
  | error interrupt => simp [checked] at seen
  | ok =>
    cases queue : core.mailbox.queue with
    | nil => simp [checked, Mailbox.isEmpty, queue] at seen
    | cons message rest => exact ⟨message, _, by rw [Mailbox.pop?, queue]⟩

theorem Loops.queued {looks : Nat} {core : Core}
    (loops : Loops .mail lookMail sleeper c looks (.ready (.ok ()), core)) :
    ∃ message mailbox, core.mailbox.pop? = some (message, mailbox) := by
  generalize same : (Poll.ready (Except.ok ()), core) = waited at loops
  induction loops with
  | settled seen =>
    cases same
    exact lookMail_queued seen
  | suspended nothing entered => cases same
  | again nothing entered rest ih => exact ih same

/-- The message that was seen is there to take, so the wait is not begun anew. -/
theorem Receives.loops {looks : Nat} {result : Poll (Except Interrupt Term) × Core}
    (receives : Receives sleeper c looks result) :
    ∃ waited, Loops .mail lookMail sleeper c looks waited ∧ Received waited result := by
  cases receives with
  | ended loops received => exact ⟨_, loops, received⟩
  | missed loops popped rest =>
    obtain ⟨message, mailbox, queued⟩ := loops.queued
    cases queued.symm.trans popped

theorem Receives.unique {looks more : Nat} {result other : Poll (Except Interrupt Term) × Core}
    (first : Receives sleeper c looks result) (second : Receives sleeper c more other) :
    looks = more ∧ result = other := by
  obtain ⟨waited, loops, received⟩ := first.loops
  obtain ⟨waited', loops', received'⟩ := second.loops
  obtain ⟨rfl, rfl⟩ := loops.unique loops'
  exact ⟨rfl, received.unique received'⟩

theorem Enters.unique {loop : Core → Nat → Poll α × Core → Prop}
    (unique : ∀ ⦃core looks more result other⦄, loop core looks result → loop core more other →
      looks = more ∧ result = other)
    {ticket : Option Nat} {looks more : Nat} {result other : Poll α × Core}
    (first : Enters b loop c ticket looks result) (second : Enters b loop c ticket more other) :
    looks = more ∧ result = other := by
  cases first with
  | begun loops =>
    cases second with
    | begun loops' => exact unique loops loops'
  | resumed told loops =>
    cases second with
    | resumed told' loops' => exact unique loops loops'
    | asleep silent => cases told.symm.trans silent
  | asleep silent =>
    cases second with
    | resumed told loops => cases told.symm.trans silent
    | asleep silent' => exact ⟨rfl, rfl⟩

/-- A look in vain without a permit is the last. -/
theorem loops_spent (unseen : look c = none) (spent : (c.bell b).permit = false)
    (sleeper : Option Identity) :
    Loops b look sleeper c 1 (.pending (c.bell b).entered, c.asleep b sleeper) := by
  have same : ({ c.bell b with permit := false } : Notifier) = c.bell b := by rw [← spent]
  rw [asleep, same]
  exact .suspended unseen (by simp [Notifier.enter, spent])

/-- The rounds come to what the loop comes to, which looks twice at most. -/
theorem loops_rounds {idle : Core → Prop} (watches : Watches look idle) (b : Bell)
    (sleeper : Option Identity) (c : Core) :
    ∃ looks ≤ 2, Loops b look sleeper c looks (rounds b look sleeper 2 c) := by
  cases looked : look c with
  | some found =>
    rw [rounds_seen looked]
    exact ⟨1, by omega, .settled looked⟩
  | none =>
    have nothing := (watches.none_iff c).mp looked
    rw [rounds_idle watches sleeper nothing]
    cases permit : (c.bell b).permit with
    | false => exact ⟨1, by omega, loops_spent looked permit sleeper⟩
    | true =>
      -- the permit is used up, and the next look finds nothing either
      let spent : Notifier := { c.bell b with permit := false }
      have taken : (c.bell b).enter sleeper = (none, spent) := by
        simp [Notifier.enter, permit, spent]
      have unseen : look (c.setBell b spent) = none :=
        (watches.none_iff _).mpr ((watches.blind c b spent).mpr nothing)
      have last := loops_spent (b := b) unseen (by rw [bell_setBell]) sleeper
      have entered : ((c.setBell b spent).bell b).entered = (c.bell b).entered := by
        rw [bell_setBell]
      have same : (c.setBell b spent).asleep b sleeper = c.asleep b sleeper := by
        cases b <;> rfl
      rw [entered, same] at last
      exact ⟨2, le_rfl, .again looked taken last⟩

/-- The rounds of a wait for a message are those of a wait for the mailbox, with the message taken. -/
theorem received_rounds (sleeper : Option Identity) (c : Core) :
    Received (rounds .mail lookMail sleeper 2 c) (rounds .mail lookMessage sleeper 2 c) := by
  cases looked : c.lookMail with
  | none =>
    have nothing := (watches_lookMail.none_iff c).mp looked
    rw [rounds_idle watches_lookMail sleeper nothing, rounds_idle watches_lookMessage sleeper nothing]
    exact .suspended
  | some found =>
    obtain ⟨value, core⟩ := found
    rw [rounds_seen looked]
    cases value with
    | error interrupt =>
      have seen : c.lookMessage = some (.error interrupt, core) := by rw [lookMessage, looked]
      rw [rounds_seen seen]
      exact .failed
    | ok =>
      obtain ⟨message, mailbox, popped⟩ := lookMail_queued looked
      have seen : c.lookMessage = some (.ok message, { core with mailbox }) := by
        simp only [lookMessage, looked, popped, Option.map_some]
      rw [rounds_seen seen]
      exact .taken popped

theorem receives_rounds (sleeper : Option Identity) (c : Core) :
    ∃ looks ≤ 2, Receives sleeper c looks (rounds .mail lookMessage sleeper 2 c) := by
  obtain ⟨looks, few, loops⟩ := loops_rounds watches_lookMail .mail sleeper c
  exact ⟨looks, few, .ended loops (received_rounds sleeper c)⟩

/-- A poll of two rounds is the whole loop, with two looks at most. -/
theorem enters_poll {loop : Core → Nat → Poll α × Core → Prop}
    (ends : ∀ core, ∃ looks ≤ 2, loop core looks (rounds b look sleeper 2 core)) (c : Core)
    (ticket : Option Nat) :
    ∃ looks ≤ 2, Enters b loop c ticket looks (poll b look sleeper ticket c) := by
  cases ticket with
  | none =>
    obtain ⟨looks, few, loops⟩ := ends c
    exact ⟨looks, few, .begun loops⟩
  | some t =>
    cases told : (c.bell b).isNotified t with
    | false =>
      rw [poll_silent told]
      exact ⟨0, by omega, .asleep told⟩
    | true =>
      rw [poll_told told]
      obtain ⟨looks, few, loops⟩ := ends (c.woken b (some t))
      exact ⟨looks, few, .resumed told loops⟩

theorem Polled.spent {idle : Core → Prop} {ticket : Option Nat} {result : Poll α × Core}
    (polled : Polled b look idle sleeper c ticket result) (frugal : (c.bell b).Frugal)
    (awaits : (c.bell b).Awaits ticket) {t : Nat} (pending : result.1 = .pending t) :
    (result.2.bell b).permit = false := by
  cases polled with
  | unnotified silent => exact frugal.spent (awaits _ rfl) silent
  | settled busy told looked => cases pending
  | suspended nothing told =>
    rw [asleep, bell_setBell]
    rfl

/-- A poll comes to a result, and to no other one, after two looks at most; if the wait is suspended
then, it has left no permit. -/
structure Rests (b : Bell) (polls : Nat → Poll α × Core → Prop) (result : Poll α × Core) : Prop where
  ends : ∃ looks ≤ 2, polls looks result
  only : ∀ looks other, polls looks other → looks ≤ 2 ∧ other = result
  spent : ∀ ticket, result.1 = .pending ticket → (result.2.bell b).permit = false

theorem rests_poll {idle : Core → Prop} (watches : Watches look idle)
    {loop : Core → Nat → Poll α × Core → Prop}
    (ends : ∀ core, ∃ looks ≤ 2, loop core looks (rounds b look sleeper 2 core))
    (unique : ∀ ⦃core looks more result other⦄, loop core looks result → loop core more other →
      looks = more ∧ result = other)
    (frugal : (c.bell b).Frugal) {ticket : Option Nat} (awaits : (c.bell b).Awaits ticket) :
    Rests b (Enters b loop c ticket) (poll b look sleeper ticket c) := by
  obtain ⟨looks, few, ended⟩ := enters_poll ends c ticket
  refine ⟨⟨looks, few, ended⟩, fun more other enters => ?_, fun t pending => ?_⟩
  · obtain ⟨rfl, rfl⟩ := ended.unique unique enters
    exact ⟨few, rfl⟩
  · exact (poll_polled watches sleeper ticket c).spent frugal awaits pending

theorem rests_loops {idle : Core → Prop} (watches : Watches look idle) (frugal : (c.bell b).Frugal)
    (sleeper : Option Identity) {ticket : Option Nat} (awaits : (c.bell b).Awaits ticket) :
    Rests b (Enters b (Loops b look sleeper) c ticket) (poll b look sleeper ticket c) :=
  rests_poll watches (loops_rounds watches b sleeper) (fun _ _ _ _ _ => Loops.unique) frugal awaits

theorem rests_receives (frugal : (c.bell .mail).Frugal) (sleeper : Option Identity)
    {ticket : Option Nat} (awaits : (c.bell .mail).Awaits ticket) :
    Rests .mail (Enters .mail (Receives sleeper) c ticket) (c.pollMessage sleeper ticket) :=
  rests_poll watches_lookMessage (receives_rounds sleeper) (fun _ _ _ _ _ => Receives.unique) frugal
    awaits

/-- A wait for a message takes one as soon as its wait for the mailbox ends well. -/
theorem Loops.taken {looks : Nat} {core : Core}
    (loops : Loops .mail lookMail sleeper c looks (.ready (.ok ()), core)) :
    ∃ message mailbox, core.mailbox.pop? = some (message, mailbox) ∧
      rounds .mail lookMessage sleeper 2 c = (.ready (.ok message), { core with mailbox }) := by
  obtain ⟨looks', few, loops'⟩ := loops_rounds watches_lookMail .mail sleeper c
  obtain ⟨-, same⟩ := loops.unique loops'
  obtain ⟨message, mailbox, popped⟩ := loops.queued
  have received := received_rounds sleeper c
  rw [← same] at received
  exact ⟨message, mailbox, popped, received.unique (.taken popped)⟩

theorem Enters.taken {ticket : Option Nat} {looks : Nat} {core : Core}
    (enters : Enters .mail (Loops .mail lookMail sleeper) c ticket looks (.ready (.ok ()), core)) :
    ∃ message mailbox, core.mailbox.pop? = some (message, mailbox) ∧
      c.pollMessage sleeper ticket = (.ready (.ok message), { core with mailbox }) := by
  cases enters with
  | begun loops => exact loops.taken
  | resumed told loops =>
    rw [pollMessage, poll_told told]
    exact loops.taken

end Core

namespace World

variable {v : World} {id : Identity} {a : Actor} {trace : List Moment}

/-- Waits never spin. In every state that an actor comes to, a poll of a wait, be it a new wait or a
suspended one, goes through its loop to one end, ready or suspended, and asks for the exit twice at
most on the way, whatever permit and whatever notifications are left over. If the wait is suspended
then, no permit is left. A wait for a message, which may also discard it, finds one to take as soon as
its wait for the mailbox ends well. -/
theorem waits_never_spin (course : Course {} trace v) (found : v.find? id = some a)
    (sleeper : Option Identity) (ticket : Option Nat) :
    (a.core.mailbox.waits.Awaits ticket →
      Core.Rests .mail (Core.Enters .mail (Core.Loops .mail Core.lookMail sleeper) a.core ticket)
        (a.core.pollMail sleeper ticket) ∧
      Core.Rests .mail (Core.Enters .mail (Core.Receives sleeper) a.core ticket)
        (a.core.pollMessage sleeper ticket)) ∧
    (a.core.exitWaits.Awaits ticket →
      Core.Rests .exit (Core.Enters .exit (Core.Loops .exit Core.lookExit sleeper) a.core ticket)
        (a.core.pollExit sleeper ticket)) ∧
    ∀ looks core, Core.Enters .mail (Core.Loops .mail Core.lookMail sleeper) a.core ticket looks
        (.ready (.ok ()), core) →
      ∃ message mailbox, core.mailbox.pop? = some (message, mailbox) ∧
        a.core.pollMessage sleeper ticket = (.ready (.ok message), { core with mailbox }) := by
  have frugal := course.bells Notifier.lasting_frugal found
  refine ⟨fun awaits => ⟨?_, ?_⟩, fun awaits => ?_, fun looks core => Core.Enters.taken⟩
  · exact Core.rests_loops Core.watches_lookMail (frugal .mail) sleeper awaits
  · exact Core.rests_receives (frugal .mail) sleeper awaits
  · exact Core.rests_loops Core.watches_lookExit (frugal .exit) sleeper awaits

def snatched : List Action :=
  let self : Identity := .ofSerial 1 .process
  [.allocate .process (.process .empty), .operate self .start,
    .operate self (.poll .message none none), .operate self (.send (.str "first")),
    .operate self (.send (.str "second")), .operate self (.poll .message none none),
    .operate self (.poll .message none none)]

theorem snatched_looks_twice : ∃ a core, (run {} snatched).find? (.ofSerial 1 .process) = some a ∧
    a.core.mailbox.queue = [] ∧ a.core.mailbox.waits.isNotified 0 = true ∧
    a.core.mailbox.waits.permit = true ∧
    Core.Enters .mail (Core.Receives none) a.core (some 0) 2 (.pending 1, core) ∧
    a.core.pollMessage none (some 0) = (.pending 1, core) ∧ core.mailbox.waits.permit = false := by
  obtain ⟨a, core, found, queue, told, permit, awaits, looks⟩ :
      ∃ a core, (run {} snatched).find? (.ofSerial 1 .process) = some a ∧
        a.core.mailbox.queue = [] ∧ a.core.mailbox.waits.isNotified 0 = true ∧
        a.core.mailbox.waits.permit = true ∧ a.core.mailbox.waits.Awaits (some 0) ∧
        Core.Enters .mail (Core.Receives none) a.core (some 0) 2 (.pending 1, core) :=
    ⟨_, _, rfl, rfl, rfl, rfl, fun t same => (by cases same; rfl),
      .resumed rfl (.ended (.again rfl rfl (.suspended rfl rfl)) .suspended)⟩
  obtain ⟨waits, -⟩ := waits_never_spin (course_run {} snatched) found none (some 0)
  obtain ⟨-, rests⟩ := waits awaits
  obtain ⟨-, polled⟩ := rests.only 2 _ looks
  rw [← polled] at rests
  exact ⟨a, core, found, queue, told, permit, looks, polled.symm, rests.spent 1 rfl⟩

end World

end Actors
