import Actors.Node.Step
import Actors.Proofs.Delivery
import Actors.Proofs.Heed
import Actors.Proofs.Notice

/-! Queueing. Messages are received in the order in which they came. As long as an actor is not done,
those that its waits have taken, followed by those in its queue, are those that were delivered to it;
so no message is lost or received twice, whichever waits are given up or fail. -/
namespace Actors

def Poll.taken : Poll (Except Interrupt Term) → List Term
  | ready (.ok message) => [message]
  | _ => []

namespace Core

variable {c core : Core}

theorem lookMail_eq {value : Except Interrupt Unit} (looked : c.lookMail = some (value, core)) :
    core = c := by
  unfold lookMail at looked
  split at looked
  · cases looked
    rfl
  · split at looked <;> cases looked
    rfl

/-- A look that settles a wait takes the message that it answers. -/
theorem taken_lookMessage {value : Except Interrupt Term}
    (looked : c.lookMessage = some (value, core)) :
    (Poll.ready value).taken ++ core.mailbox.queue = c.mailbox.queue := by
  unfold lookMessage at looked
  split at looked
  · cases looked
  · next mail =>
    cases looked
    obtain rfl := lookMail_eq mail
    rfl
  · next inner mail =>
    obtain rfl := lookMail_eq mail
    obtain ⟨⟨message, mailbox⟩, popped, same⟩ := Option.map_eq_some_iff.mp looked
    cases same
    unfold Mailbox.pop? at popped
    split at popped
    · cases popped
    · next queue =>
      cases popped
      exact queue.symm

theorem Polled.taken_queue {sleeper : Option Identity} {ticket : Option Nat}
    {result : Poll (Except Interrupt Term) × Core}
    (polled : Polled .mail lookMessage Idle sleeper c ticket result) :
    result.1.taken ++ result.2.mailbox.queue = c.mailbox.queue := by
  cases polled with
  | unnotified silent => rfl
  | settled busy told looked =>
    rw [← c.queue_woken .mail ticket]
    exact taken_lookMessage looked
  | suspended nothing told =>
    simp only [Poll.taken, asleep, queue_setBell, queue_woken, List.nil_append]

theorem taken_pollMessage (c : Core) (sleeper : Option Identity) (ticket : Option Nat) :
    (c.pollMessage sleeper ticket).1.taken ++ (c.polled .message sleeper ticket).mailbox.queue
      = c.mailbox.queue :=
  (poll_polled watches_lookMessage sleeper ticket c).taken_queue

theorem Polled.queue {sleeper : Option Identity} {ticket : Option Nat}
    {result : Poll (Except Interrupt Unit) × Core}
    (polled : Polled .mail lookMail Idle sleeper c ticket result) :
    result.2.mailbox.queue = c.mailbox.queue := by
  cases polled with
  | unnotified silent => rfl
  | settled busy told looked => rw [lookMail_eq looked, queue_woken]
  | suspended nothing told => simp only [asleep, queue_setBell, queue_woken]

theorem queue_pollMail (c : Core) (sleeper : Option Identity) (ticket : Option Nat) :
    (c.polled .mail sleeper ticket).mailbox.queue = c.mailbox.queue :=
  (poll_polled watches_lookMail sleeper ticket c).queue

theorem queue_cancel (c : Core) (b : Bell) (ticket : Nat) :
    (c.cancel b ticket).mailbox.queue = c.mailbox.queue :=
  queue_setBell ..

/-- Only a wait for a message that ends with one takes one. -/
theorem queue_untaken (c : Core) (errand : Errand) (sleeper : Option Identity)
    (ticket : Option Nat)
    (receives : errand = .message → (c.pollMessage sleeper ticket).1.taken = []) :
    (c.polled errand sleeper ticket).mailbox.queue = c.mailbox.queue := by
  cases errand with
  | mail => exact c.queue_pollMail sleeper ticket
  | message =>
    have taken := c.taken_pollMessage sleeper ticket
    rwa [receives rfl, List.nil_append] at taken
  | timed expired =>
    rcases c.polled_timed expired sleeper ticket with same | ⟨t, -, given⟩
    · rw [same, queue_pollMail]
    · rw [given, queue_cancel, queue_pollMail]
  | exit =>
    exact congrArg Mailbox.queue (poll_polled watches_lookExit sleeper ticket c).mailbox

theorem life_woken (c : Core) (b : Bell) (ticket : Option Nat) :
    (c.woken b ticket).life = c.life := by
  cases ticket with
  | none => rfl
  | some t => exact life_setBell ..

theorem Polled.untaken {sleeper : Option Identity} {ticket : Option Nat} {reason : Exit}
    {result : Poll (Except Interrupt Term) × Core}
    (polled : Polled .mail lookMessage Idle sleeper c ticket result)
    (surfaced : c.life.surfaced? = some reason) : result.1.taken = [] := by
  have seen : (c.woken .mail ticket).life.surfaced? = some reason := by rw [life_woken, surfaced]
  cases polled with
  | unnotified silent => rfl
  | settled busy told looked =>
    simp only [lookMessage, lookMail, ensureNoExit, seen] at looked
    cases looked
    rfl
  | suspended nothing told => rfl

/-- Once the exit is recorded, nothing is received any more. -/
theorem taken_surfaced {reason : Exit} (surfaced : c.life.surfaced? = some reason)
    (sleeper : Option Identity) (ticket : Option Nat) :
    (c.pollMessage sleeper ticket).1.taken = [] :=
  (poll_polled watches_lookMessage sleeper ticket c).untaken surfaced

theorem peek_ok {answer : Option Term} (peeked : c.peek = .ok answer) :
    c.life.surfaced? = none ∧ answer = c.mailbox.queue.head? := by
  unfold peek ensureNoExit at peeked
  cases surfaced : c.life.surfaced? with
  | none =>
    simp only [surfaced, Except.map] at peeked
    cases peeked
    exact ⟨rfl, rfl⟩
  | some reason =>
    simp only [surfaced, Except.map] at peeked
    cases peeked

end Core

namespace World

variable {w v u : World} {id : Identity} {a b : Actor} {trace later : List Moment} {m : Moment}

def taken (id : Identity) (m : Moment) : List Term :=
  match m.1.find? id, m.2 with
  | some a, .operate other (.poll .message sleeper ticket) =>
    if other = id then (a.core.pollMessage sleeper ticket).1.taken else []
  | _, _ => []

theorem delivered_missing (missing : m.1.find? id = none) : delivered id m = [] := by
  simp [delivered, isAllocated, missing]

theorem taken_missing (missing : m.1.find? id = none) : taken id m = [] := by
  simp [taken, missing]

theorem taken_quiet {action : Action}
    (quiet : ∀ sleeper ticket, action ≠ .operate id (.poll .message sleeper ticket)) :
    taken id (w, action) = [] := by
  unfold taken
  split
  · next other sleeper ticket found same =>
    refine if_neg ?_
    rintro rfl
    exact quiet sleeper ticket same
  · rfl

theorem delivered_quiet {action : Action}
    (quiet : ∀ i op, action = .operate i op → op.isDealing = false) :
    delivered id (w, action) = [] := by
  have posted : action.posted id = [] := by
    cases action with
    | operate i op =>
      have idle := quiet i op rfl
      cases op with
      | send message => cases idle
      | _ => rfl
    | _ => rfl
  unfold delivered
  split
  · simp [posted, journal_act quiet]
  · rfl

/-- The queue of a living actor grows by what an operation delivers to it, behind what was there. -/
theorem queue_deal (keyed : w.Keyed) (found : w.find? id = some a) {i : Identity} {op : Operation}
    (dealing : op.isDealing = true) (present : (w.operate i op).find? id = some b)
    (alive : b.core.isDone = false) :
    b.core.mailbox.queue = a.core.mailbox.queue ++ delivered id (w, .operate i op) := by
  have brings : Brings id _ [] w (w.operate i op) := brings_operate keyed i dealing
  obtain ⟨new, records, gone | grown⟩ := brings
  · cases gone.symm.trans (inbox?_alive present alive)
  · have told : delivered id (w, .operate i op)
        = (Action.operate i op).posted id ++ new.flatMap (Record.mail w.greets id) := by
      simp [delivered, isAllocated, found, act, records]
    rw [inbox?_alive present alive] at grown
    cases done : a.core.isDone with
    | true => simp [inbox?, found, done, Option.filter] at grown
    | false => simpa [inbox?_alive found done, told] using grown

/-- What an action takes from the queue of an actor is at the front of it, and what it delivers is put
behind. -/
theorem queue_act (rooted : w.Rooted) (found : w.find? id = some a) {action : Action}
    (present : (w.act action).find? id = some b) (alive : b.core.isDone = false) :
    taken id (w, action) ++ b.core.mailbox.queue
      = a.core.mailbox.queue ++ delivered id (w, action) := by
  have same (core : b.core = a.core)
      (quiet : ∀ i op, action = .operate i op → op.isDealing = false)
      (idle : ∀ sleeper ticket, action ≠ .operate id (.poll .message sleeper ticket)) :
      taken id (w, action) ++ b.core.mailbox.queue
        = a.core.mailbox.queue ++ delivered id (w, action) := by
    rw [taken_quiet idle, delivered_quiet quiet, core, List.nil_append, List.append_nil]
  have still (other : ∀ i op, action ≠ .operate i op) :
      taken id (w, action) ++ b.core.mailbox.queue
        = a.core.mailbox.queue ++ delivered id (w, action) := by
    obtain ⟨-, gone⟩ | kept := still_act rooted found other
    · cases gone.symm.trans present
    · cases present.symm.trans kept
      exact same rfl (fun i op equal => absurd equal (other i op)) fun _ _ => other _ _
  cases action with
  | operate i op =>
    have deal (dealing : op.isDealing = true) :
        taken id (w, .operate i op) ++ b.core.mailbox.queue
          = a.core.mailbox.queue ++ delivered id (w, .operate i op) := by
      rw [queue_deal rooted.keyed found dealing present alive, taken_quiet, List.nil_append]
      rintro sleeper ticket equal
      cases equal
      cases dealing
    cases op with
    | poll errand sleeper ticket =>
      have changed := find?_changeCore rooted.keyed found i (·.polled errand sleeper ticket)
      cases present.symm.trans changed
      rw [delivered_quiet (fun i op equal => by cases equal; rfl), List.append_nil]
      by_cases own : i = id
      · subst own
        rw [if_pos rfl]
        cases errand with
        | message =>
          have taken := a.core.taken_pollMessage sleeper ticket
          simpa [World.taken, found] using taken
        | _ =>
          rw [taken_quiet (fun _ _ equal => by cases equal), List.nil_append]
          exact a.core.queue_untaken _ sleeper ticket fun equal => by cases equal
      · rw [if_neg own, taken_quiet, List.nil_append]
        rintro sleeper ticket equal
        cases equal
        exact own rfl
    | cancel bell ticket =>
      have changed := find?_changeCore rooted.keyed found i (·.cancel bell ticket)
      cases present.symm.trans changed
      rw [delivered_quiet (fun i op equal => by cases equal; rfl), List.append_nil,
        taken_quiet (fun _ _ equal => by cases equal), List.nil_append]
      split
      · exact a.core.queue_cancel bell ticket
      · rfl
    | setFlags flags =>
      exact same (stays_setFlags found present).2 (fun i op equal => by cases equal; rfl)
        fun _ _ equal => by cases equal
    | _ => exact deal rfl
  | _ => exact still fun i op equal => by cases equal

/-- What comes to an actor and what it takes is nothing before its identity is given out. -/
theorem Course.flatMap_eq_nil {f : Moment → List Term} (course : Course {} trace v)
    (unseen : ∀ m, m.1.find? id = none → f m = []) (ungiven : ¬v.Gave id) :
    trace.flatMap f = [] := by
  refine List.flatMap_eq_nil_iff.mpr fun m member => ?_
  cases found : m.1.find? id with
  | none => exact unseen m found
  | some a =>
    obtain ⟨before, after, -, first, second⟩ := course.cut member
    have rooted := first.rooted rooted_empty
    exact absurd (second.gave (rooted.act m.2) ((rooted.given found).act rooted.keyed m.2)) ungiven

/-- What was taken from the queue of an actor, and then the queue, are what was delivered to it. -/
theorem Course.queued (course : Course {} trace v) (found : v.find? id = some a)
    (alive : a.core.isDone = false) :
    trace.flatMap (taken id) ++ a.core.mailbox.queue = trace.flatMap (delivered id) := by
  induction course generalizing a with
  | refl => cases found
  | @act trace u earlier action ih =>
    have rooted := earlier.rooted rooted_empty
    rw [List.flatMap_append, List.flatMap_append, List.flatMap_singleton, List.flatMap_singleton]
    cases known : u.find? id with
    | none =>
      obtain gone | ⟨room, -, tag, role, same, allocated⟩ :=
        World.act_missing rooted.keyed known action
      · cases gone.symm.trans found
      · have ungiven : ¬u.Gave id := fun gave => gave.different room tag same
        cases allocated.symm.trans found
        rw [earlier.flatMap_eq_nil (fun _ => taken_missing) ungiven, taken_missing known,
          earlier.flatMap_eq_nil (fun _ => delivered_missing) ungiven, delivered_missing known]
        rfl
    | some c =>
      have living : c.core.isDone = false := by
        by_contra past
        have done := Bool.eq_true_of_not_eq_false past
        cases alive.symm.trans ((Course.refl.act action).past rooted known done found)
      calc trace.flatMap (taken id) ++ taken id (u, action) ++ a.core.mailbox.queue
          = trace.flatMap (taken id) ++ (c.core.mailbox.queue ++ delivered id (u, action)) := by
            rw [List.append_assoc, queue_act rooted known found alive]
        _ = trace.flatMap (delivered id) ++ delivered id (u, action) := by
            rw [← List.append_assoc, ih known living]
  | drift earlier calls journal ih => exact ih found alive

theorem taken_prefix (found : w.find? id = some a) (action : Action) :
    taken id (w, action) <+: a.core.mailbox.queue := by
  unfold taken
  split
  · next b other sleeper ticket present same =>
    cases found.symm.trans present
    split
    · exact ⟨_, a.core.taken_pollMessage sleeper ticket⟩
    · exact List.nil_prefix
  · exact List.nil_prefix

theorem taken_none {reason : Exit} (found : w.find? id = some a)
    (surfaced : a.core.life.surfaced? = some reason) (action : Action) :
    taken id (w, action) = [] := by
  unfold taken
  split
  · next b other sleeper ticket present same =>
    cases found.symm.trans present
    split
    · exact Core.taken_surfaced surfaced sleeper ticket
    · rfl
  · rfl

/-- The first message that is taken from now on is the one at the front, which stays there until it is
taken or the exit is recorded. -/
theorem Course.front {message : Term} (course : Course v later u) (rooted : v.Rooted)
    (found : v.find? id = some a) (queue : a.core.mailbox.queue.head? = some message) :
    (later.flatMap (taken id)).head? = some message ∨
      later.flatMap (taken id) = [] ∧ ∀ b, u.find? id = some b →
        b.core.life.surfaced? ≠ none ∨ b.core.mailbox.queue.head? = some message := by
  induction course with
  | refl =>
    refine .inr ⟨rfl, fun b present => .inr ?_⟩
    cases found.symm.trans present
    exact queue
  | @act later u earlier action ih =>
    have rooted' := earlier.rooted rooted
    rw [List.flatMap_append, List.flatMap_singleton]
    obtain taken | ⟨none, ahead⟩ := ih
    · exact .inl (by simp [taken])
    · rw [none, List.nil_append]
      cases known : u.find? id with
      | none =>
        refine .inr ⟨taken_missing known, fun b present => ?_⟩
        have gave := earlier.gave rooted (rooted.given found)
        cases (gave.act_missing rooted'.keyed known action).symm.trans present
      | some c =>
        rcases ahead c known with surfaced | front
        · obtain ⟨reason, seen⟩ := Option.ne_none_iff_exists'.mp surfaced
          refine .inr ⟨taken_none known seen action, fun b present => .inl ?_⟩
          obtain ⟨-, gone⟩ | ⟨d, present', -, turn⟩ := turn_act rooted' known action
          · cases gone.symm.trans present
          · cases present'.symm.trans present
            simp [turn.surfaced seen]
        · obtain ⟨rest, split⟩ := taken_prefix known action
          cases first : taken id (u, action) with
          | cons received more =>
            rw [← split, first] at front
            exact .inl (by simpa using front)
          | nil =>
            refine .inr ⟨rfl, fun b present => ?_⟩
            cases alive : b.core.isDone with
            | true =>
              obtain ⟨final, life⟩ := Core.isDone_iff.mp alive
              exact .inl (by simp [life, Life.surfaced?])
            | false =>
              have queue := queue_act rooted' known present alive
              rw [first, List.nil_append] at queue
              exact .inr (by simp [queue, front])
  | drift earlier calls journal ih => exact ih

/-- The messages that the waits of an actor have taken, in the order in which they did, followed by its
queue, are those that were delivered to it, in the order in which they came, as long as it is not done.
No wait but one that ends with a message takes one, nor does giving up a wait, whether it was woken or
not. A look at the first message leaves it, and it is the next one that is taken. -/
theorem received_in_order (course : Course {} trace v) (found : v.find? id = some a)
    (alive : a.core.isDone = false) :
    trace.flatMap (taken id) ++ a.core.mailbox.queue = trace.flatMap (delivered id) ∧
    (trace.flatMap (taken id)).length + a.core.mailbox.length
      = (trace.flatMap (delivered id)).length ∧
    (∀ errand sleeper ticket,
      (errand = .message → (a.core.pollMessage sleeper ticket).1.taken = []) →
        (a.core.polled errand sleeper ticket).mailbox.queue = a.core.mailbox.queue) ∧
    (∀ bell ticket, (a.core.cancel bell ticket).mailbox.queue = a.core.mailbox.queue) ∧
    (∀ n scope u, ∃ reply, Node.perform scope (.peek u) n = .ok reply n) ∧
    ∀ answer, a.core.peek = .ok answer → answer = a.core.mailbox.queue.head? ∧
      ∀ message, answer = some message → ∀ later u, Course v later u →
        ∀ next, (later.flatMap (taken id)).head? = some next → next = message := by
  have order := course.queued found alive
  refine ⟨order, ?_, a.core.queue_untaken, a.core.queue_cancel, fun n scope u => ?_,
    fun answer peeked => ?_⟩
  · rw [← order, List.length_append, Mailbox.length]
  · cases found : n.world.find? (scope.find u) with
    | none => exact ⟨.gone, Node.onActor_missing found⟩
    | some b => exact ⟨_, Node.onActor_found found⟩
  · obtain ⟨-, rfl⟩ := Core.peek_ok peeked
    refine ⟨rfl, fun message front later u after next first => ?_⟩
    obtain taken | ⟨none, -⟩ := after.front (course.rooted rooted_empty) found front
    · exact Option.some.inj (first.symm.trans taken)
    · simp [none] at first

def correspondence : List Action :=
  let self : Identity := .ofSerial 1 .process
  let other : Identity := .ofSerial 2 .process
  [.allocate .process (.process .trap), .operate self .start,
    .allocate .process (.plain .send), .operate other .start,
    .operate self (.poll .message none none), .operate self (.send (.str "ping")),
    .operate self (.cancel .mail 0), .operate self (.signal other .noproc),
    .operate other (.signal self .noproc), .operate self (.poll .message none none)]

theorem correspondence_in_order :
    let self : Identity := .ofSerial 1 .process
    let trace := moments {} correspondence
    ∃ v a, Course {} trace v ∧ v.find? self = some a ∧ a.core.isDone = false ∧
      trace.flatMap (taken self) = [.str "ping"] ∧
      [.str "ping"] ++ a.core.mailbox.queue = trace.flatMap (delivered self) ∧
      a.core.mailbox.queue = [.exitMessage (.ofSerial 2 .process) .noproc, .str "bye"] := by
  intro self trace
  obtain ⟨a, found, alive, queue⟩ : ∃ a, (run {} correspondence).find? self = some a ∧
    a.core.isDone = false ∧
    a.core.mailbox.queue = [.exitMessage (.ofSerial 2 .process) .noproc, .str "bye"] :=
    ⟨_, rfl, rfl, rfl⟩
  have first : trace.flatMap (taken self) = [.str "ping"] := rfl
  obtain ⟨order, -⟩ := received_in_order (course_run {} correspondence) found alive
  exact ⟨_, a, course_run {} _, found, alive, first, first ▸ order, queue⟩

end World

end Actors
