import Actors.Proofs.Queueing

/-! Sharing. Where the waits of an actor for a message all take the one that they end with, there is a
woken wait for every message in the queue whenever a wait sleeps, and no permit is stored. So whatever
is in the queue is taken once the woken waits are polled. -/
namespace Actors

def Action.lingers (id : Identity) : Action → Bool
  | operate other (.poll .mail _ _) | operate other (.poll (.timed _) _ _) => other == id
  | _ => false

namespace Notifier

variable {n : Notifier}

theorem length_notified_notify {wait : Wait} {rest : List Wait} (waiting : n.waiting = wait :: rest) :
    n.notify.notified.length = n.notified.length + 1 ∧ n.notify.permit = n.permit := by
  simp [notify, waiting]

theorem Sound.distinct_notified (sound : n.Sound) : (n.notified.map (·.ticket)).Nodup :=
  sound.distinct.sublist (List.Sublist.map _ (List.sublist_append_left ..))

theorem Sound.length_consume (sound : n.Sound) {ticket : Nat} (told : n.isNotified ticket = true) :
    (n.consume ticket).notified.length + 1 = n.notified.length := by
  have some : 0 < n.notified.length := by
    obtain ⟨wait, member, -⟩ := isNotified_iff.mp told
    exact List.length_pos_of_mem member
  have without : (n.consume ticket).notified.length = n.notified.length - 1 := by
    rw [Notifier.consume, length_without sound.distinct_notified,
      show n.notified.any _ = true from told, if_pos rfl]
  omega

theorem notified_isNotified {wait : Wait} (member : wait ∈ n.notified) :
    n.isNotified wait.ticket = true :=
  isNotified_iff.mpr ⟨wait, member, rfl⟩

/-- The suspended waits that hold a notification are those that were notified. -/
theorem Sound.count_notified (sound : n.Sound) :
    (n.outstanding.countP fun wait => n.isNotified wait.ticket) = n.notified.length := by
  rw [outstanding, List.countP_append,
    List.countP_eq_length.mpr fun wait member => notified_isNotified member,
    List.countP_eq_zero.mpr fun wait member => by simp [sound.notified_waiting member]]
  rfl

end Notifier

namespace Core

variable {c core : Core}

/-- While a wait for a message sleeps, others are woken for all the messages in the queue. -/
def Provided (c : Core) : Prop :=
  c.life.surfaced? = none → c.mailbox.waits.waiting ≠ [] →
    c.mailbox.queue.length ≤ c.mailbox.waits.notified.length ∧ c.mailbox.waits.permit = false

theorem provided_new (id : Identity) : Provided { id } := fun _ waiting => absurd rfl waiting

theorem Provided.congr (provided : c.Provided) (mailbox : core.mailbox = c.mailbox)
    (life : core.life.surfaced? = none → c.life.surfaced? = none) : core.Provided := by
  intro alive waiting
  rw [mailbox] at waiting ⊢
  exact provided (life alive) waiting

theorem Move.provided {leave : Prop} (move : Move leave c core) (provided : c.Provided) :
    core.Provided := by
  cases move with
  | start unborn => exact provided.congr rfl fun _ => by rw [unborn]; rfl
  | accept runs reason => exact fun alive => by cases alive
  | finish may alive reason => exact fun alive => by cases alive
  | relink links => exact provided.congr rfl fun alive => alive
  | post alive message =>
    -- one more message, and one more wait that is woken for it
    intro alive waiting
    cases sleeping : c.mailbox.waits.waiting with
    | nil => simp [Mailbox.push, Mailbox.wake, sleeping] at waiting
    | cons wait rest =>
      obtain ⟨enough, permit⟩ := provided alive (by simp [sleeping])
      obtain ⟨more, kept⟩ := Notifier.length_notified_notify sleeping
      refine ⟨?_, kept.trans permit⟩
      rw [Mailbox.queue_push, List.length_append, List.length_singleton]
      exact (Nat.succ_le_succ enough).trans more.ge

theorem Moves.provided {leave : Core → Prop} (moves : Moves leave c core) (provided : c.Provided) :
    core.Provided := by
  induction moves with
  | refl => exact provided
  | tail earlier move ih => exact move.provided ih

/-- A wait that is given up passes its notification on to one that sleeps, if there is one. -/
theorem Provided.cancel (provided : c.Provided) (sound : c.Sound) (b : Bell) (ticket : Nat) :
    (c.cancel b ticket).Provided := by
  cases b with
  | exit => exact provided.congr rfl fun alive => alive
  | mail =>
    intro alive waiting
    have bell : (c.cancel .mail ticket).mailbox.waits = c.mailbox.waits.cancel ticket := rfl
    rw [bell] at waiting ⊢
    rw [show (c.cancel .mail ticket).mailbox.queue = c.mailbox.queue from rfl]
    unfold Notifier.cancel at waiting ⊢
    cases told : c.mailbox.waits.isNotified ticket with
    | true =>
      rw [told, if_pos rfl] at waiting
      rw [if_pos rfl]
      cases sleeping : c.mailbox.waits.waiting with
      | nil => simp [Notifier.consume, sleeping] at waiting
      | cons wait rest =>
        obtain ⟨enough, permit⟩ := provided alive (by simp [sleeping])
        have fewer := (sound .mail).length_consume told
        obtain ⟨more, kept⟩ := Notifier.length_notified_notify
          (n := c.mailbox.waits.consume ticket) sleeping
        exact ⟨enough.trans (more.trans fewer).ge, kept.trans permit⟩
    | false =>
      rw [told, if_neg Bool.false_ne_true] at waiting
      rw [if_neg Bool.false_ne_true]
      refine provided alive fun none => waiting ?_
      simp [none]

theorem lookMessage_alive {value : Except Interrupt Term} (alive : c.life.surfaced? = none)
    (looked : c.lookMessage = some (value, core)) :
    ∃ message, c.mailbox.queue = message :: core.mailbox.queue := by
  have taken := taken_lookMessage looked
  cases value with
  | ok message => exact ⟨message, taken.symm⟩
  | error interrupt =>
    simp only [lookMessage, lookMail, ensureNoExit, alive] at looked
    split at looked
    · cases looked
    · next seen => split at seen <;> cases seen
    · obtain ⟨taken, -, same⟩ := Option.map_eq_some_iff.mp looked
      cases same

/-- A poll that takes a message uses up one notification at most, and one that finds none goes to
sleep over an empty queue. -/
theorem Polled.provided {sleeper : Option Identity} {ticket : Option Nat}
    {result : Poll (Except Interrupt Term) × Core}
    (polled : Polled .mail lookMessage Idle sleeper c ticket result) (sound : c.Sound)
    (provided : c.Provided) : result.2.Provided := by
  cases polled with
  | unnotified silent => exact provided
  | suspended nothing told =>
    intro alive waiting
    have none : ((c.woken .mail ticket).asleep .mail sleeper).mailbox.queue = [] := by
      rw [asleep, queue_setBell, queue_woken, nothing.1]
    exact ⟨by simp [none], rfl⟩
  | @settled ticket value core busy told looked =>
    intro alive waiting
    have life : core.life = c.life :=
      (waited_lookMessage looked).life.trans (life_woken c .mail ticket)
    have alive : c.life.surfaced? = none := life ▸ alive
    obtain ⟨message, queue⟩ := lookMessage_alive (by rw [life_woken, alive]) looked
    have fewer : c.mailbox.queue.length = core.mailbox.queue.length + 1 := by
      rw [← queue_woken c .mail ticket, queue, List.length_cons]
    have waits : core.mailbox.waits = (c.woken .mail ticket).mailbox.waits :=
      watches_lookMessage.keeps looked .mail
    have waiting : c.mailbox.waits.waiting ≠ [] := by
      rw [← show (c.woken .mail ticket).mailbox.waits.waiting = c.mailbox.waits.waiting from
        waiting_woken c .mail ticket, ← waits]
      exact waiting
    obtain ⟨enough, permit⟩ := provided alive waiting
    dsimp only
    rw [waits]
    cases ticket with
    | none =>
      refine ⟨?_, permit⟩
      change core.mailbox.queue.length ≤ c.mailbox.waits.notified.length
      omega
    | some t =>
      have used : (c.mailbox.waits.consume t).notified.length + 1
          = c.mailbox.waits.notified.length := (sound .mail).length_consume (told t rfl)
      refine ⟨?_, permit⟩
      change core.mailbox.queue.length ≤ (c.mailbox.waits.consume t).notified.length
      omega

def drained (c : Core) (waits : List Wait) : Core :=
  waits.foldl (fun c wait => c.polled .message wait.sleeper (some wait.ticket)) c

/-- A woken wait takes the first message, and the other waits that were woken still are. -/
theorem polled_woken {wait : Wait} (told : c.mailbox.waits.isNotified wait.ticket = true)
    (alive : c.life.surfaced? = none) :
    (c.polled .message wait.sleeper (some wait.ticket)).mailbox.queue = c.mailbox.queue.tail ∧
      ∀ ticket ≠ wait.ticket, c.mailbox.waits.isNotified ticket = true →
        (c.polled .message wait.sleeper (some wait.ticket)).mailbox.waits.isNotified ticket
          = true := by
  have others {ticket : Nat} (other : ticket ≠ wait.ticket)
      (told : c.mailbox.waits.isNotified ticket = true) :
      (c.mailbox.waits.consume wait.ticket).isNotified ticket = true := by
    obtain ⟨held, member, rfl⟩ := Notifier.isNotified_iff.mp told
    exact Notifier.isNotified_iff.mpr
      ⟨held, List.mem_filter.mpr ⟨member, by simpa using other⟩, rfl⟩
  have polled := poll_polled (b := .mail) watches_lookMessage wait.sleeper (some wait.ticket) c
  unfold Core.polled pollMessage
  revert polled
  generalize poll .mail lookMessage wait.sleeper (some wait.ticket) c = result
  intro polled
  cases polled with
  | unnotified silent => cases told.symm.trans silent
  | @settled _ value core busy heard looked =>
    obtain ⟨message, queue⟩ := lookMessage_alive (by rw [life_woken, alive]) looked
    have waits : core.mailbox.waits = c.mailbox.waits.consume wait.ticket :=
      watches_lookMessage.keeps looked .mail
    refine ⟨?_, fun ticket other told => ?_⟩
    · rw [← queue_woken c .mail (some wait.ticket), queue, List.tail_cons]
    · dsimp only
      rw [waits]
      exact others other told
  | suspended nothing heard =>
    refine ⟨?_, fun ticket other told => others other told⟩
    simp [asleep, queue_setBell, queue_woken, nothing.1]

/-- Woken waits that are polled in turn take as many messages as they are, or all that there are. -/
theorem queue_drained {waits : List Wait} (distinct : (waits.map (·.ticket)).Nodup)
    (told : ∀ wait ∈ waits, c.mailbox.waits.isNotified wait.ticket = true)
    (alive : c.life.surfaced? = none) :
    (c.drained waits).mailbox.queue = c.mailbox.queue.drop waits.length := by
  induction waits generalizing c with
  | nil => rfl
  | cons wait rest ih =>
    obtain ⟨different, distinct⟩ := List.nodup_cons.mp distinct
    obtain ⟨queue, still⟩ := polled_woken (told wait List.mem_cons_self) alive
    have later := ih (c := c.polled .message wait.sleeper (some wait.ticket)) distinct
      (fun other member => still _
        (fun same => different (List.mem_map.mpr ⟨other, member, same⟩))
        (told other (List.mem_cons_of_mem _ member)))
      ((c.waited_polled .message wait.sleeper (some wait.ticket)).life ▸ alive)
    rw [drained, List.foldl_cons]
    rw [drained] at later
    rw [later, queue, List.length_cons, List.drop_tail]

end Core

namespace World

variable {w v : World} {id : Identity} {a b : Actor} {trace : List Moment}

/-- Waits for messages stay provided for, whatever an action does, if each takes what it ends with.
-/
theorem Turn.provided {action : Action} (turn : Turn id action a b)
    (receives : action.lingers id = false) (sound : a.core.Sound) (provided : a.core.Provided) :
    b.core.Provided := by
  cases turn with
  | @polled errand sleeper ticket polls core =>
    subst polls
    rw [core]
    cases errand with
    | mail => simp [Action.lingers] at receives
    | timed expired => simp [Action.lingers] at receives
    | message =>
      exact (Core.poll_polled Core.watches_lookMessage sleeper ticket a.core).provided sound provided
    | exit =>
      refine provided.congr (Core.poll_polled Core.watches_lookExit sleeper ticket a.core).mailbox ?_
      exact fun alive => (a.core.waited_polled .exit sleeper ticket).life ▸ alive
  | cancelled cancels core => exact core ▸ provided.cancel sound _ _
  | ended ends core => exact core ▸ (Core.moves_finish ..).provided provided
  | moved idle endless moves => exact moves.provided provided

theorem Course.provided (course : Course {} trace v)
    (receives : ∀ m ∈ trace, m.2.lingers id = false) (found : v.find? id = some a) :
    a.core.Sound ∧ a.core.Provided := by
  refine course.holds (P := fun core => core.Sound ∧ core.Provided) rooted_empty
    ⟨Core.sound_new id, Core.provided_new id⟩ (fun a found => (by cases found)) ?_ found
  intro m member a b present held turn
  exact ⟨turn.sound held.1, turn.provided (receives m member) held.1 held.2⟩

/-- Where all waits of an actor for a message take the one that they end with, no message is left to a
wait that sleeps: before an exit is recorded, the messages in the queue are no more than the suspended
waits that hold a notification if another one holds none, and no permit is stored. When those are
polled, each takes a message, until there is none. -/
theorem woken_waits_suffice (course : Course {} trace v)
    (receives : ∀ m ∈ trace, m.2.lingers id = false) (found : v.find? id = some a)
    (alive : a.core.life.surfaced? = none) {wait : Wait}
    (suspended : wait ∈ a.core.mailbox.waits.outstanding)
    (sleeps : a.core.mailbox.waits.isNotified wait.ticket = false) :
    a.core.mailbox.queue.length ≤ (a.core.mailbox.waits.outstanding.countP fun other =>
      a.core.mailbox.waits.isNotified other.ticket) ∧
    a.core.mailbox.waits.permit = false ∧
    (a.core.drained a.core.mailbox.waits.notified).mailbox.queue = [] := by
  obtain ⟨sound, provided⟩ := course.provided receives found
  have sound : a.core.mailbox.waits.Sound := sound .mail
  have waiting : a.core.mailbox.waits.waiting ≠ [] := by
    intro none
    rw [Notifier.outstanding, none, List.append_nil] at suspended
    cases sleeps.symm.trans (Notifier.notified_isNotified suspended)
  obtain ⟨enough, permit⟩ := provided alive waiting
  refine ⟨sound.count_notified ▸ enough, permit, ?_⟩
  rw [Core.queue_drained sound.distinct_notified
    (fun other member => Notifier.notified_isNotified member) alive]
  exact List.drop_of_length_le enough

def contest : List Action :=
  let self : Identity := .ofSerial 1 .process
  let receive : Action := .operate self (.poll .message none none)
  [.allocate .process (.process .empty), .operate self .start,
    receive, receive, receive, receive, .operate self (.send (.str "first")), receive,
    .operate self (.send (.str "second")), .operate self (.cancel .mail 0)]

/-- The wait that sleeps on misses nothing: the woken ones take all that is in the queue. -/
theorem contest_suffices : ∃ a, (run {} contest).find? (.ofSerial 1 .process) = some a ∧
    ⟨3, none⟩ ∈ a.core.mailbox.waits.outstanding ∧
    a.core.mailbox.waits.isNotified 3 = false ∧ a.core.mailbox.queue = [.str "second"] ∧
    a.core.mailbox.waits.permit = false ∧
    (a.core.drained a.core.mailbox.waits.notified).mailbox.queue = [] := by
  have receives : ∀ m ∈ moments {} contest,
      m.2.lingers (.ofSerial 1 .process) = false := by decide +kernel
  obtain ⟨a, found, alive, suspended, sleeps, queue⟩ : ∃ a,
      (run {} contest).find? (.ofSerial 1 .process) = some a ∧ a.core.life.surfaced? = none ∧
      ⟨3, none⟩ ∈ a.core.mailbox.waits.outstanding ∧
      a.core.mailbox.waits.isNotified 3 = false ∧ a.core.mailbox.queue = [.str "second"] :=
    ⟨_, rfl, rfl, by decide, rfl, rfl⟩
  obtain ⟨-, permit, drained⟩ :=
    woken_waits_suffice (course_run {} contest) receives found alive suspended sleeps
  exact ⟨a, found, suspended, sleeps, queue, permit, drained⟩

end World

end Actors
