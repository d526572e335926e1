import Actors.Proofs.Sharing
import Actors.Proofs.Schedule

/-! Timing. A wait with a time limit tells the truth at the moment at which it ends. It looks at the
exit and at the queue when its notification has come or when its time is up, and it takes no message. A
notification that has come by then is used for that look: nothing is passed on, and if the wait has
found nothing, there is nothing left to be told of. -/
namespace Actors

namespace Notifier

variable {n : Notifier}

/-- A wait that is given up as soon as it was suspended leaves nothing but its ticket. -/
theorem Sound.cancel_suspend (sound : n.Sound) (sleeper : Option Identity) :
    (n.suspend sleeper).cancel n.entered = { n with entered := n.entered + 1 } := by
  have issued (wait : Wait) (member : wait ∈ n.outstanding) : wait.ticket ≠ n.entered :=
    (sound.issued wait member).ne
  have silent : (n.suspend sleeper).isNotified n.entered = false := by
    rw [Bool.eq_false_iff]
    intro told
    obtain ⟨wait, member, same⟩ := isNotified_iff.mp told
    exact issued wait (List.mem_append_left _ member) same
  have others : (n.waiting.filter (·.ticket != n.entered)) = n.waiting :=
    List.filter_eq_self.mpr fun wait member => by
      simpa using issued wait (List.mem_append_right _ member)
  rw [Notifier.cancel, silent, if_neg Bool.false_ne_true]
  simp [Notifier.suspend, List.filter_append, others]

end Notifier

namespace Core

variable {c core : Core}

def sight (c : Core) : Except Interrupt Bool := c.ensureNoExit.map fun _ => !c.mailbox.isEmpty

theorem sight_congr (life : core.life = c.life) (queue : core.mailbox.queue = c.mailbox.queue) :
    core.sight = c.sight := by
  simp [sight, ensureNoExit, Mailbox.isEmpty, life, queue]

theorem sight_alive (alive : c.life.surfaced? = none) : c.sight = .ok (!c.mailbox.isEmpty) := by
  simp [sight, ensureNoExit, alive, Except.map]

theorem sight_error {reason : Exit} :
    c.sight = .error (.exit reason) ↔ c.life.surfaced? = some reason := by
  cases surfaced : c.life.surfaced? with
  | none => simp [sight_alive surfaced]
  | some other => simp [sight, ensureNoExit, surfaced, Except.map, Interrupt.exit]

theorem sight_false : c.sight = .ok false ↔ c.Idle := by
  cases surfaced : c.life.surfaced? with
  | none => simp [sight_alive surfaced, Idle, Mailbox.isEmpty, surfaced]
  | some reason => simp [sight_error.mpr surfaced, Idle, surfaced]

/-- A look that ends a wait for the mailbox has seen what there is. -/
theorem sight_lookMail {value : Except Interrupt Unit} (looked : c.lookMail = some (value, core)) :
    value.map (fun _ => true) = c.sight := by
  unfold lookMail at looked
  split at looked
  · next seen =>
    cases looked
    rw [sight, seen]
    rfl
  · next seen =>
    split at looked
    · cases looked
    · next some =>
      cases looked
      simp [sight, seen, Except.map, some]

def lapsed (c : Core) (ticket : Option Nat) : Core :=
  let awake := c.woken .mail ticket
  awake.setBell .mail
    { awake.mailbox.waits with entered := awake.mailbox.waits.entered + 1, permit := false }

theorem life_lapsed (c : Core) (ticket : Option Nat) : (c.lapsed ticket).life = c.life := by
  rw [lapsed, life_setBell, life_woken]

theorem queue_lapsed (c : Core) (ticket : Option Nat) :
    (c.lapsed ticket).mailbox.queue = c.mailbox.queue := by
  rw [lapsed, queue_setBell, queue_woken]

/-- What a poll of a wait with a time limit comes to. -/
inductive PolledTimed (sleeper : Option Identity) (c : Core) :
    Bool → Option Nat → Poll (Except Interrupt Bool) × Core → Prop
  | found {expired : Bool} {ticket : Option Nat} (busy : ¬c.Idle)
      (told : ∀ t, ticket = some t → c.mailbox.waits.isNotified t = true) :
      PolledTimed sleeper c expired ticket (.ready c.sight, c.woken .mail ticket)
  | asleep {ticket : Nat} (silent : c.mailbox.waits.isNotified ticket = false) :
      PolledTimed sleeper c false (some ticket) (.pending ticket, c)
  | suspended {ticket : Option Nat} (nothing : c.Idle) :
      PolledTimed sleeper c false ticket
        (.pending c.mailbox.waits.entered, (c.woken .mail ticket).asleep .mail sleeper)
  | unnotified {ticket : Nat} (silent : c.mailbox.waits.isNotified ticket = false) :
      PolledTimed sleeper c true (some ticket) (.ready c.sight, c.cancel .mail ticket)
  | lapsed {ticket : Option Nat} (nothing : c.Idle)
      (told : ∀ t, ticket = some t → c.mailbox.waits.isNotified t = true) :
      PolledTimed sleeper c true ticket (.ready c.sight, c.lapsed ticket)

/-- A poll of a wait with a time limit comes to one of the results that are listed. -/
theorem pollTimed_polled (sound : c.Sound) (expired : Bool) (sleeper : Option Identity)
    (ticket : Option Nat) :
    PolledTimed sleeper c expired ticket (c.pollTimed expired sleeper ticket) := by
  have same : (c.woken .mail ticket).sight = c.sight :=
    sight_congr (c.life_woken .mail ticket) (c.queue_woken .mail ticket)
  have polled := poll_polled (b := .mail) watches_lookMail sleeper ticket c
  unfold pollTimed pollMail
  revert polled
  generalize poll .mail lookMail sleeper ticket c = result
  intro polled
  cases polled with
  | @unnotified t silent =>
    cases expired with
    | false => exact .asleep silent
    | true => exact .unnotified silent
  | settled busy told looked =>
    obtain rfl := lookMail_eq looked
    dsimp only
    rw [sight_lookMail looked, same]
    exact .found busy told
  | suspended nothing told =>
    cases expired with
    | false => exact .suspended nothing
    | true =>
      have fresh : ({ (c.woken .mail ticket).mailbox.waits with permit := false } : Notifier).Sound :=
        (sound.woken .mail ticket .mail).withPermit false
      have gone : ((c.woken .mail ticket).asleep .mail sleeper).cancel .mail (c.bell .mail).entered
          = c.lapsed ticket := by
        rw [← c.entered_woken .mail ticket]
        exact congrArg (setBell _ .mail) (fresh.cancel_suspend sleeper)
      have seen : (c.lapsed ticket).sight = c.sight :=
        sight_congr (c.life_lapsed ticket) (c.queue_lapsed ticket)
      change PolledTimed sleeper c true ticket (.ready (sight (cancel ..)), cancel ..)
      rw [gone, seen]
      exact .lapsed nothing told

/-- A wait that held a notification is gone once that is used up. -/
theorem outstanding_woken (sound : c.Sound) {ticket : Option Nat}
    (told : ∀ t, ticket = some t → c.mailbox.waits.isNotified t = true) {wait : Wait}
    (member : wait ∈ (c.woken .mail ticket).mailbox.waits.outstanding) :
    wait ∈ c.mailbox.waits.outstanding ∧ ticket ≠ some wait.ticket := by
  cases ticket with
  | none => exact ⟨member, fun same => by cases same⟩
  | some t =>
    rcases List.mem_append.mp member with woken | sleeping
    · obtain ⟨inside, other⟩ := List.mem_filter.mp woken
      exact ⟨List.mem_append_left _ inside, fun same => by simp [Option.some.inj same] at other⟩
    · refine ⟨List.mem_append_right _ sleeping, ?_⟩
      rintro ⟨⟩
      cases ((sound .mail).notified_waiting sleeping).symm.trans (told _ rfl)

/-- A wait that sleeps is gone once it is given up. -/
theorem outstanding_cancel {ticket : Nat} (silent : c.mailbox.waits.isNotified ticket = false)
    {wait : Wait} (member : wait ∈ (c.cancel .mail ticket).mailbox.waits.outstanding) :
    wait ∈ c.mailbox.waits.outstanding ∧ some ticket ≠ some wait.ticket := by
  have waits : (c.cancel .mail ticket).mailbox.waits = { c.mailbox.waits with
      waiting := c.mailbox.waits.waiting.filter (·.ticket != ticket) } := by
    change c.mailbox.waits.cancel ticket = _
    rw [Notifier.cancel, silent, if_neg Bool.false_ne_true]
  rw [waits] at member
  rcases List.mem_append.mp member with woken | sleeping
  · refine ⟨List.mem_append_left _ woken, ?_⟩
    rintro ⟨⟩
    cases silent.symm.trans (Notifier.notified_isNotified woken)
  · obtain ⟨inside, other⟩ := List.mem_filter.mp sleeping
    exact ⟨List.mem_append_right _ inside, fun same => by simp [Option.some.inj same] at other⟩

/-- A wait that is given up while it holds a notification passes it on. -/
theorem cancel_notified {ticket : Nat} (told : c.mailbox.waits.isNotified ticket = true) :
    (c.cancel .mail ticket).mailbox.waits = (c.mailbox.waits.consume ticket).notify :=
  if_pos told

/-- The answer of a wait that has ended tells what there is, and the wait is suspended no more. If it held
a notification, that is used up, and no other wait is told. -/
structure Truthful (c core : Core) (ticket : Option Nat) (answer : Except Interrupt Bool) :
    Prop where
  exit : ∀ reason, answer = .error (.exit reason) ↔ core.life.surfaced? = some reason
  message : core.life.surfaced? = none → answer = .ok (!core.mailbox.isEmpty)
  ended : ∀ wait ∈ core.mailbox.waits.outstanding,
    wait ∈ c.mailbox.waits.outstanding ∧ ticket ≠ some wait.ticket
  used : ∀ t, ticket = some t → c.mailbox.waits.isNotified t = true →
    core.mailbox.waits.waiting = c.mailbox.waits.waiting ∧
    core.mailbox.waits.notified = (c.mailbox.waits.consume t).notified ∧
    (answer = .ok false → core.mailbox.waits.permit = false)

namespace PolledTimed

variable {sleeper : Option Identity} {expired : Bool} {ticket : Option Nat}
  {result : Poll (Except Interrupt Bool) × Core}

theorem answers (polled : PolledTimed sleeper c expired ticket result) (late : expired = true) :
    ∃ answer, result.1 = .ready answer := by
  cases polled with
  | asleep silent => cases late
  | suspended nothing => cases late
  | _ => exact ⟨_, rfl⟩

theorem late (polled : PolledTimed sleeper c expired ticket result)
    (ready : result.1 = .ready (.ok false)) : expired = true := by
  cases polled with
  | found busy told => exact absurd (sight_false.mp (Poll.ready.inj ready)) busy
  | asleep silent => cases ready
  | suspended nothing => cases ready
  | unnotified silent => rfl
  | lapsed nothing told => rfl

/-- Whatever such a poll answers with is what there is to see at that moment. -/
theorem truthful (polled : PolledTimed sleeper c expired ticket result) (sound : c.Sound)
    {answer : Except Interrupt Bool} (ready : result.1 = .ready answer) :
    c.Truthful result.2 ticket answer := by
  have honest {core : Core} (life : core.life = c.life)
      (queue : core.mailbox.queue = c.mailbox.queue) :
      (∀ reason, c.sight = .error (.exit reason) ↔ core.life.surfaced? = some reason) ∧
        (core.life.surfaced? = none → c.sight = .ok (!core.mailbox.isEmpty)) := by
    rw [← sight_congr life queue]
    exact ⟨fun reason => sight_error, sight_alive⟩
  cases polled with
  | asleep silent => cases ready
  | suspended nothing => cases ready
  | found busy told =>
    cases ready
    obtain ⟨exit, message⟩ := honest (c.life_woken .mail ticket) (c.queue_woken .mail ticket)
    refine ⟨exit, message, fun wait => outstanding_woken sound told, fun t same told => ?_⟩
    subst same
    exact ⟨rfl, rfl, fun none => absurd (sight_false.mp none) busy⟩
  | unnotified silent =>
    cases ready
    obtain ⟨exit, message⟩ := @honest (c.cancel .mail _) rfl rfl
    refine ⟨exit, message, fun wait => outstanding_cancel silent, fun t same told => ?_⟩
    cases same
    cases silent.symm.trans told
  | lapsed nothing told =>
    cases ready
    obtain ⟨exit, message⟩ := honest (c.life_lapsed ticket) (c.queue_lapsed ticket)
    refine ⟨exit, message, fun wait => outstanding_woken sound told, fun t same told => ?_⟩
    subst same
    exact ⟨rfl, rfl, fun _ => rfl⟩

end PolledTimed

end Core

def Stage.within (deadline : Nat) : Option Nat → Stage
  | none => .fresh
  | some ticket => .timed ticket deadline

namespace Poll

def staged (deadline : Nat) : Poll (Except Interrupt Bool) → Stage ⊕ Reply
  | ready answer => .inr (.ofResult .flag answer)
  | pending ticket => .inl (.within deadline (some ticket))

def replied : Poll (Except Interrupt Bool) → Poll Reply
  | ready answer => .ready (.ofResult .flag answer)
  | pending ticket => .pending ticket

end Poll

namespace Node

variable {n m start : Node} {id : Identity} {sleeper : Option Identity} {limit deadline : Nat}
  {ticket : Option Nat} {a : Actor}

def pollUntil (n : Node) (id : Identity) (sleeper : Option Identity) (deadline : Nat)
    (ticket : Option Nat) : Option (Poll (Except Interrupt Bool)) × Node :=
  n.pollCore id (Core.pollTimed (decide (deadline ≤ n.now)) sleeper ticket)

theorem world_pollUntil (n : Node) (id : Identity) (sleeper : Option Identity) (deadline : Nat)
    (ticket : Option Nat) : (n.pollUntil id sleeper deadline ticket).2.world
      = n.world.act (.operate id (.poll (.timed (decide (deadline ≤ n.now))) sleeper ticket)) :=
  n.world_pollCore id (Core.pollTimed _ sleeper ticket)

theorem pollUntil_found (found : n.world.find? id = some a) (sleeper : Option Identity)
    (deadline : Nat) (ticket : Option Nat) :
    n.pollUntil id sleeper deadline ticket
      = (some (a.core.pollTimed (decide (deadline ≤ n.now)) sleeper ticket).1,
        (n.pollUntil id sleeper deadline ticket).2) := by
  unfold pollUntil pollCore
  rw [found]

theorem modifyGet_ok {α : Type} {f : Node → α × Node} {answer : α} (done : f n = (answer, m)) :
    (modifyGet f : Job α) n = .ok answer m := by
  change EStateM.Result.ok (f n).1 (f n).2 = _
  rw [done]

/-- A body that waits for a message with a time limit reckons the deadline from where it begins. -/
theorem advanceAct_waitFor (heard : Option Identity)
    (begins : ticket = none → deadline = n.now + limit)
    {result : Poll (Except Interrupt Bool)}
    (polled : n.pollUntil id (some id) deadline ticket = (some result, m)) :
    advanceAct id heard (.within deadline ticket) (.waitFor limit) n
      = .ok (result.staged deadline) m := by
  have shared : pollMailbox id (.timed · deadline) .flag
      (Core.pollTimed (decide (deadline ≤ n.now)) (some id) ticket) n
        = .ok (result.staged deadline) m := by
    unfold pollMailbox
    simp only [bind, EStateM.bind, modifyGet_ok (f := (·.pollCore id _)) polled]
    cases result <;> rfl
  cases ticket with
  | none =>
    rw [begins rfl] at shared ⊢
    exact shared
  | some t => exact shared

theorem pollAim_waitUntil {result : Poll (Except Interrupt Bool)}
    (polled : n.pollUntil id none deadline ticket = (some result, m)) :
    n.pollAim ⟨id, .waitUntil deadline, ticket⟩ = (some result.replied, m) := by
  unfold pollUntil at polled
  simp only [pollAim, pollAim.replying, polled, Option.map_some]
  cases result <;> rfl

/-- A wait for a message of an actor, with a time limit, that has begun and not ended yet. Between its
polls anything may happen in the world, and the clock may show anything. -/
inductive Lasts (id : Identity) (sleeper : Option Identity) (limit : Nat) (start : Node) :
    Node → Option Nat → Prop
  | begun : Lasts id sleeper limit start start none
  | suspended {n m : Node} {ticket : Option Nat} {next : Nat}
      (lasts : Lasts id sleeper limit start n ticket)
      (polled : n.pollUntil id sleeper (start.now + limit) ticket = (some (.pending next), m)) :
      Lasts id sleeper limit start m (some next)
  | meanwhile {n m : Node} {ticket : Nat} {trace : List World.Moment}
      (lasts : Lasts id sleeper limit start n (some ticket))
      (course : World.Course n.world trace m.world) :
      Lasts id sleeper limit start m (some ticket)

namespace Lasts

theorem course (lasts : Lasts id sleeper limit start n ticket) :
    ∃ trace, World.Course start.world trace n.world := by
  induction lasts with
  | begun => exact ⟨[], .refl⟩
  | @suspended n m ticket next lasts polled ih =>
    obtain ⟨trace, reached⟩ := ih
    have world := n.world_pollUntil id sleeper (start.now + limit) ticket
    rw [polled] at world
    exact ⟨_, world ▸ reached.act _⟩
  | meanwhile lasts course ih =>
    obtain ⟨trace, reached⟩ := ih
    exact ⟨_, reached.trans course⟩

theorem begins (lasts : Lasts id sleeper limit start n ticket) (new : ticket = none) : n = start := by
  cases lasts with
  | begun => rfl
  | suspended lasts polled => cases new
  | meanwhile lasts course => cases new

end Lasts

/-- A wait with a time limit that is polled when its time is up ends. Whenever it ends, it answers with
the exit that is recorded at that moment, or else with whether there is a message; it answers that there
is none only if its time is up, and no poll of it takes a message or changes the life. A notification
that it held is used for that: no other wait is told. It is passed on where the wait is given up without
a poll. Bodies and slots poll it in this way. -/
theorem timed_wait_truthful {trace : List World.Moment} (reached : World.Course {} trace start.world)
    (lasts : Lasts id sleeper limit start n ticket) (found : n.world.find? id = some a) :
    let deadline := start.now + limit
    ∃ result m b, n.pollUntil id sleeper deadline ticket = (some result, m) ∧
      m.world.find? id = some b ∧ b.core.life = a.core.life ∧
      b.core.mailbox.queue = a.core.mailbox.queue ∧
      (deadline ≤ n.now → ∃ answer, result = .ready answer) ∧
      (∀ answer, result = .ready answer →
        a.core.Truthful b.core ticket answer ∧ (answer = .ok false → deadline ≤ n.now)) ∧
      (∀ t, ticket = some t → a.core.mailbox.waits.isNotified t = true →
        (a.core.cancel .mail t).mailbox.waits = (a.core.mailbox.waits.consume t).notify) ∧
      (sleeper = some id → ∀ heard, advanceAct id heard (.within deadline ticket) (.waitFor limit) n
        = .ok (result.staged deadline) m) ∧
      (sleeper = none → n.pollAim ⟨id, .waitUntil deadline, ticket⟩ = (some result.replied, m)) := by
  intro deadline
  obtain ⟨later, onward⟩ := lasts.course
  have course := reached.trans onward
  have sound : a.core.Sound := course.sound found
  have keyed := (course.rooted World.rooted_empty).keyed
  have polled := Core.pollTimed_polled sound (decide (deadline ≤ n.now)) sleeper ticket
  have asked := n.pollUntil_found found sleeper deadline ticket
  have present : (n.pollUntil id sleeper deadline ticket).2.world.find? id
      = some { a with core := (a.core.pollTimed (decide (deadline ≤ n.now)) sleeper ticket).2 } := by
    rw [world_pollUntil]
    refine ((World.received_changeCore found _).find? id).trans (if_pos (keyed found).symm)
  refine ⟨_, _, _, asked, present, (a.core.waited_polled (.timed _) sleeper ticket).life,
    a.core.queue_untaken (.timed _) sleeper ticket (fun equal => by cases equal), fun late => ?_,
    fun answer ready => ⟨polled.truthful sound ready, ?_⟩, fun t _ => Core.cancel_notified, ?_, ?_⟩
  · exact polled.answers (by simpa using late)
  · rintro rfl
    simpa using polled.late ready
  · rintro rfl heard
    exact advanceAct_waitFor heard (fun new => by rw [lasts.begins new]) asked
  · rintro rfl
    exact pollAim_waitUntil asked

def limited : Node :=
  let self : Identity := .ofSerial 1 .process
  let w := World.run {} [.allocate .process (.process .empty), .operate self .start]
  (pollUntil { world := w } self none 10 none).2

def overtaken : Node :=
  let self : Identity := .ofSerial 1 .process
  let receive : Action := .operate self (.poll .message none none)
  { world := limited.world.run [.operate self (.send (.str "first")), receive, receive, receive],
    now := 10 }

theorem overtaken_truthful : let self : Identity := .ofSerial 1 .process
    ∃ a m b, overtaken.world.find? self = some a ∧ a.core.mailbox.waits.isNotified 0 = true ∧
      overtaken.pollUntil self none 10 (some 0) = (some (.ready (.ok false)), m) ∧
      m.world.find? self = some b ∧ b.core.mailbox.queue = [] ∧
      b.core.mailbox.waits.waiting = a.core.mailbox.waits.waiting := by
  intro self
  let start : Node := { world := World.run {} [.allocate .process (.process .empty),
    .operate self .start] }
  have first : Lasts self none 10 start limited (some 0) := .suspended .begun rfl
  have lasts : Lasts self none 10 start overtaken (some 0) := first.meanwhile (World.course_run ..)
  obtain ⟨a, found, told, alive, queue⟩ : ∃ a, overtaken.world.find? self = some a ∧
      a.core.mailbox.waits.isNotified 0 = true ∧ a.core.life.surfaced? = none ∧
      a.core.mailbox.queue = [] := ⟨_, rfl, rfl, rfl, rfl⟩
  obtain ⟨result, m, b, polled, present, life, kept, ends, honest, -⟩ :=
    timed_wait_truthful (World.course_run ..) lasts found
  obtain ⟨answer, rfl⟩ := ends le_rfl
  obtain ⟨truthful, -⟩ := honest answer rfl
  have empty : b.core.mailbox.queue = [] := kept.trans queue
  have answered : answer = .ok false := by
    rw [truthful.message (life ▸ alive), Mailbox.isEmpty, empty]
    rfl
  exact ⟨a, m, b, found, told, answered ▸ polled, present, empty, (truthful.used 0 rfl told).1⟩

/-- The notification that the wait held when its time was up comes to no other wait, nor is it stored. -/
theorem notification_not_passed_on : let self : Identity := .ofSerial 1 .process
    ∃ a m b, overtaken.world.find? self = some a ∧ a.core.mailbox.waits.isNotified 0 = true ∧
      overtaken.pollUntil self none 10 (some 0) = (some (.ready (.ok false)), m) ∧
      m.world.find? self = some b ∧ b.core.mailbox.waits.waiting = [⟨1, none⟩, ⟨2, none⟩] ∧
      b.core.mailbox.waits.notified = [] ∧ b.core.mailbox.waits.permit = false :=
  ⟨_, _, _, rfl, rfl, rfl, rfl, rfl, rfl, rfl⟩

end Node

end Actors
