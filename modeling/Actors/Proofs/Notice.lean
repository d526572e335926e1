import Actors.Node.Drive
import Actors.Proofs.Waking

/-! Notices. An exit that is recorded, an end after it, and a wait that is given up hand out one
notification each to the waits for the exit. Of the waits that were suspended when the exit was
recorded as many are told as there have been such notices since, and the others stay asleep. -/
namespace Actors

/-- How many notices of the exit a life has come with that went through every phase so far. -/
def Life.notices : Life → Nat
  | init | running => 0
  | exiting _ => 1
  | done _ => 2

def Action.leaves? (id : Identity) : Action → Option Nat
  | operate other (.cancel .exit ticket) => if other = id then some ticket else none
  | _ => none

theorem Action.leaves?_idle {id : Identity} {action : Action} (idle : action.isWait id = false) :
    action.leaves? id = none := by
  cases action with
  | operate other op =>
    cases op with
    | cancel bell ticket =>
      have different : other ≠ id := by simpa [isWait, Operation.isWait] using idle
      cases bell with
      | mail => rfl
      | exit => exact if_neg different
    | _ => rfl
  | _ => rfl

namespace Notifier

variable {n : Notifier}

def holds (n : Notifier) (ticket : Nat) : Bool := n.outstanding.any (·.ticket == ticket)

theorem waiting_notices (k : Nat) (n : Notifier) : (notify^[k] n).waiting = n.waiting.drop k := by
  induction k generalizing n with
  | zero => rfl
  | succ k ih => rw [Function.iterate_succ_apply, ih, waiting_notify, List.drop_tail]

theorem length_without {waits : List Wait} (distinct : (waits.map (·.ticket)).Nodup)
    (ticket : Nat) : (waits.filter (·.ticket != ticket)).length
      = waits.length - if waits.any (·.ticket == ticket) then 1 else 0 := by
  have split : waits.length = waits.countP (·.ticket == ticket)
      + (waits.filter (·.ticket != ticket)).length := by
    rw [List.countP_eq_length_filter]
    exact List.length_eq_length_filter_add fun wait : Wait => wait.ticket == ticket
  have once : waits.countP (·.ticket == ticket)
      = if waits.any (·.ticket == ticket) then 1 else 0 := by
    have count := distinct.count (a := ticket)
    rw [List.count, List.countP_map] at count
    simpa [Function.comp_def] using count
  omega

/-- A wait that is given up passes its notification on, or is one less that has none. -/
theorem Sound.length_cancel (sound : n.Sound) (ticket : Nat) :
    (n.cancel ticket).waiting.length = n.waiting.length - if n.holds ticket then 1 else 0 := by
  unfold Notifier.cancel
  cases told : n.isNotified ticket with
  | true =>
    have holds : n.holds ticket = true := by
      rw [isNotified] at told
      simp [Notifier.holds, outstanding, told]
    rw [if_pos rfl, waiting_notify, List.length_tail, if_pos holds]
    rfl
  | false =>
    have same : n.holds ticket = n.waiting.any (·.ticket == ticket) := by
      rw [isNotified] at told
      simp [Notifier.holds, outstanding, told]
    have distinct : (n.waiting.map (·.ticket)).Nodup :=
      sound.distinct.sublist (List.Sublist.map _ (List.sublist_append_right ..))
    rw [if_neg Bool.false_ne_true, same]
    exact length_without distinct ticket

end Notifier

namespace Core

variable {c core : Core} {b : Bell}

def Discreet (c : Core) : Prop :=
  c.life.surfaced? = none → c.exitWaits.permit = false ∧ c.exitWaits.notified = []

theorem discreet_new (id : Identity) : Discreet { id } := fun _ => ⟨rfl, rfl⟩

theorem Discreet.congr (discreet : c.Discreet) (life : core.life.surfaced? = c.life.surfaced?)
    (waits : core.exitWaits = c.exitWaits) : core.Discreet := by
  intro alive
  rw [waits]
  exact discreet (life ▸ alive)

theorem Move.discreet {leave : Prop} (move : Move leave c core) (discreet : c.Discreet) :
    core.Discreet := by
  cases move with
  | start unborn => exact discreet.congr (by rw [unborn]; rfl) rfl
  | accept runs reason => exact fun alive => by cases alive
  | finish may alive reason => exact fun unseen => by cases unseen
  | post alive message => exact discreet.congr rfl rfl
  | relink links => exact discreet.congr rfl rfl

theorem Moves.discreet {leave : Core → Prop} (moves : Moves leave c core) (discreet : c.Discreet) :
    core.Discreet := by
  induction moves with
  | refl => exact discreet
  | tail earlier move ih => exact move.discreet ih

section Polls

variable {α : Type} {look : Look α} {idle : Core → Prop} {sleeper : Option Identity}
  {ticket : Option Nat} {result : Poll α × Core}

theorem Polled.bell_ne (polled : Polled b look idle sleeper c ticket result)
    (watches : Watches look idle) {other : Bell} (different : other ≠ b) :
    result.2.bell other = c.bell other := by
  have woken : (c.woken b ticket).bell other = c.bell other := by
    cases ticket with
    | none => rfl
    | some t => exact bell_setBell_ne different ..
  cases polled with
  | unnotified silent => rfl
  | settled busy told looked => rw [watches.keeps looked, woken]
  | suspended nothing told => rw [asleep, bell_setBell_ne different, woken]

end Polls

theorem exitWaits_polled (c : Core) {errand : Errand} (other : errand ≠ .exit)
    (sleeper : Option Identity) (ticket : Option Nat) :
    (c.polled errand sleeper ticket).exitWaits = c.exitWaits := by
  have mail : (c.polled .mail sleeper ticket).exitWaits = c.exitWaits :=
    (poll_polled watches_lookMail sleeper ticket c).bell_ne watches_lookMail
      (show Bell.exit ≠ .mail from Bell.noConfusion)
  cases errand with
  | mail => exact mail
  | message =>
    exact (poll_polled watches_lookMessage sleeper ticket c).bell_ne watches_lookMessage
      (show Bell.exit ≠ .mail from Bell.noConfusion)
  | timed expired =>
    rcases c.polled_timed expired sleeper ticket with same | ⟨t, -, given⟩
    · exact same ▸ mail
    · exact given ▸ mail
  | exit => exact absurd rfl other

inductive PolledExit (c core : Core) : Prop
  | same (exitWaits : core.exitWaits = c.exitWaits)
  | settled (surfaced : c.life.surfaced? ≠ none)
      (waiting : core.exitWaits.waiting = c.exitWaits.waiting)
  | suspended (alive : c.life.surfaced? = none) (permit : core.exitWaits.permit = false)
      (notified : ∀ wait ∈ core.exitWaits.notified, wait ∈ c.exitWaits.notified)

theorem polledExit (c : Core) (errand : Errand) (sleeper : Option Identity) (ticket : Option Nat) :
    PolledExit c (c.polled errand sleeper ticket) := by
  cases errand with
  | exit =>
    have polled := poll_polled watches_lookExit (b := .exit) sleeper ticket c
    have result : c.polled .exit sleeper ticket = (poll .exit lookExit sleeper ticket c).2 := rfl
    rw [result]
    revert polled
    generalize poll .exit lookExit sleeper ticket c = result
    intro polled
    cases polled with
    | unnotified silent => exact .same rfl
    | @settled ticket value core busy told looked =>
      refine .settled busy ?_
      rw [show core.exitWaits = (c.woken .exit ticket).exitWaits from
        watches_lookExit.keeps looked .exit]
      exact waiting_woken c .exit ticket
    | suspended nothing told =>
      refine .suspended nothing rfl fun wait member => ?_
      have old : wait ∈ ((c.woken .exit ticket).bell .exit).notified := member
      cases ticket with
      | none => exact old
      | some t => exact List.mem_of_mem_filter old
  | _ => exact .same (c.exitWaits_polled (fun same => by cases same) sleeper ticket)

theorem Discreet.polled (discreet : c.Discreet) (errand : Errand) (sleeper : Option Identity)
    (ticket : Option Nat) : (c.polled errand sleeper ticket).Discreet := by
  have life : (c.polled errand sleeper ticket).life = c.life := (c.waited_polled ..).life
  cases c.polledExit errand sleeper ticket with
  | same exitWaits => exact discreet.congr (by rw [life]) exitWaits
  | settled surfaced waiting => exact fun alive => absurd (life ▸ alive) surfaced
  | suspended alive permit notified =>
    refine fun _ => ⟨permit, List.eq_nil_iff_forall_not_mem.mpr fun wait member => ?_⟩
    have old := notified wait member
    rw [(discreet alive).2] at old
    cases old

theorem Discreet.cancel (discreet : c.Discreet) (b : Bell) (ticket : Nat) :
    (c.cancel b ticket).Discreet := by
  cases b with
  | mail => exact discreet.congr rfl rfl
  | exit =>
    intro alive
    obtain ⟨permit, notified⟩ := discreet alive
    have silent : c.exitWaits.isNotified ticket = false := by
      rw [Notifier.isNotified, notified]
      rfl
    have waits : (c.cancel .exit ticket).exitWaits = c.exitWaits.cancel ticket := rfl
    rw [waits, Notifier.cancel, silent]
    exact ⟨permit, notified⟩

theorem Move.notices {leave : Prop} (move : Move leave c core)
    (own : leave → ∃ first, c.life = .exiting first) :
    ∃ k, core.life.notices = c.life.notices + k ∧
      core.exitWaits = Notifier.notify^[k] c.exitWaits := by
  cases move with
  | start unborn => exact ⟨0, by rw [unborn]; rfl, rfl⟩
  | accept runs reason => exact ⟨1, by rw [runs]; rfl, rfl⟩
  | finish may alive reason =>
    obtain ⟨first, exiting⟩ := own may
    exact ⟨1, by rw [exiting]; rfl, rfl⟩
  | post alive message => exact ⟨0, rfl, rfl⟩
  | relink links => exact ⟨0, rfl, rfl⟩

theorem Moves.notices {leave : Core → Prop} (moves : Moves leave c core)
    (own : ∀ c, leave c → ∃ first, c.life = .exiting first) :
    ∃ k, core.life.notices = c.life.notices + k ∧
      core.exitWaits = Notifier.notify^[k] c.exitWaits := by
  induction moves with
  | refl => exact ⟨0, rfl, rfl⟩
  | tail earlier move ih =>
    obtain ⟨k, passed, rung⟩ := ih
    obtain ⟨l, passed', rung'⟩ := move.notices (own _)
    refine ⟨l + k, by omega, ?_⟩
    rw [rung', rung, Function.iterate_add_apply]

/-- The notices that the waits for the exit of an actor get in an action. An end that is told from
outside is one notice, whatever phase it skips. -/
def notices (id : Identity) (action : Action) (before after : Core) : Nat :=
  let passed := after.life.notices - before.life.notices
  let left := (action.leaves? id).any before.exitWaits.holds
  (if left then 1 else 0) + if (action.given? id).isSome then min 1 passed else passed

/-- An end tells one of the waits for the exit that are asleep, whatever phase it skips. -/
theorem waiting_finish (c : Core) (reason : Exit) :
    (c.finish reason).2.exitWaits.waiting.length = c.exitWaits.waiting.length
      - min 1 ((c.finish reason).2.life.notices - c.life.notices) := by
  cases finished : c.isDone with
  | true =>
    rw [finish_done finished]
    simp
  | false =>
    have rung : (c.ended reason).exitWaits = c.exitWaits.notify := rfl
    have passed : min 1 ((c.ended reason).life.notices - c.life.notices) = 1 := by
      cases life : c.life with
      | done final => exact absurd (isDone_iff.mpr ⟨final, life⟩) (by simp [finished])
      | _ => rfl
    rw [finish_alive finished, passed, rung, Notifier.waiting_notify, List.length_tail]

end Core

namespace World

variable {w v : World} {id : Identity} {a b c : Actor} {trace : List Moment}

theorem Turn.discreet {action : Action} (turn : Turn id action a b) (discreet : a.core.Discreet) :
    b.core.Discreet := by
  cases turn with
  | polled polls core => exact core ▸ discreet.polled _ _ _
  | cancelled cancels core => exact core ▸ discreet.cancel _ _
  | ended ends core => exact core ▸ (Core.moves_finish ..).discreet discreet
  | moved idle endless moves => exact moves.discreet discreet

/-- Once an exit is recorded each notice leaves one wait less that has none. -/
theorem Turn.waiting {action : Action} (turn : Turn id action a b) (sound : a.core.Sound)
    (surfaced : b.core.life.surfaced? ≠ none) :
    b.core.exitWaits.waiting.length
      = a.core.exitWaits.waiting.length - a.core.notices id action b.core := by
  cases turn with
  | @polled errand sleeper ticket polls core =>
    have life : b.core.life = a.core.life := core ▸ (a.core.waited_polled ..).life
    have none : a.core.notices id action b.core = 0 := by
      simp [Core.notices, polls, Action.leaves?, Action.given?, life]
    rw [none, Nat.sub_zero]
    cases core ▸ a.core.polledExit errand sleeper ticket with
    | same exitWaits => rw [exitWaits]
    | settled seen waiting => rw [waiting]
    | suspended alive => exact absurd alive (life ▸ surfaced)
  | @cancelled bell ticket cancels core =>
    have life : b.core.life = a.core.life := core ▸ (a.core.waited_cancel ..).life
    cases bell with
    | mail =>
      have none : a.core.notices id action b.core = 0 := by
        simp [Core.notices, cancels, Action.leaves?, Action.given?, life]
      rw [none, core]
      rfl
    | exit =>
      have notices : a.core.notices id action b.core
          = if a.core.exitWaits.holds ticket then 1 else 0 := by
        simp [Core.notices, cancels, Action.leaves?, Action.given?, life]
      rw [notices, core]
      exact (sound .exit).length_cancel ticket
  | @ended reason ends core =>
    have notices : a.core.notices id action b.core
        = min 1 (b.core.life.notices - a.core.life.notices) := by
      simp [Core.notices, ends, Action.leaves?, Action.given?]
    rw [notices, core]
    exact a.core.waiting_finish reason
  | moved idle endless moves =>
    obtain ⟨k, passed, rung⟩ := moves.notices fun core may => may.2
    have notices : a.core.notices id action b.core = k := by
      simp [Core.notices, endless, Action.leaves?_idle idle, passed]
    rw [notices, rung, Notifier.waiting_notices, List.length_drop]

theorem Turn.surfaced {action : Action} (turn : Turn id action a b) {reason : Exit}
    (surfaced : a.core.life.surfaced? = some reason) : b.core.life.surfaced? = some reason := by
  cases turn with
  | polled polls core => rw [core, (a.core.waited_polled ..).life, surfaced]
  | cancelled cancels core => rw [core, (a.core.waited_cancel ..).life, surfaced]
  | ended ends core => exact core ▸ (Core.moves_finish ..).surfaced surfaced
  | moved idle endless moves => exact moves.surfaced surfaced

def notices (id : Identity) : List Moment → Nat
  | [] => 0
  | (w, action) :: later =>
    (match w.find? id, (w.act action).find? id with
      | some a, some b => a.core.notices id action b.core
      | _, _ => 0) + notices id later

theorem notices_cons {action : Action} (found : w.find? id = some a)
    (present : (w.act action).find? id = some b) (later : List Moment) :
    notices id ((w, action) :: later) = a.core.notices id action b.core + notices id later := by
  simp [notices, found, present]

theorem notices_snoc {action : Action} (found : w.find? id = some a)
    (present : (w.act action).find? id = some b) (earlier : List Moment) :
    notices id (earlier ++ [(w, action)])
      = notices id earlier + a.core.notices id action b.core := by
  induction earlier with
  | nil => simp [notices, found, present]
  | cons moment rest ih => rw [List.cons_append, notices, ih, notices, Nat.add_assoc]

theorem Course.discreet (course : Course {} trace v) (found : v.find? id = some a) :
    a.core.Discreet := by
  refine course.holds rooted_empty (Core.discreet_new id) (fun a found => (by cases found)) ?_ found
  intro m member a b found discreet turn
  exact turn.discreet discreet

theorem Course.waiting {reason : Exit} (course : Course w trace v) (rooted : w.Rooted)
    (found : w.find? id = some a) (sound : a.core.Sound)
    (surfaced : a.core.life.surfaced? = some reason) (present : v.find? id = some c) :
    c.core.life.surfaced? = some reason ∧ c.core.Sound ∧
      c.core.exitWaits.waiting.length = a.core.exitWaits.waiting.length - notices id trace := by
  refine course.tracks (P := fun trace core => core.life.surfaced? = some reason ∧ core.Sound ∧
    core.exitWaits.waiting.length = a.core.exitWaits.waiting.length - notices id trace) rooted found
    ⟨surfaced, sound, rfl⟩ ?_ present
  rintro earlier m - b c known present ⟨seen, sound, waiting⟩ turn
  have seen' := turn.surfaced seen
  refine ⟨seen', turn.sound sound, ?_⟩
  rw [turn.waiting sound (by simp [seen']), waiting, notices_snoc known present, Nat.sub_add_eq]

theorem notices_surfacing {reason : Exit} (action : Action) (alive : a.core.life.surfaced? = none)
    (surfaced : b.core.life.surfaced? = some reason) : 1 ≤ a.core.notices id action b.core := by
  have before : a.core.life.notices = 0 := by
    cases life : a.core.life <;> simp_all [Life.surfaced?, Life.notices]
  have after : 1 ≤ b.core.life.notices := by
    cases life : b.core.life <;> simp_all [Life.surfaced?, Life.notices]
  simp only [Core.notices, before]
  split <;> split <;> omega

/-- Once an exit is recorded its reason is what every new wait for it and every told one completes
with. The others stay suspended. All are told exactly if as many as were suspended when the exit was
recorded have been given notice since, of which the recording is one. -/
theorem exit_waits_told {earlier later : List Moment} {action : Action} {reason : Exit}
    (before : Course {} earlier w) (found : w.find? id = some a)
    (alive : a.core.life.surfaced? = none) (recorded : (w.act action).find? id = some b)
    (surfaced : b.core.life.surfaced? = some reason) (after : Course (w.act action) later v)
    (present : v.find? id = some c) :
    c.core.life.surfaced? = some reason ∧
    (∀ sleeper, (c.core.pollExit sleeper none).1 = .ready reason) ∧
    (∀ wait ∈ c.core.exitWaits.outstanding, ∀ sleeper,
      (c.core.pollExit sleeper (some wait.ticket)).1
        = if c.core.exitWaits.isNotified wait.ticket then .ready reason else .pending wait.ticket) ∧
    1 ≤ a.core.notices id action b.core ∧
    c.core.exitWaits.waiting.length
      = a.core.exitWaits.outstanding.length - notices id ((w, action) :: later) ∧
    ((∀ wait ∈ c.core.exitWaits.outstanding, c.core.exitWaits.isNotified wait.ticket = true) ↔
      a.core.exitWaits.outstanding.length ≤ notices id ((w, action) :: later)) := by
  have rooted := before.rooted rooted_empty
  have sound := before.sound found
  obtain ⟨missing, -⟩ | ⟨a', found', -, turn⟩ := found_act rooted action recorded
  · cases missing.symm.trans found
  cases found'.symm.trans found
  -- no wait was told before there was an exit, so all that were suspended wait for a notice
  have outstanding : a.core.exitWaits.outstanding = a.core.exitWaits.waiting := by
    rw [Notifier.outstanding, (before.discreet found alive).2, List.nil_append]
  obtain ⟨seen, sound', waiting⟩ :=
    after.waiting (rooted.act action) recorded (turn.sound sound) surfaced present
  have left : c.core.exitWaits.waiting.length
      = a.core.exitWaits.outstanding.length - notices id ((w, action) :: later) := by
    rw [waiting, turn.waiting sound (by simp [surfaced]), notices_cons found recorded, outstanding,
      Nat.sub_add_eq]
  refine ⟨seen, fun sleeper => ?_, fun wait member sleeper => ?_,
    notices_surfacing action alive surfaced, left, ?_⟩
  · simp [Core.pollExit, Core.poll, Core.rounds, Core.round, Core.lookExit, seen]
  · split
    · next told =>
      have sees : Core.lookExit (c.core.woken .exit (some wait.ticket))
          = some (reason, c.core.woken .exit (some wait.ticket)) := by
        rw [Core.lookExit, Core.woken, Core.life_setBell, seen]
        rfl
      exact Core.poll_seen (b := .exit) told sees sleeper
    · next untold => simp [Core.pollExit, Core.poll, Core.bell, untold]
  · rw [← Nat.sub_eq_zero_iff_le, ← left, List.length_eq_zero_iff]
    constructor
    · intro told
      refine List.eq_nil_iff_forall_not_mem.mpr fun wait member => ?_
      have silent := (sound' .exit).notified_waiting member
      cases silent.symm.trans (told wait (List.mem_append_right _ member))
    · intro none wait member
      rw [Notifier.outstanding, none, List.append_nil] at member
      exact Notifier.isNotified_iff.mpr ⟨wait, member, rfl⟩

def crowded : World :=
  let self : Identity := .ofSerial 1 .process
  run {} [.allocate .process (.process .empty), .operate self .start,
    .operate self (.poll .exit none none), .operate self (.poll .exit (some self) none)]

def crash : Action :=
  .operate (.ofSerial 1 .process) (.signal (.ofSerial 2 .process) (.atom ⟨"crash"⟩))

theorem crowded_told_in_turn : ∃ a b c, crowded.find? (.ofSerial 1 .process) = some a ∧
    a.core.life.surfaced? = none ∧ (crowded.act crash).find? (.ofSerial 1 .process) = some b ∧
    b.core.life.surfaced? = some (.atom ⟨"crash"⟩) ∧
    ((crowded.act crash).act (.operate (.ofSerial 1 .process) (.cancel .exit 0))).find?
      (.ofSerial 1 .process) = some c ∧
    ∀ wait ∈ c.core.exitWaits.outstanding, c.core.exitWaits.isNotified wait.ticket = true := by
  let leaving : Action := .operate (.ofSerial 1 .process) (.cancel .exit 0)
  obtain ⟨a, found, alive, two⟩ : ∃ a, crowded.find? (.ofSerial 1 .process) = some a ∧
    a.core.life.surfaced? = none ∧ a.core.exitWaits.outstanding.length = 2 := ⟨_, rfl, rfl, rfl⟩
  obtain ⟨b, recorded, surfaced⟩ : ∃ b, (crowded.act crash).find? (.ofSerial 1 .process) = some b ∧
    b.core.life.surfaced? = some (.atom ⟨"crash"⟩) := ⟨_, rfl, rfl⟩
  obtain ⟨c, present⟩ : ∃ c,
    ((crowded.act crash).act leaving).find? (.ofSerial 1 .process) = some c := ⟨_, rfl⟩
  have before : Course {} _ crowded := course_run {} _
  have after : Course (crowded.act crash) [(crowded.act crash, leaving)] _ :=
    Course.refl.act leaving
  obtain ⟨-, -, -, -, -, told⟩ :=
    exit_waits_told before found alive recorded surfaced after present
  have enough : 2 ≤ notices (.ofSerial 1 .process)
      [(crowded, crash), (crowded.act crash, leaving)] := by decide
  exact ⟨a, b, c, found, alive, recorded, surfaced, present, told.mpr (two ▸ enough)⟩

/-- With two waits suspended only the first one is told of the exit. The second one, by which the
driver waits, stays suspended, and the driver goes on with the body. -/
theorem second_exit_wait_sleeps : ∃ a, (crowded.act crash).find? (.ofSerial 1 .process) = some a ∧
    a.core.life.surfaced? = some (.atom ⟨"crash"⟩) ∧
    a.core.exitWaits.outstanding = [⟨0, none⟩, ⟨1, some (.ofSerial 1 .process)⟩] ∧
    a.core.exitWaits.isNotified 1 = false ∧
    (a.core.pollExit (some (.ofSerial 1 .process)) (some 1)).1 = .pending 1 ∧
    (Node.drive (fun polls n => (.suspended (polls + 1), n)) (fun _ n => n) (.ofSerial 1 .process)
      (some 1) 0 { world := crowded.act crash }).1 = .suspended 1 1 :=
  ⟨_, rfl, rfl, by decide, by decide, rfl, rfl⟩

end World

end Actors
