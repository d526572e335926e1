import Actors.Proofs.Course
import Actors.Proofs.Waiting

/-! Waking. A notification goes to a wait that was suspended without one, and the action that hands
it out calls the driver of the sleeper. -/
namespace Actors

namespace Notifier

variable {n : Notifier}

theorem waiting_cancel (n : Notifier) (ticket : Nat) :
    (n.cancel ticket).waiting.Sublist n.waiting := by
  unfold cancel
  split
  · rw [waiting_notify]
    exact List.tail_sublist _
  · exact List.filter_sublist

def Hands (before after : Notifier) : Prop :=
  ∀ wait ∈ after.notified, wait ∈ before.notified ∨ wait ∈ before.waiting

theorem hands_notify (n : Notifier) : n.Hands n.notify := by
  intro wait member
  rw [notified_notify] at member
  rcases List.mem_append.mp member with old | first
  · exact .inl old
  · exact .inr (List.mem_of_mem_head? (Option.mem_toList.mp first))

theorem hands_consume (n : Notifier) (ticket : Nat) : n.Hands (n.consume ticket) :=
  fun _ member => .inl (List.mem_of_mem_filter member)

theorem Hands.refl (n : Notifier) : n.Hands n := fun _ member => .inl member

theorem hands_cancel (n : Notifier) (ticket : Nat) : n.Hands (n.cancel ticket) := by
  unfold cancel
  split
  · intro wait member
    rcases hands_notify _ wait member with old | waiting
    · exact .inl (List.mem_of_mem_filter old)
    · exact .inr waiting
  · exact .refl n

theorem notified_cancel {ticket : Nat} (silent : n.isNotified ticket = false) :
    (n.cancel ticket).notified = n.notified := by
  simp [cancel, silent]

theorem mem_awakened {before after : Notifier} {wait : Wait} {sleeper : Identity}
    (told : wait ∈ after.notified) (silent : before.isNotified wait.ticket = false)
    (sleeps : wait.sleeper = some sleeper) : sleeper ∈ awakened before after := by
  refine List.mem_filterMap.mpr ⟨wait, List.mem_filter.mpr ⟨told, ?_⟩, sleeps⟩
  simp [silent]

structure Lasting (P : Notifier → Prop) : Prop where
  empty : P {}
  notify : ∀ ⦃n⦄, P n → P n.notify
  suspend : ∀ ⦃n⦄, P n → ∀ sleeper, P (({ n with permit := false } : Notifier).suspend sleeper)
  consume : ∀ ⦃n⦄, P n → ∀ ticket, P (n.consume ticket)
  cancel : ∀ ⦃n⦄, P n → ∀ ticket, P (n.cancel ticket)

theorem lasting_sound : Lasting Sound where
  empty := sound_empty
  notify _ sound := sound.notify
  suspend _ sound := (sound.withPermit false).suspend
  consume _ sound := sound.consume
  cancel _ sound := sound.cancel

theorem Sound.mem_notified (sound : n.Sound) {wait : Wait} (member : wait ∈ n.outstanding)
    (told : n.isNotified wait.ticket = true) : wait ∈ n.notified := by
  rcases List.mem_append.mp member with notified | waiting
  · exact notified
  · cases told.symm.trans (sound.notified_waiting waiting)

end Notifier

namespace Core

variable {c core : Core} {b : Bell}

def Bells (P : Notifier → Prop) (c : Core) : Prop := ∀ b, P (c.bell b)

def Sound (c : Core) : Prop := ∀ b, (c.bell b).Sound

theorem Move.bell {leave : Prop} (move : Move leave c core) (b : Bell) :
    core.bell b = c.bell b ∨ core.bell b = (c.bell b).notify := by
  cases move with
  | start unborn => exact .inl (by cases b <;> rfl)
  | accept runs reason => exact .inr (by cases b <;> rfl)
  | finish may alive reason => exact .inr (by cases b <;> rfl)
  | post alive message =>
    cases b with
    | mail => exact .inr rfl
    | exit => exact .inl rfl
  | relink links => exact .inl (by cases b <;> rfl)

theorem moves_finish (c : Core) (reason : Exit) : Moves (fun _ => True) c (c.finish reason).2 := by
  cases finished : c.isDone with
  | true =>
    rw [finish_done finished]
    exact .refl c
  | false =>
    rw [finish_alive finished]
    exact .of_move (.finish trivial finished reason)

section Lasting

variable {P : Notifier → Prop} {waits : Notifier}

theorem Bells.setBell (held : c.Bells P) (fresh : P waits) : (c.setBell b waits).Bells P := by
  intro other
  by_cases same : other = b
  · subst same
    rwa [bell_setBell]
  · rw [bell_setBell_ne same]
    exact held other

variable (lasting : Notifier.Lasting P)
include lasting

theorem bells_new (id : Identity) : Bells P { id } := by
  intro b
  cases b <;> exact lasting.empty

theorem Bells.cancel (held : c.Bells P) (b : Bell) (ticket : Nat) :
    (c.cancel b ticket).Bells P :=
  held.setBell (lasting.cancel (held b) ticket)

theorem Bells.woken (held : c.Bells P) (b : Bell) (ticket : Option Nat) :
    (c.woken b ticket).Bells P := by
  cases ticket with
  | none => exact held
  | some t => exact held.setBell (lasting.consume (held b) t)

theorem Move.bells {leave : Prop} (move : Move leave c core) (held : c.Bells P) :
    core.Bells P := by
  intro b
  rcases move.bell b with same | rung
  · exact same ▸ held b
  · exact rung ▸ lasting.notify (held b)

theorem Moves.bells {leave : Core → Prop} (moves : Moves leave c core) (held : c.Bells P) :
    core.Bells P := by
  induction moves with
  | refl => exact held
  | tail earlier move ih => exact move.bells lasting ih

theorem Polled.bells {α : Type} {look : Look α} {idle : Core → Prop} {sleeper : Option Identity}
    {ticket : Option Nat} {result : Poll α × Core}
    (polled : Polled b look idle sleeper c ticket result) (watches : Watches look idle)
    (held : c.Bells P) : result.2.Bells P := by
  cases polled with
  | unnotified silent => exact held
  | settled busy told looked =>
    intro other
    rw [watches.keeps looked]
    exact held.woken lasting b ticket other
  | suspended nothing told =>
    have woken := held.woken lasting b ticket
    exact woken.setBell (lasting.suspend (woken b) sleeper)

end Lasting

theorem sound_new (id : Identity) : Sound { id } := bells_new Notifier.lasting_sound id

theorem Sound.woken (sound : c.Sound) (b : Bell) (ticket : Option Nat) :
    (c.woken b ticket).Sound :=
  Bells.woken Notifier.lasting_sound sound b ticket

section Polls

variable {α : Type} {look : Look α} {idle : Core → Prop} {sleeper : Option Identity}
  {ticket : Option Nat} {result : Poll α × Core}

def Hands (c core : Core) : Prop := ∀ b, (c.bell b).Hands (core.bell b)

theorem Hands.refl (c : Core) : c.Hands c := fun b => .refl (c.bell b)

theorem Hands.setBell {waits : Notifier} (hands : (c.bell b).Hands waits) :
    c.Hands (c.setBell b waits) := by
  intro other
  by_cases same : other = b
  · subst same
    rwa [bell_setBell]
  · rw [bell_setBell_ne same]
    exact .refl _

theorem hands_cancel (c : Core) (b : Bell) (ticket : Nat) : c.Hands (c.cancel b ticket) :=
  .setBell (Notifier.hands_cancel _ ticket)

theorem hands_woken (c : Core) (b : Bell) (ticket : Option Nat) : c.Hands (c.woken b ticket) := by
  cases ticket with
  | none => exact .refl c
  | some t => exact .setBell (Notifier.hands_consume _ t)

theorem Polled.hands (polled : Polled b look idle sleeper c ticket result)
    (watches : Watches look idle) : c.Hands result.2 := by
  cases polled with
  | unnotified silent => exact .refl c
  | settled busy told looked =>
    intro other
    rw [watches.keeps looked]
    exact c.hands_woken b ticket other
  | suspended nothing told =>
    intro other
    have woken := c.hands_woken b ticket other
    by_cases same : other = b
    · subst same
      rw [asleep, bell_setBell]
      exact woken
    · rw [asleep, bell_setBell_ne same]
      exact woken

/-- A wait that stays suspended holds no notification. -/
theorem Polled.silent {t : Nat} (polled : Polled b look idle sleeper c ticket (.pending t, core))
    (sound : c.Sound) : (core.bell b).isNotified t = false := by
  cases polled with
  | unnotified silent => exact silent
  | suspended nothing told =>
    have woken := ((sound.woken b ticket b).withPermit false).suspend sleeper
    have member : ⟨_, sleeper⟩ ∈ (({ (c.woken b ticket).bell b with permit := false } :
        Notifier).suspend sleeper).waiting := List.mem_append_right _ List.mem_cons_self
    rw [asleep, bell_setBell, ← entered_woken c b ticket]
    exact woken.notified_waiting member

end Polls

theorem polled_timed (c : Core) (expired : Bool) (sleeper : Option Identity) (ticket : Option Nat) :
    c.polled (.timed expired) sleeper ticket = c.polled .mail sleeper ticket ∨
      ∃ t, c.pollMail sleeper ticket = (.pending t, c.polled .mail sleeper ticket) ∧
        c.polled (.timed expired) sleeper ticket
          = (c.polled .mail sleeper ticket).cancel .mail t := by
  unfold polled pollTimed
  cases c.pollMail sleeper ticket with
  | mk answer core =>
    cases answer with
    | ready value => exact .inl rfl
    | pending t =>
      cases expired with
      | true => exact .inr ⟨t, rfl, rfl⟩
      | false => exact .inl rfl

theorem Bells.polled {P : Notifier → Prop} (lasting : Notifier.Lasting P) (held : c.Bells P)
    (errand : Errand) (sleeper : Option Identity) (ticket : Option Nat) :
    (c.polled errand sleeper ticket).Bells P := by
  have mail : (c.polled .mail sleeper ticket).Bells P :=
    (poll_polled watches_lookMail sleeper ticket c).bells lasting watches_lookMail held
  cases errand with
  | mail => exact mail
  | message =>
    exact (poll_polled watches_lookMessage sleeper ticket c).bells lasting watches_lookMessage held
  | exit =>
    exact (poll_polled watches_lookExit sleeper ticket c).bells lasting watches_lookExit held
  | timed expired =>
    rcases c.polled_timed expired sleeper ticket with same | ⟨t, -, given⟩
    · exact same ▸ mail
    · exact given ▸ mail.cancel lasting .mail t

theorem hands_polled (sound : c.Sound) (errand : Errand) (sleeper : Option Identity)
    (ticket : Option Nat) : c.Hands (c.polled errand sleeper ticket) := by
  have polled := poll_polled watches_lookMail (b := .mail) sleeper ticket c
  have mail : c.Hands (c.polled .mail sleeper ticket) := polled.hands watches_lookMail
  cases errand with
  | mail => exact mail
  | message => exact (poll_polled watches_lookMessage sleeper ticket c).hands watches_lookMessage
  | exit => exact (poll_polled watches_lookExit sleeper ticket c).hands watches_lookExit
  | timed expired =>
    rcases c.polled_timed expired sleeper ticket with same | ⟨t, pending, given⟩
    · exact same ▸ mail
    · -- the wait that is given up had no notification to pass on
      have pending : poll .mail lookMail sleeper ticket c = _ := pending
      rw [pending] at polled
      intro b
      cases b with
      | exit => exact given ▸ mail .exit
      | mail =>
        intro wait member
        rw [given, cancel, bell_setBell, Notifier.notified_cancel (polled.silent sound)] at member
        exact mail .mail wait member

theorem Move.waiting {leave : Prop} (move : Move leave c core) (b : Bell) :
    (core.bell b).waiting.Sublist (c.bell b).waiting := by
  rcases move.bell b with same | rung
  · rw [same]
  · rw [rung, Notifier.waiting_notify]
    exact List.tail_sublist _

theorem Move.hands {leave : Prop} (move : Move leave c core) : c.Hands core := by
  intro b
  rcases move.bell b with same | rung
  · exact same ▸ .refl _
  · exact rung ▸ Notifier.hands_notify _

def Rings (called : List Identity) (before after : Notifier) : Prop :=
  ∀ wait ∈ after.notified, wait ∈ before.notified ∨
    wait ∈ before.waiting ∧ ∀ sleeper, wait.sleeper = some sleeper → sleeper ∈ called

theorem Hands.rings (hands : c.Hands core) (sound : c.Sound) (b : Bell) :
    Rings (c.awakened core) (c.bell b) (core.bell b) := by
  intro wait told
  refine (hands b wait told).imp_right fun waiting => ⟨waiting, fun sleeper sleeps => ?_⟩
  have called := Notifier.mem_awakened told ((sound b).notified_waiting waiting) sleeps
  cases b with
  | mail => exact List.mem_append_left _ called
  | exit => exact List.mem_append_right _ called

end Core

namespace World

variable {w v : World} {ends : Actor → Prop} {id : Identity} {a c : Actor} {b : Bell}

structure Roused (b : Bell) (w v : World) (before after : Core) : Prop where
  sound : after.Sound
  waiting : (after.bell b).waiting.Sublist (before.bell b).waiting
  called : ∃ called, v.calls = w.calls ++ called ∧
    Core.Rings called (before.bell b) (after.bell b)

theorem Roused.refl {core : Core} (sound : core.Sound) (calls : v.calls = w.calls) :
    Roused b w v core core :=
  ⟨sound, .refl _, [], by simp [calls], fun _ member => .inl member⟩

theorem Roused.trans {u : World} {first second third : Core} (one : Roused b w v first second)
    (two : Roused b v u second third) : Roused b w u first third := by
  obtain ⟨-, waiting, called, calls, rings⟩ := one
  obtain ⟨sound, waiting', called', calls', rings'⟩ := two
  refine ⟨sound, waiting'.trans waiting, called ++ called', by simp [calls', calls], ?_⟩
  intro wait told
  rcases rings' wait told with old | ⟨slept, woken⟩
  · refine (rings wait old).imp_right fun ⟨slept, woken⟩ => ⟨slept, fun sleeper sleeps => ?_⟩
    exact List.mem_append_left _ (woken sleeper sleeps)
  · refine .inr ⟨waiting.subset slept, fun sleeper sleeps => ?_⟩
    exact List.mem_append_right _ (woken sleeper sleeps)

theorem Deed.roused (deed : Deed ends w v) (found : w.find? id = some a) (sound : a.core.Sound)
    (b : Bell) : ∃ c, v.find? id = some c ∧ Roused b w v a.core c.core := by
  cases deed with
  | write journal => exact ⟨a, found, .refl sound rfl⟩
  | @put d core present move =>
    rw [find?_putCore]
    by_cases same : id = d.id
    · subst same
      cases found.symm.trans present
      have sound' : core.Sound := move.bells Notifier.lasting_sound sound
      exact ⟨_, if_pos rfl, sound', move.waiting b, _, rfl, move.hands.rings sound b⟩
    · rw [if_neg same]
      refine ⟨a, found, sound, .refl _, d.core.awakened core, rfl, fun wait told => .inl told⟩

theorem Deeds.roused (deeds : Deeds ends w v) (found : w.find? id = some a) (sound : a.core.Sound)
    (b : Bell) : ∃ c, v.find? id = some c ∧ Roused b w v a.core c.core := by
  induction deeds with
  | refl => exact ⟨a, found, .refl sound rfl⟩
  | tail earlier deed ih =>
    obtain ⟨c, present, first⟩ := ih
    obtain ⟨d, last, second⟩ := deed.roused present first.sound b
    exact ⟨d, last, first.trans second⟩

theorem Turn.bells {P : Notifier → Prop} (lasting : Notifier.Lasting P) {action : Action}
    (turn : Turn id action a c) (held : a.core.Bells P) : c.core.Bells P := by
  cases turn with
  | polled polls core => exact core ▸ held.polled lasting _ _ _
  | cancelled cancels core => exact core ▸ held.cancel lasting _ _
  | ended ends core => exact core ▸ (Core.moves_finish ..).bells lasting held
  | moved idle endless moves => exact moves.bells lasting held

theorem Turn.sound {action : Action} (turn : Turn id action a c) (sound : a.core.Sound) :
    c.core.Sound :=
  turn.bells Notifier.lasting_sound sound

theorem changeCore_rings (found : w.find? id = some a) (sound : a.core.Sound)
    (b : Bell) (other : Identity) {f : Core → Core} (hands : a.core.Hands (f a.core)) :
    ∃ called, (w.changeCore other f).calls = w.calls ++ called ∧
      Core.Rings called (a.core.bell b)
        ((if other = id then { a with core := f a.core } else a).core.bell b) := by
  by_cases same : other = id
  · subst same
    rw [if_pos rfl, changeCore_found found]
    exact ⟨_, rfl, hands.rings sound b⟩
  · rw [if_neg same]
    cases present : w.find? other with
    | none =>
      rw [changeCore_missing present]
      exact ⟨[], by simp, fun wait told => .inl told⟩
    | some d =>
      rw [changeCore_found present]
      exact ⟨_, rfl, fun wait told => .inl told⟩

/-- An operation calls the sleepers of all the waits that it hands a notification to. -/
theorem operate_rings (keyed : w.Keyed) (found : w.find? id = some a) (sound : a.core.Sound)
    (b : Bell) (other : Identity) (op : Operation)
    (present : (w.operate other op).find? id = some c) :
    ∃ called, (w.operate other op).calls = w.calls ++ called ∧
      Core.Rings called (a.core.bell b) (c.core.bell b) := by
  have deeds {ends : Actor → Prop} (deeds : Deeds ends w (w.operate other op)) :
      ∃ called, (w.operate other op).calls = w.calls ++ called ∧
        Core.Rings called (a.core.bell b) (c.core.bell b) := by
    obtain ⟨d, last, roused⟩ := deeds.roused found sound b
    cases last.symm.trans present
    exact roused.called
  cases op with
  | poll errand sleeper ticket =>
    cases (find?_changeCore keyed found other _).symm.trans present
    exact changeCore_rings found sound b other (Core.hands_polled sound _ _ _)
  | cancel bell ticket =>
    cases (find?_changeCore keyed found other _).symm.trans present
    exact changeCore_rings found sound b other (Core.hands_cancel _ _ _)
  | setFlags flags =>
    obtain ⟨d, last, -, core⟩ := turn_setFlags found
    cases last.symm.trans present
    refine ⟨[], ?_, fun wait told => .inl (core ▸ told)⟩
    rw [List.append_nil, operate, setFlags]
    split
    · rfl
    · rw [setRole]
      split <;> rfl
  | terminate reason => exact deeds (deeds_terminate keyed other reason)
  | _ =>
    exact deeds (deeds_operate keyed other rfl (fun flags same => by cases same)
      fun reason same => by cases same)

structure Wakes (id : Identity) (b : Bell) (wait : Wait) (m : Moment) : Prop where
  slept : ∃ a, m.1.find? id = some a ∧ wait ∈ (a.core.bell b).waiting
  told : ∃ a, (m.1.act m.2).find? id = some a ∧ wait ∈ (a.core.bell b).notified
  called : ∃ called, (m.1.act m.2).calls = m.1.calls ++ called ∧
    ∀ sleeper, wait.sleeper = some sleeper → sleeper ∈ called

/-- A wait that holds a notification held it before or got it in this action. -/
theorem act_wakes (rooted : w.Rooted) (found : w.find? id = some a) (sound : a.core.Sound)
    {b : Bell} {action : Action} (present : (w.act action).find? id = some c) {wait : Wait}
    (told : wait ∈ (c.core.bell b).notified) :
    wait ∈ (a.core.bell b).notified ∨ Wakes id b wait (w, action) := by
  have unchanged (still : ∀ other op, action ≠ .operate other op) :
      wait ∈ (a.core.bell b).notified := by
    obtain ⟨-, freed⟩ | same := still_act rooted found still
    · cases freed.symm.trans present
    · cases same.symm.trans present
      exact told
  cases action with
  | operate other op =>
    obtain ⟨called, calls, rings⟩ := operate_rings rooted.keyed found sound b other op present
    exact (rings wait told).imp_right fun ⟨waiting, woken⟩ =>
      ⟨⟨a, found, waiting⟩, ⟨c, present, told⟩, called, calls, woken⟩
  | _ => exact .inl (unchanged fun other op same => by cases same)

namespace Course

variable {trace : List Moment}

theorem bells {P : Notifier → Prop} (lasting : Notifier.Lasting P) (course : Course {} trace v)
    (found : v.find? id = some a) : a.core.Bells P :=
  course.holds rooted_empty (Core.bells_new lasting id) (fun a found => (by cases found))
    (fun _ _ _ _ _ held turn => turn.bells lasting held) found

theorem sound (course : Course {} trace v) (found : v.find? id = some a) : a.core.Sound :=
  course.bells Notifier.lasting_sound found

/-- Every notification that a wait holds was handed to it by an action that called its sleeper. -/
theorem wakes (course : Course {} trace v) (found : v.find? id = some a) {b : Bell} {wait : Wait}
    (told : wait ∈ (a.core.bell b).notified) : ∃ m ∈ trace, Wakes id b wait m := by
  induction course generalizing a with
  | refl => cases found
  | @act trace w earlier action ih =>
    have rooted := earlier.rooted rooted_empty
    obtain ⟨-, core⟩ | ⟨c, present, -, turn⟩ := found_act rooted action found
    · rw [core] at told
      cases b <;> cases told
    · obtain old | wakes := act_wakes rooted present (earlier.sound present) found told
      · obtain ⟨m, member, wakes⟩ := ih present old
        exact ⟨m, List.mem_append_left _ member, wakes⟩
      · exact ⟨_, List.mem_append_right _ List.mem_cons_self, wakes⟩
  | drift earlier calls journal ih => exact ih found told

end Course

end World

end Actors
