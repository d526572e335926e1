import Actors.Proofs.Operation

/-! Waits. The waits that are suspended at a notifier are told apart by their tickets. A poll leaves
a wait asleep that holds no notification; any other wait it settles if there is something to see,
and otherwise suspends, with no permit left. -/
namespace Actors

namespace Notifier

variable {n : Notifier}

/-- The suspended waits, those that hold a notification first. -/
def outstanding (n : Notifier) : List Wait := n.notified ++ n.waiting

structure Sound (n : Notifier) : Prop where
  distinct : (n.outstanding.map (·.ticket)).Nodup
  issued : ∀ wait ∈ n.outstanding, wait.ticket < n.entered

theorem sound_empty : Sound {} := ⟨.nil, fun wait member => by cases member⟩

theorem Sound.sublist {m : Notifier} (sound : n.Sound) (fewer : m.outstanding.Sublist n.outstanding)
    (entered : m.entered = n.entered) : m.Sound :=
  ⟨sound.distinct.sublist (fewer.map _),
    fun wait member => entered ▸ sound.issued wait (fewer.subset member)⟩

@[simp] theorem outstanding_notify (n : Notifier) : n.notify.outstanding = n.outstanding := by
  unfold notify
  split
  · rfl
  · next waiting => simp [outstanding, waiting]

@[simp] theorem waiting_notify (n : Notifier) : n.notify.waiting = n.waiting.tail := by
  unfold notify
  split
  · next waiting => simp [waiting]
  · next waiting => simp [waiting]

theorem notified_notify (n : Notifier) :
    n.notify.notified = n.notified ++ n.waiting.head?.toList := by
  unfold notify
  split
  · next waiting => simp [waiting]
  · next waiting => simp [waiting]

@[simp] theorem entered_notify (n : Notifier) : n.notify.entered = n.entered := by
  unfold notify
  split <;> rfl

theorem Sound.notify (sound : n.Sound) : n.notify.Sound :=
  sound.sublist (by simp) (by simp)

theorem Sound.suspend (sound : n.Sound) (sleeper : Option Identity) :
    (n.suspend sleeper).Sound := by
  have more : (n.suspend sleeper).outstanding = n.outstanding ++ [⟨n.entered, sleeper⟩] := by
    simp [Notifier.suspend, outstanding]
  refine ⟨?_, fun wait member => ?_⟩
  · rw [more, List.map_append]
    refine List.nodup_append.mpr ⟨sound.distinct, List.nodup_singleton _, ?_⟩
    intro ticket old other last
    obtain ⟨wait, member, rfl⟩ := List.mem_map.mp old
    rw [List.map_singleton, List.mem_singleton] at last
    exact last ▸ (sound.issued wait member).ne
  · rw [more] at member
    rcases List.mem_append.mp member with old | last
    · exact (sound.issued wait old).trans (Nat.lt_succ_self _)
    · rw [List.mem_singleton.mp last]
      exact Nat.lt_succ_self _

theorem Sound.consume (sound : n.Sound) (ticket : Nat) : (n.consume ticket).Sound :=
  sound.sublist (List.Sublist.append_right List.filter_sublist _) rfl

theorem Sound.cancel (sound : n.Sound) (ticket : Nat) : (n.cancel ticket).Sound := by
  unfold Notifier.cancel
  split
  · exact (sound.consume ticket).notify
  · exact sound.sublist (List.Sublist.append_left List.filter_sublist _) rfl

theorem Sound.withPermit (sound : n.Sound) (permit : Bool) : ({ n with permit } : Notifier).Sound :=
  sound.sublist (.refl _) rfl

theorem isNotified_iff {ticket : Nat} :
    n.isNotified ticket = true ↔ ∃ wait ∈ n.notified, wait.ticket = ticket := by
  simp [isNotified]

/-- The wait that a notification goes to held none before. -/
theorem Sound.notified_waiting (sound : n.Sound) {wait : Wait} (member : wait ∈ n.waiting) :
    n.isNotified wait.ticket = false := by
  rw [Bool.eq_false_iff]
  intro told
  obtain ⟨other, earlier, same⟩ := isNotified_iff.mp told
  have distinct := sound.distinct
  rw [outstanding, List.map_append] at distinct
  exact (List.nodup_append.mp distinct).2.2 _ (List.mem_map_of_mem earlier) _
    (List.mem_map_of_mem member) same

end Notifier

namespace Core

variable {α : Type} {b : Bell} {look : Look α} {c : Core}

@[simp] theorem bell_setBell (c : Core) (b : Bell) (waits : Notifier) :
    (c.setBell b waits).bell b = waits := by
  cases b <;> rfl

theorem bell_setBell_ne {b other : Bell} (different : other ≠ b) (c : Core) (waits : Notifier) :
    (c.setBell b waits).bell other = c.bell other := by
  cases b <;> cases other <;> first | rfl | exact absurd rfl different

@[simp] theorem life_setBell (c : Core) (b : Bell) (waits : Notifier) :
    (c.setBell b waits).life = c.life := by
  cases b <;> rfl

@[simp] theorem queue_setBell (c : Core) (b : Bell) (waits : Notifier) :
    (c.setBell b waits).mailbox.queue = c.mailbox.queue := by
  cases b <;> rfl

structure Watches (look : Look α) (idle : Core → Prop) : Prop where
  none_iff : ∀ c, look c = none ↔ idle c
  blind : ∀ c b waits, idle (c.setBell b waits) ↔ idle c
  keeps : ∀ ⦃c value core⦄, look c = some (value, core) → ∀ b, core.bell b = c.bell b

def woken (c : Core) (b : Bell) : Option Nat → Core
  | none => c
  | some ticket => c.setBell b ((c.bell b).consume ticket)

theorem entered_woken (c : Core) (b : Bell) (ticket : Option Nat) :
    ((c.woken b ticket).bell b).entered = (c.bell b).entered := by
  cases ticket with
  | none => rfl
  | some t =>
    rw [woken, bell_setBell]
    rfl

theorem waiting_woken (c : Core) (b : Bell) (ticket : Option Nat) :
    ((c.woken b ticket).bell b).waiting = (c.bell b).waiting := by
  cases ticket with
  | none => rfl
  | some t =>
    rw [woken, bell_setBell]
    rfl

theorem Watches.woken {idle : Core → Prop} (watches : Watches look idle) (c : Core) (b : Bell)
    (ticket : Option Nat) : idle (c.woken b ticket) ↔ idle c := by
  cases ticket with
  | none => exact .rfl
  | some t => exact watches.blind c b _

def asleep (c : Core) (b : Bell) (sleeper : Option Identity) : Core :=
  c.setBell b (({ c.bell b with permit := false } : Notifier).suspend sleeper)

inductive Polled (b : Bell) (look : Look α) (idle : Core → Prop) (sleeper : Option Identity)
    (c : Core) : Option Nat → Poll α × Core → Prop
  | unnotified {ticket : Nat} (silent : (c.bell b).isNotified ticket = false) :
      Polled b look idle sleeper c (some ticket) (.pending ticket, c)
  | settled {ticket : Option Nat} {value : α} {core : Core} (busy : ¬idle c)
      (told : ∀ t, ticket = some t → (c.bell b).isNotified t = true)
      (looked : look (c.woken b ticket) = some (value, core)) :
      Polled b look idle sleeper c ticket (.ready value, core)
  | suspended {ticket : Option Nat} (nothing : idle c)
      (told : ∀ t, ticket = some t → (c.bell b).isNotified t = true) :
      Polled b look idle sleeper c ticket
        (.pending (c.bell b).entered, (c.woken b ticket).asleep b sleeper)

theorem rounds_seen {value : α} {core : Core} (seen : look c = some (value, core))
    (sleeper : Option Identity) : rounds b look sleeper 2 c = (.ready value, core) := by
  simp only [rounds, round, seen]

theorem poll_told {ticket : Nat} (told : (c.bell b).isNotified ticket = true)
    (sleeper : Option Identity) :
    poll b look sleeper (some ticket) c = rounds b look sleeper 2 (c.woken b (some ticket)) :=
  if_pos told

theorem poll_silent {ticket : Nat} (silent : (c.bell b).isNotified ticket = false)
    (sleeper : Option Identity) :
    poll b look sleeper (some ticket) c = (.pending ticket, c) :=
  if_neg (Bool.not_eq_true _ ▸ silent)

theorem poll_seen {value : α} {core : Core} {ticket : Nat}
    (told : (c.bell b).isNotified ticket = true)
    (seen : look (c.woken b (some ticket)) = some (value, core)) (sleeper : Option Identity) :
    (poll b look sleeper (some ticket) c).1 = .ready value := by
  rw [poll_told told, rounds_seen seen]

section Watched

variable {idle : Core → Prop} (watches : Watches look idle)
include watches

theorem rounds_idle (sleeper : Option Identity) (nothing : idle c) :
    rounds b look sleeper 2 c = (.pending (c.bell b).entered, c.asleep b sleeper) := by
  have unseen : look c = none := (watches.none_iff c).mpr nothing
  have unseen' (waits : Notifier) : look (c.setBell b waits) = none :=
    (watches.none_iff _).mpr ((watches.blind c b waits).mpr nothing)
  unfold rounds round
  -- a stored permit costs one round, and the next one finds none
  cases permit : (c.bell b).permit with
  | true =>
    simp only [unseen, Notifier.enter, permit, if_true]
    simp only [rounds, round, unseen', Notifier.enter, bell_setBell, Bool.false_eq_true, if_false]
    cases b <;> rfl
  | false =>
    simp only [unseen, Notifier.enter, permit, Bool.false_eq_true, if_false]
    unfold asleep
    rw [show ({ c.bell b with permit := false } : Notifier) = c.bell b by rw [← permit]]

/-- A poll leaves a wait asleep, settles it, or suspends it with no permit left. -/
theorem poll_polled (sleeper : Option Identity) (ticket : Option Nat) (c : Core) :
    Polled b look idle sleeper c ticket (poll b look sleeper ticket c) := by
  have awake (told : ∀ t, ticket = some t → (c.bell b).isNotified t = true) :
      Polled b look idle sleeper c ticket (rounds b look sleeper 2 (c.woken b ticket)) := by
    have same : idle (c.woken b ticket) ↔ idle c := watches.woken c b ticket
    cases looked : look (c.woken b ticket) with
    | none =>
      have nothing := (watches.none_iff _).mp looked
      rw [rounds_idle watches sleeper nothing, entered_woken]
      exact .suspended (same.mp nothing) told
    | some found =>
      obtain ⟨value, core⟩ := found
      have busy : ¬idle c := fun nothing => by
        cases looked.symm.trans ((watches.none_iff _).mpr (same.mpr nothing))
      rw [rounds_seen looked]
      exact .settled busy told looked
  cases ticket with
  | none => exact awake fun t absurd => by cases absurd
  | some t =>
    cases told : (c.bell b).isNotified t with
    | true =>
      rw [poll_told told]
      refine awake fun s same => ?_
      cases same
      exact told
    | false =>
      rw [poll_silent told]
      exact .unnotified told

end Watched

def Idle (c : Core) : Prop := c.mailbox.queue = [] ∧ c.life.surfaced? = none

theorem watches_lookMail : Watches lookMail Idle where
  none_iff c := by
    cases surfaced : c.life.surfaced? <;> cases queue : c.mailbox.queue <;>
      simp [lookMail, ensureNoExit, Idle, Mailbox.isEmpty, surfaced, queue]
  blind c b waits := by simp [Idle]
  keeps := by
    intro c value core looked b
    unfold lookMail at looked
    split at looked
    · cases looked
      rfl
    · split at looked
      · cases looked
      · cases looked
        rfl

theorem watches_lookMessage : Watches lookMessage Idle where
  none_iff c := by
    cases surfaced : c.life.surfaced? <;> cases queue : c.mailbox.queue <;>
      simp [lookMessage, lookMail, ensureNoExit, Idle, Mailbox.isEmpty, Mailbox.pop?, surfaced,
        queue]
  blind c b waits := by simp [Idle]
  keeps := by
    intro c value core looked b
    unfold lookMessage at looked
    split at looked
    · cases looked
    · next mail =>
      cases looked
      exact watches_lookMail.keeps mail b
    · next mail =>
      obtain ⟨taken, popped, same⟩ := Option.map_eq_some_iff.mp looked
      cases same
      rw [← watches_lookMail.keeps mail b]
      cases b with
      | exit => rfl
      | mail =>
        unfold Mailbox.pop? at popped
        split at popped
        · cases popped
        · cases popped
          rfl

theorem watches_lookExit : Watches lookExit fun c => c.life.surfaced? = none where
  none_iff c := by simp [lookExit]
  blind c b waits := by simp
  keeps := by
    intro c value core looked b
    obtain ⟨reason, -, same⟩ := Option.map_eq_some_iff.mp looked
    cases same
    rfl

end Core

end Actors
