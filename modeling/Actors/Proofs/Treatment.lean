import Actors.Proofs.Echo
import Actors.Proofs.Waking

/-! Treatment. An action either is a wait of an actor, which takes messages from the front of its
queue at most, or strikes it as the action itself deals and as the signals cause that follow. Roles
stay, the flags of processes apart. -/
namespace Actors

inductive Role.Stays (old : Role) : Role → Prop
  | same : Stays old old
  | flagged {before : Flags} (process : old = .process before) (flags : Flags) :
      Stays old (.process flags)

namespace Role.Stays

variable {first second third : Role}

theorem trans (one : first.Stays second) (two : second.Stays third) : first.Stays third := by
  cases two with
  | same => exact one
  | flagged process flags =>
    cases one with
    | same => exact .flagged process flags
    | flagged before old => exact .flagged before flags

theorem plain (stays : first.Stays second) {hook : Hook} (plain : second = .plain hook) :
    first = .plain hook := by
  cases stays with
  | same => exact plain
  | flagged process flags => cases plain

theorem port (stays : first.Stays second) {name : Atom} {owner : Identity}
    (port : first = .port name owner) : second = .port name owner := by
  cases stays with
  | same => exact port
  | flagged process flags => cases process.symm.trans port

end Role.Stays

namespace Core

variable {α : Type} {look : Look α} {c core : Core}

theorem queue_woken (c : Core) (b : Bell) (ticket : Option Nat) :
    (c.woken b ticket).mailbox.queue = c.mailbox.queue := by
  cases ticket with
  | none => rfl
  | some t => exact queue_setBell ..

theorem suffix_lookMail {value : Except Interrupt Unit} (looked : c.lookMail = some (value, core)) :
    core.mailbox.queue <:+ c.mailbox.queue := by
  unfold lookMail at looked
  split at looked
  · cases looked
    exact List.suffix_refl _
  · split at looked
    · cases looked
    · cases looked
      exact List.suffix_refl _

theorem suffix_lookMessage {value : Except Interrupt Term}
    (looked : c.lookMessage = some (value, core)) : core.mailbox.queue <:+ c.mailbox.queue := by
  unfold lookMessage at looked
  split at looked
  · cases looked
  · next mail =>
    cases looked
    exact suffix_lookMail mail
  · next inner mail =>
    obtain ⟨⟨message, mailbox⟩, popped, same⟩ := Option.map_eq_some_iff.mp looked
    cases same
    refine List.IsSuffix.trans ?_ (suffix_lookMail mail)
    unfold Mailbox.pop? at popped
    split at popped
    · cases popped
    · next queue =>
      cases popped
      rw [queue]
      exact List.suffix_cons ..

theorem suffix_poll {idle : Core → Prop} (watches : Watches look idle)
    (takes : ∀ ⦃c value core⦄, look c = some (value, core) →
      core.mailbox.queue <:+ c.mailbox.queue)
    (b : Bell) (sleeper : Option Identity) (ticket : Option Nat) (c : Core) :
    (poll b look sleeper ticket c).2.mailbox.queue <:+ c.mailbox.queue := by
  have polled := poll_polled watches (b := b) sleeper ticket c
  revert polled
  generalize poll b look sleeper ticket c = result
  intro polled
  cases polled with
  | unnotified silent => exact List.suffix_refl _
  | settled busy told looked =>
    rw [← c.queue_woken b ticket]
    exact takes looked
  | suspended nothing told =>
    simp only [asleep, queue_setBell, queue_woken, List.suffix_refl]

/-- A poll takes messages from the front of the queue, if any. -/
theorem suffix_polled (c : Core) (errand : Errand) (sleeper : Option Identity)
    (ticket : Option Nat) : (c.polled errand sleeper ticket).mailbox.queue <:+ c.mailbox.queue := by
  have mail : (c.polled .mail sleeper ticket).mailbox.queue <:+ c.mailbox.queue :=
    suffix_poll watches_lookMail (fun _ _ _ => suffix_lookMail) ..
  cases errand with
  | mail => exact mail
  | message => exact suffix_poll watches_lookMessage (fun _ _ _ => suffix_lookMessage) ..
  | exit =>
    refine suffix_poll watches_lookExit (fun c value core looked => ?_) ..
    obtain ⟨reason, -, same⟩ := Option.map_eq_some_iff.mp looked
    cases same
    exact List.suffix_refl _
  | timed expired =>
    rcases c.polled_timed expired sleeper ticket with same | ⟨t, -, given⟩
    · rw [same]
      exact mail
    · rw [given, cancel, queue_setBell]
      exact mail

end Core

def Action.Sends (traffic : World.Traffic) (w : World) : Action → Prop
  | .operate id op => op.Sends traffic w id
  | _ => True

namespace World

variable {w v u : World} {id : Identity} {a b : Actor} {traffic : Traffic} {trace : List Moment}

/-- A stroke in the course of an action: the action deals it, or the signals cause it. -/
def Dealt (traffic : Traffic) (id : Identity) (action : Action) (role : Role) (core : Core)
    (stroke : Stroke) : Prop :=
  (∃ u, u.find? id = some ⟨core, role⟩ ∧ core.id = id ∧ Cause traffic u ⟨core, role⟩ stroke) ∨
    ∃ other op, action = .operate other op ∧ op.Deals other id stroke

inductive Treated (traffic : Traffic) (id : Identity) (action : Action) (a b : Actor) : Prop
  | waited (waits : action.isWait id = true) (waited : Core.Waited a.core b.core)
      (queue : b.core.mailbox.queue <:+ a.core.mailbox.queue)
  | struck (struck : Core.Struck (Dealt traffic id action a.role) a.core b.core)

theorem stays_setFlags {other : Identity} {flags : Flags} (found : w.find? id = some a)
    (present : (w.setFlags other flags).find? id = some b) :
    a.role.Stays b.role ∧ b.core = a.core := by
  unfold setFlags at present
  split at present
  · cases found.symm.trans present
    exact ⟨.same, rfl⟩
  · next old known =>
    obtain ⟨c, known, process⟩ := Option.bind_eq_some_iff.mp known
    rw [find?_setRole known] at present
    split at present
    · next same =>
      subst same
      cases found.symm.trans known
      cases present
      refine ⟨?_, rfl⟩
      cases role : a.role with
      | process before => exact .flagged rfl flags
      | _ => simp [role, Role.flags?] at process
    · cases found.symm.trans present
      exact ⟨.same, rfl⟩

/-- An operation strikes an actor as it deals itself and as its signals cause, unless it is a wait
of the actor. -/
theorem treated_operate (keyed : w.Keyed) (found : w.find? id = some a) (spreads : traffic.Spreads)
    {other : Identity} {op : Operation} (sends : op.Sends traffic w other)
    (present : (w.operate other op).find? id = some b) :
    a.role.Stays b.role ∧ Treated traffic id (.operate other op) a b := by
  have dealing (dealing : op.isDealing = true) :
      a.role.Stays b.role ∧ Treated traffic id (.operate other op) a b := by
    obtain ⟨c, present', role, struck⟩ :=
      (strikes_operate keyed spreads dealing sends).actor found
    cases present.symm.trans present'
    refine ⟨role ▸ .same, .struck (Relation.ReflTransGen.mono (fun c core strike => ?_) _ _ struck)⟩
    obtain ⟨stroke, suffers, ⟨u, known, name, cause | deals⟩, same⟩ := strike
    · exact ⟨stroke, suffers, .inl ⟨u, known, name, cause⟩, same⟩
    · exact ⟨stroke, suffers, .inr ⟨other, op, rfl, name ▸ deals⟩, same⟩
  have waiting (f : Core → Core) (waits : op.isWait = true)
      (effect : w.operate other op = w.changeCore other f) (waited : ∀ c, Core.Waited c (f c))
      (queue : ∀ c, (f c).mailbox.queue <:+ c.mailbox.queue) :
      a.role.Stays b.role ∧ Treated traffic id (.operate other op) a b := by
    rw [effect, find?_changeCore keyed found] at present
    cases present
    split
    · next same => exact ⟨.same, .waited (by simp [Action.isWait, same, waits]) (waited _) (queue _)⟩
    · exact ⟨.same, .struck .refl⟩
  cases op with
  | poll errand sleeper ticket =>
    exact waiting (·.polled errand sleeper ticket) rfl rfl (fun c => c.waited_polled ..)
      fun c => c.suffix_polled ..
  | cancel bell ticket =>
    exact waiting (·.cancel bell ticket) rfl rfl (fun c => c.waited_cancel ..) fun c => by
      simp only [Core.cancel, Core.queue_setBell, List.suffix_refl]
  | setFlags flags =>
    obtain ⟨stays, core⟩ := stays_setFlags found present
    exact ⟨stays, .struck (core ▸ .refl)⟩
  | _ => exact dealing rfl

theorem treated_act (rooted : w.Rooted) (found : w.find? id = some a) (spreads : traffic.Spreads)
    {action : Action} (sends : action.Sends traffic w)
    (present : (w.act action).find? id = some b) :
    a.role.Stays b.role ∧ Treated traffic id action a b := by
  have still (idle : ∀ other op, action ≠ .operate other op) :
      a.role.Stays b.role ∧ Treated traffic id action a b := by
    obtain ⟨-, gone⟩ | same := still_act rooted found idle
    · cases gone.symm.trans present
    · cases present.symm.trans same
      exact ⟨.same, .struck .refl⟩
  cases action with
  | operate other op => exact treated_operate rooted.keyed found spreads sends present
  | _ => exact still fun other op same => by cases same

theorem sends_any (action : Action) : action.Sends (fun _ _ _ _ => True) w := by
  cases action with
  | operate id op => exact op.sends_any w id
  | _ => trivial

theorem stubs_operate (keyed : w.Keyed) (id : Identity) (op : Operation) :
    (w.operate id op).stubs = w.stubs := by
  have changed (f : Core → Core) : (w.changeCore id f).stubs = w.stubs := by
    unfold changeCore
    split <;> rfl
  have dealing (dealing : op.isDealing = true) : (w.operate id op).stubs = w.stubs := by
    exact (strikes_operate keyed Traffic.spreads_any dealing (op.sends_any w id)).stubs
  cases op with
  | poll errand sleeper ticket => exact changed _
  | cancel bell ticket => exact changed _
  | setFlags flags =>
    rw [operate, setFlags]
    split
    · rfl
    · unfold setRole
      split <;> rfl
  | _ => exact dealing rfl

/-- An actor that was not there before an action is one that the action has allocated. -/
theorem allocated_act (keyed : w.Keyed) (missing : w.find? id = none) {action : Action}
    (present : (w.act action).find? id = some b) :
    ∃ tag, action = .allocate tag b.role ∧ b.core = { id } := by
  cases action with
  | allocate tag role =>
    rw [act, world_issue] at present
    split at present
    · rw [find?_allocate] at present
      split at present
      · next same =>
        cases present
        exact ⟨tag, rfl, by rw [same]⟩
      · cases missing.symm.trans present
    · cases missing.symm.trans present
  | operate other op =>
    cases ((peopled_operate keyed other op).missing id missing).symm.trans present
  | free other =>
    rw [act, find?_free, missing, ite_self] at present
    cases present
  | allocateStub tag stub =>
    rw [act, world_issue] at present
    split at present <;> cases missing.symm.trans present
  | setStub other isLive =>
    rw [act, World.setStub] at present
    split at present <;> cases missing.symm.trans present

/-- What is so of an actor at first, and what every action carries on along the trace, is so of the
actor after a course, if it is still there. -/
theorem Course.follows {P : List Moment → Actor → Prop} (course : Course w trace v)
    (rooted : w.Rooted) (found : w.find? id = some a) (first : P [] a)
    (each : ∀ earlier, ∀ m ∈ trace, ∀ a b, m.1.Rooted → m.1.find? id = some a →
      (m.1.act m.2).find? id = some b → P earlier a → P (earlier ++ [m]) b)
    (present : v.find? id = some b) : P trace b := by
  induction course generalizing b with
  | refl =>
    cases found.symm.trans present
    exact first
  | @act trace u earlier action ih =>
    cases known : u.find? id with
    | none =>
      have gave := earlier.gave rooted (rooted.given found)
      have gone := gave.act_missing (earlier.rooted rooted).keyed known action
      cases gone.symm.trans present
    | some c =>
      have before := ih (fun before m member => each before m (List.mem_append_left _ member)) known
      exact each trace (u, action) (List.mem_append_right _ List.mem_cons_self) c b
        (earlier.rooted rooted) known present before
  | drift earlier calls journal ih => exact ih each present

/-- What is so of the actors at first and of those that are allocated, and what every action carries
on along the trace, is so of an actor after a course. -/
theorem Course.accrues {P : List Moment → Actor → Prop} (course : Course w trace v)
    (rooted : w.Rooted) (first : ∀ a, w.find? id = some a → P [] a)
    (fresh : ∀ earlier, ∀ m ∈ trace, ∀ tag role, m.2 = .allocate tag role →
      P (earlier ++ [m]) ⟨{ id }, role⟩)
    (each : ∀ earlier, ∀ m ∈ trace, ∀ a b, m.1.Rooted → m.1.find? id = some a →
      (m.1.act m.2).find? id = some b → P earlier a → P (earlier ++ [m]) b)
    (found : v.find? id = some a) : P trace a := by
  induction course generalizing a with
  | refl => exact first a found
  | @act trace u earlier action ih =>
    have last : (u, action) ∈ trace ++ [(u, action)] :=
      List.mem_append_right _ List.mem_cons_self
    cases known : u.find? id with
    | none =>
      obtain ⟨tag, allocates, core⟩ := allocated_act (earlier.rooted rooted).keyed known found
      have new := fresh trace _ last tag a.role allocates
      exact (show a = ⟨{ id }, a.role⟩ by rw [← core]) ▸ new
    | some c =>
      have before := ih (fun before m member => fresh before m (List.mem_append_left _ member))
        (fun before m member => each before m (List.mem_append_left _ member)) known
      exact each trace _ last c a (earlier.rooted rooted) known found before
  | drift earlier calls journal ih => exact ih fresh each found

/-- Roles stay, the flags of processes apart. -/
theorem Course.stays (course : Course w trace v) (rooted : w.Rooted) (found : w.find? id = some a)
    (present : v.find? id = some b) : a.role.Stays b.role :=
  course.follows (P := fun _ c => a.role.Stays c.role) rooted found .same
    (fun _ m _ _ _ rooted known last stays => stays.trans
      (treated_act rooted known Traffic.spreads_any (sends_any m.2) last).1) present

theorem Course.past (course : Course w trace v) (rooted : w.Rooted) (found : w.find? id = some a)
    (done : a.core.isDone = true) (present : v.find? id = some b) : b.core.isDone = true := by
  apply course.follows (P := fun _ b => b.core.isDone = true) rooted found done _ present
  intro earlier m member a b rooted known last done
  obtain ⟨-, treated⟩ := treated_act rooted known Traffic.spreads_any (sends_any m.2) last
  cases treated with
  | waited waits waited queue => exact (Core.isDone_of_life waited.life).trans done
  | struck struck => exact (struck.past done).1

theorem Course.born (course : Course w trace v) (rooted : w.Rooted) (found : w.find? id = some a)
    (born : a.core.life ≠ .init) (present : v.find? id = some b) : b.core.life ≠ .init := by
  apply course.follows (P := fun _ b => b.core.life ≠ .init) rooted found born _ present
  intro earlier m member a b rooted known last born
  obtain ⟨-, treated⟩ := treated_act rooted known Traffic.spreads_any (sends_any m.2) last
  cases treated with
  | waited waits waited queue => exact waited.life ▸ born
  | struck struck => exact struck.born born

end World

end Actors
