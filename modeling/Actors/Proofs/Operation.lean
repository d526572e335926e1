import Actors.Node
import Actors.Proofs.Broadcast

/-! Operations on one actor. An operation on an actor that does no more than record what it accepts
has an effect on the actor that depends on little else: on the actor as it was and, for a link, on
whether the peer is live. -/
namespace Actors

inductive Errand
  | mail
  | message
  | timed (expired : Bool)
  | exit

inductive Operation
  | start
  | signal (sender : Identity) (reason : Exit)
  | forward (sender : Identity) (reason : Exit)
  | terminate (reason : Exit)
  | send (message : Term)
  | record (peer : Identity)
  | link (peer : Identity)
  | unlink (peer : Identity)
  | poll (errand : Errand) (sleeper : Option Identity) (ticket : Option Nat)
  | cancel (bell : Bell) (ticket : Nat)
  | setFlags (flags : Flags)

namespace Core

def polled (c : Core) (errand : Errand) (sleeper : Option Identity) (ticket : Option Nat) : Core :=
  match errand with
  | .mail => (c.pollMail sleeper ticket).2
  | .message => (c.pollMessage sleeper ticket).2
  | .timed expired => (c.pollTimed expired sleeper ticket).2
  | .exit => (c.pollExit sleeper ticket).2

structure Waited (c core : Core) : Prop where
  id : core.id = c.id
  life : core.life = c.life
  links : core.links = c.links

namespace Waited

variable {c core last : Core}

theorem refl (c : Core) : Waited c c := ⟨rfl, rfl, rfl⟩

theorem trans (first : Waited c core) (second : Waited core last) : Waited c last :=
  ⟨second.id.trans first.id, second.life.trans first.life, second.links.trans first.links⟩

theorem setBell (c : Core) (b : Bell) (waits : Notifier) : Waited c (c.setBell b waits) := by
  cases b <;> exact ⟨rfl, rfl, rfl⟩

end Waited

section Poll

variable {α : Type} {look : Look α}
  (looks : ∀ ⦃c value core⦄, look c = some (value, core) → Waited c core)
include looks

theorem waited_round (b : Bell) (sleeper : Option Identity) (c : Core) :
    Waited c (c.round b look sleeper).2 := by
  unfold round
  cases looked : look c with
  | some found => exact looks looked
  | none =>
    dsimp only
    split
    · exact .setBell ..
    · exact .setBell ..

theorem waited_rounds (b : Bell) (sleeper : Option Identity) (left : Nat) (c : Core) :
    Waited c (rounds b look sleeper left c).2 := by
  induction left generalizing c with
  | zero => exact .setBell ..
  | succ left ih =>
    have first := waited_round looks b sleeper c
    unfold rounds
    revert first
    generalize c.round b look sleeper = result
    intro first
    obtain ⟨_ | _ | _, core⟩ := result
    · exact first
    · exact first
    · exact first.trans (ih core)

theorem waited_poll (b : Bell) (sleeper : Option Identity) (ticket : Option Nat) (c : Core) :
    Waited c (poll b look sleeper ticket c).2 := by
  unfold poll
  split
  · exact waited_rounds looks ..
  · split
    · exact (Waited.setBell ..).trans (waited_rounds looks ..)
    · exact .refl c

end Poll

theorem waited_lookMail ⦃c : Core⦄ ⦃value : Except Interrupt Unit⦄ ⦃core : Core⦄
    (looked : c.lookMail = some (value, core)) : Waited c core := by
  unfold lookMail at looked
  split at looked
  · cases looked
    exact .refl c
  · split at looked
    · cases looked
    · cases looked
      exact .refl c

theorem waited_lookMessage ⦃c : Core⦄ ⦃value : Except Interrupt Term⦄ ⦃core : Core⦄
    (looked : c.lookMessage = some (value, core)) : Waited c core := by
  unfold lookMessage at looked
  cases mail : c.lookMail with
  | none => simp [mail] at looked
  | some found =>
    obtain ⟨_ | _, next⟩ := found
    · simp only [mail] at looked
      cases looked
      exact waited_lookMail mail
    · simp only [mail, Option.map_eq_some_iff] at looked
      obtain ⟨taken, -, same⟩ := looked
      cases same
      exact (waited_lookMail mail).trans ⟨rfl, rfl, rfl⟩

theorem waited_lookExit ⦃c : Core⦄ ⦃value : Exit⦄ ⦃core : Core⦄
    (looked : c.lookExit = some (value, core)) : Waited c core := by
  obtain ⟨reason, -, same⟩ := Option.map_eq_some_iff.mp looked
  cases same
  exact .refl c

theorem id_start {c core : Core} (started : c.start = .ok core) : core.id = c.id := by
  unfold start at started
  cases life : c.life.start with
  | error refusal => simp [life, Except.map] at started
  | ok next =>
    simp only [life, Except.map, Except.ok.injEq] at started
    exact started ▸ rfl

theorem life_start {c core : Core} (started : c.start = .ok core) :
    c.life = .init ∧ core.life = .running := by
  unfold start at started
  cases life : c.life <;> simp [life, Life.start, Except.map] at started
  exact ⟨rfl, started ▸ rfl⟩

theorem waited_cancel (c : Core) (b : Bell) (ticket : Nat) : Waited c (c.cancel b ticket) :=
  .setBell ..

/-- A poll changes neither the life of an actor nor its links. -/
theorem waited_polled (c : Core) (errand : Errand) (sleeper : Option Identity)
    (ticket : Option Nat) : Waited c (c.polled errand sleeper ticket) := by
  cases errand with
  | mail => exact waited_poll waited_lookMail ..
  | message => exact waited_poll waited_lookMessage ..
  | exit => exact waited_poll waited_lookExit ..
  | timed expired =>
    have first := waited_poll waited_lookMail .mail sleeper ticket c
    unfold polled pollTimed pollMail
    revert first
    generalize poll .mail lookMail sleeper ticket c = result
    intro first
    obtain ⟨_ | _, core⟩ := result
    · exact first
    · dsimp only
      split
      · exact Waited.trans first (waited_cancel core .mail _)
      · exact first

end Core

/-- The world that a poll leaves is that of the operation. -/
theorem Node.world_pollCore {α : Type} (n : Node) (id : Identity) (poll : Core → Poll α × Core) :
    (n.pollCore id poll).2.world = n.world.changeCore id fun c => (poll c).2 := by
  unfold pollCore World.changeCore
  cases n.world.find? id <;> rfl

namespace Operation

def signal? (a : Actor) : Operation → Option (Identity × Exit)
  | .signal sender reason => (a.reaching sender reason).map (sender, ·)
  | .forward sender reason => if sender = a.id then none else some (sender, reason)
  | _ => none

def heard (a : Actor) (op : Operation) : Option (Identity × Exit) :=
  (op.signal? a).filter fun _ => a.core.isRunning

end Operation

namespace World

variable {w : World}

def admits (w : World) (a : Actor) (peer : Identity) : Bool :=
  peer != a.id && w.isLive peer && !a.core.isDone

def setFlags (w : World) (id : Identity) (flags : Flags) : World :=
  match (w.find? id).bind (·.role.flags?) with
  | none => w
  | some _ => w.setRole id (.process flags)

def operate (w : World) (id : Identity) : Operation → World
  | .start => (w.start id).world
  | .signal sender reason => (w.deliver id sender reason).world
  | .forward sender reason => (w.forward id sender reason).world
  | .terminate reason => (w.terminate id reason).world
  | .send message => w.send id message
  | .record peer => (w.linkThrough id peer).2
  | .link peer => (w.link id peer).2
  | .unlink peer => w.unlink id peer
  | .poll errand sleeper ticket => w.changeCore id (·.polled errand sleeper ticket)
  | .cancel bell ticket => w.changeCore id (·.cancel bell ticket)
  | .setFlags flags => w.setFlags id flags

end World

namespace Operation

def core (w : World) (a : Actor) : Operation → Core
  | .start => a.core.start.toOption.getD a.core
  | .signal sender reason => a.coreAfter sender reason
  | .forward sender reason => if sender = a.id then a.core else a.core.taking (some reason)
  | .terminate reason => (a.core.finish reason).2
  | .send message => a.core.post message
  | .record peer | .link peer => if w.admits a peer then a.core.insertLink peer else a.core
  | .unlink peer => a.core.eraseLink peer
  | .poll errand sleeper ticket => a.core.polled errand sleeper ticket
  | .cancel bell ticket => a.core.cancel bell ticket
  | .setFlags _ => a.core

def role (a : Actor) : Operation → Role
  | .setFlags flags => if a.role.flags?.isSome then .process flags else a.role
  | _ => a.role

theorem heard_silent {a : Actor} {op : Operation} (silent : op.signal? a = none) :
    op.heard a = none := by
  simp [heard, silent]

theorem heard_signal (a : Actor) (sender : Identity) (reason : Exit) :
    (Operation.signal sender reason).heard a
      = (a.core.takes (a.reaching sender reason)).map (sender, ·) := by
  cases runs : a.core.isRunning <;> cases reached : a.reaching sender reason <;>
    simp [heard, signal?, Core.takes, runs, reached]

theorem heard_forward {a : Actor} {sender : Identity} (other : sender ≠ a.id) (reason : Exit) :
    (Operation.forward sender reason).heard a
      = (a.core.takes (some reason)).map (sender, ·) := by
  cases runs : a.core.isRunning <;> simp [heard, signal?, Core.takes, runs, other]

theorem role_isQuiet {a : Actor} (quiet : a.role.isQuiet = true) (op : Operation) :
    (op.role a).isQuiet = true := by
  cases op with
  | setFlags flags =>
    simp only [role]
    split
    · rfl
    · exact quiet
  | _ => exact quiet

end Operation

namespace World

variable {w : World}

structure Spares (id : Identity) (w v : World) : Prop where
  keyed : v.Keyed
  find? : v.find? id = w.find? id
  reactions : v.reactions id = w.reactions id

theorem Alike.spares {v : World} (alike : Alike w v) (id : Identity) (keyed : w.Keyed) :
    Spares id w v :=
  ⟨alike.keyed keyed, alike.find? id, alike.reactions id⟩

theorem Received.spares {v : World} {a : Actor} {core : Core} {signals : List (Identity × Exit)}
    (received : Received w a core signals v) (same : core.id = a.id) {id : Identity}
    (other : id ≠ a.id) (keyed : w.Keyed) : Spares id w v := by
  refine ⟨received.keyed same keyed, ?_, ?_⟩
  · rw [received.find?, if_neg other]
  · rw [received.reactions, if_neg other, add_zero]

theorem received_changeCore {id : Identity} {a : Actor} (found : w.find? id = some a)
    (f : Core → Core) :
    Received w a (f a.core) [] (w.changeCore id f) := by
  rw [changeCore_found found]
  exact ⟨find?_putCore w a _, rfl, rfl, fun i => by simp [reactions, putCore]⟩

theorem find?_setRole {id : Identity} {a : Actor} (found : w.find? id = some a) (role : Role)
    (i : Identity) :
    (w.setRole id role).find? i = if i = id then some { a with role } else w.find? i := by
  rw [setRole, found]
  exact Registry.find?_put ..

theorem keyed_setRole (keyed : w.Keyed) {id : Identity} {a : Actor} (found : w.find? id = some a)
    (role : Role) : (w.setRole id role).Keyed := by
  intro i b present
  rw [find?_setRole found] at present
  split at present
  · next same =>
    have name := keyed found
    cases present
    exact name.trans same.symm
  · exact keyed present

theorem changeCore_missing {id : Identity} (missing : w.find? id = none) (f : Core → Core) :
    w.changeCore id f = w := by
  unfold changeCore
  rw [missing]

/-- A link to a peer is recorded, the actor is the peer itself, or the link is refused. -/
theorem recorded (keyed : w.Keyed) {id : Identity} {a : Actor} (found : w.find? id = some a)
    (peer : Identity) :
    (w.admits a peer = true ∧ ∃ v, w.recordLink id peer = (.ok (), v) ∧
        Received w a (a.core.insertLink peer) [] v) ∨
      (w.admits a peer = false ∧ ∃ v,
        w.recordLink id peer = (if peer = id then .ok () else .error .noproc, v) ∧ Alike w v) := by
  have name : a.id = id := keyed found
  unfold recordLink admits
  by_cases own : peer = id
  · exact .inr ⟨by simp [name, own], w, by simp [own], .refl w⟩
  · by_cases live : w.isLive peer = true
    · cases finished : a.core.isDone with
      | true =>
        refine .inr ⟨by simp, w.emit (.linkRefused peer id), ?_, alike_emit _ _ fun _ => rfl⟩
        simp [own, live, found, finished]
      | false =>
        refine .inl ⟨by simp [name, own, live], w.changeCore id (·.insertLink peer), ?_,
          received_changeCore found (·.insertLink peer)⟩
        simp [own, live, found, finished]
    · refine .inr ⟨by simp [live], w.emit (.linkRefused id peer), ?_,
        alike_emit _ _ fun _ => rfl⟩
      simp [own, live]

theorem recorded_missing {id : Identity} (missing : w.find? id = none) (peer : Identity) :
    ∃ v, w.recordLink id peer = (if peer = id then .ok () else .error .noproc, v) ∧ Alike w v := by
  unfold recordLink
  by_cases own : peer = id
  · exact ⟨w, by simp [own], .refl w⟩
  · by_cases live : w.isLive peer = true
    · exact ⟨w, by simp [own, live, missing], .refl w⟩
    · exact ⟨w.emit (.linkRefused id peer), by simp [own, live], alike_emit _ _ fun _ => rfl⟩

theorem linkThrough_found {handle : Identity} {a : Actor} (found : w.find? handle = some a)
    (peer : Identity) : w.linkThrough handle peer = w.recordLink handle peer := by
  simp [linkThrough, isAllocated, found]

/-- A link through a handle changes nothing, or the links of the actor behind it. -/
theorem linkedThrough (keyed : w.Keyed) (handle peer : Identity) :
    Alike w (w.linkThrough handle peer).2 ∨
      ∃ a, w.find? handle = some a ∧ w.admits a peer = true ∧
        Received w a (a.core.insertLink peer) [] (w.linkThrough handle peer).2 := by
  unfold linkThrough isAllocated
  cases found : w.find? handle with
  | none =>
    refine .inl ?_
    simp only [Option.isSome_none, Bool.false_eq_true, if_false]
    split
    · exact .refl w
    · exact alike_note _ _ _ fun _ => rfl
  | some a =>
    simp only [Option.isSome_some, if_true]
    rcases recorded keyed found peer with ⟨admitted, v, answer, received⟩ | ⟨-, v, answer, alike⟩
    · exact .inr ⟨a, rfl, admitted, by rw [answer]; exact received⟩
    · exact .inl (by rw [answer]; exact alike)

theorem linkThrough_spares (keyed : w.Keyed) {handle id : Identity} (other : id ≠ handle)
    (peer : Identity) : Spares id w (w.linkThrough handle peer).2 := by
  rcases linkedThrough keyed handle peer with alike | ⟨a, found, -, received⟩
  · exact alike.spares id keyed
  · have name : a.id = handle := keyed found
    exact received.spares rfl (name ▸ other) keyed

structure Operated (w : World) (id : Identity) (a : Actor) (op : Operation) (v : World) : Prop where
  keyed : v.Keyed
  found : v.find? id = some { core := op.core w a, role := op.role a }
  reactions : v.reactions id = w.reactions id + ↑(op.heard a).toList

theorem Operated.then_spares {v u : World} {id : Identity} {a : Actor} {op : Operation}
    (operated : Operated w id a op v) (spares : Spares id v u) : Operated w id a op u :=
  ⟨spares.keyed, spares.find?.trans operated.found, spares.reactions.trans operated.reactions⟩

section Own

variable {id : Identity} {a : Actor} (keyed : w.Keyed) (found : w.find? id = some a)
include keyed found

theorem Received.operated {v : World} {core : Core} {signals : List (Identity × Exit)}
    {op : Operation} (received : Received w a core signals v) (same : core.id = a.id)
    (effect : op.core w a = core) (role : op.role a = a.role)
    (heard : (op.heard a).toList = signals) : Operated w id a op v := by
  have name : a.id = id := keyed found
  refine ⟨received.keyed same keyed, ?_, ?_⟩
  · rw [received.find?, if_pos name.symm, effect, role]
  · rw [received.reactions, if_pos name.symm, heard]

theorem Alike.operated {v : World} {op : Operation} (alike : Alike w v)
    (effect : op.core w a = a.core) (role : op.role a = a.role) (silent : op.heard a = none) :
    Operated w id a op v := by
  refine ⟨alike.keyed keyed, ?_, ?_⟩
  · rw [alike.find?, found, effect, role]
  · rw [alike.reactions, silent]
    simp

theorem operated_start : Operated w id a .start (w.operate id .start) := by
  have outcome : w.operate id .start = (w.start id).world := rfl
  rw [outcome, start, found]
  cases started : a.core.start with
  | error refusal =>
    have effect : Operation.start.core w a = a.core := by
      simp [Operation.core, started, Except.toOption]
    simp only [started, Outcome.world_error]
    exact (Alike.refl w).operated keyed found effect rfl rfl
  | ok core =>
    have effect : Operation.start.core w a = core := by
      simp [Operation.core, started, Except.toOption]
    have received := received_changeCore found fun _ => core
    rw [changeCore_found found] at received
    simp only [started, Outcome.world_ok]
    exact received.operated keyed found (Core.id_start started) effect rfl rfl

theorem operated_terminate (reason : Exit) :
    Operated w id a (.terminate reason) (w.operate id (.terminate reason)) := by
  have name : a.id = id := keyed found
  subst name
  have changes := changes_terminate keyed a.id reason
  cases finished : a.core.isDone with
  | true =>
    obtain ⟨present, reactions⟩ := changes.done found finished
    refine ⟨changes.keyed keyed, ?_, ?_⟩
    · rw [operate, present, Operation.core, Core.finish_done finished]
      rfl
    · rw [operate, reactions, Operation.heard_silent rfl]
      simp
  | false =>
    -- the actor is done before its links hear of it
    have told := changes_broadcast ((changes_ended found finished reason).keyed keyed) a.id
      (a.core.finalReason reason) a.core.links.members
    obtain ⟨present, reactions⟩ := told.done ((find?_ended a reason a.id).trans (if_pos rfl)) rfl
    have outcome : w.operate a.id (.terminate reason) = (broadcast a.id (a.core.finalReason reason)
        a.core.links.members (w.ended a reason)).world.leaving w := by
      rw [operate, terminate_alive keyed found finished, Outcome.world_concluding]
    refine ⟨changes.keyed keyed, ?_, ?_⟩
    · rw [outcome, (alike_leaving ..).find?, present, Operation.core, Core.finish_alive finished]
      rfl
    · rw [outcome, (alike_leaving ..).reactions, reactions, reactions_ended,
        Operation.heard_silent rfl]
      simp

theorem operated_record (peer : Identity) :
    Operated w id a (.record peer) (w.operate id (.record peer)) := by
  rw [operate, linkThrough_found found]
  obtain ⟨admitted, v, answer, received⟩ | ⟨refused, v, answer, alike⟩ := recorded keyed found peer
  · rw [answer]
    exact received.operated keyed found rfl (if_pos admitted) rfl rfl
  · rw [answer]
    have effect : (Operation.record peer).core w a = a.core := by simp [Operation.core, refused]
    exact alike.operated keyed found effect rfl rfl

theorem operated_link (peer : Identity) :
    Operated w id a (.link peer) (w.operate id (.link peer)) := by
  have name : a.id = id := keyed found
  have outcome : w.operate id (.link peer) = (w.link id peer).2 := rfl
  rw [outcome, link]
  obtain ⟨admitted, v, answer, received⟩ | ⟨refused, v, answer, alike⟩ := recorded keyed found peer
  · have other : id ≠ peer := by
      rintro rfl
      simp [admits, name] at admitted
    have first := received.operated keyed found rfl
      (show (Operation.link peer).core w a = a.core.insertLink peer from if_pos admitted) rfl rfl
    have second := linkThrough_spares first.keyed other id
    rw [answer]
    exact first.then_spares second
  · have effect : (Operation.link peer).core w a = a.core := by simp [Operation.core, refused]
    have first := alike.operated keyed found effect rfl rfl
    rw [answer]
    by_cases own : peer = id
    · subst own
      -- nothing is recorded of an actor that links to itself
      have same : (v.linkThrough peer peer).2 = v := by
        simp [linkThrough, recordLink, isAllocated, alike.find?, found]
      simpa [same] using first
    · simpa [own] using first

theorem operated_setFlags (flags : Flags) :
    Operated w id a (.setFlags flags) (w.operate id (.setFlags flags)) := by
  have outcome : w.operate id (.setFlags flags) = w.setFlags id flags := rfl
  rw [outcome, setFlags, found, Option.bind_some]
  cases process : a.role.flags? with
  | none => exact (Alike.refl w).operated keyed found rfl (by simp [Operation.role, process]) rfl
  | some old =>
    have role : (Operation.setFlags flags).role a = .process flags := by
      simp [Operation.role, process]
    refine ⟨keyed_setRole keyed found _, ?_, ?_⟩
    · rw [find?_setRole found, if_pos rfl, role]
      rfl
    · rw [setRole, found, Operation.heard_silent rfl]
      simp [reactions]

theorem operated_signal (quiet : a.role.isQuiet = true) (sender : Identity) (reason : Exit) :
    Operated w id a (.signal sender reason) (w.operate id (.signal sender reason)) := by
  have outcome : w.operate id (.signal sender reason) = (w.deliver id sender reason).world := rfl
  have heard := Operation.heard_signal a sender reason
  rw [outcome]
  obtain ⟨refused, v, answer, alike⟩ | ⟨-, v, answer, received⟩ :=
    deliver_quiet keyed found quiet sender reason
  · have kept : a.coreAfter sender reason = a.core := Actor.coreAfter_refuses refused
    have silent : (Operation.signal sender reason).heard a = none := by
      simp [heard, Core.takes, Actor.stopped_of_refuses refused]
    rw [answer]
    exact alike.operated keyed found kept rfl silent
  · rw [answer]
    exact received.operated keyed found (a.id_coreAfter ..) rfl rfl (by rw [heard])

theorem operated_forward (quiet : a.role.isQuiet = true) (sender : Identity) (reason : Exit) :
    Operated w id a (.forward sender reason) (w.operate id (.forward sender reason)) := by
  have name : a.id = id := keyed found
  have outcome : w.operate id (.forward sender reason) = (w.forward id sender reason).world := rfl
  rw [outcome]
  by_cases own : sender = id
  · subst own
    obtain ⟨v, answer, received⟩ := forward_own keyed found reason
    rw [answer]
    exact received.operated keyed found rfl (if_pos name.symm) rfl
      (by simp [Operation.heard, Operation.signal?, name])
  · have other : sender ≠ a.id := name ▸ own
    have heard := Operation.heard_forward other reason
    obtain ⟨unborn, v, answer, alike⟩ | ⟨born, v, answer, received⟩ :=
      forward_quiet keyed found quiet own reason
    · have stopped : a.core.isRunning = false := by
        simp [Core.isRunning, Core.phase, unborn, Life.phase]
      have kept : (Operation.forward sender reason).core w a = a.core := by
        simp [Operation.core, Core.taking_stopped stopped]
      have silent : (Operation.forward sender reason).heard a = none := by
        simp [heard, Core.takes, stopped]
      rw [answer]
      exact alike.operated keyed found kept rfl silent
    · rw [answer]
      exact received.operated keyed found (Core.id_taking ..) (if_neg other) rfl (by rw [heard])

/-- What an operation does to an actor that only records depends on the actor and its peer alone. -/
theorem operated (quiet : a.role.isQuiet = true) (op : Operation) :
    Operated w id a op (w.operate id op) := by
  have name : a.id = id := keyed found
  cases op with
  | start => exact operated_start keyed found
  | signal sender reason => exact operated_signal keyed found quiet sender reason
  | forward sender reason => exact operated_forward keyed found quiet sender reason
  | terminate reason => exact operated_terminate keyed found reason
  | send message =>
    exact (received_send keyed found message).operated keyed found (Core.id_post ..) rfl rfl rfl
  | record peer => exact operated_record keyed found peer
  | link peer => exact operated_link keyed found peer
  | unlink peer =>
    exact (received_changeCore found (·.eraseLink peer)).operated keyed found rfl rfl rfl rfl
  | poll errand sleeper ticket =>
    exact (received_changeCore found (·.polled errand sleeper ticket)).operated keyed found
      (Core.waited_polled ..).id rfl rfl rfl
  | cancel bell ticket =>
    exact (received_changeCore found (·.cancel bell ticket)).operated keyed found
      (Core.waited_cancel ..).id rfl rfl rfl
  | setFlags flags => exact operated_setFlags keyed found flags

end Own

end World

end Actors
