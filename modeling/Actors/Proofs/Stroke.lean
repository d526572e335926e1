import Actors.Proofs.Reception

/-! Strokes. Work on signals strikes one core after another, and each stroke has a cause: a signal
that reaches an actor or that it traps, or what the hook of an actor does that has just accepted
one. If signals of some kind are followed by signals of that kind only, all the causes are. -/
namespace Actors

inductive Stroke
  | start
  | accept (sender : Identity) (reason : Exit)
  | finish (reason : Exit)
  | post (message : Term)
  | join (peer : Identity)
  | part (peer : Identity)

namespace Core

def struck (c : Core) : Stroke → Core
  | .start => { c with life := .running }
  | .accept _ reason => { c with life := .exiting reason }.alert
  | .finish reason => c.ended reason
  | .post message => { c with mailbox := c.mailbox.push message }
  | .join peer => c.insertLink peer
  | .part peer => c.eraseLink peer

def Suffers (c : Core) : Stroke → Prop
  | .start => c.life = .init
  | .accept _ _ => c.life = .running
  | .finish _ | .post _ | .join _ => c.isDone = false
  | .part _ => True

def Struck (may : Core → Stroke → Prop) : Core → Core → Prop :=
  Relation.ReflTransGen fun c core => ∃ stroke, c.Suffers stroke ∧ may c stroke ∧ core = c.struck stroke

variable {c core : Core} {may : Core → Stroke → Prop}

@[simp] theorem id_struck (c : Core) (stroke : Stroke) : (c.struck stroke).id = c.id := by
  cases stroke <;> rfl

theorem post_struck (alive : c.isDone = false) (message : Term) :
    c.post message = c.struck (.post message) := by
  simp [post, struck, alive]

/-- An actor that is done stays done. -/
theorem isDone_struck {stroke : Stroke} (suffers : c.Suffers stroke) (done : c.isDone = true) :
    (c.struck stroke).isDone = true := by
  obtain ⟨final, life⟩ := isDone_iff.mp done
  cases stroke with
  | start => cases life.symm.trans suffers
  | accept sender reason => cases life.symm.trans suffers
  | part peer => exact done
  | _ => cases done.symm.trans suffers

/-- What each stroke keeps, strokes in turn keep. -/
theorem Struck.keeps {P : Core → Prop} (struck : Struck may c core) (first : P c)
    (each : ∀ c stroke, P c → c.Suffers stroke → may c stroke → P (c.struck stroke)) : P core := by
  induction struck with
  | refl => exact first
  | tail earlier last ih =>
    obtain ⟨stroke, suffers, allowed, rfl⟩ := last
    exact each _ stroke ih suffers allowed

/-- Strokes put messages behind those in the queue, or empty it with the end of the actor. -/
theorem Struck.grown {Q : Term → Prop} (strokes : Struck may c core)
    (posted : ∀ core message, may core (.post message) → Q message) :
    (∃ extra, core.mailbox.queue = c.mailbox.queue ++ extra ∧ ∀ message ∈ extra, Q message) ∨
      core.isDone = true ∧ core.mailbox.queue = [] := by
  apply strokes.keeps (.inl ⟨[], by simp, by simp⟩)
  intro core stroke held suffers allowed
  cases stroke with
  | finish reason => exact .inr ⟨rfl, rfl⟩
  | post message =>
    obtain ⟨extra, queue, kind⟩ | ⟨done, -⟩ := held
    · refine .inl ⟨extra ++ [message], ?_, List.forall_mem_append.mpr
        ⟨kind, List.forall_mem_singleton.mpr (posted core message allowed)⟩⟩
      rw [struck, Mailbox.queue_push, queue, List.append_assoc]
    · cases done.symm.trans suffers
  | start => exact held.imp_right fun past => ⟨isDone_struck suffers past.1, past.2⟩
  | accept sender reason => exact held.imp_right fun past => ⟨isDone_struck suffers past.1, past.2⟩
  | join peer => exact held
  | part peer => exact held

/-- Of an actor that is done, strokes change the links at most. -/
theorem Struck.past (strokes : Struck may c core) (done : c.isDone = true) :
    core.isDone = true ∧ core.life = c.life ∧ core.mailbox.queue = c.mailbox.queue := by
  apply strokes.keeps (P := fun core =>
    core.isDone = true ∧ core.life = c.life ∧ core.mailbox.queue = c.mailbox.queue) ⟨done, rfl, rfl⟩
  intro core stroke held suffers allowed
  obtain ⟨final, life⟩ := isDone_iff.mp held.1
  cases stroke with
  | start => cases life.symm.trans suffers
  | accept sender reason => cases life.symm.trans suffers
  | part peer => exact held
  | _ => cases held.1.symm.trans suffers

theorem Struck.born (strokes : Struck may c core) (born : c.life ≠ .init) : core.life ≠ .init := by
  apply strokes.keeps (P := fun core => core.life ≠ .init) born
  intro core stroke born suffers allowed
  cases stroke with
  | start => exact absurd suffers born
  | accept sender reason => simp [struck, alert]
  | finish reason => simp [struck, ended, alert]
  | _ => exact born

end Core

namespace World

/-- One step of work on signals. Which actors may be struck, and how, is given. -/
inductive Strike (may : World → Actor → Stroke → Prop) (w : World) : World → Prop
  | write (journal : Journal) : Strike may w { w with journal }
  | strike {a : Actor} {stroke : Stroke} (found : w.find? a.id = some a)
      (suffers : a.core.Suffers stroke) (allowed : may w a stroke) :
      Strike may w (w.putCore a (a.core.struck stroke))

def Strikes (may : World → Actor → Stroke → Prop) : World → World → Prop :=
  Relation.ReflTransGen (Strike may)

variable {may might : World → Actor → Stroke → Prop} {w v u : World} {i : Identity} {a : Actor}

theorem Strike.keyed (strike : Strike may w v) (keyed : w.Keyed) : v.Keyed := by
  cases strike with
  | write journal => exact keyed
  | strike found suffers allowed =>
    intro i b present
    rw [find?_putCore] at present
    split at present
    · next same =>
      cases present
      exact (Core.id_struck ..).trans same.symm
    · exact keyed present

namespace Strikes

theorem refl (w : World) : Strikes may w w := Relation.ReflTransGen.refl

theorem of_strike (strike : Strike may w v) : Strikes may w v := Relation.ReflTransGen.single strike

theorem trans (first : Strikes may w v) (second : Strikes may v u) : Strikes may w u :=
  Relation.ReflTransGen.trans first second

theorem mono (strikes : Strikes may w v) (more : ∀ w a stroke, may w a stroke → might w a stroke) :
    Strikes might w v := by
  refine Relation.ReflTransGen.mono (fun w v strike => ?_) _ _ strikes
  cases strike with
  | write journal => exact .write journal
  | strike found suffers allowed => exact .strike found suffers (more _ _ _ allowed)

theorem write (w : World) (journal : Journal) : Strikes may w { w with journal } :=
  .of_strike (.write journal)

theorem emit (w : World) (event : Event) : Strikes may w (w.emit event) := .write w _

theorem note (w : World) (id : Identity) (note : Note) : Strikes may w (w.note id note) :=
  .write w _

theorem keyed (strikes : Strikes may w v) (keyed : w.Keyed) : v.Keyed := by
  induction strikes with
  | refl => exact keyed
  | tail earlier strike ih => exact strike.keyed ih

theorem stubs (strikes : Strikes may w v) : v.stubs = w.stubs := by
  induction strikes with
  | refl => rfl
  | tail earlier strike ih => cases strike <;> exact ih

theorem changeCore (keyed : w.Keyed) {id : Identity} (found : w.find? id = some a)
    (f : Core → Core) (stroke : Stroke) (struck : f a.core = a.core.struck stroke)
    (suffers : a.core.Suffers stroke) (allowed : may w a stroke) :
    Strikes may w (w.changeCore id f) := by
  have name : a.id = id := keyed found
  subst name
  rw [changeCore_found found, struck]
  exact .of_strike (.strike found suffers allowed)

/-- What becomes of one actor: its role stays, and it is struck as is allowed in worlds in which it
is found. -/
theorem actor (strikes : Strikes may w v) (found : w.find? i = some a) :
    ∃ b, v.find? i = some b ∧ b.role = a.role ∧
      Core.Struck (fun core stroke => ∃ u, u.find? i = some ⟨core, a.role⟩ ∧ core.id = i ∧
        may u ⟨core, a.role⟩ stroke) a.core b.core := by
  induction strikes with
  | refl => exact ⟨a, found, rfl, .refl⟩
  | tail earlier strike ih =>
    obtain ⟨b, present, role, struck⟩ := ih
    cases strike with
    | write journal => exact ⟨b, present, role, struck⟩
    | @strike c stroke known suffers allowed =>
      rw [find?_putCore]
      by_cases same : i = c.id
      · subst same
        cases present.symm.trans known
        obtain ⟨core, _⟩ := b
        cases role
        exact ⟨_, if_pos rfl, rfl,
          struck.tail ⟨stroke, suffers, ⟨_, known, rfl, allowed⟩, rfl⟩⟩
      · exact ⟨b, by rw [if_neg same, present], role, struck⟩

end Strikes

theorem world_within {α : Type} (w : World) (span : Span) (work : World → Outcome α) :
    (w.within span work).world = (work (w.entering span)).world.leaving w := by
  unfold within
  rw [show { w with journal := w.journal.enter span } = w.entering span from rfl]
  cases work (w.entering span) <;> rfl

theorem strikes_within {α : Type} {span : Span} {work : World → Outcome α}
    (inside : Strikes may (w.entering span) (work (w.entering span)).world) :
    Strikes may w (w.within span work).world := by
  rw [world_within]
  exact (Strikes.write w _).trans (inside.trans (.write _ _))

theorem strikes_send (keyed : w.Keyed) (receiver : Identity) (message : Term)
    (allowed : ∀ a, w.find? receiver = some a → may w a (.post message)) :
    Strikes may w (w.send receiver message) := by
  unfold send
  cases found : w.find? receiver with
  | none =>
    dsimp only
    split
    · exact .note ..
    · exact .emit ..
  | some a =>
    dsimp only
    split
    · exact .emit ..
    · next alive =>
      have alive : a.core.isDone = false := Bool.eq_false_of_not_eq_true alive
      exact .changeCore keyed found (·.post message) (.post message)
        (Core.post_struck alive message) alive (allowed a found)

theorem strikes_offer (keyed : w.Keyed) (id sender : Identity) (reason : Exit)
    (allowed : ∀ journal a, w.find? id = some a → may { w with journal } a (.accept sender reason)) :
    Strikes may w (w.offer id sender reason).world := by
  refine strikes_within ?_
  cases found : (w.entering (.offer sender id)).find? id with
  | none => exact .refl _
  | some a =>
    have name : a.id = id := keyed found
    subst name
    dsimp only
    cases offered : a.core.offer reason with
    | error e => exact .refl _
    | ok answer =>
      obtain ⟨acceptance, core⟩ := answer
      cases acceptance with
      | accepted =>
        obtain ⟨runs, rfl⟩ := Core.offer_accepted.mp offered
        have accept : Strike may _ (putCore _ a (a.core.struck (.accept sender reason))) :=
          .strike (w := (w.entering (.offer sender a.id)).emit .exitAccepted) found runs
            (allowed _ a found)
        exact (Strikes.emit _ .exitAccepted).trans (.of_strike accept)
      | pending => exact .emit ..
      | done => exact .emit ..

theorem strikes_ended {reason : Exit} (found : w.find? a.id = some a) (alive : a.core.isDone = false)
    (allowed : ∀ journal, may { w with journal } a (.finish reason)) :
    Strikes may w (w.ended a reason) := by
  have entered : Strikes may w (w.entering (.termination a.id)) := .write w _
  have finish : Strike may (w.entering (.termination a.id))
      ((w.entering (.termination a.id)).putCore a (a.core.struck (.finish reason))) :=
    .strike found alive (allowed _)
  exact entered.trans ((Strikes.of_strike finish).trans (.emit _ _))

abbrev Traffic := World → Identity → Identity → Exit → Prop

def IsOver (w : World) (i : Identity) : Prop := ∃ a, w.find? i = some a ∧ a.core.isDone = true

theorem IsOver.strikes (past : w.IsOver i) (strikes : Strikes may w v) : v.IsOver i := by
  obtain ⟨a, found, done⟩ := past
  obtain ⟨b, present, -, struck⟩ := strikes.actor found
  exact ⟨b, present, struck.keeps (P := fun core => core.isDone = true) done
    fun _ _ done suffers _ => Core.isDone_struck suffers done⟩

inductive Cause (traffic : Traffic) (w : World) (a : Actor) : Stroke → Prop
  | reached {sender : Identity} {signal reason : Exit} (sent : traffic w a.id sender signal)
      (reaching : a.reaching sender signal = some reason) :
      Cause traffic w a (.accept sender reason)
  | trapped {sender : Identity} {reason : Exit} (sent : traffic w a.id sender reason)
      (trapping : a.trapping sender reason = some reason) :
      Cause traffic w a (.post (.exitMessage sender reason))
  | greeted : Cause traffic w a (.post (.str "bye"))
  | ended {last first : Exit} (role : a.role = .plain (.terminate last))
      (exiting : a.core.life = .exiting first) : Cause traffic w a (.finish last)
  | parted {peer : Identity} (role : a.role = .plain .unlink) : Cause traffic w a (.part peer)

/-- Signals of some kind are followed by signals of that kind only: those to the links of an actor
that its hook ends, and those back from an actor whose hook replies. -/
structure Traffic.Spreads (traffic : Traffic) : Prop where
  keeps : ∀ ⦃w v receiver sender reason⦄, Strikes (fun _ _ _ => True) w v →
    traffic w receiver sender reason → traffic v receiver sender reason
  ends : ∀ ⦃w a sender reason last⦄, w.find? a.id = some a → a.role = .plain (.terminate last) →
    a.core.life = .exiting reason → traffic w a.id sender reason →
    ∀ peer ∈ a.core.links.members, traffic (w.ended a last) peer a.id reason
  replies : ∀ ⦃w a sender reason answer⦄, w.find? a.id = some a →
    a.role = .plain (.reply answer) → a.core.life = .exiting reason →
    traffic w a.id sender reason → traffic w sender a.id answer

/-- Signals of every kind. -/
theorem Traffic.spreads_any : Traffic.Spreads fun _ _ _ _ => True := ⟨by simp, by simp, by simp⟩

def Spreading (traffic : Traffic) (R : Reaction) : Prop :=
  ∀ ⦃w id a⦄ sender reason, w.Keyed → w.find? id = some a → a.core.life = .exiting reason →
    (∀ hook, a.role = .plain hook → traffic w id sender reason) →
    Strikes (Cause traffic) w (R id sender reason w).world

section Chain

variable {traffic : Traffic} {R : Reaction} (spreads : traffic.Spreads)
  (reacts : Spreading traffic R) (keyed : w.Keyed)
include spreads reacts keyed

theorem strikes_forwardWith (more : ∀ w a stroke, Cause traffic w a stroke → may w a stroke)
    (id sender : Identity) (reason : Exit)
    (sent : ∀ a hook, w.find? id = some a → a.role = .plain hook → traffic w id sender reason)
    (allowed : sender ≠ id → ∀ journal a, w.find? id = some a →
      may { w with journal } a (.accept sender reason)) :
    Strikes may w (forwardWith R w id sender reason).world := by
  unfold forwardWith
  split
  · exact .emit ..
  · next other =>
    have strikes := strikes_offer keyed id sender reason (allowed other)
    have outcome := offered keyed id sender reason
    revert strikes outcome
    generalize w.offer id sender reason = result
    intro strikes outcome
    cases outcome with
    | gone missing alike => exact strikes
    | refused found unborn alike => exact strikes
    | ignored found surfaced alike => exact strikes
    | @accepted v a core found accepted replaces same =>
      have name : a.id = id := keyed found
      subst name
      obtain ⟨runs, rfl⟩ := Core.offer_accepted.mp accepted
      have present := (replaces.find? a.id).trans (if_pos rfl)
      have reaction := reacts sender reason (strikes.keyed keyed) present rfl fun hook role =>
        spreads.keeps (strikes.mono fun _ _ _ _ => trivial) (sent a hook found role)
      exact strikes.trans (reaction.mono more)

theorem strikes_signalWith (found : w.find? a.id = some a) {sender : Identity} {reason : Exit}
    (sent : traffic w a.id sender reason) :
    Strikes (Cause traffic) w (signalWith R w a sender reason).world := by
  have still (journal : Journal) : traffic { w with journal } a.id sender reason :=
    spreads.keeps (.write w journal) sent
  unfold signalWith
  cases screened : a.screen sender reason with
  | ignoreSelf => exact .emit ..
  | ignoreNormal => exact .emit ..
  | trap trapped =>
    have trapping : a.trapping sender reason = some trapped := by
      simp only [Actor.trapping, screened]
    obtain rfl := Actor.trapping_eq trapping
    have emitted : Strikes (Cause traffic) w (w.emit (.trapped a.id sender trapped)) := .emit ..
    refine emitted.trans (strikes_send (emitted.keyed keyed) a.id _ fun b present => ?_)
    cases found.symm.trans present
    exact .trapped (still _) trapping
  | forward converted =>
    refine strikes_forwardWith spreads reacts keyed (fun _ _ _ cause => cause) a.id sender converted
      (fun b hook present role => ?_) fun other journal b present => ?_
    · -- a plain actor takes every signal as it is
      cases found.symm.trans present
      obtain rfl : reason = converted := by simpa [Actor.screen, Role.screen, role] using screened
      exact sent
    · cases found.symm.trans present
      refine .reached (still journal) ?_
      simp only [Actor.reaching, screened]
      exact if_neg other

theorem strikes_deliverWith {receiver sender : Identity} {reason : Exit}
    (sent : traffic w receiver sender reason) :
    Strikes (Cause traffic) w (deliverWith R w receiver sender reason).world := by
  unfold deliverWith
  cases found : w.find? receiver with
  | some a =>
    have name : a.id = receiver := keyed found
    subst name
    exact strikes_signalWith spreads reacts keyed found sent
  | none =>
    dsimp only
    split
    · exact .note ..
    · exact .emit ..

theorem strikes_broadcastWith {sender : Identity} {reason : Exit} {peers : List Identity}
    (sent : ∀ peer ∈ peers, traffic w peer sender reason) :
    Strikes (Cause traffic) w (broadcastWith R sender reason peers w).world := by
  induction peers generalizing w with
  | nil => exact .refl w
  | cons peer rest ih =>
    have kept {v : World} (strikes : Strikes (Cause traffic) w v) (other : Identity)
        (member : other ∈ peer :: rest) : traffic v other sender reason :=
      spreads.keeps (strikes.mono fun _ _ _ _ => trivial) (sent other member)
    have emitted : Strikes (Cause traffic) w (w.emit (.linkExit peer)) := .emit ..
    have first := emitted.trans (strikes_deliverWith spreads reacts (emitted.keyed keyed)
      (kept emitted peer List.mem_cons_self))
    unfold broadcastWith
    revert first
    generalize deliverWith R (w.emit (.linkExit peer)) peer sender reason = result
    intro first
    cases result with
    | error fault v => exact first
    | ok answer v =>
      exact first.trans (ih (first.keyed keyed) fun other member =>
        kept first other (List.mem_cons_of_mem peer member))

/-- The end of an actor strikes it, and then what its signals to its links cause. -/
theorem strikes_finishWith (more : ∀ w a stroke, Cause traffic w a stroke → may w a stroke)
    (id : Identity) (reason : Exit)
    (allowed : ∀ journal a, w.find? id = some a → may { w with journal } a (.finish reason))
    (sent : ∀ a, w.find? id = some a → a.core.isDone = false →
      ∀ peer ∈ a.core.links.members, traffic (w.ended a reason) peer id (a.core.finalReason reason)) :
    Strikes may w (finishWith R w id reason).world := by
  cases found : w.find? id with
  | none =>
    rw [finishWith_gone found]
    exact (Strikes.write w _).trans (.write _ _)
  | some a =>
    have name : a.id = id := keyed found
    cases finished : a.core.isDone with
    | true =>
      rw [finishWith_done found finished]
      exact (Strikes.write w _).trans ((Strikes.emit _ _).trans (.write _ _))
    | false =>
      subst name
      have ended : Strikes may w (w.ended a reason) :=
        strikes_ended found finished fun journal => allowed journal a found
      have told := strikes_broadcastWith spreads reacts (ended.keyed keyed) (sent a found finished)
      rw [finishWith_alive keyed found finished, Outcome.world_concluding]
      exact (ended.trans (told.mono more)).trans (.write _ _)

theorem strikes_runHook {id sender : Identity} {reason : Exit} {hook : Hook}
    (found : w.find? id = some a) (role : a.role = .plain hook)
    (exiting : a.core.life = .exiting reason) (sent : traffic w id sender reason) :
    Strikes (Cause traffic) w (runHook R hook id sender reason w).world := by
  have name : a.id = id := keyed found
  subst name
  let phase := ((w.find? a.id).map (·.core.phase)).getD .done
  have noted : Strikes (Cause traffic) w (w.note a.id (.hook sender reason phase)) := .note ..
  have still (journal : Journal) : traffic { w with journal } a.id sender reason :=
    spreads.keeps (.write w journal) sent
  cases hook with
  | record => exact noted
  | raise => exact noted
  | terminate last =>
    have final : a.core.finalReason last = reason := by
      simp [Core.finalReason, exiting, Life.pending?]
    have ended := noted.trans (strikes_finishWith spreads reacts (noted.keyed keyed)
      (fun _ _ _ cause => cause) a.id last
      (fun journal b present => by
        cases found.symm.trans present
        exact .ended role exiting)
      fun b present alive => by
        cases found.symm.trans present
        rw [final]
        exact spreads.ends found role exiting (still _))
    unfold runHook
    revert ended
    dsimp only
    generalize finishWith R _ a.id last = result
    intro ended
    cases result with
    | error fault v => exact ended
    | ok final v => exact ended.trans (.note ..)
  | reply answer =>
    exact noted.trans (strikes_deliverWith spreads reacts (noted.keyed keyed)
      (spreads.replies found role exiting (still _)))
  | send =>
    exact noted.trans (strikes_send (noted.keyed keyed) sender _ fun _ _ => .greeted)
  | unlink =>
    have parted : Cause traffic (w.note a.id (.hook sender reason phase)) a (.part sender) :=
      .parted role
    exact noted.trans (.changeCore (noted.keyed keyed) found (·.eraseLink sender) (.part sender) rfl
      trivial parted)

end Chain

section Signals

variable {traffic : Traffic} (spreads : traffic.Spreads)
include spreads

/-- Reactions of any depth spread signals of a kind only by signals of that kind. -/
theorem spreading_react (depth : Nat) : Spreading traffic (react depth) := by
  induction depth with
  | zero =>
    intro w id a sender reason keyed found exiting sent
    unfold react
    rw [found]
    dsimp only
    split
    · exact .emit ..
    · exact .emit ..
    · exact .refl _
    · next absurd => cases absurd
  | succ depth ih =>
    intro w id a sender reason keyed found exiting sent
    unfold react
    rw [found]
    dsimp only
    split
    · exact .emit ..
    · exact .emit ..
    · next absurd => cases absurd
    · next hook depth' role less =>
      cases less
      exact strikes_runHook spreads ih keyed found role exiting (sent hook role)

variable (keyed : w.Keyed)
include keyed

theorem strikes_deliver {receiver sender : Identity} {reason : Exit}
    (sent : traffic w receiver sender reason) :
    Strikes (Cause traffic) w (w.deliver receiver sender reason).world :=
  strikes_deliverWith spreads (spreading_react spreads _) keyed sent

theorem strikes_forward (more : ∀ w a stroke, Cause traffic w a stroke → may w a stroke)
    {id sender : Identity} {reason : Exit} (sent : traffic w id sender reason)
    (allowed : ∀ journal a, w.find? id = some a →
      may { w with journal } a (.accept sender reason)) :
    Strikes may w (w.forward id sender reason).world :=
  strikes_forwardWith spreads (spreading_react spreads _) keyed more id sender reason
    (fun _ _ _ _ => sent) fun _ => allowed

theorem strikes_terminate (more : ∀ w a stroke, Cause traffic w a stroke → may w a stroke)
    {id : Identity} {reason : Exit}
    (allowed : ∀ journal a, w.find? id = some a → may { w with journal } a (.finish reason))
    (sent : ∀ a, w.find? id = some a → a.core.isDone = false →
      ∀ peer ∈ a.core.links.members, traffic (w.ended a reason) peer id (a.core.finalReason reason)) :
    Strikes may w (w.terminate id reason).world :=
  strikes_finishWith spreads (spreading_react spreads _) keyed more id reason allowed sent

end Signals

end World

end Actors
