import Actors.Proofs.Change

/-! Reactions. Work on signals proceeds by changes, however deep actors react to one another: each
reaction uses up a running actor, so from the number of running actors on the depth of the reactions
makes no difference. -/
namespace Actors.World

variable {w : World} {R S : Reaction} {n : Nat}

inductive Offered (w : World) (id : Identity) (reason : Exit) : Outcome Bool → Prop
  | gone {v : World} (missing : w.find? id = none) (alike : Alike w v) :
      Offered w id reason (.ok false v)
  | refused {v : World} {a : Actor} (found : w.find? id = some a) (unborn : a.core.life = .init)
      (alike : Alike w v) :
      Offered w id reason
        (.error (.exception (.invariant "exit signal delivered before start")) v)
  | accepted {v : World} {a : Actor} {core : Core} (found : w.find? id = some a)
      (accepted : a.core.offer reason = .ok (.accepted, core)) (replaces : Replaces w a core v)
      (reactions : ∀ i, v.reactions i = w.reactions i) : Offered w id reason (.ok true v)
  | ignored {v : World} {a : Actor} {exit : Exit} (found : w.find? id = some a)
      (surfaced : a.core.life.surfaced? = some exit) (alike : Alike w v) :
      Offered w id reason (.ok false v)

theorem replaces_putCore {a : Actor} (core : Core) (found : w.find? a.id = some a)
    (alive : a.core.isDone = false) : Replaces w a core (w.putCore a core) :=
  ⟨found, alive, rfl, rfl, rfl⟩

theorem offered (keyed : w.Keyed) (id sender : Identity) (reason : Exit) :
    Offered w id reason (w.offer id sender reason) := by
  have entered := alike_entering w (.offer sender id)
  unfold offer
  cases found : w.find? id with
  | none =>
    rw [within_ok (by simp only [entered.find?, found]; rfl)]
    exact .gone found (entered.trans (alike_leaving ..))
  | some a =>
    have name : a.id = id := keyed found
    cases life : a.core.life with
    | init =>
      have refusal : a.core.offer reason
          = .error (.invariant "exit signal delivered before start") := by
        simp [Core.offer, life, Life.accept]
      rw [within_error (by simp only [entered.find?, found, refusal]; rfl)]
      exact .refused found life (entered.trans (alike_leaving ..))
    | running =>
      have acceptance := (@Core.offer_accepted a.core _ reason).mpr ⟨life, rfl⟩
      rw [within_ok (by simp only [entered.find?, found, acceptance]; rfl)]
      refine .accepted found acceptance ?_ fun i => ?_
      · refine ⟨name ▸ found, ?_, rfl, rfl, rfl⟩
        simp [Core.isDone, Core.phase, life, Life.phase]
      · exact (alike_emit (w.entering (.offer sender id)) .exitAccepted fun _ => rfl).reactions i
    | exiting first =>
      have pending : a.core.offer reason = .ok (.pending, a.core) := by
        simp [Core.offer, life, Life.accept]
      rw [within_ok (by simp only [entered.find?, found, pending]; rfl)]
      have surfaced : a.core.life.surfaced? = some first := by rw [life]; rfl
      exact .ignored found surfaced
        (entered.trans ((alike_emit _ _ fun _ => rfl).trans (alike_leaving ..)))
    | done final =>
      have finished : a.core.offer reason = .ok (.done, a.core) := by
        simp [Core.offer, life, Life.accept]
      rw [within_ok (by simp only [entered.find?, found, finished]; rfl)]
      have surfaced : a.core.life.surfaced? = some final := by rw [life]; rfl
      exact .ignored found surfaced
        (entered.trans ((alike_emit _ _ fun _ => rfl).trans (alike_leaving ..)))

theorem changeCore_found {id : Identity} {a : Actor} (found : w.find? id = some a)
    (f : Core → Core) : w.changeCore id f = w.putCore a (f a.core) := by
  unfold changeCore
  rw [found]

theorem changes_adjust (keyed : w.Keyed) {id : Identity} {a : Actor} (found : w.find? id = some a)
    (alive : a.core.isDone = false) (f : Core → Core) (adjusted : a.core.Adjusts (f a.core)) :
    Changes w (w.changeCore id f) := by
  have name : a.id = id := keyed found
  rw [changeCore_found found]
  exact .of_change (.adjust (replaces_putCore _ (name ▸ found) alive) adjusted fun _ => rfl)

theorem changes_send (keyed : w.Keyed) (receiver : Identity) (message : Term) :
    Changes w (w.send receiver message) := by
  unfold send
  cases found : w.find? receiver with
  | none =>
    dsimp only
    split
    · exact .of_alike (alike_note _ _ _ fun _ => rfl)
    · exact .of_alike (alike_emit _ _ fun _ => rfl)
  | some a =>
    dsimp only
    split
    · exact .of_alike (alike_emit _ _ fun _ => rfl)
    · next alive =>
      exact changes_adjust keyed found (Bool.eq_false_of_not_eq_true alive) _ (.post message)

structure Told (w : World) (id sender : Identity) (reason : Exit) (w' : World) : Prop where
  actors : w'.actors = w.actors
  stubs : w'.stubs = w.stubs
  serial : w'.serial = w.serial
  reactions : ∀ i, w'.reactions i = w.reactions i + if i = id then {(sender, reason)} else 0

theorem Told.find? {w' : World} {id sender : Identity} {reason : Exit}
    (told : Told w id sender reason w') (i : Identity) : w'.find? i = w.find? i := by
  simp only [World.find?, told.actors]

/-- With fewer than `n` actors running, the actor reacts to the signal before all else. -/
def Reacts (R : Reaction) (n : Nat) : Prop :=
  ∀ ⦃w : World⦄ ⦃id : Identity⦄ ⦃a : Actor⦄ (sender : Identity) (reason : Exit), w.Keyed →
    w.running < n → w.find? id = some a → a.core.isDone = false →
    ∃ told, Told w id sender reason told ∧ Changes told (R id sender reason w).world

theorem running_lt_accept {v : World} {a : Actor} {core : Core} {reason : Exit}
    (replaces : Replaces w a core v) (accepted : a.core.offer reason = .ok (.accepted, core)) :
    v.running < w.running := by
  have count := replaces.running
  obtain ⟨life, rfl⟩ := Core.offer_accepted.mp accepted
  have before : a.core.isRunning = true := by simp [Core.isRunning, Core.phase, life, Life.phase]
  have after : ({ a.core with life := .exiting reason }.alert).isRunning = false := rfl
  simp only [before, after, if_true, Bool.false_eq_true, if_false] at count
  omega

def ended (w : World) (a : Actor) (reason : Exit) : World :=
  ((w.entering (.termination a.id)).putCore a (a.core.ended reason)).emit
    (.terminated (a.core.finalReason reason) a.core.links.members.length)

def Outcome.concluding (told : Outcome Unit) (final : Exit) (w : World) : Outcome (Option Exit) :=
  match told with
  | .ok _ v => .ok (some final) (v.leaving w)
  | .error fault v => .error fault (v.leaving w)

theorem Outcome.world_concluding (told : Outcome Unit) (final : Exit) (w : World) :
    (told.concluding final w).world = told.world.leaving w := by
  cases told <;> rfl

theorem finishWith_gone {id : Identity} (missing : w.find? id = none) (reason : Exit) :
    finishWith R w id reason = .ok none ((w.entering (.termination id)).leaving w) := by
  unfold finishWith
  rw [within_ok (by simp only [(alike_entering ..).find?, missing]; rfl)]

theorem finishWith_done {id : Identity} {a : Actor} (found : w.find? id = some a)
    (finished : a.core.isDone = true) (reason : Exit) :
    finishWith R w id reason
      = .ok none (((w.entering (.termination id)).emit .alreadyDone).leaving w) := by
  unfold finishWith
  rw [within_ok (by simp only [(alike_entering ..).find?, found, Core.finish_done finished]; rfl)]

theorem finishWith_alive (keyed : w.Keyed) {id : Identity} {a : Actor}
    (found : w.find? id = some a) (alive : a.core.isDone = false) (reason : Exit) :
    finishWith R w id reason
      = (broadcastWith R id (a.core.finalReason reason) a.core.links.members
          (w.ended a reason)).concluding (a.core.finalReason reason) w := by
  have name : a.id = id := keyed found
  subst name
  unfold finishWith
  cases told : broadcastWith R a.id (a.core.finalReason reason) a.core.links.members
      (w.ended a reason) with
  | ok answer v =>
    refine within_ok ?_
    simp only [(alike_entering ..).find?, found, Core.finish_alive alive]
    rw [show ((w.entering (.termination a.id)).putCore a (a.core.ended reason)).emit _
      = w.ended a reason from rfl, told]
  | error fault v =>
    refine within_error ?_
    simp only [(alike_entering ..).find?, found, Core.finish_alive alive]
    rw [show ((w.entering (.termination a.id)).putCore a (a.core.ended reason)).emit _
      = w.ended a reason from rfl, told]

theorem replaces_ended {a : Actor} (found : w.find? a.id = some a) (alive : a.core.isDone = false)
    (reason : Exit) : Replaces w a (a.core.ended reason) (w.ended a reason) :=
  ⟨found, alive, rfl, rfl, rfl⟩

theorem reactions_ended (a : Actor) (reason : Exit) (i : Identity) :
    (w.ended a reason).reactions i = w.reactions i :=
  (alike_emit ((w.entering (.termination a.id)).putCore a (a.core.ended reason)) (.terminated _ _)
    fun _ => rfl).reactions i

theorem changes_ended {a : Actor} (found : w.find? a.id = some a) (alive : a.core.isDone = false)
    (reason : Exit) : Changes w (w.ended a reason) :=
  .of_change (.adjust (replaces_ended found alive reason) (.finish reason) (reactions_ended a reason))

section Steps

variable (reacts : Reacts R n) (keyed : w.Keyed) (bounded : w.running ≤ n)
include reacts keyed bounded

theorem changes_forwardWith (id sender : Identity) (reason : Exit) :
    Changes w (forwardWith R w id sender reason).world := by
  unfold forwardWith
  split
  · exact .of_alike (alike_emit _ _ fun _ => rfl)
  · next other =>
    have outcome := offered keyed id sender reason
    revert outcome
    generalize w.offer id sender reason = result
    rintro (⟨missing, alike⟩ | ⟨found, unborn, alike⟩ | ⟨found, accepted, replaces, same⟩ |
      ⟨found, surfaced, alike⟩)
    · exact .of_alike alike
    · exact .of_alike alike
    · next v a core =>
      have name : a.id = id := keyed found
      subst name
      have alive : core.isDone = false := by
        rw [(Core.offer_accepted.mp accepted).2]
        rfl
      obtain ⟨told, telling, after⟩ := reacts sender reason
        (replaces.keyed (by rw [(Core.offer_accepted.mp accepted).2]; rfl) keyed)
        ((running_lt_accept replaces accepted).trans_le bounded)
        (by rw [replaces.find?, if_pos rfl]) alive
      have accept : Change w told := .accept
        ⟨replaces.found, replaces.alive, telling.actors.trans replaces.actors,
          telling.stubs.trans replaces.stubs, telling.serial.trans replaces.serial⟩
        other accepted fun i => by rw [telling.reactions, same]
      exact .trans (.of_change accept) after
    · exact .of_alike alike

theorem changes_signalWith (a : Actor) (sender : Identity) (reason : Exit) :
    Changes w (signalWith R w a sender reason).world := by
  unfold signalWith
  split
  · exact .of_alike (alike_emit _ _ fun _ => rfl)
  · exact .of_alike (alike_emit _ _ fun _ => rfl)
  · next trapped screened =>
    have alike := alike_emit w (.trapped a.id sender trapped) fun _ => rfl
    exact Changes.trans (.of_alike alike) (changes_send (alike.keyed keyed) a.id _)
  · exact changes_forwardWith reacts keyed bounded ..

theorem changes_deliverWith (receiver sender : Identity) (reason : Exit) :
    Changes w (deliverWith R w receiver sender reason).world := by
  unfold deliverWith
  split
  · exact changes_signalWith reacts keyed bounded ..
  · split
    · exact .of_alike (alike_note _ _ _ fun _ => rfl)
    · exact .of_alike (alike_emit _ _ fun _ => rfl)

theorem changes_broadcastWith (sender : Identity) (reason : Exit) (peers : List Identity) :
    Changes w (broadcastWith R sender reason peers w).world := by
  induction peers generalizing w with
  | nil => exact .refl w
  | cons peer rest ih =>
    have alike := alike_emit w (.linkExit peer) fun _ => rfl
    have first := (Changes.of_alike alike).trans
      (changes_deliverWith reacts (alike.keyed keyed) (alike.running.trans_le bounded) peer sender
        reason)
    unfold broadcastWith
    revert first
    generalize deliverWith R (w.emit (.linkExit peer)) peer sender reason = result
    intro first
    cases result with
    | error fault v => exact first
    | ok answer v =>
      exact first.trans (ih (first.keyed keyed) (first.running_le.trans bounded))

theorem changes_finishWith (id : Identity) (reason : Exit) :
    Changes w (finishWith R w id reason).world := by
  cases found : w.find? id with
  | none =>
    rw [finishWith_gone found]
    exact .of_alike ((alike_entering ..).trans (alike_leaving ..))
  | some a =>
    have name : a.id = id := keyed found
    cases finished : a.core.isDone with
    | true =>
      rw [finishWith_done found finished]
      exact .of_alike
        ((alike_entering ..).trans ((alike_emit _ _ fun _ => rfl).trans (alike_leaving ..)))
    | false =>
      have ended := changes_ended (name ▸ found) finished reason
      have rest := ended.trans (changes_broadcastWith reacts (ended.keyed keyed)
        (ended.running_le.trans bounded) id (a.core.finalReason reason) a.core.links.members)
      rw [finishWith_alive keyed found finished, Outcome.world_concluding]
      exact rest.trans (.of_alike (alike_leaving ..))

end Steps

theorem told_note (w : World) (id sender : Identity) (reason : Exit) (phase : Phase) :
    Told w id sender reason (w.note id (.hook sender reason phase)) := by
  refine ⟨rfl, rfl, rfl, fun i => ?_⟩
  rw [reactions_note]
  by_cases same : i = id
  · simp [Note.reactionOf, same]
  · simp [Note.reactionOf, same, Ne.symm same]

/-- The hook of a plain actor is noted before it does anything. -/
theorem reacts_runHook (reacts : Reacts R n) (hook : Hook) :
    Reacts (runHook R hook) (n + 1) := by
  intro w id a sender reason keyed bounded found alive
  have bounded : w.running ≤ n := by omega
  let phase := ((w.find? id).map (·.core.phase)).getD .done
  refine ⟨w.note id (.hook sender reason phase), told_note .., ?_⟩
  · have keyed' : (w.note id (.hook sender reason phase)).Keyed := keyed
    have bounded' : (w.note id (.hook sender reason phase)).running ≤ n := bounded
    cases hook with
    | record => exact .refl _
    | terminate last =>
      have ended := changes_finishWith reacts keyed' bounded' id last
      unfold runHook
      revert ended
      dsimp only
      generalize finishWith R _ id last = result
      intro ended
      cases result with
      | error fault v => exact ended
      | ok final v => exact ended.trans (.of_alike (alike_note _ _ _ fun _ => rfl))
    | reply answer => exact changes_deliverWith reacts keyed' bounded' sender id answer
    | send => exact changes_send keyed' sender _
    | unlink => exact changes_adjust keyed' found alive (·.eraseLink sender) (.unlink sender)
    | raise => exact .refl _

theorem told_emit (w : World) (id sender : Identity) (reason : Exit) (event : Event)
    (telling : ∀ i, event.reactionOf i = if id = i then some (sender, reason) else none) :
    Told w id sender reason (w.emit event) := by
  refine ⟨rfl, rfl, rfl, fun i => ?_⟩
  rw [reactions_emit, telling]
  by_cases same : i = id
  · simp [same]
  · simp [same, Ne.symm same]

theorem react_process {id : Identity} {a : Actor} {flags : Flags} (found : w.find? id = some a)
    (role : a.role = .process flags) (d : Nat) (sender : Identity) (reason : Exit) :
    react d id sender reason w = .ok () (w.emit (.processExiting id sender reason)) := by
  unfold react
  simp only [found, role]

theorem react_port {id owner : Identity} {a : Actor} {name : Atom} (found : w.find? id = some a)
    (role : a.role = .port name owner) (d : Nat) (sender : Identity) (reason : Exit) :
    react d id sender reason w = .ok () (w.emit (.portClosing id name sender reason)) := by
  unfold react
  simp only [found, role]

theorem react_plain {id : Identity} {a : Actor} {hook : Hook} (found : w.find? id = some a)
    (role : a.role = .plain hook) (d : Nat) (sender : Identity) (reason : Exit) :
    react (d + 1) id sender reason w = runHook (react d) hook id sender reason w := by
  rw [react]
  simp only [found, role]

/-- Reactions `n` deep are enough while fewer than `n` actors are running. -/
theorem reacts_react {d : Nat} (deep : n ≤ d) : Reacts (react d) n := by
  induction n generalizing d with
  | zero => exact fun w id a sender reason keyed bounded => absurd bounded (Nat.not_lt_zero _)
  | succ n ih =>
    obtain ⟨d, rfl⟩ : ∃ e, d = e + 1 := ⟨d - 1, by omega⟩
    intro w id a sender reason keyed bounded found alive
    cases role : a.role with
    | process flags =>
      rw [react_process found role]
      exact ⟨_, told_emit w id sender reason _ fun _ => rfl, .refl _⟩
    | port name owner =>
      rw [react_port found role]
      exact ⟨_, told_emit w id sender reason _ fun _ => rfl, .refl _⟩
    | plain hook =>
      rw [react_plain found role]
      have shallower : Reacts (react d) n := ih (by omega)
      exact reacts_runHook shallower hook sender reason keyed bounded found alive

def Agree (R S : Reaction) (n : Nat) : Prop :=
  ∀ ⦃w : World⦄ ⦃id : Identity⦄ ⦃a : Actor⦄ (sender : Identity) (reason : Exit), w.Keyed →
    w.running < n → w.find? id = some a → a.core.isDone = false →
    R id sender reason w = S id sender reason w

section Agreement

variable (agree : Agree R S n) (keyed : w.Keyed) (bounded : w.running ≤ n)
include agree keyed bounded

theorem forwardWith_agree (id sender : Identity) (reason : Exit) :
    forwardWith R w id sender reason = forwardWith S w id sender reason := by
  unfold forwardWith
  split
  · rfl
  · have outcome := offered keyed id sender reason
    revert outcome
    generalize w.offer id sender reason = result
    rintro (⟨missing, alike⟩ | ⟨found, unborn, alike⟩ | ⟨found, accepted, replaces, same⟩ |
      ⟨found, surfaced, alike⟩)
    · rfl
    · rfl
    · next v a core =>
      have name : a.id = id := keyed found
      subst name
      obtain ⟨life, rfl⟩ := Core.offer_accepted.mp accepted
      exact agree sender reason (replaces.keyed rfl keyed)
        ((running_lt_accept replaces accepted).trans_le bounded)
        (by rw [replaces.find?, if_pos rfl]) rfl
    · rfl

theorem signalWith_agree (a : Actor) (sender : Identity) (reason : Exit) :
    signalWith R w a sender reason = signalWith S w a sender reason := by
  unfold signalWith
  cases a.screen sender reason with
  | ignoreSelf => rfl
  | ignoreNormal => rfl
  | trap reason => rfl
  | forward reason => exact forwardWith_agree agree keyed bounded ..

theorem deliverWith_agree (receiver sender : Identity) (reason : Exit) :
    deliverWith R w receiver sender reason = deliverWith S w receiver sender reason := by
  unfold deliverWith
  cases w.find? receiver with
  | none => rfl
  | some a => exact signalWith_agree agree keyed bounded ..

theorem broadcastWith_agree (reacts : Reacts R n) (sender : Identity) (reason : Exit)
    (peers : List Identity) :
    broadcastWith R sender reason peers w = broadcastWith S sender reason peers w := by
  induction peers generalizing w with
  | nil => rfl
  | cons peer rest ih =>
    have alike := alike_emit w (.linkExit peer) fun _ => rfl
    have keyed' := alike.keyed keyed
    have bounded' := alike.running.trans_le bounded
    have first := changes_deliverWith reacts keyed' bounded' peer sender reason
    unfold broadcastWith
    rw [← deliverWith_agree agree keyed' bounded']
    revert first
    generalize deliverWith R (w.emit (.linkExit peer)) peer sender reason = result
    intro first
    cases result with
    | error fault v => rfl
    | ok answer v => exact ih (first.keyed keyed') (first.running_le.trans bounded')

theorem finishWith_agree (reacts : Reacts R n) (id : Identity) (reason : Exit) :
    finishWith R w id reason = finishWith S w id reason := by
  cases found : w.find? id with
  | none => rw [finishWith_gone found, finishWith_gone found]
  | some a =>
    cases finished : a.core.isDone with
    | true => rw [finishWith_done found finished, finishWith_done found finished]
    | false =>
      have name : a.id = id := keyed found
      have ended := changes_ended (name ▸ found) finished reason
      rw [finishWith_alive keyed found finished, finishWith_alive keyed found finished,
        broadcastWith_agree agree (ended.keyed keyed) (ended.running_le.trans bounded) reacts]

theorem runHook_agree (reacts : Reacts R n) (hook : Hook) (id sender : Identity) (reason : Exit) :
    runHook R hook id sender reason w = runHook S hook id sender reason w := by
  let phase := ((w.find? id).map (·.core.phase)).getD .done
  have keyed' : (w.note id (.hook sender reason phase)).Keyed := keyed
  have bounded' : (w.note id (.hook sender reason phase)).running ≤ n := bounded
  cases hook with
  | terminate last =>
    unfold runHook
    dsimp only
    rw [finishWith_agree agree keyed' bounded' reacts id last]
  | reply answer => exact deliverWith_agree agree keyed' bounded' sender id answer
  | record => rfl
  | send => rfl
  | unlink => rfl
  | raise => rfl

end Agreement

/-- Reactions that are deep enough for the running actors do not depend on their depth. -/
theorem agree_react {d e : Nat} (deep : n ≤ d) (deep' : n ≤ e) :
    Agree (react d) (react e) n := by
  induction n generalizing d e with
  | zero => exact fun w id a sender reason keyed bounded => absurd bounded (Nat.not_lt_zero _)
  | succ n ih =>
    obtain ⟨d, rfl⟩ : ∃ k, d = k + 1 := ⟨d - 1, by omega⟩
    obtain ⟨e, rfl⟩ : ∃ k, e = k + 1 := ⟨e - 1, by omega⟩
    intro w id a sender reason keyed bounded found alive
    cases role : a.role with
    | process flags => rw [react_process found role, react_process found role]
    | port name owner => rw [react_port found role, react_port found role]
    | plain hook =>
      rw [react_plain found role, react_plain found role]
      have shallower : Agree (react d) (react e) n := ih (by omega) (by omega)
      exact runHook_agree shallower keyed (by omega) (reacts_react (by omega)) ..

theorem deliverWith_eq {d : Nat} (keyed : w.Keyed) (deep : w.running ≤ d)
    (receiver sender : Identity) (reason : Exit) :
    deliverWith (react d) w receiver sender reason = w.deliver receiver sender reason :=
  deliverWith_agree (agree_react deep le_rfl) keyed le_rfl ..

theorem changes_deliver (keyed : w.Keyed) (receiver sender : Identity) (reason : Exit) :
    Changes w (w.deliver receiver sender reason).world :=
  changes_deliverWith (reacts_react le_rfl) keyed le_rfl ..

theorem changes_forward (keyed : w.Keyed) (id sender : Identity) (reason : Exit) :
    Changes w (w.forward id sender reason).world :=
  changes_forwardWith (reacts_react le_rfl) keyed le_rfl ..

theorem changes_terminate (keyed : w.Keyed) (id : Identity) (reason : Exit) :
    Changes w (w.terminate id reason).world :=
  changes_finishWith (reacts_react le_rfl) keyed le_rfl ..

def broadcast (sender : Identity) (reason : Exit) : List Identity → World → Outcome Unit
  | [], w => .ok () w
  | peer :: rest, w =>
    match (w.emit (.linkExit peer)).deliver peer sender reason with
    | .error fault w => .error fault w
    | .ok () w => broadcast sender reason rest w

/-- Beyond the number of running actors the depth makes no difference to a broadcast. -/
theorem broadcastWith_eq {d : Nat} (keyed : w.Keyed) (deep : w.running ≤ d) (sender : Identity)
    (reason : Exit) (peers : List Identity) :
    broadcastWith (react d) sender reason peers w = broadcast sender reason peers w := by
  induction peers generalizing w with
  | nil => rfl
  | cons peer rest ih =>
    have alike := alike_emit w (.linkExit peer) fun _ => rfl
    have first := changes_deliver (alike.keyed keyed) peer sender reason
    unfold broadcastWith broadcast
    rw [deliverWith_eq (alike.keyed keyed) (alike.running.trans_le deep)]
    revert first
    generalize (w.emit (.linkExit peer)).deliver peer sender reason = result
    intro first
    cases result with
    | error fault v => rfl
    | ok answer v =>
      exact ih (first.keyed (alike.keyed keyed))
        (first.running_le.trans (alike.running.trans_le deep))

theorem changes_broadcast (keyed : w.Keyed) (sender : Identity) (reason : Exit)
    (peers : List Identity) : Changes w (broadcast sender reason peers w).world := by
  rw [← broadcastWith_eq keyed le_rfl]
  exact changes_broadcastWith (reacts_react le_rfl) keyed le_rfl ..

/-- The first end of an actor: its core is ended, and its links are signalled one after another. -/
theorem terminate_alive (keyed : w.Keyed) {id : Identity} {a : Actor}
    (found : w.find? id = some a) (alive : a.core.isDone = false) (reason : Exit) :
    w.terminate id reason
      = (broadcast id (a.core.finalReason reason) a.core.links.members
          (w.ended a reason)).concluding (a.core.finalReason reason) w := by
  have name : a.id = id := keyed found
  have ended := changes_ended (name ▸ found) alive reason
  unfold terminate reaction
  rw [finishWith_alive keyed found alive, broadcastWith_eq (ended.keyed keyed) ended.running_le]

end Actors.World
