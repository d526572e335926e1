import Actors.Proofs.Schedule
import Actors.Proofs.Voyage

/-! Tame scripts. A script that creates actors started, links none without a parent and raises no broken
rule itself keeps to the protocol, and so do the bodies that it gives to actors: no step and no end of
an actor raises a broken rule, no body is stopped for one, and the world takes a voyage. -/
namespace Actors

mutual

/-- Whether a step creates actors started, links none without a parent, starts none and raises no
broken rule; and so with the bodies in it. -/
def Step.isTame : Step → Bool
  | .create (.stub _ _) => true
  | .create _ | .start _ => false
  | .spawn parent options body _ => (!options.link || parent.isSome) && Line.areTame body
  | .openPort _ _ body _ => Line.areTame body
  | .raise fault => !fault.breaksInvariant
  | _ => true

def Act.isTame : Act → Bool
  | .step step => step.isTame
  | _ => true

def Line.isTame : Line → Bool
  | .mk _ _ act => act.isTame

def Line.areTame : List Line → Bool
  | [] => true
  | line :: rest => line.isTame && Line.areTame rest

end

theorem Line.areTame_cons {line : Line} {rest : List Line} :
    areTame (line :: rest) = true ↔ line.act.isTame = true ∧ areTame rest = true := by
  obtain ⟨label, isAttempt, act⟩ := line
  rw [areTame, isTame, Bool.and_eq_true, Line.act]

def Command.isTame : Command → Bool
  | .step performed => performed.isTame
  | _ => true

def DriverState.isTame : DriverState → Bool
  | .active _ body => Line.areTame body.lines
  | .ended _ => true

def Progress.isTame : Progress Activity → Bool
  | .suspended body => Line.areTame body.lines
  | .faulted fault => !fault.breaksInvariant
  | .returned | .failed _ => true

def Drive.isTame : Drive Activity → Bool
  | .suspended _ body => Line.areTame body.lines
  | .ended _ => true
  | .aborted => false

namespace Reply

def isBreach : Reply → Bool
  | raised fault => fault.breaksInvariant
  | _ => false

theorem isBreach_ofResult {α : Type} {f : α → Reply} (calm : ∀ a, (f a).isBreach = false)
    (result : Except Interrupt α) : (ofResult f result).isBreach = false := by
  cases result with
  | ok a => exact calm a
  | error interrupt => rfl

theorem isBreach_done (result : Except Interrupt Unit) : (done result).isBreach = false :=
  isBreach_ofResult (fun _ => rfl) result

end Reply

namespace World

variable {past : List Moment} {w : World}

theorem Sails.frees (sails : Sails past w) (ids : List Identity) :
    Sails past (ids.foldl World.free w) := by
  induction ids generalizing w with
  | nil => exact sails
  | cons i rest ih => exact ih (sails.act (.free i) rfl)

theorem Sails.calls (sails : Sails past w) (ids : List Identity) :
    Sails past (ids.foldl World.call w) := by
  induction ids generalizing w with
  | nil => exact sails
  | cons i rest ih => exact ih (sails.drift _ w.journal)

end World

namespace Node

variable {α β : Type} {n m : Node}

structure Sound (n : Node) : Prop where
  sails : World.Sails [] n.world
  going : n.isAborted = false
  tame : ∀ i d, n.drivers.find? i = some d → d.state.isTame = true

namespace Sound

theorem empty : Sound {} := ⟨.of_voyage .start, rfl, fun _ _ known => by cases known⟩

theorem of_world (sound : n.Sound) (sails : World.Sails [] m.world)
    (going : m.isAborted = n.isAborted) (drivers : m.drivers = n.drivers) : m.Sound :=
  ⟨sails, going.trans sound.going, drivers ▸ sound.tame⟩

theorem act (sound : n.Sound) (action : Action) (lawful : action.isLawful = true) :
    Sound { n with world := n.world.act action } :=
  sound.of_world (sound.sails.act action lawful) rfl rfl

theorem drift (sound : n.Sound) (calls : List Identity) (journal : Journal) :
    Sound { n with world := { n.world with calls, journal } } :=
  sound.of_world (sound.sails.drift calls journal) rfl rfl

theorem note (sound : n.Sound) (id : Identity) (note : Note) : (n.note id note).Sound :=
  sound.drift n.world.calls _

theorem reclaim (sound : n.Sound) : n.reclaim.Sound :=
  sound.of_world (sound.sails.frees _) rfl rfl

theorem putDriver (sound : n.Sound) (id : Identity) {d : Driver} (tame : d.state.isTame = true) :
    Sound { n with drivers := n.drivers.put id d } := by
  refine ⟨sound.sails, sound.going, fun i e known => ?_⟩
  rw [Registry.find?_put] at known
  split at known
  · cases known
    exact tame
  · exact sound.tame i e known

theorem launch (sound : n.Sound) (id : Identity) {body : List Line}
    (tame : Line.areTame body = true) : (n.launch id body).Sound := by
  let spans := n.world.journal.spans ++ [.actor id]
  have driven := sound.putDriver id (d := ⟨id, spans, .active none ⟨body, .fresh, none⟩, false, none⟩)
    tame
  exact driven.drift _ n.world.journal

theorem setDriver (sound : n.Sound) (id : Identity) (state : DriverState)
    (tame : state.isTame = true) : (n.setDriver id state).Sound := by
  unfold Node.setDriver
  split
  · exact sound
  · exact sound.putDriver id tame

theorem takeEnd (sound : n.Sound) {d : Driver} {target : Identity} {joiner : Option Identity}
    (taken : n.takeEnd target joiner = some (d, m)) : m.Sound := by
  unfold Node.takeEnd at taken
  cases known : n.drivers.find? target with
  | none => simp [known] at taken
  | some found =>
    simp only [known] at taken
    split at taken
    · cases taken
    · cases taken
      exact sound.putDriver target (sound.tame target d known)

theorem pollCore (sound : n.Sound) (id : Identity) {poll : Core → Poll α × Core}
    (errand : Errand) {sleeper : Option Identity} {ticket : Option Nat}
    (polled : ∀ c, (poll c).2 = c.polled errand sleeper ticket) :
    (n.pollCore id poll).2.Sound := by
  refine sound.of_world ?_ ?_ (drivers_pollCore ..)
  · rw [world_pollCore]
    simp only [polled]
    exact sound.sails.operate id (.poll errand sleeper ticket) rfl
  · unfold Node.pollCore
    split <;> rfl

theorem enqueues (sound : n.Sound) (ids : List Identity) : (ids.foldl enqueue n).Sound := by
  induction ids generalizing n with
  | nil => exact sound
  | cons i rest ih =>
    refine ih ?_
    unfold enqueue
    split
    · exact sound
    · exact ⟨sound.sails, sound.going, sound.tame⟩

theorem absorb (sound : n.Sound) (current : Option Identity) : (n.absorb current).Sound :=
  (sound.drift [] n.world.journal).enqueues _

end Sound

/-- Work that ends with a sound node, with an answer of a kind or with a fault that breaks no rule. -/
def Safe (post : α → Prop) : EStateM.Result Fault Node α → Prop
  | .ok a m => m.Sound ∧ post a
  | .error fault m => m.Sound ∧ fault.breaksInvariant = false

abbrev Calm (reply : Reply) : Prop := reply.isBreach = false

section Jobs

variable {post : α → Prop} {post' : β → Prop}

theorem safe_bind {first : Job α} {next : α → Job β} (safe : Safe post (first n))
    (rest : ∀ a m, m.Sound → post a → Safe post' (next a m)) : Safe post' ((first >>= next) n) := by
  simp only [bind, EStateM.bind]
  revert safe
  generalize first n = result
  intro safe
  cases result with
  | ok a m => exact rest a m safe.1 safe.2
  | error fault m => exact safe

theorem bind_get (next : Node → Job α) : (get >>= next) n = next n n := rfl

theorem safe_onWorld (sound : n.Sound) {work : World → World.Outcome α}
    (ends : ∃ a v, work n.world = .ok a v ∧ World.Sails [] v) :
    Safe (fun _ => True) (onWorld work n) := by
  obtain ⟨a, v, answers, sails⟩ := ends
  unfold onWorld
  rw [answers]
  exact ⟨sound.of_world sails rfl rfl, trivial⟩

theorem safe_issues (sound : n.Sound) {work : World → World.Outcome α}
    (ends : World.Issues [] n.world (work n.world)) : Safe (fun _ => True) (onWorld work n) := by
  rcases ends with answers | ⟨-, refused⟩
  · exact safe_onWorld sound answers
  · unfold onWorld
    rw [refused]
    exact ⟨sound.of_world sound.sails rfl rfl, rfl⟩

theorem safe_onActor (sound : n.Sound) {id : Identity} {work : Actor → Job Reply}
    (safe : ∀ a, n.world.find? a.id = some a → Safe Calm (work a n)) :
    Safe Calm (onActor id work n) := by
  unfold onActor
  rw [bind_get]
  cases found : n.world.find? id with
  | none => exact ⟨sound, rfl⟩
  | some a => exact safe a ((sound.sails.proper.keyed found).symm ▸ found)

end Jobs

/-- Operations that are no starts answer, in a sound node. -/
theorem safe_operate (sound : n.Sound) {id : Identity} (op : Operation)
    {work : World → World.Outcome α} (lawful : (Action.operate id op).isLawful = true)
    (ends : ∃ a, work n.world = .ok a (n.world.operate id op)) :
    Safe (fun _ => True) (onWorld work n) := by
  obtain ⟨a, answers⟩ := ends
  exact safe_onWorld sound ⟨a, _, answers, sound.sails.operate id op lawful⟩

theorem safe_setRole {a : Actor} {old : Flags} (sound : n.Sound)
    (found : n.world.find? a.id = some a) (flagged : a.role.flags? = some old) (new : Flags) :
    Sound (n.mapWorld (·.setRole a.id (.process new))) := by
  have operated := sound.sails.operate a.id (.setFlags new) rfl
  rw [World.operate, World.setFlags, found, Option.bind_some, flagged] at operated
  exact sound.of_world operated rfl rfl

theorem safe_launchNew (sound : n.Sound) (kind : ActorKind) {body : List Line}
    (tame : Line.areTame body = true) (failure : Option String)
    (made : Except Interrupt Identity) : Safe Calm (launchNew kind body failure made n) := by
  cases made with
  | error interrupt => exact ⟨sound, rfl⟩
  | ok id =>
    cases failure with
    | some text => exact ⟨sound, rfl⟩
    | none =>
      have launched := sound.launch id tame
      exact ⟨⟨launched.sails, launched.going, launched.tame⟩, rfl⟩

/-- A tame step breaks no rule. -/
theorem safe_perform (sound : n.Sound) (scope : Scope) {step : Step} (tame : step.isTame = true) :
    Safe Calm (perform scope step n) := by
  have operated (id : Identity) (op : Operation) (lawful : (Action.operate id op).isLawful = true) :
      Sound { n with world := n.world.operate id op } := sound.act (.operate id op) lawful
  have delivered (id sender : Identity) (reason : Exit) :
      Safe (fun _ => True) (onWorld (·.deliver id sender reason) n) :=
    safe_operate sound (.signal sender reason) rfl
      ⟨(), sound.sails.proper.deliver id sender reason⟩
  cases step with
  | create what =>
    cases what with
    | stub tag stub =>
      refine safe_bind (safe_issues sound (sound.sails.allocateStub tag stub)) fun id m sound _ => ?_
      exact ⟨⟨sound.sails, sound.going, sound.tame⟩, rfl⟩
    | _ => cases tame
  | drop u => exact ⟨⟨sound.sails, sound.going, sound.tame⟩, rfl⟩
  | send u message => exact ⟨operated _ (.send _) rfl, rfl⟩
  | signal u sender reason =>
    exact safe_bind (delivered _ _ _) fun _ m sound _ => ⟨sound, rfl⟩
  | linkThrough u peer => exact ⟨operated _ (.record _) rfl, Reply.isBreach_done _⟩
  | handleIsLive u => exact ⟨sound, rfl⟩
  | setStub u isLive => exact ⟨sound.act (.setStub (scope.find u) isLive) rfl, rfl⟩
  | compare a b => exact ⟨sound, rfl⟩
  | isFinished u =>
    dsimp only [perform]
    rw [bind_get]
    cases n.drivers.find? (scope.find u) with
    | none => exact ⟨sound, rfl⟩
    | some d =>
      dsimp only
      split <;> exact ⟨sound, rfl⟩
  | start u => cases tame
  | signalActor u sender reason =>
    refine safe_onActor sound fun a found => ?_
    exact safe_bind (delivered _ _ _) fun _ m sound _ => ⟨sound, rfl⟩
  | forward u sender reason =>
    refine safe_onActor sound fun a found => ?_
    have forwarded := sound.sails.proper.forward a.id (scope.find sender) (reason scope)
    exact safe_bind (safe_operate sound (.forward _ _) rfl ⟨(), forwarded⟩)
      fun _ m sound _ => ⟨sound, rfl⟩
  | terminate u reason =>
    refine safe_onActor sound fun a found => ?_
    have ended := sound.sails.proper.terminate a.id (reason scope)
    exact safe_bind (safe_operate sound (.terminate _) rfl ended)
      fun _ m sound _ => ⟨sound, rfl⟩
  | link u peer =>
    exact safe_onActor sound fun a found => ⟨operated _ (.link _) rfl, Reply.isBreach_done _⟩
  | linkToActor u peer =>
    refine safe_onActor sound fun a found => safe_onActor sound fun b present => ?_
    exact ⟨operated _ (.link _) rfl, Reply.isBreach_done _⟩
  | recordLink u peer =>
    refine safe_onActor sound fun a found => ?_
    have recorded := operated a.id (.record (scope.find peer)) rfl
    rw [World.operate, World.linkThrough_found found] at recorded
    exact ⟨recorded, Reply.isBreach_done _⟩
  | unlink u peer => exact safe_onActor sound fun a found => ⟨operated _ (.unlink _) rfl, rfl⟩
  | isLinked u peer => exact safe_onActor sound fun a found => ⟨sound, rfl⟩
  | post u message => exact safe_onActor sound fun a found => ⟨operated _ (.send _) rfl, rfl⟩
  | peek u =>
    exact safe_onActor sound fun a found => ⟨sound, Reply.isBreach_ofResult (fun _ => rfl) _⟩
  | ensureNoExit u => exact safe_onActor sound fun a found => ⟨sound, Reply.isBreach_done _⟩
  | setTrap u value =>
    refine safe_onActor sound fun a found => ?_
    cases flagged : a.role.flags? with
    | none => exact ⟨sound, rfl⟩
    | some flags => exact ⟨safe_setRole sound found flagged _, rfl⟩
  | setFlags u new =>
    refine safe_onActor sound fun a found => ?_
    cases flagged : a.role.flags? with
    | none => exact ⟨sound, rfl⟩
    | some flags => exact ⟨safe_setRole sound found flagged _, rfl⟩
  | info u => exact safe_onActor sound fun a found => ⟨sound, rfl⟩
  | spawn parent options body failure =>
    obtain ⟨linked, tame⟩ := (Bool.and_eq_true ..).mp tame
    have spawned (parent : Option Identity) (lawful : options.link = true → parent.isSome = true) :
        Safe Calm ((do launchNew .process body failure (← onWorld (·.spawn parent options))) n) :=
      safe_bind (safe_issues sound (sound.sails.spawn lawful)) fun made m sound _ =>
        safe_launchNew sound _ tame ..
    cases parent with
    | none =>
      refine spawned none fun link => ?_
      simp [link] at linked
    | some parent => exact safe_onActor sound fun a found => spawned (some a.id) fun _ => rfl
  | openPort owner name body failure =>
    refine safe_onActor sound fun a found => ?_
    exact safe_bind (safe_issues sound (sound.sails.openPort a.id name)) fun made m sound _ =>
      safe_launchNew sound _ tame ..
  | remark text => cases text <;> exact ⟨sound, rfl⟩
  | fail interrupt => exact ⟨sound, rfl⟩
  | raise fault => exact ⟨sound, by simpa [Step.isTame] using tame⟩

theorem safe_pollMailbox {poll : Core → Poll (Except Interrupt α) × Core}
    {sleeper : Option Identity} {ticket : Option Nat} (sound : n.Sound) (self : Identity)
    (errand : Errand) (stage : Nat → Stage) (reply : α → Reply)
    (polled : ∀ c, (poll c).2 = c.polled errand sleeper ticket) :
    Safe (fun _ => True) (pollMailbox self stage reply poll n) := by
  have polled : Safe (fun _ => True)
      ((modifyGet (·.pollCore self poll) : Job (Option (Poll (Except Interrupt α)))) n) :=
    ⟨sound.pollCore self errand polled, trivial⟩
  unfold pollMailbox
  refine safe_bind polled fun answer m sound _ => ?_
  cases answer with
  | none => exact ⟨sound, trivial⟩
  | some answer => cases answer <;> exact ⟨sound, trivial⟩

theorem safe_pollEnd (sound : n.Sound) (target : Identity) :
    Safe (fun _ => True) (pollEnd target n) := by
  unfold pollEnd
  rw [bind_get]
  cases (n.drivers.find? target).bind Driver.exit? <;> exact ⟨sound, trivial⟩

theorem safe_advanceAct (sound : n.Sound) (self : Identity) (heard : Option Identity)
    (stage : Stage) {act : Act} (tame : act.isTame = true) :
    Safe (fun _ => True) (advanceAct self heard stage act n) := by
  cases act with
  | step step =>
    dsimp only [advanceAct]
    rw [bind_get]
    exact safe_bind (safe_perform sound (n.scope (some self) heard) tame) fun _ m sound _ =>
      ⟨sound, trivial⟩
  | receive => exact safe_pollMailbox sound self .message _ _ fun c => rfl
  | wait => exact safe_pollMailbox sound self .mail _ _ fun c => rfl
  | remove => exact safe_pollMailbox sound self .message _ _ fun c => rfl
  | waitFor limit => exact safe_pollMailbox sound self (.timed _) _ _ fun c => rfl
  | sleep time => exact ⟨sound, trivial⟩
  | yield => cases stage <;> exact ⟨⟨sound.sails, sound.going, sound.tame⟩, trivial⟩
  | join u =>
    cases stage with
    | joining target => exact safe_pollEnd sound target
    | _ =>
      unfold advanceAct
      dsimp only
      rw [bind_get, bind_get]
      cases taken : n.takeEnd ((n.scope (some self) heard).find u) (some self) with
      | none => exact ⟨sound, trivial⟩
      | some found => exact safe_pollEnd (sound.takeEnd taken) _
  | finish remark => exact ⟨sound, trivial⟩

theorem tame_runLines (sound : n.Sound) (self : Identity) {lines : List Line}
    (tame : Line.areTame lines = true) (stage : Stage) (heard : Option Identity) :
    (runLines self lines stage heard n).2.Sound ∧
      (runLines self lines stage heard n).1.isTame = true := by
  induction lines generalizing n stage heard with
  | nil => exact ⟨sound, rfl⟩
  | cons line rest ih =>
    obtain ⟨first, others⟩ := Line.areTame_cons.mp tame
    have advanced := safe_advanceAct sound self heard stage first
    unfold runLines
    revert advanced
    generalize advanceAct self heard stage line.act n = result
    intro advanced
    cases result with
    | error fault m =>
      obtain ⟨sound, kept⟩ := advanced
      exact ⟨(sound.note self .unwound).reclaim, by simp [Progress.isTame, kept]⟩
    | ok answer m =>
      cases answer with
      | inl stage => exact ⟨advanced.1, tame⟩
      | inr reply =>
        have noted := (advanced.1.note self (.step line.label reply)).reclaim
        dsimp only
        split
        · split
          · exact ih noted others .fresh heard
          · exact ⟨noted, rfl⟩
        · exact ⟨noted, rfl⟩
        · exact ih noted others .fresh _

theorem Sound.cancelled (sound : n.Sound) (id : Identity) (bell : Bell) (ticket : Nat) :
    Sound (n.mapWorld (·.changeCore id (·.cancel bell ticket))) :=
  sound.act (.operate id (.cancel bell ticket)) rfl

theorem Sound.abandon (sound : n.Sound) (self : Identity) (a : Activity) :
    (abandon self a n).Sound := by
  have noted := sound.note self .dropped
  have left : (leaveStage self a.stage (n.note self .dropped)).Sound := by
    cases a.stage with
    | mail ticket => exact noted.cancelled self .mail ticket
    | timed ticket deadline => exact noted.cancelled self .mail ticket
    | joining target =>
      dsimp only [leaveStage]
      cases known : (n.note self .dropped).drivers.find? target with
      | none => exact noted
      | some d => exact noted.putDriver target (noted.tame target d known)
    | _ => exact noted
  unfold Node.abandon
  split
  · exact sound
  · exact left

theorem tame_settle (sound : n.Sound) (id : Identity) (reason : Exit) :
    (settle id reason n : Drive Activity × Node).2.Sound ∧
      (settle id reason n : Drive Activity × Node).1.isTame = true := by
  have ended : Safe (fun _ => True) (onWorld (·.terminate id reason) n) :=
    safe_operate sound (.terminate reason) rfl (sound.sails.proper.terminate id reason)
  unfold settle
  revert ended
  generalize onWorld (·.terminate id reason) n = result
  intro ended
  obtain (⟨_ | final, m⟩ | ⟨fault, m⟩) := result
  · exact ⟨ended.1, rfl⟩
  · exact ⟨ended.1, rfl⟩
  · exact ⟨ended.1, rfl⟩

/-- No poll of a driver stops the drivers. -/
theorem tame_drive (sound : n.Sound) (id : Identity) (exitWait : Option Nat) {body : Activity}
    (tame : Line.areTame body.lines = true) :
    (drive (resume id) (Node.abandon id) id exitWait body n).2.Sound ∧
      (drive (resume id) (Node.abandon id) id exitWait body n).1.isTame = true := by
  have looked : (n.pollCore id (Core.pollExit (some id) exitWait)).2.Sound :=
    sound.pollCore id .exit fun c => rfl
  unfold drive
  revert looked
  generalize n.pollCore id (Core.pollExit (some id) exitWait) = result
  obtain ⟨answer, m⟩ := result
  intro looked
  cases answer with
  | none => exact ⟨looked, rfl⟩
  | some answer =>
    cases answer with
    | ready reason =>
      exact tame_settle ((looked.abandon id body).drift _ _) id reason
    | pending ticket =>
      have resumed := tame_runLines looked id tame body.stage body.heard
      dsimp only
      rw [resume]
      revert resumed
      generalize runLines id body.lines body.stage body.heard m = result
      obtain ⟨outcome, l⟩ := result
      intro resumed
      obtain ⟨sound, tame⟩ := resumed
      have closed := sound.cancelled id .exit ticket
      cases outcome with
      | suspended body => exact ⟨sound, tame⟩
      | returned => exact tame_settle closed id .normal
      | failed interrupt => exact tame_settle closed id interrupt.reason
      | faulted fault =>
        have kept : fault.breaksInvariant = false := by simpa [Progress.isTame] using tame
        dsimp only
        rw [if_neg (by simp [kept])]
        exact tame_settle closed id fault.exit

theorem Sound.conclude (sound : n.Sound) (id : Identity) (exit : Exit) :
    (n.conclude id exit).Sound := by
  have freed := (sound.setDriver id (.ended exit) rfl).reclaim
  unfold Node.conclude
  dsimp only
  split
  · exact freed
  · exact freed.drift _ _

theorem Sound.pollDriver (sound : n.Sound) (id : Identity) : (n.pollDriver id).Sound := by
  unfold Node.pollDriver
  cases known : n.drivers.find? id with
  | none => exact sound
  | some d =>
    have tame := sound.tame id d known
    dsimp only
    cases state : d.state with
    | ended exit => exact sound
    | active exitWait body =>
      rw [state] at tame
      have opened : (n.openSpans d.spans).Sound := sound.drift _ _
      have driven := tame_drive opened id exitWait tame
      dsimp only
      revert driven
      generalize drive (resume id) (Node.abandon id) id exitWait body (n.openSpans d.spans) = result
      obtain ⟨outcome, m⟩ := result
      rintro ⟨sound, tame⟩
      cases outcome with
      | suspended ticket body =>
        have kept := sound.setDriver id (.active (some ticket) body) tame
        exact (kept.drift _ _).absorb _
      | ended exit => exact ((sound.conclude id exit).drift _ _).absorb _
      | aborted => cases tame

theorem Sound.runRounds (sound : n.Sound) (rounds : Nat) : (runRounds rounds n).Sound := by
  induction rounds generalizing n with
  | zero => exact sound
  | succ rounds ih =>
    unfold Node.runRounds
    split
    · exact sound
    · split
      · next id rest _ =>
        have queued : Sound { n with ready := rest } := ⟨sound.sails, sound.going, sound.tame⟩
        exact ih (queued.pollDriver id)
      · exact sound
      · have queued : Sound { n with aside := [] } := ⟨sound.sails, sound.going, sound.tame⟩
        exact ih (queued.enqueues n.aside)

theorem Sound.run (sound : n.Sound) : n.run.Sound := (sound.absorb none).runRounds _

theorem Sound.jump (sound : n.Sound) (moment : Nat) : (n.jump moment).Sound := by
  unfold Node.jump
  dsimp only
  generalize List.map Prod.fst _ = ids
  have called := sound.sails.calls ids
  exact Sound.run ⟨called, sound.going, sound.tame⟩

theorem Sound.passUntil (sound : n.Sound) (moment jumps : Nat) :
    (passUntil moment jumps n).Sound := by
  induction jumps generalizing n with
  | zero => exact sound
  | succ jumps ih =>
    unfold Node.passUntil
    split
    · exact sound
    · split
      · exact ih (sound.jump _)
      · exact sound

theorem Sound.passWhileActive (sound : n.Sound) (id : Identity) (jumps : Nat) :
    (passWhileActive id jumps n).Sound := by
  induction jumps generalizing n with
  | zero => exact sound
  | succ jumps ih =>
    unfold Node.passWhileActive
    split
    · split
      · exact sound
      · exact ih (sound.jump _)
    · exact sound

theorem Sound.pollAim (sound : n.Sound) (slot : Slot) : (n.pollAim slot).2.Sound := by
  unfold Node.pollAim
  cases slot.aim with
  | wait => exact sound.pollCore _ .mail fun c => rfl
  | remove => exact sound.pollCore _ .message fun c => rfl
  | receive => exact sound.pollCore _ .message fun c => rfl
  | waitUntil deadline => exact sound.pollCore _ (.timed _) fun c => rfl
  | exit => exact sound.pollCore _ .exit fun c => rfl

theorem Sound.pollSlot (sound : n.Sound) (k : Nat) (slot : Slot) :
    (n.pollSlot k slot).2.Sound ∧ Calm (n.pollSlot k slot).1 := by
  have polled := sound.pollAim slot
  unfold Node.pollSlot
  revert polled
  generalize n.pollAim slot = result
  intro polled
  obtain ⟨_ | _ | _, m⟩ := result
  · exact ⟨polled, rfl⟩
  · exact ⟨⟨polled.sails, polled.going, polled.tame⟩, rfl⟩
  · exact ⟨⟨polled.sails, polled.going, polled.tame⟩, rfl⟩

theorem Sound.cancelSlot (sound : n.Sound) (k : Nat) : (n.cancelSlot k).Sound := by
  unfold Node.cancelSlot
  split
  · next id aim ticket _ =>
    have cancelled := sound.cancelled id (if aim = .exit then .exit else .mail) ticket
    exact ⟨cancelled.sails, cancelled.going, cancelled.tame⟩
  · exact sound

theorem Sound.learnEnd (sound : n.Sound) (id : Identity) :
    (n.learnEnd id).2.Sound ∧ Calm (n.learnEnd id).1 := by
  unfold Node.learnEnd
  cases taken : n.takeEnd id none with
  | none => exact ⟨sound, rfl⟩
  | some found =>
    obtain ⟨d, m⟩ := found
    dsimp only
    split
    · exact ⟨sound.takeEnd taken, rfl⟩
    · exact ⟨sound, rfl⟩

theorem Sound.command (sound : n.Sound) {command : Command} (tame : command.isTame = true) :
    (n.command command).2.Sound ∧ Calm (n.command command).1 := by
  cases command with
  | step step =>
    have performed := safe_perform sound (n.scope none none) tame
    unfold Node.command
    dsimp only
    revert performed
    generalize perform (n.scope none none) step n = result
    intro performed
    cases result <;> exact performed
  | begin u aim =>
    unfold Node.command
    dsimp only
    split
    · let slot : Slot := ⟨(n.scope none none).find u, aim n.now, none⟩
      have begun : Sound { n with slots := n.slots ++ [slot] } :=
        ⟨sound.sails, sound.going, sound.tame⟩
      exact begun.pollSlot n.slots.length slot
    · exact ⟨sound, rfl⟩
  | poll k =>
    unfold Node.command
    dsimp only
    split
    · split
      · exact sound.pollSlot k _
      · exact ⟨sound, rfl⟩
    · exact ⟨sound, rfl⟩
  | cancel k => exact ⟨sound.cancelSlot k, rfl⟩
  | advance time =>
    have passed := sound.passUntil (n.now + time) n.work
    exact ⟨⟨passed.sails, passed.going, passed.tame⟩, rfl⟩
  | join u => exact sound.learnEnd _

theorem Sound.report (sound : n.Sound) {command : Command} (tame : command.isTame = true) :
    (n.report command).2.Sound ∧ Calm (n.report command).1.reply := by
  obtain ⟨commanded, calm⟩ := sound.command tame
  have ran := commanded.reclaim.run
  exact ⟨ran.drift _ _, calm⟩

/-- Tame commands leave the drivers going, and none is answered with a broken rule. -/
theorem Sound.reports (sound : n.Sound) {commands : List Command}
    (tame : ∀ command ∈ commands, command.isTame = true) :
    (n.reports commands).2.Sound ∧ ∀ report ∈ (n.reports commands).1, Calm report.reply := by
  induction commands generalizing n with
  | nil => exact ⟨sound, fun report member => by cases member⟩
  | cons command rest ih =>
    obtain ⟨first, others⟩ := List.forall_mem_cons.mp tame
    obtain ⟨reported, calm⟩ := sound.report first
    obtain ⟨last, later⟩ := ih reported others
    unfold Node.reports
    dsimp only
    split
    · exact ⟨reported, List.forall_mem_singleton.mpr calm⟩
    · exact ⟨last, List.forall_mem_cons.mpr ⟨calm, later⟩⟩

theorem Sound.root {body : List Line} (tame : Line.areTame body = true) :
    runRoot body ≠ .aborted := by
  have spawned : Command.isTame (.step (.spawn none {} body none)) = true := by
    simp [Command.isTame, Step.isTame, tame]
  have ran := (Sound.empty.command spawned).1.run
  have passed := ran.passWhileActive
    (((Node.command {} (.step (.spawn none {} body none))).2.scope none none).find (.index 0))
    (Node.command {} (.step (.spawn none {} body none))).2.run.work
  unfold runRoot
  dsimp only
  rw [if_neg (by rw [passed.going]; exact Bool.false_ne_true)]
  exact fun same => by cases same

/-- Where actors are created started only, no operation ends with a fault, an actor is created unless the
serials are used up, and the phases of every actor are the first ones of a life. So it is in the worlds
of tame scripts: no step raises a broken rule, and no body stops the drivers for one. -/
theorem protocol_kept {trace : List World.Moment} {w : World} (voyage : World.Voyage trace w)
    {commands : List Command} (tame : ∀ command ∈ commands, command.isTame = true) :
    (∀ m ∈ trace, ∀ id op, m.2 = .operate id op →
      m.1.outcome id op = .ok () (m.1.operate id op)) ∧
    (∀ id op, (Action.operate id op).isLawful = true →
      w.outcome id op = .ok () (w.operate id op)) ∧
    (∀ parent options, (options.link = true → parent.isSome = true) →
      World.Issues trace w (w.spawn parent options)) ∧
    (∀ owner name, World.Issues trace w (w.openPort owner name)) ∧
    (∀ id, ∃ life ∈ Phase.init.lifelines, (w.phases id trace).destutter (· ≠ ·) <+: life) ∧
    (runScenario commands).isAborted = false ∧
    (∀ report ∈ (runScenario commands).steps, report.reply.isBreach = false) ∧
    (∀ body, Line.areTame body = true → runRoot body ≠ .aborted) ∧
    World.Sails [] (reports {} commands).2.world := by
  have sails := World.Sails.of_voyage voyage
  obtain ⟨sound, calm⟩ := Sound.empty.reports tame
  exact ⟨fun m member id op acts => voyage.answers member acts,
    fun id op lawful => voyage.proper.answers lawful,
    fun parent options lawful => sails.spawn lawful, fun owner name => sails.openPort owner name,
    voyage.lifeline, sound.going, calm, fun body => Sound.root, sound.sails⟩

def shift : List Action :=
  let first : Identity := .ofSerial 1 .process
  let port : Identity := .ofSerial 2 .port
  let second : Identity := .ofSerial 3 .process
  [.allocate .process (.process .empty), .operate first .start,
    .allocate .port (.port ⟨"stdio"⟩ first), .operate port .start, .operate first (.link port),
    .allocate .process (.process .trap), .operate second .start, .operate first (.link second),
    .operate second (.terminate .normal), .operate first (.signal second .kill),
    .operate first (.terminate .normal), .operate port (.terminate .normal), .free first]

def shiftScript : List Command :=
  let body : List Line := [.mk "receive" false .receive]
  [.step (.spawn none {} body none), .step (.openPort (.index 0) ⟨"stdio"⟩ body none),
    .step (.spawn (some (.index 0)) ⟨true, true⟩ body none),
    .step (.terminate (.index 2) fun _ => .normal),
    .step (.signal (.index 0) (.index 2) fun _ => .kill)]

theorem shift_keeps_protocol :
    let w := World.run {} shift
    let trace := World.moments {} shift
    (∃ life ∈ Phase.init.lifelines,
      (w.phases (.ofSerial 2 .port) trace).destutter (· ≠ ·) <+: life) ∧
    (w.phases (.ofSerial 2 .port) trace).destutter (· ≠ ·) = [.init, .running, .exiting, .done] ∧
    (w.phases (.ofSerial 3 .process) trace).destutter (· ≠ ·) = [.init, .running, .done] ∧
    (runScenario shiftScript).isAborted = false ∧
    ∃ trace, World.Voyage trace (reports {} shiftScript).2.world := by
  intro w trace
  have process (flags : Flags) (hook : Hook) : Role.process flags ≠ .plain hook := by
    rintro ⟨⟩
  have port (owner : Identity) (hook : Hook) : Role.port ⟨"stdio"⟩ owner ≠ .plain hook := by
    rintro ⟨⟩
  have voyage : World.Voyage trace w :=
    ((World.Voyage.start.found (process _) (by decide +kernel)).found (port _) (by decide +kernel)).act
      (.operate _ (.link _)) rfl |>.found (process _) (by decide +kernel)
      |>.act (.operate _ (.link _)) rfl |>.act (.operate _ (.terminate _)) rfl
      |>.act (.operate _ (.signal _ _)) rfl |>.act (.operate _ (.terminate _)) rfl
      |>.act (.operate _ (.terminate _)) rfl |>.act (.free _) rfl
  have tame : ∀ command ∈ shiftScript, command.isTame = true := by decide
  obtain ⟨-, -, -, -, lifelines, going, -, -, sails⟩ := protocol_kept voyage tame
  exact ⟨lifelines _, by decide +kernel, by decide +kernel, going, sails⟩

end Node

end Actors
