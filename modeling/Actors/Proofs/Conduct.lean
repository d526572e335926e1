import Actors.Proofs.FinalReason
import Actors.Proofs.Preemption

/-! Conduct. What a script does to a world, in its steps and in the bodies that it gives to actors,
is a course of actions. A body neither waits for an exit nor frees an actor that has a driver. -/
namespace Actors

def Action.Polite (action : Action) : Prop := ∀ id, action.intrudes id = false

namespace World

variable {may : Action → Prop} {w v u : World}

structure Leads (may : Action → Prop) (w v : World) : Prop where
  keyed : v.Keyed
  course : ∃ trace, Course w trace v ∧ ∀ m ∈ trace, may m.2

namespace Leads

theorem refl (keyed : w.Keyed) : Leads may w w :=
  ⟨keyed, [], .refl, fun m member => by cases member⟩

theorem trans (first : Leads may w v) (second : Leads may v u) : Leads may w u := by
  obtain ⟨trace, course, allowed⟩ := first.course
  obtain ⟨later, course', allowed'⟩ := second.course
  exact ⟨second.keyed, _, course.trans course', List.forall_mem_append.mpr ⟨allowed, allowed'⟩⟩

theorem mono {might : Action → Prop} (leads : Leads may w v)
    (weaker : ∀ action, may action → might action) : Leads might w v := by
  obtain ⟨trace, course, allowed⟩ := leads.course
  exact ⟨leads.keyed, trace, course, fun m member => weaker _ (allowed m member)⟩

theorem drift (keyed : w.Keyed) (calls : List Identity) (journal : Journal) :
    Leads may w { w with calls, journal } :=
  ⟨keyed, [], Course.refl.drift calls journal, fun m member => by cases member⟩

theorem act (keyed : w.Keyed) (action : Action) (allowed : may action) :
    Leads may w (w.act action) :=
  ⟨keyed_act keyed action, [(w, action)], Course.refl.act action,
    List.forall_mem_singleton.mpr allowed⟩

theorem emit (keyed : w.Keyed) (event : Event) : Leads may w (w.emit event) :=
  .drift keyed w.calls _

theorem note (keyed : w.Keyed) (i : Identity) (note : Note) : Leads may w (w.note i note) :=
  .drift keyed w.calls _

theorem call (keyed : w.Keyed) (i : Identity) : Leads may w (w.call i) :=
  .drift keyed _ w.journal

end Leads

def announce (child : Identity) (event : Event) :
    Outcome (Except Interrupt Unit) → Outcome (Except Interrupt Identity)
  | .error fault w => .error fault w
  | .ok (.error interrupt) w => .ok (.error interrupt) w
  | .ok (.ok ()) w => .ok (.ok child) (w.emit event)

theorem announce_ok_iff {result : Outcome (Except Interrupt Unit)} {child other : Identity}
    {event : Event} : announce child event result = .ok (.ok other) u ↔
      ∃ v, result = .ok (.ok ()) v ∧ child = other ∧ v.emit event = u := by
  obtain (⟨_ | _, v⟩ | ⟨fault, v⟩) := result <;> simp [announce]

theorem spawn_linked {options : SpawnOptions} {id : Identity} (linked : options.link = true)
    (started : w.allocateStarted .process (.process options.flags) = .ok id v) (parent : Identity) :
    w.spawn (some parent) options = announce id (.spawned id (some parent)) (v.adopt parent id) := by
  unfold spawn
  rw [started]
  simp only [linked, if_true]
  rfl

theorem openPort_started {owner id : Identity} {name : Atom}
    (started : w.allocateStarted .port (.port name owner) = .ok id v) :
    w.openPort owner name = announce id (.portOpened id name owner) (v.adopt owner id) := by
  unfold openPort
  rw [started]
  rfl

structure Founds (may : Action → Prop) : Prop where
  allocate : ∀ tag role, (∀ hook, role ≠ .plain hook) → may (.allocate tag role)
  start : ∀ id, may (.operate id .start)
  link : ∀ id peer, may (.operate id (.link peer))
  terminate : ∀ id reason, may (.operate id (.terminate reason))

theorem founds_polite : Founds Action.Polite :=
  ⟨fun _ _ _ _ => rfl, fun _ _ => rfl, fun _ _ _ => rfl, fun _ _ _ => rfl⟩

section Founding

variable (founds : Founds may) (keyed : w.Keyed)
include founds keyed

theorem leads_start (id : Identity) : Leads may w (w.start id).world :=
  .act keyed (.operate id .start) (founds.start id)

theorem leads_terminate (id : Identity) (reason : Exit) :
    Leads may w (w.terminate id reason).world :=
  .act keyed (.operate id (.terminate reason)) (founds.terminate id reason)

theorem leads_link (id peer : Identity) : Leads may w (w.link id peer).2 :=
  .act keyed (.operate id (.link peer)) (founds.link id peer)

theorem leads_allocateStarted (tag : Tag) (role : Role) (bodied : ∀ hook, role ≠ .plain hook) :
    Leads may w (w.allocateStarted tag role).world := by
  have first : Leads may w (w.issue (·.allocate tag role)).world :=
    .act keyed (.allocate tag role) (founds.allocate tag role bodied)
  unfold allocateStarted
  revert first
  generalize w.issue (·.allocate tag role) = issued
  intro first
  cases issued with
  | error fault v => exact first
  | ok id v =>
    have first : Leads may w v := first
    have whole := first.trans (leads_start founds first.keyed id)
    dsimp only
    revert whole
    generalize v.start id = result
    intro whole
    cases result <;> exact whole

theorem leads_adopt (parent child : Identity) : Leads may w (w.adopt parent child).world := by
  have first := leads_link founds keyed parent child
  unfold adopt
  revert first
  generalize w.link parent child = result
  intro first
  obtain ⟨interrupt | _, v⟩ := result
  · have whole := first.trans (leads_terminate founds first.keyed child interrupt.reason)
    dsimp only
    revert whole
    generalize v.terminate child interrupt.reason = result
    cases result <;> exact id
  · exact first

theorem leads_adoption (parent child : Identity) (event : Event) :
    Leads may w (announce child event (w.adopt parent child)).world := by
  have first := leads_adopt founds keyed parent child
  revert first
  generalize w.adopt parent child = result
  intro first
  obtain (⟨_ | _, v⟩ | ⟨fault, v⟩) := result
  · exact first
  · exact first.trans (.emit first.keyed _)
  · exact first

theorem leads_spawn (parent : Option Identity) (options : SpawnOptions) :
    Leads may w (w.spawn parent options).world := by
  have first := leads_allocateStarted founds keyed .process (.process options.flags)
    fun hook same => by cases same
  cases started : w.allocateStarted .process (.process options.flags) with
  | error fault v =>
    rw [started] at first
    rw [spawn, started]
    exact first
  | ok id v =>
    rw [started] at first
    cases linked : options.link with
    | false =>
      simp only [spawn, started, linked, Bool.false_eq_true, if_false]
      exact first.trans (.emit first.keyed _)
    | true =>
      cases parent with
      | none =>
        simp only [spawn, started, linked, if_true]
        exact first
      | some parent =>
        rw [spawn_linked linked started]
        exact first.trans (leads_adoption founds first.keyed parent id _)

theorem leads_openPort (owner : Identity) (name : Atom) :
    Leads may w (w.openPort owner name).world := by
  have first := leads_allocateStarted founds keyed .port (.port name owner)
    fun hook same => by cases same
  cases started : w.allocateStarted .port (.port name owner) with
  | error fault v =>
    rw [started] at first
    rw [openPort, started]
    exact first
  | ok id v =>
    rw [started] at first
    rw [openPort_started started]
    exact first.trans (leads_adoption founds first.keyed owner id _)

end Founding

end World

namespace Node

variable {α β : Type} {may : Action → Prop} {n m l : Node}

def isDriven (n : Node) (i : Identity) : Bool := (n.drivers.find? i).any Driver.isActive

/-- Work on a node that leads its world on by actions of a kind and ends no driver. -/
structure Works (may : Action → Prop) (n m : Node) : Prop where
  leads : World.Leads may n.world m.world
  driven : ∀ i, n.isDriven i = true → m.isDriven i = true

namespace Works

theorem refl (keyed : n.world.Keyed) : Works may n n := ⟨.refl keyed, fun _ driven => driven⟩

theorem trans (first : Works may n m) (second : Works may m l) : Works may n l :=
  ⟨first.leads.trans second.leads, fun i driven => second.driven i (first.driven i driven)⟩

theorem mono {might : Action → Prop} (works : Works may n m)
    (weaker : ∀ action, may action → might action) : Works might n m :=
  ⟨works.leads.mono weaker, works.driven⟩

theorem of_world (leads : World.Leads may n.world m.world) (same : m.drivers = n.drivers) :
    Works may n m :=
  ⟨leads, fun i driven => by rwa [isDriven, same]⟩

end Works

def after (n : Node) (job : Job α) : Node :=
  match job n with
  | .ok _ m => m
  | .error _ m => m

theorem after_bind (first : Job α) (next : α → Job β) :
    n.after (first >>= next)
      = match first n with
        | .ok a m => m.after (next a)
        | .error _ m => m := by
  simp only [after, bind, EStateM.bind]
  cases first n <;> rfl

theorem after_map (job : Job α) (f : α → β) :
    n.after (job >>= fun a => pure (f a)) = n.after job := by
  rw [after_bind]
  unfold after
  cases job n <;> rfl

theorem works_bind {first : Job α} {next : α → Job β} (works : Works may n (n.after first))
    (rest : ∀ a m, m.world.Keyed → Works may m (m.after (next a))) :
    Works may n (n.after (first >>= next)) := by
  rw [after_bind]
  unfold after at works
  revert works
  generalize first n = result
  intro works
  cases result with
  | ok a m => exact works.trans (rest a m works.leads.keyed)
  | error fault m => exact works

theorem after_get (next : Node → Job α) : n.after (get >>= next) = n.after (next n) := rfl

theorem after_set (next : Job α) : (n.after do set m; next) = m.after next := rfl

theorem after_onWorld (work : World → World.Outcome α) :
    n.after (onWorld work) = { n with world := (work n.world).world } := by
  unfold after onWorld
  generalize work n.world = result
  cases result <;> rfl

theorem after_answer (f : World → α × World) :
    n.after (answer f) = { n with world := (f n.world).2 } := rfl

theorem works_onWorld {work : World → World.Outcome α}
    (leads : World.Leads may n.world (work n.world).world) :
    Works may n (n.after (onWorld work)) := by
  rw [after_onWorld]
  exact .of_world leads rfl

theorem works_onActor {work : Actor → Job Reply} (keyed : n.world.Keyed) (id : Identity)
    (works : ∀ a, n.world.find? a.id = some a → Works may n (n.after (work a))) :
    Works may n (n.after (onActor id work)) := by
  unfold onActor
  rw [after_get]
  cases found : n.world.find? id with
  | none => exact .refl keyed
  | some a => exact works a ((keyed found).symm ▸ found)

theorem works_create (keyed : n.world.Keyed) (scope : Scope) (what : Blueprint) :
    Works Action.Polite n (n.after (create scope what)) := by
  have actor (tag : Tag) (role : Role) :
      Works Action.Polite n (n.after (create.actor tag role)) := by
    refine works_bind (works_onWorld (.act keyed (.allocate tag role) fun _ => rfl)) fun id m keyed => ?_
    exact .of_world (.refl keyed) rfl
  cases what with
  | process flags => exact actor .process _
  | port name owner => exact actor .port _
  | plain tag hook => exact actor tag _
  | stub tag stub =>
    refine works_bind (works_onWorld (.act keyed (.allocateStub tag stub) fun _ => rfl))
      fun id m keyed => ?_
    exact .of_world (.refl keyed) rfl

theorem works_launch (keyed : n.world.Keyed) (id : Identity) (body : List Line) :
    Works may n (n.launch id body) := by
  refine ⟨.call keyed id, fun i driven => ?_⟩
  unfold launch isDriven mapWorld
  dsimp only
  rw [Registry.find?_put]
  split
  · rfl
  · exact driven

theorem works_launchNew (keyed : n.world.Keyed) (kind : ActorKind) (body : List Line)
    (failure : Option String) (made : Except Interrupt Identity) :
    Works may n (n.after (launchNew kind body failure made)) := by
  cases made with
  | error interrupt => exact .refl keyed
  | ok id =>
    cases failure with
    | some text => exact .refl keyed
    | none =>
      have launched : Works may n (n.launch id body) := works_launch keyed id body
      exact launched.trans (.of_world (.refl launched.leads.keyed) rfl)

theorem works_operate (keyed : n.world.Keyed) (id : Identity) (op : Operation)
    (polite : (Action.operate id op).Polite) :
    Works Action.Polite n { n with world := n.world.operate id op } :=
  .of_world (World.Leads.act keyed (.operate id op) polite) rfl

theorem works_setRole {a : Actor} {old : Flags} (keyed : n.world.Keyed)
    (found : n.world.find? a.id = some a) (flagged : a.role.flags? = some old) (new : Flags) :
    Works Action.Polite n (n.mapWorld (·.setRole a.id (.process new))) := by
  have operated := works_operate keyed a.id (.setFlags new) fun _ => rfl
  rwa [World.operate, World.setFlags, found, Option.bind_some, flagged] at operated

/-- A step of a script leads the world on, whatever comes of it. -/
theorem works_perform (keyed : n.world.Keyed) (scope : Scope) (step : Step) :
    Works Action.Polite n (n.after (perform scope step)) := by
  cases step with
  | create what => exact works_create keyed scope what
  | drop u => exact .of_world (.refl keyed) rfl
  | send u message => exact works_operate keyed _ (.send _) fun _ => rfl
  | signal u sender reason =>
    unfold perform
    rw [after_map, after_onWorld]
    exact works_operate keyed _ (.signal _ _) fun _ => rfl
  | linkThrough u peer => exact works_operate keyed _ (.record _) fun _ => rfl
  | handleIsLive u => exact .refl keyed
  | setStub u isLive =>
    exact .of_world (World.Leads.act keyed (.setStub (scope.find u) isLive) fun _ => rfl)
      rfl
  | compare a b => exact .refl keyed
  | isFinished u =>
    unfold perform
    rw [after_get]
    split <;> exact .refl keyed
  | start u =>
    refine works_onActor keyed _ fun a found => ?_
    rw [after_map, after_onWorld]
    exact works_operate keyed _ .start fun _ => rfl
  | signalActor u sender reason =>
    refine works_onActor keyed _ fun a found => ?_
    rw [after_map, after_onWorld]
    exact works_operate keyed _ (.signal _ _) fun _ => rfl
  | forward u sender reason =>
    refine works_onActor keyed _ fun a found => ?_
    rw [after_map, after_onWorld]
    exact works_operate keyed _ (.forward _ _) fun _ => rfl
  | terminate u reason =>
    refine works_onActor keyed _ fun a found => ?_
    rw [after_map, after_onWorld]
    exact works_operate keyed _ (.terminate _) fun _ => rfl
  | link u peer =>
    refine works_onActor keyed _ fun a found => ?_
    exact works_operate keyed _ (.link _) fun _ => rfl
  | linkToActor u peer =>
    refine works_onActor keyed _ fun a found => works_onActor keyed _ fun b present => ?_
    exact works_operate keyed _ (.link _) fun _ => rfl
  | recordLink u peer =>
    refine works_onActor keyed _ fun a found => ?_
    rw [after_map, after_answer, ← World.linkThrough_found found]
    exact works_operate keyed _ (.record _) fun _ => rfl
  | unlink u peer =>
    refine works_onActor keyed _ fun a found => ?_
    exact works_operate keyed _ (.unlink _) fun _ => rfl
  | isLinked u peer => exact works_onActor keyed _ fun a found => .refl keyed
  | post u message =>
    refine works_onActor keyed _ fun a found => ?_
    exact works_operate keyed _ (.send _) fun _ => rfl
  | peek u => exact works_onActor keyed _ fun a found => .refl keyed
  | ensureNoExit u => exact works_onActor keyed _ fun a found => .refl keyed
  | setTrap u value =>
    refine works_onActor keyed _ fun a found => ?_
    cases flagged : a.role.flags? with
    | none => exact .refl keyed
    | some flags => exact works_setRole keyed found flagged _
  | setFlags u new =>
    refine works_onActor keyed _ fun a found => ?_
    cases flagged : a.role.flags? with
    | none => exact .refl keyed
    | some flags => exact works_setRole keyed found flagged _
  | info u => exact works_onActor keyed _ fun a found => .refl keyed
  | spawn parent options body failure =>
    have spawned (parent : Option Identity) : Works Action.Polite n (n.after do
        launchNew .process body failure (← onWorld (·.spawn parent options))) := by
      have first : Works Action.Polite n (n.after (onWorld (·.spawn parent options))) :=
        works_onWorld (World.leads_spawn World.founds_polite keyed parent options)
      exact works_bind first fun made m keyed => works_launchNew keyed ..
    cases parent with
    | none => exact spawned none
    | some parent => exact works_onActor keyed _ fun a found => spawned (some a.id)
  | openPort owner name body failure =>
    refine works_onActor keyed _ fun a found => ?_
    have first : Works Action.Polite n (n.after (onWorld (·.openPort a.id name))) :=
      works_onWorld (World.leads_openPort World.founds_polite keyed a.id name)
    exact works_bind first fun made m keyed => works_launchNew keyed ..
  | remark text => exact .of_world (.refl keyed) rfl
  | fail interrupt => exact .refl keyed
  | raise fault => exact .refl keyed

theorem drivers_pollCore (n : Node) (id : Identity) (poll : Core → Poll α × Core) :
    (n.pollCore id poll).2.drivers = n.drivers := by
  unfold pollCore
  split <;> rfl

theorem works_pollMailbox {poll : Core → Poll (Except Interrupt α) × Core}
    {sleeper : Option Identity} {ticket : Option Nat} (keyed : n.world.Keyed) (self : Identity)
    (errand : Errand) (stage : Nat → Stage) (reply : α → Reply)
    (polled : ∀ c, (poll c).2 = c.polled errand sleeper ticket)
    (polite : (Action.operate self (.poll errand sleeper ticket)).Polite) :
    Works Action.Polite n (n.after (pollMailbox self stage reply poll)) := by
  have same : n.after (pollMailbox self stage reply poll) = (n.pollCore self poll).2 := by
    unfold pollMailbox
    rw [after_bind]
    dsimp only [modifyGet, MonadStateOf.modifyGet, EStateM.modifyGet]
    split <;> rfl
  have world : (n.pollCore self poll).2.world
      = n.world.operate self (.poll errand sleeper ticket) := by
    rw [world_pollCore]
    simp only [polled]
    rfl
  rw [same]
  refine .of_world ?_ (drivers_pollCore ..)
  rw [world]
  exact .act keyed (.operate self (.poll errand sleeper ticket)) polite

theorem works_putDriver {d e : Driver} (keyed : n.world.Keyed) {id : Identity}
    (known : n.drivers.find? id = some d) (same : e.isActive = d.isActive) :
    Works may n { n with drivers := n.drivers.put id e } := by
  refine ⟨.refl keyed, fun i driven => ?_⟩
  unfold isDriven at driven ⊢
  rw [Registry.find?_put]
  split
  · next equal =>
    rw [equal, known] at driven
    exact same.trans driven
  · exact driven

theorem after_pollEnd (target : Identity) : n.after (pollEnd target) = n := by
  unfold pollEnd
  rw [after_get]
  split <;> rfl

theorem works_takeEnd {d : Driver} {target : Identity} {joiner : Option Identity}
    (keyed : n.world.Keyed) (taken : n.takeEnd target joiner = some (d, m)) : Works may n m := by
  unfold takeEnd at taken
  cases known : n.drivers.find? target with
  | none => simp [known] at taken
  | some found =>
    simp only [known] at taken
    split at taken
    · cases taken
    · cases taken
      exact works_putDriver keyed known rfl

theorem works_advanceAct (keyed : n.world.Keyed) (self : Identity) (heard : Option Identity)
    (stage : Stage) (act : Act) :
    Works Action.Polite n (n.after (advanceAct self heard stage act)) := by
  cases act with
  | step step =>
    have same : n.after (advanceAct self heard stage (.step step))
        = n.after (perform (n.scope (some self) heard) step) :=
      after_map (perform (n.scope (some self) heard) step) _
    rw [same]
    exact works_perform keyed ..
  | receive =>
    exact works_pollMailbox keyed self .message _ _ (fun c => rfl) fun id => rfl
  | wait => exact works_pollMailbox keyed self .mail _ _ (fun c => rfl) fun id => rfl
  | remove => exact works_pollMailbox keyed self .message _ _ (fun c => rfl) fun id => rfl
  | waitFor limit => exact works_pollMailbox keyed self (.timed _) _ _ (fun c => rfl) fun id => rfl
  | sleep time => exact .of_world (.refl keyed) rfl
  | yield => cases stage <;> exact .of_world (.refl keyed) rfl
  | join u =>
    cases stage with
    | joining target =>
      have same : n.after (advanceAct self heard (.joining target) (.join u)) = n :=
        after_pollEnd target
      rw [same]
      exact .refl keyed
    | _ =>
      unfold advanceAct
      dsimp only
      rw [after_get, after_get]
      cases taken : n.takeEnd ((n.scope (some self) heard).find u) (some self) with
      | none => exact .refl keyed
      | some found =>
        dsimp only
        rw [after_set, after_pollEnd]
        exact works_takeEnd keyed taken
  | finish remark => exact .refl keyed

theorem leads_frees {w : World} (keyed : w.Keyed) (ids : List Identity)
    (allowed : ∀ i ∈ ids, may (.free i)) : World.Leads may w (ids.foldl World.free w) := by
  induction ids generalizing w with
  | nil => exact .refl keyed
  | cons i rest ih =>
    obtain ⟨this, others⟩ := List.forall_mem_cons.mp allowed
    have first : World.Leads may w (w.free i) := .act keyed (.free i) this
    exact first.trans (ih first.keyed others)

theorem works_reclaim (keyed : n.world.Keyed) {self : Identity} (driven : n.isDriven self = true) :
    Works (·.intrudes self = false) n n.reclaim := by
  refine .of_world (leads_frees keyed _ fun i member => ?_) rfl
  have unheld : n.isHeld i = false := by simpa using (List.mem_filter.mp member).2
  show (i == self) = false
  refine beq_eq_false_iff_ne.mpr ?_
  rintro rfl
  -- a driver holds its actor
  have held : n.isHeld i = true := by
    unfold isDriven at driven
    simp [isHeld, driven]
  exact absurd held (by simp [unheld])

theorem works_note (keyed : n.world.Keyed) (id : Identity) (note : Note) :
    Works may n (n.note id note) :=
  .of_world (.note keyed id note) rfl

theorem works_noted {self : Identity} (works : Works (·.intrudes self = false) n m)
    (driven : n.isDriven self = true) (note : Note) :
    Works (·.intrudes self = false) n (m.note self note).reclaim := by
  have noted := works.trans (works_note works.leads.keyed self note)
  exact noted.trans (works_reclaim noted.leads.keyed (noted.driven self driven))

/-- So do the lines of a body, which leave the wait of its driver alone. -/
theorem works_runLines (keyed : n.world.Keyed) {self : Identity} (driven : n.isDriven self = true)
    (lines : List Line) (stage : Stage) (heard : Option Identity) :
    Works (·.intrudes self = false) n (runLines self lines stage heard n).2 := by
  induction lines generalizing n stage heard with
  | nil => exact .refl keyed
  | cons line rest ih =>
    have first := (works_advanceAct keyed self heard stage line.act).mono
      fun action polite => polite self
    unfold runLines
    unfold after at first
    revert first
    generalize advanceAct self heard stage line.act n = result
    intro first
    cases result with
    | error fault m => exact works_noted first driven .unwound
    | ok answer m =>
      cases answer with
      | inl stage => exact first
      | inr reply =>
        have noted := works_noted first driven (.step line.label reply)
        have more (heard : Option Identity) := noted.trans
          (ih noted.leads.keyed (noted.driven self driven) .fresh heard)
        dsimp only
        split
        · split
          · exact more heard
          · exact noted
        · exact noted
        · exact more _

theorem works_resume (keyed : n.world.Keyed) {self : Identity} (driven : n.isDriven self = true)
    (a : Activity) : Works (·.intrudes self = false) n (resume self a n).2 :=
  works_runLines keyed driven ..

theorem works_leaveStage (keyed : n.world.Keyed) (self : Identity) (stage : Stage) :
    Works Action.Polite n (leaveStage self stage n) := by
  have cancelled (ticket : Nat) :
      Works Action.Polite n (n.mapWorld (·.changeCore self (·.cancel .mail ticket))) :=
    works_operate keyed self (.cancel .mail ticket) fun id => rfl
  cases stage with
  | mail ticket => exact cancelled ticket
  | timed ticket deadline => exact cancelled ticket
  | joining target =>
    dsimp only [leaveStage]
    cases known : n.drivers.find? target with
    | none => exact .refl keyed
    | some d => exact works_putDriver keyed known rfl
  | _ => exact .refl keyed

theorem works_abandon (keyed : n.world.Keyed) (self : Identity) (a : Activity) :
    Works Action.Polite n (abandon self a n) := by
  have noted : Works Action.Polite n (n.note self .dropped) := works_note keyed self .dropped
  have left := noted.trans (works_leaveStage noted.leads.keyed self a.stage)
  unfold abandon
  split
  · exact .refl keyed
  · exact left

theorem works_looked (keyed : n.world.Keyed) (id : Identity) (exitWait : Option Nat) :
    Works (fun _ => True) n (n.looked id exitWait) := by
  refine .of_world ?_ (drivers_pollCore ..)
  rw [world_looked]
  exact .act keyed _ trivial

/-- The polls of a driver on a body of a script are as those of any run of a driver. -/
theorem Driven.resumed {id : Identity} {first body next : Activity} {start : Node}
    {earlier trace : List World.Moment} {exitWait : Option Nat} {ticket : Nat}
    (reached : World.Course {} earlier start.world)
    (driven : Driven (resume id) (abandon id) (·.intrudes id = false) id first start trace exitWait
      body n)
    (active : n.isDriven id = true) {a : Actor} (found : n.world.find? id = some a)
    (suspended : drive (resume id) (abandon id) id exitWait body n = (.suspended ticket next, m)) :
    m.isDriven id = true ∧
    ∃ later, Driven (resume id) (abandon id) (·.intrudes id = false) id first start
      (trace ++ (n.world, looking id exitWait) :: later) (some ticket) next m := by
  have keyed := ((reached.trans driven.course).rooted World.rooted_empty).keyed
  have looked := works_looked keyed id exitWait
  obtain ⟨-, resumed⟩ := drive_suspended found suspended
  have works := works_resume looked.leads.keyed (looked.driven id active) body
  rw [resumed] at works
  obtain ⟨later, course, allowed⟩ := works.leads.course
  exact ⟨works.driven id (looked.driven id active), later,
    .polled driven suspended course allowed⟩

theorem leads_settle (keyed : n.world.Keyed) (id : Identity) (reason : Exit) :
    World.Leads Action.Polite n.world (@settle β id reason n).2.world := by
  have leads := World.leads_terminate World.founds_polite keyed id reason
  unfold settle onWorld
  dsimp only
  revert leads
  generalize n.world.terminate id reason = result
  intro leads
  obtain (⟨_ | final, w⟩ | ⟨fault, w⟩) := result
  · exact leads
  · exact leads
  · exact leads

theorem Works.leaves {id : Identity} (works : Works (·.intrudes id = false) n m) :
    ∃ trace, World.Course n.world trace m.world ∧ ∀ moment ∈ trace, moment.2 ≠ .free id := by
  obtain ⟨trace, course, spared⟩ := works.leads.course
  refine ⟨trace, course, fun moment member frees => ?_⟩
  have spared := spared moment member
  simp [frees, Action.intrudes] at spared

/-- The poll with which a driver of a body of a script ends is as the last one of any run. -/
theorem ended_closes {id : Identity} {a : Actor} {body : Activity} {exitWait : Option Nat}
    (keyed : n.world.Keyed) (found : n.world.find? id = some a) (active : n.isDriven id = true)
    {exit : Exit}
    (ended : drive (resume id) (abandon id) id exitWait body n = (.ended exit, m)) :
    ∃ last given left, Closes (resume id) (abandon id) id exitWait body n last given left ∧
      ∀ moment ∈ last, moment.2 ≠ .free id := by
  have looked := works_looked keyed id exitWait
  cases answer : (a.core.pollExit (some id) exitWait).1 with
  | ready reason =>
    have left := (works_abandon looked.leads.keyed id body).mono fun action polite => polite id
    obtain ⟨work, course, kept⟩ := left.leaves
    refine ⟨_, reason, _, .preempted (by rw [pollCore_looked found, answer]) course, ?_⟩
    exact List.forall_mem_cons.mpr ⟨fun same => (by cases same), kept⟩
  | pending ticket =>
    have works := works_resume looked.leads.keyed (looked.driven id active) body
    cases resumed : resume id body (n.looked id exitWait) with
    | mk outcome after =>
      rw [resumed] at works
      cases reasoned : outcome.reason? with
      | some given =>
        obtain ⟨work, course, kept⟩ := works.leaves
        refine ⟨_, given, _, .finished (by rw [pollCore_looked found, answer]) resumed reasoned
          course, ?_⟩
        refine List.forall_mem_append.mpr ⟨List.forall_mem_cons.mpr ⟨fun same => ?_, kept⟩, ?_⟩
        · cases same
        · exact List.forall_mem_singleton.mpr fun same => by cases same
      | none =>
        unfold drive at ended
        rw [pollCore_looked found, answer] at ended
        dsimp only at ended
        rw [resumed] at ended
        cases outcome with
        | suspended next => cases ended
        | returned => cases reasoned
        | failed interrupt => cases reasoned
        | faulted fault =>
          dsimp only at ended
          rw [Progress.reason?_faulted] at reasoned
          split at reasoned
          · next breaks =>
            rw [if_pos breaks] at ended
            cases ended
          · cases reasoned

end Node

end Actors
