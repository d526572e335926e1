import Actors.Scenario
import Actors.Proofs.Conduct

/-! Schedules. A scenario runs its commands and its drivers one after the other. Whatever it
consists of, its world takes a course from the empty world on. -/
namespace Actors.Node

variable {α β : Type} {n m l : Node}

abbrev Advances (n m : Node) : Prop := World.Leads (fun _ => True) n.world m.world

theorem Works.advances {may : Action → Prop} (works : Works may n m) : Advances n m :=
  works.leads.mono fun _ _ => trivial

theorem advances_reclaim (keyed : n.world.Keyed) : Advances n n.reclaim :=
  leads_frees keyed _ fun _ _ => trivial

theorem advances_settle (keyed : n.world.Keyed) (id : Identity) (reason : Exit) :
    Advances n (@settle β id reason n).2 :=
  (leads_settle keyed id reason).mono fun _ _ => trivial

theorem advances_cancelExitWait (keyed : n.world.Keyed) (id : Identity) (ticket : Nat) :
    Advances n (cancelExitWait id ticket n) :=
  .act keyed (.operate id (.cancel .exit ticket)) trivial

/-- A poll of a driver takes the world along a course. -/
theorem advances_drive (keyed : n.world.Keyed) {id : Identity} (driven : n.isDriven id = true)
    (exitWait : Option Nat) (body : Activity) :
    Advances n (drive (resume id) (abandon id) id exitWait body n).2 := by
  have looked : Works (fun _ => True) n (n.pollCore id (Core.pollExit (some id) exitWait)).2 :=
    works_looked keyed id exitWait
  unfold drive
  revert looked
  generalize n.pollCore id (Core.pollExit (some id) exitWait) = result
  obtain ⟨answer, m⟩ := result
  intro looked
  have closed (l : Node) (advances : Advances m l) (ticket : Nat) (reason : Exit) :
      Advances n (settle id reason (cancelExitWait id ticket l) : Drive Activity × Node).2 := by
    have left := (looked.advances.trans advances).trans
      (advances_cancelExitWait advances.keyed id ticket)
    exact left.trans (advances_settle left.keyed id reason)
  cases answer with
  | none => exact looked.advances
  | some answer =>
    cases answer with
    | ready reason =>
      have left := looked.advances.trans (works_abandon looked.leads.keyed id body).advances
      have told : Advances n ((abandon id body m).mapWorld (·.emit (.preempted reason))) :=
        left.trans (.emit left.keyed _)
      exact told.trans (advances_settle told.keyed id reason)
    | pending ticket =>
      have resumed := (works_resume looked.leads.keyed (looked.driven id driven) body).advances
      dsimp only
      revert resumed
      generalize resume id body m = result
      obtain ⟨outcome, l⟩ := result
      intro resumed
      cases outcome with
      | suspended body => exact looked.advances.trans resumed
      | returned => exact closed l resumed ticket .normal
      | failed interrupt => exact closed l resumed ticket interrupt.reason
      | faulted fault =>
        dsimp only
        split
        · exact looked.advances.trans resumed
        · exact closed l resumed ticket fault.exit

theorem world_setDriver (n : Node) (id : Identity) (state : DriverState) :
    (n.setDriver id state).world = n.world := by
  unfold setDriver
  split <;> rfl

theorem advances_conclude (keyed : n.world.Keyed) (id : Identity) (exit : Exit) :
    Advances n (n.conclude id exit) := by
  have ended : (n.setDriver id (.ended exit)).world = n.world := world_setDriver ..
  have freed : Advances n (n.setDriver id (.ended exit)).reclaim := by
    have freed := advances_reclaim (ended.symm ▸ keyed)
    rwa [Advances, ended] at freed
  unfold conclude
  dsimp only
  split
  · exact freed
  · exact freed.trans (.call freed.keyed _)

theorem world_enqueue (n : Node) (i : Identity) : (n.enqueue i).world = n.world := by
  unfold enqueue
  split <;> rfl

theorem world_enqueues (ids : List Identity) (n : Node) :
    (ids.foldl enqueue n).world = n.world := by
  induction ids generalizing n with
  | nil => rfl
  | cons i rest ih => exact (ih _).trans (world_enqueue n i)

theorem advances_absorb (keyed : n.world.Keyed) (current : Option Identity) :
    Advances n (n.absorb current) := by
  unfold absorb
  dsimp only
  rw [Advances, world_enqueues]
  exact .drift keyed [] n.world.journal

theorem advances_pollDriver (keyed : n.world.Keyed) (id : Identity) :
    Advances n (n.pollDriver id) := by
  unfold pollDriver
  cases known : n.drivers.find? id with
  | none => exact .refl keyed
  | some d =>
    dsimp only
    cases state : d.state with
    | ended exit => exact .refl keyed
    | active exitWait body =>
      have opened : Advances n (n.openSpans d.spans) := .drift keyed n.world.calls _
      have driven : (n.openSpans d.spans).isDriven id = true := by
        have same : (n.openSpans d.spans).drivers = n.drivers := rfl
        simp [isDriven, same, known, Driver.isActive, Driver.exit?, state]
      have polled := opened.trans (advances_drive opened.keyed driven exitWait body)
      dsimp only
      revert polled
      generalize drive (resume id) (abandon id) id exitWait body (n.openSpans d.spans) = result
      obtain ⟨outcome, m⟩ := result
      intro polled
      have closing (l : Node) (advances : Advances n l) :
          Advances n ((l.openSpans []).absorb (some id)) := by
        have closed : Advances n (l.openSpans []) :=
          advances.trans (.drift advances.keyed l.world.calls _)
        exact closed.trans (advances_absorb closed.keyed _)
      cases outcome with
      | suspended ticket body =>
        exact closing _ (by rw [Advances, world_setDriver]; exact polled)
      | ended exit => exact closing _ (polled.trans (advances_conclude polled.keyed id exit))
      | aborted => exact closing _ polled

theorem advances_runRounds (keyed : n.world.Keyed) (rounds : Nat) :
    Advances n (runRounds rounds n) := by
  induction rounds generalizing n with
  | zero => exact .refl keyed
  | succ rounds ih =>
    unfold runRounds
    split
    · exact .refl keyed
    · split
      · next id rest _ =>
        have polled : Advances n ({ n with ready := rest }.pollDriver id) :=
          @advances_pollDriver { n with ready := rest } keyed id
        exact polled.trans (ih polled.keyed)
      · exact .refl keyed
      · have queued : (n.aside.foldl enqueue { n with aside := [] }).world = n.world :=
          world_enqueues ..
        have ran := @ih (n.aside.foldl enqueue { n with aside := [] }) (queued.symm ▸ keyed)
        rwa [Advances, queued] at ran

theorem advances_run (keyed : n.world.Keyed) : Advances n n.run := by
  have absorbed := advances_absorb keyed none
  exact absorbed.trans (advances_runRounds absorbed.keyed _)

theorem leads_calls {may : Action → Prop} {w : World} (keyed : w.Keyed) (ids : List Identity) :
    World.Leads may w (ids.foldl World.call w) := by
  induction ids generalizing w with
  | nil => exact .refl keyed
  | cons i rest ih =>
    have first : World.Leads may w (w.call i) := .call keyed i
    exact first.trans (ih first.keyed)

theorem advances_jump (keyed : n.world.Keyed) (moment : Nat) : Advances n (n.jump moment) := by
  unfold jump
  dsimp only
  generalize List.map Prod.fst _ = ids
  have called : Advances n ({ n with now := moment }.mapWorld fun w => ids.foldl World.call w) :=
    leads_calls keyed ids
  exact called.trans (advances_run called.keyed)

theorem advances_passUntil (keyed : n.world.Keyed) (moment jumps : Nat) :
    Advances n (passUntil moment jumps n) := by
  induction jumps generalizing n with
  | zero => exact .refl keyed
  | succ jumps ih =>
    unfold passUntil
    split
    · exact .refl keyed
    · next next _ =>
      split
      · have jumped := advances_jump keyed next
        exact jumped.trans (ih jumped.keyed)
      · exact .refl keyed

theorem advances_pollCore {poll : Core → Poll α × Core} {sleeper : Option Identity}
    {ticket : Option Nat} (keyed : n.world.Keyed) (id : Identity) (errand : Errand)
    (polled : ∀ c, (poll c).2 = c.polled errand sleeper ticket) :
    Advances n (n.pollCore id poll).2 := by
  rw [Advances, world_pollCore]
  simp only [polled]
  exact .act keyed (.operate id (.poll errand sleeper ticket)) trivial

theorem advances_pollAim (keyed : n.world.Keyed) (slot : Slot) : Advances n (n.pollAim slot).2 := by
  unfold pollAim
  cases slot.aim with
  | wait => exact advances_pollCore keyed _ .mail fun c => rfl
  | remove => exact advances_pollCore keyed _ .message fun c => rfl
  | receive => exact advances_pollCore keyed _ .message fun c => rfl
  | waitUntil deadline => exact advances_pollCore keyed _ (.timed _) fun c => rfl
  | exit => exact advances_pollCore keyed _ .exit fun c => rfl

theorem advances_pollSlot (keyed : n.world.Keyed) (k : Nat) (slot : Slot) :
    Advances n (n.pollSlot k slot).2 := by
  have polled := advances_pollAim keyed slot
  unfold pollSlot
  revert polled
  generalize n.pollAim slot = result
  intro polled
  obtain ⟨_ | _ | _, m⟩ := result
  · exact polled
  · exact polled
  · exact polled

theorem advances_cancelSlot (keyed : n.world.Keyed) (k : Nat) : Advances n (n.cancelSlot k) := by
  unfold cancelSlot
  split
  · next id aim ticket _ =>
    exact .act keyed (.operate id (.cancel (if aim = .exit then .exit else .mail) ticket)) trivial
  · exact .refl keyed

theorem advances_learnEnd (keyed : n.world.Keyed) (id : Identity) :
    Advances n (n.learnEnd id).2 := by
  unfold learnEnd
  cases taken : n.takeEnd id none with
  | none => exact .refl keyed
  | some found =>
    obtain ⟨d, m⟩ := found
    dsimp only
    split
    · exact (works_takeEnd keyed taken).leads
    · exact .refl keyed

/-- So does every step from outside. -/
theorem advances_command (keyed : n.world.Keyed) (command : Command) :
    Advances n (n.command command).2 := by
  cases command with
  | step step =>
    have performed := (works_perform keyed (n.scope none none) step).advances
    unfold Node.command
    dsimp only
    unfold after at performed
    revert performed
    generalize perform (n.scope none none) step n = result
    cases result <;> exact id
  | begin u aim =>
    unfold Node.command
    dsimp only
    split
    · exact @advances_pollSlot { n with slots := n.slots ++ [⟨_, aim n.now, none⟩] } keyed _ _
    · exact .refl keyed
  | poll k =>
    unfold Node.command
    dsimp only
    split
    · split
      · exact advances_pollSlot keyed k _
      · exact .refl keyed
    · exact .refl keyed
  | cancel k => exact advances_cancelSlot keyed k
  | advance time => exact advances_passUntil keyed _ _
  | join u => exact advances_learnEnd keyed _

theorem advances_report (keyed : n.world.Keyed) (command : Command) :
    Advances n (n.report command).2 := by
  have commanded := advances_command keyed command
  have freed := commanded.trans (advances_reclaim commanded.keyed)
  have ran := freed.trans (advances_run freed.keyed)
  exact ran.trans (.drift ran.keyed _ _)

theorem advances_reports (keyed : n.world.Keyed) (commands : List Command) :
    Advances n (n.reports commands).2 := by
  induction commands generalizing n with
  | nil => exact .refl keyed
  | cons command rest ih =>
    have reported := advances_report keyed command
    unfold reports
    dsimp only
    split
    · exact reported
    · exact reported.trans (ih reported.keyed)

/-- The world of a scenario takes a course. -/
theorem reports_course (commands : List Command) :
    ∃ trace, World.Course {} trace (reports {} commands).2.world := by
  have advanced : Advances {} (reports {} commands).2 :=
    advances_reports World.rooted_empty.keyed commands
  obtain ⟨trace, course, -⟩ := advanced.course
  exact ⟨trace, course⟩

end Actors.Node
