import Actors.Proofs.Reaction
import Mathlib.Tactic.SplitIfs

/-! Receptions. An actor that does no more than record the signals it accepts is all that a signal to
it changes, so signals in turn change each of their receivers on its own. -/
namespace Actors

def Role.isQuiet : Role → Bool
  | process _ | port _ _ | plain .record => true
  | plain _ => false

namespace Core

def takes (c : Core) (reaching : Option Exit) : Option Exit :=
  if c.isRunning then reaching else none

def taking (c : Core) (reaching : Option Exit) : Core :=
  match c.takes reaching with
  | some reason => { c with life := .exiting reason }.alert
  | none => c

theorem isRunning_iff {c : Core} : c.isRunning = true ↔ c.life = .running := by
  cases life : c.life <;> simp [isRunning, phase, life, Life.phase]

theorem taking_stopped {c : Core} (stopped : c.isRunning = false) (reaching : Option Exit) :
    c.taking reaching = c := by
  simp [taking, takes, stopped]

theorem taking_running {c : Core} (runs : c.isRunning = true) (reason : Exit) :
    c.taking (some reason) = { c with life := .exiting reason }.alert := by
  simp [taking, takes, runs]

@[simp] theorem taking_none (c : Core) : c.taking none = c := by
  simp [taking, takes]

@[simp] theorem id_taking (c : Core) (reaching : Option Exit) : (c.taking reaching).id = c.id := by
  unfold taking
  split <;> rfl

@[simp] theorem links_taking (c : Core) (reaching : Option Exit) :
    (c.taking reaching).links = c.links := by
  unfold taking
  split <;> rfl

end Core

namespace Actor

variable {a : Actor}

def reaching (a : Actor) (sender : Identity) (reason : Exit) : Option Exit :=
  match a.screen sender reason with
  | .forward reason => if sender = a.id then none else some reason
  | _ => none

def trapping (a : Actor) (sender : Identity) (reason : Exit) : Option Exit :=
  match a.screen sender reason with
  | .trap reason => some reason
  | _ => none

def refuses (a : Actor) (sender : Identity) (reason : Exit) : Bool :=
  a.core.phase == .init && (a.reaching sender reason).isSome

def coreAfter (a : Actor) (sender : Identity) (reason : Exit) : Core :=
  match a.trapping sender reason with
  | some reason => a.core.post (.exitMessage sender reason)
  | none => a.core.taking (a.reaching sender reason)

def after (a : Actor) (sender : Identity) (reason : Exit) : Actor :=
  { a with core := a.coreAfter sender reason }

theorem reaching_congr {b : Actor} (role : b.role = a.role) (name : b.id = a.id)
    (sender : Identity) (reason : Exit) : b.reaching sender reason = a.reaching sender reason := by
  simp only [reaching, screen, role, name]

theorem trapping_congr {b : Actor} (role : b.role = a.role) (name : b.id = a.id)
    (sender : Identity) (reason : Exit) : b.trapping sender reason = a.trapping sender reason := by
  simp only [trapping, screen, role, name]

theorem trapping_eq {sender : Identity} {reason trapped : Exit}
    (trap : a.trapping sender reason = some trapped) : trapped = reason := by
  unfold trapping screen Role.screen at trap
  cases role : a.role with
  | process flags =>
    simp only [role] at trap
    split_ifs at trap
    simp_all
  | port name owner =>
    simp only [role] at trap
    split_ifs at trap
  | plain hook => simp [role] at trap

theorem reaching_of_trapping {sender : Identity} {reason trapped : Exit}
    (trap : a.trapping sender reason = some trapped) : a.reaching sender reason = none := by
  unfold trapping at trap
  unfold reaching
  split at trap <;> simp_all

theorem coreAfter_trapping {sender : Identity} {reason trapped : Exit}
    (trap : a.trapping sender reason = some trapped) :
    a.coreAfter sender reason = a.core.post (.exitMessage sender reason) := by
  simp [coreAfter, trap, trapping_eq trap]

theorem coreAfter_untrapped {sender : Identity} {reason : Exit}
    (untrapped : a.trapping sender reason = none) :
    a.coreAfter sender reason = a.core.taking (a.reaching sender reason) := by
  simp [coreAfter, untrapped]

@[simp] theorem links_coreAfter (a : Actor) (sender : Identity) (reason : Exit) :
    (a.coreAfter sender reason).links = a.core.links := by
  unfold coreAfter
  split
  · exact Core.links_post ..
  · exact Core.links_taking ..

theorem life_coreAfter_stopped (stopped : a.core.isRunning = false) (sender : Identity)
    (reason : Exit) : (a.coreAfter sender reason).life = a.core.life := by
  unfold coreAfter
  split
  · exact Core.life_post ..
  · rw [Core.taking_stopped stopped]

theorem coreAfter_done (finished : a.core.isDone = true) (sender : Identity) (reason : Exit) :
    a.coreAfter sender reason = a.core := by
  have stopped : a.core.isRunning = false := by
    obtain ⟨final, life⟩ := Core.isDone_iff.mp finished
    simp [Core.isRunning, Core.phase, life, Life.phase]
  unfold coreAfter
  split
  · simp [Core.post, finished]
  · rw [Core.taking_stopped stopped]

theorem stopped_of_refuses {sender : Identity} {reason : Exit}
    (refused : a.refuses sender reason = true) : a.core.isRunning = false := by
  have unborn : a.core.phase = .init := by
    simpa using (Bool.and_eq_true_iff.mp refused).1
  simp [Core.isRunning, unborn]

theorem coreAfter_refuses {sender : Identity} {reason : Exit}
    (refused : a.refuses sender reason = true) : a.coreAfter sender reason = a.core := by
  have untrapped : a.trapping sender reason = none := by
    cases trap : a.trapping sender reason with
    | none => rfl
    | some trapped => simp [refuses, reaching_of_trapping trap] at refused
  rw [coreAfter_untrapped untrapped, Core.taking_stopped (stopped_of_refuses refused)]

theorem id_coreAfter (a : Actor) (sender : Identity) (reason : Exit) :
    (a.coreAfter sender reason).id = a.id := by
  unfold coreAfter
  split
  · exact Core.id_post ..
  · exact Core.id_taking ..

end Actor

namespace World

variable {w : World}

theorem react_quiet {id : Identity} {a : Actor} {d : Nat} (found : w.find? id = some a)
    (quiet : a.role.isQuiet = true) (deep : 0 < d) (sender : Identity) (reason : Exit) :
    ∃ v, react d id sender reason w = .ok () v ∧ Told w id sender reason v := by
  cases role : a.role with
  | process flags =>
    exact ⟨_, react_process found role .., told_emit _ _ _ _ _ fun _ => rfl⟩
  | port name owner =>
    exact ⟨_, react_port found role .., told_emit _ _ _ _ _ fun _ => rfl⟩
  | plain hook =>
    obtain ⟨d, rfl⟩ : ∃ k, d = k + 1 := ⟨d - 1, by omega⟩
    cases hook with
    | record => exact ⟨_, react_plain found role .., told_note ..⟩
    | terminate last => simp [role, Role.isQuiet] at quiet
    | reply answer => simp [role, Role.isQuiet] at quiet
    | send => simp [role, Role.isQuiet] at quiet
    | unlink => simp [role, Role.isQuiet] at quiet
    | raise => simp [role, Role.isQuiet] at quiet

structure Received (w : World) (a : Actor) (core : Core) (signals : List (Identity × Exit))
    (v : World) : Prop where
  find? : ∀ i, v.find? i = if i = a.id then some { a with core } else w.find? i
  stubs : v.stubs = w.stubs
  serial : v.serial = w.serial
  reactions : ∀ i, v.reactions i = w.reactions i + if i = a.id then ↑signals else 0

theorem Alike.received {v : World} {a : Actor} (alike : Alike w v) (found : w.find? a.id = some a) :
    Received w a a.core [] v := by
  refine ⟨fun i => ?_, alike.stubs, alike.serial, fun i => ?_⟩
  · rw [alike.find?]
    split
    · next same => rw [same, found]
    · rfl
  · rw [alike.reactions]
    simp

theorem Replaces.received {v : World} {a : Actor} {core : Core} (replaces : Replaces w a core v)
    (reactions : ∀ i, v.reactions i = w.reactions i) : Received w a core [] v :=
  ⟨replaces.find?, replaces.stubs, replaces.serial, fun i => by simp [reactions]⟩

theorem Received.keyed {v : World} {a : Actor} {core : Core} {signals : List (Identity × Exit)}
    (received : Received w a core signals v) (same : core.id = a.id) (keyed : w.Keyed) :
    v.Keyed := by
  intro i b found
  rw [received.find?] at found
  split at found
  · next equal =>
    cases found
    exact same.trans equal.symm
  · exact keyed found

theorem Alike.then_received {v u : World} {a : Actor} {core : Core}
    {signals : List (Identity × Exit)} (alike : Alike w v) (received : Received v a core signals u) :
    Received w a core signals u := by
  refine ⟨fun i => ?_, received.stubs.trans alike.stubs, received.serial.trans alike.serial,
    fun i => ?_⟩
  · rw [received.find?, alike.find?]
  · rw [received.reactions, alike.reactions]

section Quiet

variable {id : Identity} {a : Actor} (keyed : w.Keyed) (found : w.find? id = some a)
include keyed found

theorem received_send (message : Term) :
    Received w a (a.core.post message) [] (w.send id message) := by
  have name : a.id = id := keyed found
  subst name
  unfold send
  rw [found]
  dsimp only
  split
  · next finished =>
    simpa [Core.post, finished] using (alike_emit w (.messageToDone a.id) fun _ => rfl).received found
  · next alive =>
    rw [changeCore_found found]
    exact (replaces_putCore _ found (Bool.eq_false_of_not_eq_true alive)).received fun _ => rfl

theorem forward_own (reason : Exit) :
    ∃ v, w.forward id id reason = .ok () v ∧ Received w a a.core [] v := by
  have name : a.id = id := keyed found
  refine ⟨w.emit (.ownSignal id), ?_, ?_⟩
  · simp [forward, forwardWith]
  · exact (alike_emit w _ fun _ => rfl).received (name ▸ found)

variable (quiet : a.role.isQuiet = true)
include quiet

theorem forward_quiet {sender : Identity} (other : sender ≠ id) (reason : Exit) :
    (a.core.life = .init ∧ ∃ v, w.forward id sender reason
        = .error (.exception (.invariant "exit signal delivered before start")) v ∧ Alike w v) ∨
      (a.core.life ≠ .init ∧ ∃ v, w.forward id sender reason = .ok () v ∧
        Received w a (a.core.taking (some reason))
          ((a.core.takes (some reason)).map (sender, ·)).toList v) := by
  have name : a.id = id := keyed found
  subst name
  unfold forward forwardWith
  rw [if_neg other]
  have outcome := offered keyed a.id sender reason
  revert outcome
  generalize w.offer a.id sender reason = result
  rintro (⟨missing, alike⟩ | ⟨present, unborn, alike⟩ | ⟨present, accepted, replaces, same⟩ |
    ⟨present, surfaced, alike⟩)
  · simp [missing] at found
  · cases found.symm.trans present
    exact .inl ⟨unborn, _, rfl, alike⟩
  · next v b core =>
    cases found.symm.trans present
    obtain ⟨life, rfl⟩ := Core.offer_accepted.mp accepted
    have runs : a.core.isRunning = true := Core.isRunning_iff.mpr life
    have deep : 0 < w.running := (Nat.zero_le _).trans_lt (running_lt_accept replaces accepted)
    obtain ⟨u, reacted, told⟩ := react_quiet
      ((replaces.find? a.id).trans (if_pos rfl)) quiet deep sender reason
    refine .inr ⟨by simp [life], u, reacted, ?_⟩
    refine ⟨fun i => ?_, ?_, ?_, fun i => ?_⟩
    · rw [told.find?, replaces.find?]
      simp [Core.taking, Core.takes, runs]
    · exact told.stubs.trans replaces.stubs
    · exact told.serial.trans replaces.serial
    · rw [told.reactions, same]
      simp [Core.takes, runs]
  · next v b exit =>
    cases found.symm.trans present
    have stopped : a.core.isRunning = false := by
      cases life : a.core.life <;> simp_all [Core.isRunning, Core.phase, Life.phase, Life.surfaced?]
    refine .inr ⟨fun life => by simp [life, Life.surfaced?] at surfaced, v, rfl, ?_⟩
    simpa [Core.taking, Core.takes, stopped] using alike.received found

/-- A signal to an actor that only records raises if it comes before the start, and otherwise
changes that actor alone. -/
theorem deliver_quiet (sender : Identity) (reason : Exit) :
    (a.refuses sender reason = true ∧ ∃ v, w.deliver id sender reason
        = .error (.exception (.invariant "exit signal delivered before start")) v ∧ Alike w v) ∨
      (a.refuses sender reason = false ∧ ∃ v, w.deliver id sender reason = .ok () v ∧
        Received w a (a.coreAfter sender reason)
          ((a.core.takes (a.reaching sender reason)).map (sender, ·)).toList v) := by
  have name : a.id = id := keyed found
  have route : w.deliver id sender reason = signalWith w.reaction w a sender reason := by
    simp only [deliver, deliverWith, found]
  rw [route]
  unfold signalWith Actor.refuses Actor.coreAfter Actor.trapping Actor.reaching
  cases screened : a.screen sender reason with
  | ignoreSelf =>
    refine .inr ⟨by simp, _, rfl, ?_⟩
    simpa [Core.taking, Core.takes] using
      (alike_emit w (.ownSignal a.id) fun _ => rfl).received (name ▸ found)
  | ignoreNormal =>
    refine .inr ⟨by simp, _, rfl, ?_⟩
    simpa [Core.taking, Core.takes] using
      (alike_emit w (.normalIgnored a.id sender) fun _ => rfl).received (name ▸ found)
  | trap converted =>
    refine .inr ⟨by simp, _, rfl, ?_⟩
    have emitted := alike_emit w (.trapped a.id sender converted) fun _ => rfl
    have present : (w.emit (.trapped a.id sender converted)).find? a.id = some a :=
      (emitted.find? a.id).trans (name ▸ found)
    have sent := received_send (emitted.keyed keyed) present (.exitMessage sender converted)
    simpa [Core.takes] using emitted.then_received sent
  | forward converted =>
    dsimp only
    by_cases own : sender = a.id
    · subst own
      obtain ⟨v, sent, received⟩ := forward_own keyed (name ▸ found) converted
      refine .inr ⟨by simp, v, sent, ?_⟩
      simpa [Core.taking, Core.takes] using received
    · obtain ⟨unborn, v, sent, alike⟩ | ⟨born, v, sent, received⟩ :=
        forward_quiet keyed (name ▸ found) quiet own converted
      · refine .inl ⟨?_, v, sent, alike⟩
        simp [own, Core.phase, unborn, Life.phase]
      · refine .inr ⟨?_, v, sent, ?_⟩
        · cases life : a.core.life <;> simp_all [Core.phase, Life.phase]
        · simpa [own] using received

end Quiet

end World

end Actors
