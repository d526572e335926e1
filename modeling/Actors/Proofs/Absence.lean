import Actors.Proofs.Finality

/-! Absence. Whether an actor is done or gone makes no difference to anyone else: worlds that differ in
that alone, records apart, still do after whatever is done in them, and answer alike. The one exception
is an actor that is asked through its handle to link to itself. -/
namespace Actors

def Action.byHandle (id : Identity) : Action → Bool
  | .free other => other != id
  | .operate _ (.send _) | .operate _ (.signal _ _) | .operate _ (.record _) => true
  | .operate other _ => other != id
  | _ => true

namespace World

variable {w v x y : World} {id i : Identity} {a : Actor} {R : Reaction}

/-- Two worlds that are the same, records apart, but for an actor that is done in the first and gone in
the second. -/
structure Matched (id : Identity) (x y : World) : Prop where
  keyed : x.Keyed
  past : x.IsOver id
  gone : y.find? id = none
  others : ∀ i, i ≠ id → y.find? i = x.find? i
  stubless : x.stubs.find? id = none
  stubs : y.stubs = x.stubs
  serial : y.serial = x.serial
  calls : y.calls = x.calls
  notes : y.journal.notes = x.journal.notes
  spans : y.journal.spans = x.journal.spans

inductive Tallies {α : Type} (id : Identity) : Outcome α → Outcome α → Prop
  | ok {x y : World} (answer : α) (matched : Matched id x y) : Tallies id (.ok answer x) (.ok answer y)
  | error {x y : World} (fault : Fault) (matched : Matched id x y) :
      Tallies id (.error fault x) (.error fault y)

theorem Tallies.matched {α : Type} {first second : Outcome α} (tallies : Tallies id first second) :
    Matched id first.world second.world := by
  cases tallies with
  | ok answer matched => exact matched
  | error fault matched => exact matched

def rewritten (w : World) (records : List Record) : World :=
  { w with journal := { w.journal with records } }

namespace Matched

variable (matched : Matched id x y)
include matched

theorem rewrite (first second : List Record) :
    Matched id (x.rewritten first) (y.rewritten second) :=
  ⟨matched.keyed, matched.past, matched.gone, matched.others, matched.stubless, matched.stubs,
    matched.serial, matched.calls, matched.notes, matched.spans⟩

theorem emit (first second : Event) : Matched id (x.emit first) (y.emit second) :=
  matched.rewrite _ _

theorem note (i : Identity) (note : Note) : Matched id (x.note i note) (y.note i note) :=
  { matched with notes := congrArg (· ++ [(i, note)]) matched.notes }

theorem entering (span : Span) : Matched id (x.entering span) (y.entering span) :=
  { matched with spans := congrArg (· ++ [span]) matched.spans }

theorem leaving {v w : World} (inside : Matched id v w) : Matched id (v.leaving x) (w.leaving y) :=
  { inside with spans := matched.spans }

theorem putCore (other : a.id ≠ id) {core : Core} (same : core.id = a.id) :
    Matched id (x.putCore a core) (y.putCore a core) := by
  obtain ⟨b, present, done⟩ := matched.past
  refine { matched with
    keyed := fun i c at' => ?_
    past := ⟨b, by rw [find?_putCore, if_neg (Ne.symm other), present], done⟩
    gone := by rw [find?_putCore, if_neg (Ne.symm other), matched.gone]
    others := fun i distinct => by rw [find?_putCore, find?_putCore, matched.others i distinct]
    calls := congrArg (· ++ a.core.awakened core) matched.calls }
  rw [find?_putCore] at at'
  split at at'
  · next own =>
    cases at'
    exact same.trans own.symm
  · exact matched.keyed at'

theorem changeCore (other : i ≠ id) (f : Core → Core) (same : ∀ c, (f c).id = c.id) :
    Matched id (x.changeCore i f) (y.changeCore i f) := by
  cases found : x.find? i with
  | none =>
    rw [changeCore_missing found, changeCore_missing ((matched.others i other).trans found)]
    exact matched
  | some a =>
    have name : a.id = i := matched.keyed found
    subst name
    rw [changeCore_found found, changeCore_found ((matched.others a.id other).trans found)]
    exact matched.putCore other (same a.core)

theorem isLive (i : Identity) : y.isLive i = x.isLive i := by
  unfold World.isLive
  by_cases own : i = id
  · subst own
    obtain ⟨a, found, done⟩ := matched.past
    obtain ⟨final, life⟩ := Core.isDone_iff.mp done
    rw [matched.gone, found, matched.stubs, matched.stubless]
    simp [Core.isLive, Core.phase, life, Life.phase, Phase.isLive]
  · rw [matched.others i own, matched.stubs]

theorem send (receiver : Identity) (message : Term) :
    Matched id (x.send receiver message) (y.send receiver message) := by
  unfold World.send
  by_cases own : receiver = id
  · subst own
    obtain ⟨a, found, done⟩ := matched.past
    rw [found, matched.gone, matched.stubs, matched.stubless]
    simp only [done, if_true, Option.isSome_none, Bool.false_eq_true, if_false]
    exact matched.emit ..
  · rw [matched.others receiver own, matched.stubs]
    cases found : x.find? receiver with
    | none =>
      dsimp only
      split
      · exact matched.note ..
      · exact matched.emit ..
    | some a =>
      dsimp only
      split
      · exact matched.emit ..
      · exact matched.changeCore own _ fun c => c.id_post message

end Matched

theorem Tallies.within {α : Type} {span : Span} {first second : World → Outcome α}
    (matched : Matched id x y)
    (inside : Tallies id (first (x.entering span)) (second (y.entering span))) :
    Tallies id (x.within span first) (y.within span second) := by
  cases result : first (x.entering span) with
  | ok answer v =>
    rw [result] at inside
    cases result' : second (y.entering span) with
    | ok answer' w =>
      rw [result'] at inside
      cases inside with
      | ok _ inside =>
        rw [within_ok result, within_ok result']
        exact .ok answer (matched.leaving inside)
    | error fault w =>
      rw [result'] at inside
      cases inside
  | error fault v =>
    rw [result] at inside
    cases result' : second (y.entering span) with
    | ok answer' w =>
      rw [result'] at inside
      cases inside
    | error fault' w =>
      rw [result'] at inside
      cases inside with
      | error _ inside =>
        rw [within_error result, within_error result']
        exact .error fault (matched.leaving inside)

def Matches (id : Identity) (R : Reaction) : Prop :=
  ∀ ⦃x y i⦄ sender reason, i ≠ id → Matched id x y → Tallies id (R i sender reason x) (R i sender reason y)

/-- Signals to an actor that is done are written of, and that is all. -/
theorem deliverWith_past (keyed : w.Keyed) (past : w.IsOver id) (sender : Identity) (reason : Exit) :
    ∃ records, deliverWith R w id sender reason = .ok () (w.rewritten records) := by
  obtain ⟨a, found, done⟩ := past
  have name : a.id = id := keyed found
  subst name
  unfold deliverWith
  rw [found]
  dsimp only [signalWith]
  cases a.screen sender reason with
  | ignoreSelf => exact ⟨_, rfl⟩
  | ignoreNormal => exact ⟨_, rfl⟩
  | trap trapped =>
    have dropped : (w.emit (.trapped a.id sender trapped)).send a.id (.exitMessage sender trapped)
        = (w.emit (.trapped a.id sender trapped)).emit (.messageToDone a.id) := by
      unfold send
      rw [find?_emit, found]
      exact if_pos done
    dsimp only
    rw [dropped]
    exact ⟨_, rfl⟩
  | forward converted =>
    dsimp only
    unfold forwardWith
    split
    · exact ⟨_, rfl⟩
    · have ignored : w.offer a.id sender converted
          = .ok false (((w.entering (.offer sender a.id)).emit .alreadyDone).leaving w) := by
        obtain ⟨final, life⟩ := Core.isDone_iff.mp done
        have answer : a.core.offer converted = .ok (.done, a.core) := by
          simp [Core.offer, life, Life.accept]
        unfold offer
        rw [within_ok (by simp only [(alike_entering ..).find?, found, answer]; rfl)]
      rw [ignored]
      exact ⟨_, rfl⟩

section Chain

variable (matched : Matched id x y)
include matched

theorem tallies_offer (other : i ≠ id) (sender : Identity) (reason : Exit) :
    Tallies id (x.offer i sender reason) (y.offer i sender reason) := by
  have entered := matched.entering (.offer sender i)
  refine .within matched ?_
  rw [entered.others i other]
  cases found : (x.entering (.offer sender i)).find? i with
  | none => exact .ok false entered
  | some a =>
    have name : a.id = i := matched.keyed found
    subst name
    dsimp only
    cases offered : a.core.offer reason with
    | error refusal => exact .error _ entered
    | ok answer =>
      obtain ⟨acceptance, core⟩ := answer
      cases acceptance with
      | accepted =>
        have same : core.id = a.id := by rw [(Core.offer_accepted.mp offered).2]; rfl
        exact .ok true ((entered.emit ..).putCore other same)
      | pending => exact .ok false (entered.emit ..)
      | done => exact .ok false (entered.emit ..)

variable (alike : Matches id R)
include alike

theorem tallies_forwardWith (other : i ≠ id) (sender : Identity) (reason : Exit) :
    Tallies id (forwardWith R x i sender reason) (forwardWith R y i sender reason) := by
  unfold forwardWith
  split
  · exact .ok () (matched.emit ..)
  · have offered := tallies_offer matched other sender reason
    revert offered
    generalize x.offer i sender reason = first
    generalize y.offer i sender reason = second
    intro offered
    cases offered with
    | error fault inside => exact .error fault inside
    | ok accepted inside =>
      cases accepted with
      | true => exact alike sender reason other inside
      | false => exact .ok () inside

theorem tallies_deliverWith (receiver sender : Identity) (reason : Exit) :
    Tallies id (deliverWith R x receiver sender reason) (deliverWith R y receiver sender reason) := by
  by_cases own : receiver = id
  · subst own
    obtain ⟨records, ignored⟩ := deliverWith_past (R := R) matched.keyed matched.past sender reason
    have gone : deliverWith R y receiver sender reason
        = .ok () (y.emit (.signalToGone receiver sender)) := by
      unfold deliverWith
      rw [matched.gone, matched.stubs, matched.stubless]
      rfl
    rw [ignored, gone]
    exact .ok () (matched.rewrite ..)
  · unfold deliverWith
    rw [matched.others receiver own, matched.stubs]
    cases found : x.find? receiver with
    | none =>
      dsimp only
      split
      · exact .ok () (matched.note ..)
      · exact .ok () (matched.emit ..)
    | some a =>
      have name : a.id = receiver := matched.keyed found
      subst name
      dsimp only [signalWith]
      cases a.screen sender reason with
      | ignoreSelf => exact .ok () (matched.emit ..)
      | ignoreNormal => exact .ok () (matched.emit ..)
      | trap trapped => exact .ok () ((matched.emit ..).send ..)
      | forward converted => exact tallies_forwardWith matched alike own sender converted

theorem tallies_broadcastWith (sender : Identity) (reason : Exit) (peers : List Identity) :
    Tallies id (broadcastWith R sender reason peers x) (broadcastWith R sender reason peers y) := by
  induction peers generalizing x y with
  | nil => exact .ok () matched
  | cons peer rest ih =>
    have first := tallies_deliverWith (matched.emit (.linkExit peer) (.linkExit peer)) alike peer sender
      reason
    unfold broadcastWith
    revert first
    generalize deliverWith R (x.emit (.linkExit peer)) peer sender reason = result
    generalize deliverWith R (y.emit (.linkExit peer)) peer sender reason = result'
    intro first
    cases first with
    | error fault inside => exact .error fault inside
    | ok answer inside => exact ih inside

theorem tallies_finishWith (other : i ≠ id) (reason : Exit) :
    Tallies id (finishWith R x i reason) (finishWith R y i reason) := by
  have entered := matched.entering (.termination i)
  refine .within matched ?_
  rw [entered.others i other]
  cases found : (x.entering (.termination i)).find? i with
  | none => exact .ok none entered
  | some a =>
    have name : a.id = i := matched.keyed found
    subst name
    dsimp only
    cases done : a.core.isDone with
    | true =>
      rw [Core.finish_done done]
      exact .ok none (entered.emit ..)
    | false =>
      rw [Core.finish_alive done]
      have finished : (a.core.ended reason).id = a.id := rfl
      have ended := (entered.putCore other finished).emit
        (.terminated (a.core.finalReason reason) a.core.links.members.length)
        (.terminated (a.core.finalReason reason) a.core.links.members.length)
      have told := tallies_broadcastWith ended alike a.id (a.core.finalReason reason)
        a.core.links.members
      dsimp only
      revert told
      generalize broadcastWith R a.id _ _ (((x.entering _).putCore a _).emit _) = first
      generalize broadcastWith R a.id _ _ (((y.entering _).putCore a _).emit _) = second
      intro told
      cases told with
      | error fault inside => exact .error fault inside
      | ok answer inside => exact .ok _ inside

theorem tallies_runHook (hook : Hook) (other : i ≠ id) (sender : Identity) (reason : Exit) :
    Tallies id (runHook R hook i sender reason x) (runHook R hook i sender reason y) := by
  unfold runHook
  rw [matched.others i other]
  generalize ((x.find? i).map (·.core.phase)).getD .done = phase
  have noted := matched.note i (.hook sender reason phase)
  cases hook with
  | record => exact .ok () noted
  | raise => exact .error _ noted
  | terminate last =>
    have ended := tallies_finishWith noted alike other last
    dsimp only
    revert ended
    generalize finishWith R (x.note i (.hook sender reason phase)) i last = first
    generalize finishWith R (y.note i (.hook sender reason phase)) i last = second
    intro ended
    cases ended with
    | error fault inside => exact .error fault inside
    | ok final inside => exact .ok () (inside.note ..)
  | reply answer => exact tallies_deliverWith noted alike sender i answer
  | send => exact .ok () (noted.send ..)
  | unlink => exact .ok () (noted.changeCore other (·.eraseLink sender) fun _ => rfl)

end Chain

/-- However deep the reactions go, whether an actor is done or gone makes no difference to them. -/
theorem matches_react (id : Identity) (depth : Nat) : Matches id (react depth) := by
  induction depth with
  | zero =>
    intro x y i sender reason other matched
    unfold react
    rw [matched.others i other]
    cases x.find? i with
    | none => exact .ok () matched
    | some a =>
      dsimp only
      split
      · exact .ok () (matched.emit ..)
      · exact .ok () (matched.emit ..)
      · exact .ok () matched
      · next absurd => cases absurd
  | succ depth ih =>
    intro x y i sender reason other matched
    unfold react
    rw [matched.others i other]
    cases x.find? i with
    | none => exact .ok () matched
    | some a =>
      dsimp only
      split
      · exact .ok () (matched.emit ..)
      · exact .ok () (matched.emit ..)
      · next absurd => cases absurd
      · next hook depth' role less =>
        cases less
        exact tallies_runHook matched ih hook other sender reason

section Answers

variable (matched : Matched id x y)
include matched

theorem Matched.keyed' : y.Keyed := by
  intro i a found
  by_cases own : i = id
  · subst own
    cases matched.gone.symm.trans found
  · exact matched.keyed ((matched.others i own).symm.trans found)

theorem tallies_deliver (receiver sender : Identity) (reason : Exit) :
    Tallies id (x.deliver receiver sender reason) (y.deliver receiver sender reason) := by
  rw [← deliverWith_eq matched.keyed (le_max_left x.running y.running),
    ← deliverWith_eq matched.keyed' (le_max_right x.running y.running)]
  exact tallies_deliverWith matched (matches_react id _) receiver sender reason

theorem tallies_forward (other : i ≠ id) (sender : Identity) (reason : Exit) :
    Tallies id (x.forward i sender reason) (y.forward i sender reason) := by
  have first : forwardWith (react (max x.running y.running)) x i sender reason
      = x.forward i sender reason :=
    forwardWith_agree (agree_react (le_max_left ..) le_rfl) matched.keyed le_rfl ..
  have second : forwardWith (react (max x.running y.running)) y i sender reason
      = y.forward i sender reason :=
    forwardWith_agree (agree_react (le_max_right ..) le_rfl) matched.keyed' le_rfl ..
  rw [← first, ← second]
  exact tallies_forwardWith matched (matches_react id _) other sender reason

theorem tallies_terminate (other : i ≠ id) (reason : Exit) :
    Tallies id (x.terminate i reason) (y.terminate i reason) := by
  have first : finishWith (react (max x.running y.running)) x i reason = x.terminate i reason :=
    finishWith_agree (agree_react (le_max_left ..) le_rfl) matched.keyed le_rfl
      (reacts_react (le_max_left ..)) ..
  have second : finishWith (react (max x.running y.running)) y i reason = y.terminate i reason :=
    finishWith_agree (agree_react (le_max_right ..) le_rfl) matched.keyed' le_rfl
      (reacts_react (le_max_right ..)) ..
  rw [← first, ← second]
  exact tallies_finishWith matched (matches_react id _) other reason

theorem tallies_start (other : i ≠ id) : Tallies id (x.start i) (y.start i) := by
  unfold start
  rw [matched.others i other]
  cases found : x.find? i with
  | none => exact .ok () matched
  | some a =>
    have name : a.id = i := matched.keyed found
    subst name
    dsimp only
    cases started : a.core.start with
    | error refusal => exact .error _ matched
    | ok core => exact .ok () (matched.putCore other (Core.id_start started))

/-- Links of others answer the same, also those to the actor that is done or gone. -/
theorem Matched.recordLink (other : i ≠ id) (peer : Identity) :
    (y.recordLink i peer).1 = (x.recordLink i peer).1 ∧
      Matched id (x.recordLink i peer).2 (y.recordLink i peer).2 := by
  unfold World.recordLink
  rw [matched.isLive, matched.others i other]
  split
  · exact ⟨rfl, matched⟩
  · split
    · exact ⟨rfl, matched.emit ..⟩
    · split
      · exact ⟨rfl, matched⟩
      · split
        · exact ⟨rfl, matched.emit ..⟩
        · exact ⟨rfl, matched.changeCore other (·.insertLink peer) fun _ => rfl⟩

/-- Of the actor itself nothing is recorded. -/
theorem Matched.linkThrough (handle peer : Identity) :
    (handle ≠ id ∨ peer ≠ id → (y.linkThrough handle peer).1 = (x.linkThrough handle peer).1) ∧
      Matched id (x.linkThrough handle peer).2 (y.linkThrough handle peer).2 := by
  by_cases own : handle = id
  · subst own
    obtain ⟨a, found, done⟩ := matched.past
    have refused : y.linkThrough handle peer = (.error .noproc, y) := by
      simp [World.linkThrough, isAllocated, matched.gone, matched.stubs, matched.stubless]
    rw [refused, linkThrough_found found, World.recordLink]
    by_cases same : peer = handle
    · rw [if_pos same]
      exact ⟨fun other => absurd same (other.resolve_left (· rfl)), matched⟩
    · have idle (event : Event) : Matched handle (x.emit event) y :=
        matched.rewrite _ y.journal.records
      rw [if_neg same, found]
      simp only [done, if_true]
      split
      · exact ⟨fun _ => rfl, idle _⟩
      · exact ⟨fun _ => rfl, idle _⟩
  · unfold World.linkThrough
    rw [isAllocated, isAllocated, matched.others handle own, matched.stubs]
    split
    · obtain ⟨answer, recorded⟩ := matched.recordLink own peer
      exact ⟨fun _ => answer, recorded⟩
    · split
      · exact ⟨fun _ => rfl, matched⟩
      · exact ⟨fun _ => rfl, matched.note ..⟩

theorem Matched.link (other : i ≠ id) (peer : Identity) :
    (y.link i peer).1 = (x.link i peer).1 ∧ Matched id (x.link i peer).2 (y.link i peer).2 := by
  obtain ⟨answer, recorded⟩ := matched.recordLink other peer
  unfold World.link
  revert answer recorded
  generalize x.recordLink i peer = first
  generalize y.recordLink i peer = second
  intro answer recorded
  obtain ⟨_ | _, v⟩ := first <;> obtain ⟨_ | _, w⟩ := second <;> cases answer
  · exact ⟨rfl, recorded⟩
  · obtain ⟨answer, linked⟩ := recorded.linkThrough peer i
    exact ⟨answer (.inr other), linked⟩

theorem Matched.setRole (other : i ≠ id) (role : Role) :
    Matched id (x.setRole i role) (y.setRole i role) := by
  cases found : x.find? i with
  | none =>
    unfold World.setRole
    rw [matched.others i other, found]
    exact matched
  | some a =>
    have found' : y.find? i = some a := (matched.others i other).trans found
    obtain ⟨b, present, done⟩ := matched.past
    refine ⟨keyed_setRole matched.keyed found role,
      ⟨b, by rw [find?_setRole found, if_neg (Ne.symm other), present], done⟩,
      by rw [find?_setRole found', if_neg (Ne.symm other), matched.gone], fun j distinct => ?_, ?_, ?_,
      ?_, ?_, ?_, ?_⟩
    · rw [find?_setRole found, find?_setRole found', matched.others j distinct]
    all_goals simp only [World.setRole, found, found']
    · exact matched.stubless
    · exact matched.stubs
    · exact matched.serial
    · exact matched.calls
    · exact matched.notes
    · exact matched.spans

theorem Matched.setFlags (other : i ≠ id) (flags : Flags) :
    Matched id (x.setFlags i flags) (y.setFlags i flags) := by
  unfold World.setFlags
  rw [matched.others i other]
  split
  · exact matched
  · exact matched.setRole other _

theorem Matched.operate {op : Operation} (handled : (Action.operate i op).byHandle id = true) :
    Matched id (x.operate i op) (y.operate i op) := by
  cases op with
  | signal sender reason => exact (tallies_deliver matched i sender reason).matched
  | send message => exact matched.send i message
  | record peer => exact (matched.linkThrough i peer).2
  | start => exact (tallies_start matched (by simpa [Action.byHandle] using handled)).matched
  | forward sender reason =>
    exact (tallies_forward matched (by simpa [Action.byHandle] using handled) sender reason).matched
  | terminate reason =>
    exact (tallies_terminate matched (by simpa [Action.byHandle] using handled) reason).matched
  | link peer => exact (matched.link (by simpa [Action.byHandle] using handled) peer).2
  | unlink peer =>
    exact matched.changeCore (by simpa [Action.byHandle] using handled) (·.eraseLink peer)
      fun _ => rfl
  | poll errand sleeper ticket =>
    exact matched.changeCore (by simpa [Action.byHandle] using handled) _
      fun c => (c.waited_polled ..).id
  | cancel bell ticket =>
    exact matched.changeCore (by simpa [Action.byHandle] using handled) _
      fun c => (c.waited_cancel bell ticket).id
  | setFlags flags => exact matched.setFlags (by simpa [Action.byHandle] using handled) flags

theorem Matched.setStub (i : Identity) (isLive : Bool) :
    Matched id (x.setStub i isLive) (y.setStub i isLive) := by
  unfold World.setStub
  rw [matched.stubs]
  split
  · exact matched
  · next stub known =>
    refine { matched with
      stubless := (Registry.find?_put ..).trans ?_
      stubs := rfl }
    rw [if_neg, matched.stubless]
    rintro rfl
    cases matched.stubless.symm.trans known

theorem Matched.free (other : i ≠ id) : Matched id (x.free i) (y.free i) := by
  obtain ⟨b, present, done⟩ := matched.past
  refine { matched with
    keyed := keyed_act matched.keyed (.free i)
    past := ⟨b, by rw [find?_free, if_neg (Ne.symm other), present], done⟩
    gone := by rw [find?_free, matched.gone, ite_self]
    others := fun j distinct => by rw [find?_free, find?_free, matched.others j distinct] }

variable (gave : x.Gave id) (room : x.serial ≤ Identity.maxSerial)
include gave room

theorem Matched.allocate (tag : Tag) (role : Role) :
    Matched id (x.allocate tag role).2 (y.allocate tag role).2 := by
  obtain ⟨b, present, done⟩ := matched.past
  have new : id ≠ .ofSerial x.serial tag := gave.different room tag
  refine { matched with
    keyed := fun j c at' => ?_
    past := ⟨b, by rw [find?_allocate, if_neg new, present], done⟩
    gone := by rw [find?_allocate, matched.serial, if_neg new, matched.gone]
    others := fun j distinct => by
      rw [find?_allocate, find?_allocate, matched.serial, matched.others j distinct]
    serial := congrArg (· + 1) matched.serial }
  rw [find?_allocate] at at'
  split at at'
  · next own =>
    cases at'
    exact own.symm
  · exact matched.keyed at'

theorem Matched.allocateStub (tag : Tag) (stub : Stub) :
    Matched id (x.allocateStub tag stub).2 (y.allocateStub tag stub).2 := by
  have new : id ≠ .ofSerial x.serial tag := gave.different room tag
  exact { matched with
    stubless := by
      rw [World.allocateStub, Registry.find?_put, if_neg new, matched.stubless]
    stubs := by simp only [World.allocateStub, matched.stubs, matched.serial]
    serial := congrArg (· + 1) matched.serial }

end Answers

/-- Whatever is done by handle in worlds that match leaves worlds that match. -/
theorem Matched.act (matched : Matched id x y) (gave : x.Gave id) {action : Action}
    (handled : action.byHandle id = true) : Matched id (x.act action) (y.act action) := by
  cases action with
  | allocate tag role =>
    rw [World.act, World.act, world_issue, world_issue, matched.serial]
    split
    · next room => exact matched.allocate gave room tag role
    · exact matched
  | allocateStub tag stub =>
    rw [World.act, World.act, world_issue, world_issue, matched.serial]
    split
    · next room => exact matched.allocateStub gave room tag stub
    · exact matched
  | setStub other isLive => exact matched.setStub other isLive
  | free other => exact matched.free (by simpa [Action.byHandle] using handled)
  | operate other op => exact matched.operate handled

theorem Matched.run (matched : Matched id x y) (gave : x.Gave id) {actions : List Action}
    (handled : ∀ action ∈ actions, action.byHandle id = true) :
    Matched id (x.run actions) (y.run actions) := by
  induction actions generalizing x y with
  | nil => exact matched
  | cons action rest ih =>
    obtain ⟨first, later⟩ := List.forall_mem_cons.mp handled
    exact ih (matched.act gave first) (gave.act matched.keyed action) later

structure Parted (w : World) : Prop where
  given : ∀ ⦃i stub⦄, w.stubs.find? i = some stub → w.Gave i
  stubless : ∀ ⦃i a⦄, w.find? i = some a → w.stubs.find? i = none

section Parting

variable (parted : w.Parted)
include parted

/-- Where no actor and no stub is new, they stay apart. -/
theorem Parted.kept (rooted : w.Rooted) {action : Action} (stubs : (w.act action).stubs = w.stubs)
    (old : ∀ i, w.find? i = none → (w.act action).find? i = none) : (w.act action).Parted := by
  refine ⟨fun i stub known => (parted.given (stubs ▸ known)).act rooted.keyed action,
    fun i a found => ?_⟩
  rw [stubs]
  cases present : w.find? i with
  | none => cases (old i present).symm.trans found
  | some b => exact parted.stubless present

theorem Parted.allocate (room : w.serial ≤ Identity.maxSerial) (tag : Tag) (role : Role) :
    (w.allocate tag role).2.Parted := by
  refine ⟨fun i stub known => (parted.given known).mono (Nat.le_succ _), fun i a found => ?_⟩
  rw [find?_allocate] at found
  split at found
  · next new =>
    cases known : w.stubs.find? i with
    | none => exact known
    | some stub => exact absurd new ((parted.given known).different room tag)
  · exact parted.stubless found

theorem Parted.allocateStub (rooted : w.Rooted) (room : w.serial ≤ Identity.maxSerial) (tag : Tag)
    (stub : Stub) : (w.allocateStub tag stub).2.Parted := by
  have stubs (i : Identity) : (w.allocateStub tag stub).2.stubs.find? i
      = if i = .ofSerial w.serial tag then some stub else w.stubs.find? i := Registry.find?_put ..
  refine ⟨fun i other known => ?_, fun i a found => ?_⟩
  · rw [stubs] at known
    split at known
    · next new => exact ⟨w.serial, Nat.lt_succ_self _, tag, new⟩
    · exact (parted.given known).mono (Nat.le_succ _)
  · have gave : w.Gave i := rooted.given found
    rw [stubs, if_neg (gave.different room tag)]
    exact parted.stubless found

theorem Parted.setStub (other : Identity) (isLive : Bool) : (w.setStub other isLive).Parted := by
  unfold World.setStub
  split
  · exact parted
  · next stub known =>
    have stubs (i : Identity) : (w.stubs.put other { stub with isLive }).find? i
        = if i = other then some { stub with isLive } else w.stubs.find? i := Registry.find?_put ..
    refine ⟨fun i old known' => ?_, fun i a found => ?_⟩
    · rw [stubs] at known'
      split at known'
      · next own =>
        subst own
        exact parted.given known
      · exact parted.given known'
    · rw [stubs, if_neg, parted.stubless found]
      rintro rfl
      cases (parted.stubless found).symm.trans known

theorem Parted.act (rooted : w.Rooted) (action : Action) : (w.act action).Parted := by
  cases action with
  | allocate tag role =>
    rw [World.act, world_issue]
    split
    · next room => exact parted.allocate room tag role
    · exact parted
  | allocateStub tag stub =>
    rw [World.act, world_issue]
    split
    · next room => exact parted.allocateStub rooted room tag stub
    · exact parted
  | setStub other isLive => exact parted.setStub other isLive
  | free other =>
    exact parted.kept rooted rfl fun i missing => by rw [World.act, find?_free, missing, ite_self]
  | operate other op =>
    exact parted.kept rooted (stubs_operate rooted.keyed other op)
      (peopled_operate rooted.keyed other op).missing

end Parting

theorem Course.parted {trace : List Moment} (course : Course {} trace w) : w.Parted := by
  induction course with
  | refl => exact ⟨fun _ _ known => (by cases known), fun _ _ found => by cases found⟩
  | act earlier action ih => exact ih.act (earlier.rooted rooted_empty) action
  | drift earlier calls journal ih => exact ⟨ih.given, ih.stubless⟩

theorem matched_free (keyed : w.Keyed) (past : w.IsOver id) (stubless : w.stubs.find? id = none) :
    Matched id w (w.free id) :=
  ⟨keyed, past, by rw [find?_free, if_pos rfl],
    fun i other => by rw [find?_free, if_neg other], stubless, rfl, rfl, rfl, rfl, rfl⟩

/-- Whether an actor that is done has been freed or not makes no difference to the others, whatever is
done to them and, through handles, to it: all else stays the same, records apart, and every operation
answers the same, but that an actor which is done takes a link to itself that a handle to one which is
gone refuses. -/
theorem gone_like_done {trace : List Moment} (reached : Course {} trace w)
    (found : w.find? id = some a) (done : a.core.isDone = true) {actions : List Action}
    (handled : ∀ action ∈ actions, action.byHandle id = true) :
    let x := w.run actions
    let y := (w.free id).run actions
    Matched id x y ∧ (∀ i, y.isLive i = x.isLive i) ∧
    (∀ receiver sender reason,
      Tallies id (x.deliver receiver sender reason) (y.deliver receiver sender reason)) ∧
    (∀ sender reason, ∃ records, x.deliver id sender reason = .ok () (x.rewritten records)) ∧
    (∀ i, i ≠ id → ∀ reason, Tallies id (x.terminate i reason) (y.terminate i reason)) ∧
    (∀ i, i ≠ id → ∀ peer, (y.link i peer).1 = (x.link i peer).1) ∧
    (∀ handle peer, handle ≠ id ∨ peer ≠ id →
      (y.linkThrough handle peer).1 = (x.linkThrough handle peer).1) ∧
    x.linkThrough id id = (.ok (), x) ∧ y.linkThrough id id = (.error .noproc, y) := by
  intro x y
  have rooted := reached.rooted rooted_empty
  have matched : Matched id x y := (matched_free rooted.keyed ⟨a, found, done⟩
    (reached.parted.stubless found)).run (rooted.given found) handled
  obtain ⟨b, present, -⟩ := matched.past
  refine ⟨matched, matched.isLive, tallies_deliver matched,
    deliverWith_past matched.keyed matched.past, fun i other => tallies_terminate matched other,
    fun i other peer => (matched.link other peer).1,
    fun handle peer => (matched.linkThrough handle peer).1, ?_, ?_⟩
  · rw [linkThrough_found present, recordLink, if_pos rfl]
  · simp [linkThrough, isAllocated, matched.gone, matched.stubs, matched.stubless]

/-- A process has crashed. A second one is linked to it still, and a third one is not. -/
def crashed : World :=
  let id (serial : Nat) : Identity := .ofSerial serial .process
  run {} [.allocate .process (.process .empty), .allocate .process (.process .trap),
    .allocate .process (.process .empty), .operate (id 1) .start, .operate (id 2) .start,
    .operate (id 3) .start, .operate (id 2) (.link (id 1)),
    .operate (id 1) (.terminate (.atom ⟨"crash"⟩))]

def inquiries : List Action :=
  let id (serial : Nat) : Identity := .ofSerial serial .process
  [.operate (id 1) (.send (.str "late")), .operate (id 1) (.signal (id 3) .kill),
    .operate (id 1) (.record (id 3)), .operate (id 3) (.link (id 1)),
    .operate (id 2) (.terminate .normal)]

/-- What is asked of the crashed process is answered alike once it is freed, and the worlds still
match. -/
theorem crashed_like_gone :
    let id (serial : Nat) : Identity := .ofSerial serial .process
    (∃ a, crashed.find? (id 1) = some a ∧ a.core.life = .done (.atom ⟨"crash"⟩)) ∧
    (∀ action ∈ inquiries, action.byHandle (id 1) = true) ∧
    Matched (id 1) (crashed.run inquiries) ((crashed.free (id 1)).run inquiries) ∧
    (((crashed.free (id 1)).run inquiries).link (id 3) (id 1)).1
      = ((crashed.run inquiries).link (id 3) (id 1)).1 := by
  intro id
  have handled : ∀ action ∈ inquiries, action.byHandle (id 1) = true := by decide +kernel
  obtain ⟨a, found, life⟩ : ∃ a, crashed.find? (id 1) = some a ∧
    a.core.life = .done (.atom ⟨"crash"⟩) := ⟨_, rfl, rfl⟩
  obtain ⟨matched, -, -, -, -, links, -⟩ := gone_like_done (course_run {} _ : Course {} _ crashed) found
    (Core.isDone_iff.mpr ⟨_, life⟩) handled
  exact ⟨⟨a, found, life⟩, handled, matched, links (id 3) (by decide) (id 1)⟩

/-- A link to itself through its handle tells whether an actor that is done has been freed. -/
theorem selfLink_tells_gone :
    let id : Identity := .ofSerial 1 .process
    (∃ a, crashed.find? id = some a ∧ a.core.isDone = true) ∧
    (crashed.linkThrough id id).1 = .ok () ∧
    ((crashed.free id).linkThrough id id).1 = .error .noproc := ⟨⟨_, rfl, rfl⟩, rfl, rfl⟩

end World

end Actors
