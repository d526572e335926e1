import Actors.Proofs.Treatment

/-! Finality. An actor that is done has its last reason on record, no messages and no links, and
nothing that happens later changes any of it. It reacts to no signal any more, and no record is
written that names it as the sender of one. -/
namespace Actors

/-- The sender of the exit signal that a record tells of: the event names it, or the span does that
the event is part of. -/
def Record.sender? (record : Record) : Option Identity :=
  match record.event, record.spans.getLast? with
  | .ownSignal sender, _ | .normalIgnored _ sender, _ | .trapped _ sender _, _
  | .signalToGone _ sender, _ | .processExiting _ sender _, _ | .portClosing _ _ sender _, _ =>
    some sender
  | .exitAccepted, some (.offer sender _) | .exitPending, some (.offer sender _)
  | .alreadyDone, some (.offer sender _) | .linkExit _, some (.termination sender) => some sender
  | _, _ => none

def Note.sender? : Note → Option Identity
  | .hook sender _ _ | .stubSignal sender _ => some sender
  | _ => none

def Action.isSignalOf (id : Identity) : Action → Bool
  | .operate _ (.signal sender _) | .operate _ (.forward sender _) => sender = id
  | _ => false

theorem Actor.own_of_ignored {a : Actor} {sender : Identity} {reason : Exit}
    (ignored : a.screen sender reason = .ignoreSelf) : sender = a.id := by
  unfold screen Role.screen at ignored
  cases role : a.role with
  | process flags =>
    simp only [role] at ignored
    split_ifs at ignored with own
    exact own
  | port name owner =>
    simp only [role] at ignored
    split_ifs at ignored
  | plain hook => simp [role] at ignored

namespace Core

def Emptied (c : Core) : Prop := c.isDone = true → c.mailbox.queue = [] ∧ c.links = {}

variable {c core : Core} {may : Core → Stroke → Prop}

theorem Struck.emptied (struck : Struck may c core) (emptied : c.Emptied) : core.Emptied := by
  apply struck.keeps emptied
  intro core stroke held suffers allowed done
  cases stroke with
  | start => cases done
  | accept sender reason => cases done
  | finish reason => exact ⟨rfl, rfl⟩
  | post message => cases done.symm.trans suffers
  | join peer => cases done.symm.trans suffers
  | part peer =>
    obtain ⟨queue, links⟩ := held done
    exact ⟨queue, by rw [Core.struck, eraseLink, links]; rfl⟩

theorem Waited.emptied (waited : Waited c core) (queue : core.mailbox.queue <:+ c.mailbox.queue)
    (emptied : c.Emptied) : core.Emptied := by
  intro done
  obtain ⟨none, links⟩ := emptied ((isDone_of_life waited.life).symm.trans done)
  exact ⟨List.suffix_nil.mp (none ▸ queue), waited.links.trans links⟩

end Core

namespace World

variable {w v u : World} {id i : Identity} {a b : Actor} {R : Reaction} {trace : List Moment}

def sent (w : World) (id : Identity) : Nat :=
  w.journal.records.countP (·.sender? = some id) + w.journal.notes.countP (·.2.sender? = some id)

structure Silent (id : Identity) (w v : World) : Prop where
  strikes : Strikes (fun _ _ _ => True) w v
  spans : v.journal.spans = w.journal.spans
  reactions : v.reactions id = w.reactions id
  sent : v.sent id = w.sent id

namespace Silent

theorem refl (w : World) : Silent id w w := ⟨.refl w, rfl, rfl, rfl⟩

theorem trans (first : Silent id w v) (second : Silent id v u) : Silent id w u :=
  ⟨first.strikes.trans second.strikes, second.spans.trans first.spans,
    second.reactions.trans first.reactions, second.sent.trans first.sent⟩

theorem emit (event : Event) (idle : event.reactionOf id = none)
    (mute : (⟨w.journal.spans, event⟩ : Record).sender? ≠ some id) :
    Silent id w (w.emit event) :=
  ⟨.emit w event, rfl, by simp [reactions_emit, idle],
    by simp [World.sent, World.emit, Journal.emit, List.countP_append, mute]⟩

theorem note (j : Identity) (note : Note) (idle : Note.reactionOf id (j, note) = none)
    (mute : note.sender? ≠ some id) : Silent id w (w.note j note) :=
  ⟨.note w j note, rfl, by simp [reactions_note, idle],
    by simp [World.sent, World.note, Journal.note, List.countP_append, mute]⟩

theorem putCore (found : w.find? a.id = some a) (stroke : Stroke)
    (suffers : a.core.Suffers stroke) : Silent id w (w.putCore a (a.core.struck stroke)) :=
  ⟨.of_strike (.strike found suffers trivial), rfl, rfl, rfl⟩

theorem changeCore (keyed : w.Keyed) (found : w.find? i = some a) (f : Core → Core)
    (stroke : Stroke) (struck : f a.core = a.core.struck stroke) (suffers : a.core.Suffers stroke) :
    Silent id w (w.changeCore i f) := by
  have name : a.id = i := keyed found
  rw [changeCore_found found, struck]
  exact .putCore (name ▸ found) stroke suffers

theorem within {α : Type} {span : Span} {work : World → Outcome α}
    (inside : Silent id (w.entering span) (work (w.entering span)).world) :
    Silent id w (w.within span work).world :=
  ⟨strikes_within inside.strikes, by rw [world_within]; rfl,
    by rw [world_within]; exact inside.reactions, by rw [world_within]; exact inside.sent⟩

end Silent

theorem silent_send (keyed : w.Keyed) (receiver : Identity) (message : Term) :
    Silent id w (w.send receiver message) := by
  unfold send
  cases found : w.find? receiver with
  | none =>
    dsimp only
    split
    · exact .note _ _ rfl (by simp [Note.sender?])
    · exact .emit _ rfl (by simp [Record.sender?])
  | some a =>
    dsimp only
    split
    · exact .emit _ rfl (by simp [Record.sender?])
    · next alive =>
      have alive : a.core.isDone = false := Bool.eq_false_of_not_eq_true alive
      exact .changeCore keyed found _ (.post message) (Core.post_struck alive message) alive

/-- Whether the offer of a signal is accepted or not, it is the sender that is named. -/
theorem silent_offer (keyed : w.Keyed) {sender : Identity} (other : sender ≠ id) (reason : Exit) :
    Silent id w (w.offer i sender reason).world := by
  have named (event : Event) (idle : event.reactionOf id = none)
      (offers : ∀ spans, (⟨spans ++ [.offer sender i], event⟩ : Record).sender? = some sender) :
      Silent id (w.entering (.offer sender i)) ((w.entering (.offer sender i)).emit event) :=
    .emit event idle (by simpa [entering, Journal.enter, offers] using other)
  refine .within ?_
  cases found : (w.entering (.offer sender i)).find? i with
  | none => exact .refl _
  | some a =>
    have name : a.id = i := keyed found
    subst name
    dsimp only
    cases offered : a.core.offer reason with
    | error e => exact .refl _
    | ok answer =>
      obtain ⟨acceptance, core⟩ := answer
      cases acceptance with
      | accepted =>
        obtain ⟨runs, rfl⟩ := Core.offer_accepted.mp offered
        have present : ((w.entering (.offer sender a.id)).emit .exitAccepted).find? a.id = some a :=
          found
        exact (named .exitAccepted rfl (by simp [Record.sender?])).trans
          (.putCore present (.accept sender reason) runs)
      | pending => exact named .exitPending rfl (by simp [Record.sender?])
      | done => exact named .alreadyDone rfl (by simp [Record.sender?])

def Silences (id : Identity) (R : Reaction) : Prop :=
  ∀ ⦃w i a⦄ sender reason, w.Keyed → w.IsOver id → w.find? i = some a → i ≠ id → sender ≠ id →
    Silent id w (R i sender reason w).world

theorem IsOver.other (past : w.IsOver id) (found : w.find? i = some a)
    (alive : a.core.isDone = false) : i ≠ id := by
  rintro rfl
  obtain ⟨b, present, done⟩ := past
  cases present.symm.trans found
  cases alive.symm.trans done

section Chain

variable (silences : Silences id R) (keyed : w.Keyed) (past : w.IsOver id)
include silences keyed past

theorem silent_forwardWith (i : Identity) {sender : Identity} (other : sender ≠ id)
    (reason : Exit) : Silent id w (forwardWith R w i sender reason).world := by
  unfold forwardWith
  split
  · next own =>
    refine .emit _ rfl ?_
    simpa [Record.sender?, ← own] using other
  · have silent : Silent id w (w.offer i sender reason).world := silent_offer keyed other reason
    have outcome := offered keyed i sender reason
    revert silent outcome
    generalize w.offer i sender reason = result
    intro silent outcome
    cases outcome with
    | gone missing alike => exact silent
    | refused found unborn alike => exact silent
    | ignored found surfaced alike => exact silent
    | @accepted v a core found accepted replaces same =>
      have name : a.id = i := keyed found
      subst name
      exact silent.trans (silences sender reason (silent.strikes.keyed keyed)
        (past.strikes silent.strikes) ((replaces.find? a.id).trans (if_pos rfl))
        (past.other found replaces.alive) other)

theorem silent_deliverWith (receiver : Identity) {sender : Identity} (other : sender ≠ id)
    (reason : Exit) : Silent id w (deliverWith R w receiver sender reason).world := by
  unfold deliverWith
  cases found : w.find? receiver with
  | none =>
    dsimp only
    split
    · exact .note _ _ rfl (by simpa [Note.sender?] using other)
    · exact .emit _ rfl (by simpa [Record.sender?] using other)
  | some a =>
    dsimp only [signalWith]
    cases screened : a.screen sender reason with
    | ignoreSelf =>
      have own : sender = a.id := Actor.own_of_ignored screened
      exact .emit _ rfl (by simpa [Record.sender?, ← own] using other)
    | ignoreNormal => exact .emit _ rfl (by simpa [Record.sender?] using other)
    | trap trapped =>
      have told : Silent id w (w.emit (.trapped a.id sender trapped)) :=
        .emit _ rfl (by simpa [Record.sender?] using other)
      exact told.trans (silent_send (told.strikes.keyed keyed) a.id _)
    | forward converted => exact silent_forwardWith silences keyed past a.id other converted

theorem silent_broadcastWith {sender : Identity} (other : sender ≠ id) (reason : Exit)
    (peers : List Identity)
    (ending : w.journal.spans.getLast? = some (.termination sender)) :
    Silent id w (broadcastWith R sender reason peers w).world := by
  induction peers generalizing w with
  | nil => exact .refl w
  | cons peer rest ih =>
    have told : Silent id w (w.emit (.linkExit peer)) :=
      .emit _ rfl (by simpa [Record.sender?, ending] using other)
    have first := told.trans (silent_deliverWith silences (told.strikes.keyed keyed)
      (past.strikes told.strikes) peer other reason)
    unfold broadcastWith
    revert first
    generalize deliverWith R (w.emit (.linkExit peer)) peer sender reason = result
    intro first
    cases result with
    | error fault v => exact first
    | ok answer v =>
      exact first.trans (ih (first.strikes.keyed keyed) (past.strikes first.strikes)
        (first.spans ▸ ending))

theorem silent_finishWith (i : Identity) (reason : Exit) :
    Silent id w (finishWith R w i reason).world := by
  have entered : Silent id (w.entering (.termination i)) (w.entering (.termination i)) := .refl _
  cases found : w.find? i with
  | none =>
    rw [finishWith_gone found]
    exact ⟨(Strikes.write w _).trans (.write _ _), rfl, rfl, rfl⟩
  | some a =>
    cases finished : a.core.isDone with
    | true =>
      have told : Silent id (w.entering (.termination i))
          ((w.entering (.termination i)).emit .alreadyDone) :=
        .emit _ rfl (by simp [Record.sender?, entering, Journal.enter])
      rw [finishWith_done found finished]
      exact ⟨(Strikes.write w _).trans (told.strikes.trans (.write _ _)), rfl, told.reactions,
        told.sent⟩
    | false =>
      have name : a.id = i := keyed found
      subst name
      have other := past.other found finished
      have strikes : Strikes (fun _ _ _ => True) w (w.ended a reason) :=
        strikes_ended found finished fun _ => trivial
      have told := silent_broadcastWith silences (strikes.keyed keyed) (past.strikes strikes) other
        (a.core.finalReason reason) a.core.links.members
        (by simp [ended, World.emit, Journal.emit, putCore, entering, Journal.enter])
      have noted : Silent id ((w.entering (.termination a.id)).putCore a (a.core.ended reason))
          (w.ended a reason) := .emit _ rfl (by simp [Record.sender?])
      rw [finishWith_alive keyed found finished, Outcome.world_concluding]
      exact ⟨strikes.trans (told.strikes.trans (.write _ _)), rfl,
        told.reactions.trans noted.reactions, told.sent.trans noted.sent⟩

theorem silent_runHook (found : w.find? i = some a) (hook : Hook) (distinct : i ≠ id)
    {sender : Identity} (other : sender ≠ id) (reason : Exit) :
    Silent id w (runHook R hook i sender reason w).world := by
  let phase := ((w.find? i).map (·.core.phase)).getD .done
  have noted : Silent id w (w.note i (.hook sender reason phase)) :=
    .note _ _ (by simp [Note.reactionOf, distinct]) (by simpa [Note.sender?] using other)
  have keyed' := noted.strikes.keyed keyed
  have past' := past.strikes noted.strikes
  cases hook with
  | record => exact noted
  | raise => exact noted
  | terminate last =>
    have ended := noted.trans (silent_finishWith silences keyed' past' i last)
    unfold runHook
    revert ended
    dsimp only
    generalize finishWith R _ i last = result
    intro ended
    cases result with
    | error fault v => exact ended
    | ok final v => exact ended.trans (.note _ _ rfl (by simp [Note.sender?]))
  | reply answer => exact noted.trans (silent_deliverWith silences keyed' past' sender distinct answer)
  | send => exact noted.trans (silent_send keyed' sender _)
  | unlink =>
    exact noted.trans (.changeCore keyed' found (·.eraseLink sender) (.part sender) rfl trivial)

end Chain

/-- An actor that is done stays silent, however deep the others react to one another. -/
theorem silences_react (id : Identity) (depth : Nat) : Silences id (react depth) := by
  induction depth with
  | zero =>
    intro w i a sender reason keyed past found distinct other
    unfold react
    rw [found]
    dsimp only
    split
    · exact .emit _ (by simp [Event.reactionOf, distinct]) (by simpa [Record.sender?] using other)
    · exact .emit _ (by simp [Event.reactionOf, distinct]) (by simpa [Record.sender?] using other)
    · exact .refl _
    · next absurd => cases absurd
  | succ depth ih =>
    intro w i a sender reason keyed past found distinct other
    unfold react
    rw [found]
    dsimp only
    split
    · exact .emit _ (by simp [Event.reactionOf, distinct]) (by simpa [Record.sender?] using other)
    · exact .emit _ (by simp [Event.reactionOf, distinct]) (by simpa [Record.sender?] using other)
    · next absurd => cases absurd
    · next hook depth' role less =>
      cases less
      exact silent_runHook ih keyed past found hook distinct other reason

section Operate

variable (keyed : w.Keyed)
include keyed

theorem silent_start (i : Identity) : Silent id w (w.start i).world := by
  have strikes : Strikes (fun _ _ _ => True) w (w.start i).world :=
    strikes_start keyed fun _ _ => trivial
  unfold start at strikes ⊢
  cases found : w.find? i with
  | none => exact .refl w
  | some a =>
    simp only [found] at strikes
    dsimp only
    split
    · exact .refl w
    · next core started =>
      simp only [started] at strikes
      exact ⟨strikes, rfl, rfl, rfl⟩

theorem silent_recordLink (i peer : Identity) : Silent id w (w.recordLink i peer).2 := by
  unfold recordLink
  split
  · exact .refl w
  · split
    · exact .emit _ rfl (by simp [Record.sender?])
    · split
      · exact .refl w
      · next a found =>
        split
        · exact .emit _ rfl (by simp [Record.sender?])
        · next alive =>
          exact .changeCore keyed found (·.insertLink peer) (.join peer) rfl
            (Bool.eq_false_of_not_eq_true alive)

theorem silent_linkThrough (handle peer : Identity) :
    Silent id w (w.linkThrough handle peer).2 := by
  unfold linkThrough
  split
  · exact silent_recordLink keyed handle peer
  · split
    · exact .refl w
    · exact .note _ _ rfl (by simp [Note.sender?])

theorem silent_link (i peer : Identity) : Silent id w (w.link i peer).2 := by
  have first : Silent id w (w.recordLink i peer).2 := silent_recordLink keyed i peer
  unfold link
  revert first
  generalize w.recordLink i peer = result
  intro first
  obtain ⟨_ | _, v⟩ := result
  · exact first
  · exact first.trans (silent_linkThrough (first.strikes.keyed keyed) peer i)

/-- An actor that is done is silent in every operation that does not signal in its name. -/
theorem silent_operate (past : w.IsOver id) {op : Operation} (dealing : op.isDealing = true)
    (unsaid : (Action.operate i op).isSignalOf id = false) : Silent id w (w.operate i op) := by
  have silences := silences_react id w.running
  cases op with
  | start => exact silent_start keyed i
  | signal sender reason =>
    exact silent_deliverWith silences keyed past i (by simpa [Action.isSignalOf] using unsaid) reason
  | forward sender reason =>
    exact silent_forwardWith silences keyed past i (by simpa [Action.isSignalOf] using unsaid) reason
  | terminate reason => exact silent_finishWith silences keyed past i reason
  | send message => exact silent_send keyed i message
  | record peer => exact silent_linkThrough keyed i peer
  | link peer => exact silent_link keyed i peer
  | unlink peer =>
    rw [operate, unlink]
    cases found : w.find? i with
    | none =>
      rw [changeCore_missing found]
      exact .refl w
    | some a => exact .changeCore keyed found (·.eraseLink peer) (.part peer) rfl trivial
  | poll errand sleeper ticket => cases dealing
  | cancel bell ticket => cases dealing
  | setFlags flags => cases dealing

end Operate

/-- Only what is dealt to actors is written of. -/
theorem journal_act {action : Action}
    (idle : ∀ i op, action = .operate i op → op.isDealing = false) :
    (w.act action).journal = w.journal := by
  have changed (i : Identity) (f : Core → Core) : (w.changeCore i f).journal = w.journal := by
    unfold changeCore
    split <;> rfl
  cases action with
  | operate i op =>
    have idle := idle i op rfl
    cases op with
    | poll errand sleeper ticket => exact changed i _
    | cancel bell ticket => exact changed i _
    | setFlags flags =>
      rw [act, operate, setFlags]
      split
      · rfl
      · unfold setRole
        split <;> rfl
    | _ => cases idle
  | free other => rfl
  | allocate tag role | allocateStub tag stub =>
    rw [act, world_issue]
    split <;> rfl
  | setStub other isLive =>
    rw [act, World.setStub]
    split <;> rfl

/-- An actor that is done reacts to nothing, and the signals in its name are those that others send
so. -/
theorem silent_act (keyed : w.Keyed) (found : w.find? id = some a) (done : a.core.isDone = true)
    (action : Action) :
    (w.act action).reactions id = w.reactions id ∧
      (action.isSignalOf id = false → (w.act action).sent id = w.sent id) := by
  have past : w.IsOver id := ⟨a, found, done⟩
  by_cases dealing : ∃ i op, action = .operate i op ∧ op.isDealing = true
  · obtain ⟨i, op, rfl, dealing⟩ := dealing
    refine ⟨?_, fun unsaid => (silent_operate keyed past dealing unsaid).sent⟩
    cases unsaid : (Action.operate i op).isSignalOf id with
    | false => exact (silent_operate keyed past dealing unsaid).reactions
    | true =>
      cases op with
      | signal sender reason => exact ((changes_deliver keyed i sender reason).done found done).2
      | forward sender reason => exact ((changes_forward keyed i sender reason).done found done).2
      | _ => cases unsaid
  · have same : (w.act action).journal = w.journal := journal_act fun i op same =>
      Bool.eq_false_of_not_eq_true fun deals => dealing ⟨i, op, same, deals⟩
    exact ⟨by simp only [reactions, same], fun _ => by simp only [sent, same]⟩

theorem Treated.emptied {traffic : Traffic} {action : Action} (treated : Treated traffic id action a b)
    (emptied : a.core.Emptied) : b.core.Emptied := by
  cases treated with
  | waited waits waited queue => exact waited.emptied queue emptied
  | struck struck => exact struck.emptied emptied

theorem Course.emptied (course : Course {} trace v) (found : v.find? id = some a) :
    a.core.Emptied := by
  apply course.accrues (P := fun _ a => a.core.Emptied) rooted_empty (fun a found => (by cases found))
    (fun _ _ _ _ _ _ done => by cases done) _ found
  intro earlier m member a b rooted known last emptied
  exact (treated_act rooted known Traffic.spreads_any (sends_any m.2) last).2.emptied emptied

theorem Course.lasts (course : Course w trace v) (rooted : w.Rooted) (found : w.find? id = some a)
    (done : a.core.isDone = true) (present : v.find? id = some b) :
    b.core.life = a.core.life := by
  apply course.follows (P := fun _ b => b.core.life = a.core.life) rooted found rfl _ present
  intro earlier m member b c rooted known last life
  obtain ⟨-, treated⟩ := treated_act rooted known Traffic.spreads_any (sends_any m.2) last
  cases treated with
  | waited waits waited queue => exact waited.life.trans life
  | struck struck =>
    exact (struck.past ((Core.isDone_of_life life).trans done)).2.1.trans life

/-- Unless it is freed, an actor is there to the end. -/
theorem Course.remains (course : Course w trace v) (rooted : w.Rooted) (found : w.find? id = some a)
    (kept : ∀ m ∈ trace, m.2 ≠ .free id) : v.isAllocated id = true := by
  obtain ⟨b, present, -⟩ := course.carries (P := fun _ => True) rooted found kept trivial
    fun _ _ _ _ _ _ _ => trivial
  simp [isAllocated, present]

/-- An actor that is done has a recorded reason, no messages and no links, and as long as it is not
freed nothing that happens in the world changes that. It does not react any more, and only signals
that others send in its name are on record as its own. -/
theorem done_is_final {earlier : List Moment} (reached : Course {} earlier w)
    (found : w.find? id = some a) (done : a.core.isDone = true) :
    ((∃ reason, a.core.life = .done reason) ∧ a.core.mailbox.queue = [] ∧ a.core.links = {}) ∧
    ∀ later v, Course w later v →
      ((∀ m ∈ later, m.2 ≠ .free id) → v.isAllocated id = true) ∧
      (∀ b, v.find? id = some b →
        b.core.life = a.core.life ∧ b.core.mailbox.queue = [] ∧ b.core.links = {}) ∧
      ∀ m ∈ later, m.1.isAllocated id = true →
        (m.1.act m.2).reactions id = m.1.reactions id ∧
        (m.2.isSignalOf id = false → (m.1.act m.2).sent id = m.1.sent id) := by
  have rooted := reached.rooted rooted_empty
  refine ⟨⟨Core.isDone_iff.mp done, reached.emptied found done⟩, fun later v course =>
    ⟨course.remains rooted found, fun b present => ?_, fun m member allocated => ?_⟩⟩
  · have life := course.lasts rooted found done present
    exact ⟨life, (reached.trans course).emptied present ((Core.isDone_of_life life).trans done)⟩
  · obtain ⟨⟨before, start⟩, -⟩ := course.split member
    obtain ⟨b, present⟩ := Option.isSome_iff_exists.mp allocated
    have life := start.lasts rooted found done present
    exact silent_act (start.rooted rooted).keyed present ((Core.isDone_of_life life).trans done) m.2

def bereaved : World :=
  let id (serial : Nat) : Identity := .ofSerial serial .process
  run {} [.allocate .process (.process .trap), .allocate .process (.process .empty),
    .operate (id 1) .start, .operate (id 2) .start, .operate (id 1) (.poll .message none none),
    .operate (id 2) (.link (id 1)), .operate (id 1) (.terminate (.atom ⟨"crash"⟩))]

def condolences : List Action :=
  let id (serial : Nat) : Identity := .ofSerial serial .process
  [.operate (id 1) (.send (.str "late")), .operate (id 2) (.link (id 1)),
    .operate (id 1) (.record (id 2)), .operate (id 1) (.cancel .mail 0),
    .operate (id 1) (.setFlags .empty), .operate (id 2) (.terminate .normal),
    .operate (id 1) (.terminate .normal)]

theorem bereaved_is_final : ∃ a b,
    bereaved.find? (.ofSerial 1 .process) = some a ∧
    (run bereaved condolences).find? (.ofSerial 1 .process) = some b ∧
    a.core.life = .done (.atom ⟨"crash"⟩) ∧ b.core.life = .done (.atom ⟨"crash"⟩) ∧
    b.core.mailbox.queue = [] ∧ b.core.links = {} ∧
    ∀ m ∈ moments bereaved condolences,
      (m.1.act m.2).reactions (.ofSerial 1 .process) = m.1.reactions (.ofSerial 1 .process) ∧
      (m.1.act m.2).sent (.ofSerial 1 .process) = m.1.sent (.ofSerial 1 .process) := by
  obtain ⟨a, found, life⟩ : ∃ a, bereaved.find? (.ofSerial 1 .process) = some a ∧
    a.core.life = .done (.atom ⟨"crash"⟩) := ⟨_, rfl, rfl⟩
  obtain ⟨b, present⟩ : ∃ b,
    (run bereaved condolences).find? (.ofSerial 1 .process) = some b := ⟨_, rfl⟩
  have said : ∀ m ∈ moments bereaved condolences, m.1.isAllocated (.ofSerial 1 .process) = true ∧
    m.2.isSignalOf (.ofSerial 1 .process) = false := by decide +kernel
  obtain ⟨-, later⟩ := done_is_final (course_run {} _ : Course {} _ bereaved) found
    (Core.isDone_iff.mpr ⟨_, life⟩)
  obtain ⟨-, still, silent⟩ := later _ _ (course_run bereaved condolences)
  obtain ⟨same, none, links⟩ := still b present
  refine ⟨a, b, found, present, life, same.trans life, none, links, fun m member => ?_⟩
  obtain ⟨allocated, unsaid⟩ := said m member
  exact ⟨(silent m member allocated).1, (silent m member allocated).2 unsaid⟩

end World

end Actors
