import Actors.Proofs.Finality

/-! Deliveries. What comes to an actor in the course of an action is on record: a signal that it traps
becomes a message, and a plain actor whose hook sends greets the sender of the signal that it accepts.
Unless the actor is done by then, its queue has grown by just that, and by what the action itself
sends. -/
namespace Actors

def Action.posted (id : Identity) : Action → List Term
  | operate receiver (.send message) => if receiver = id then [message] else []
  | _ => []

def Role.greets : Role → Bool
  | plain .send => true
  | _ => false

/-- The message that a record tells to have come to an actor. The offer of a signal, in whose span it
is accepted, names the sender that is greeted. -/
def Record.mail (greets : Identity → Bool) (id : Identity) (record : Record) : List Term :=
  match record.event, record.spans.getLast? with
  | .trapped receiver sender reason, _ =>
    if receiver = id then [.exitMessage sender reason] else []
  | .exitAccepted, some (.offer sender receiver) =>
    if sender = id ∧ greets receiver = true then [.str "bye"] else []
  | _, _ => []

namespace World

variable {w v u : World} {id i : Identity} {a b : Actor} {R : Reaction} {n : Nat}
  {due mid left : List Term}

def greets (w : World) (i : Identity) : Bool := (w.find? i).any (·.role.greets)

def farewell (w : World) (id i sender : Identity) : List Term :=
  if sender = id ∧ w.greets i = true then [.str "bye"] else []

def inbox? (w : World) (id : Identity) : Option (List Term) :=
  ((w.find? id).filter fun a => !a.core.isDone).map (·.core.mailbox.queue)

theorem inbox?_alive (found : w.find? id = some a) (alive : a.core.isDone = false) :
    w.inbox? id = some a.core.mailbox.queue := by
  simp [inbox?, found, alive, Option.filter]

theorem inbox?_putCore (a : Actor) (core : Core) :
    (w.putCore a core).inbox? id
      = if id = a.id then (if core.isDone then none else some core.mailbox.queue)
        else w.inbox? id := by
  unfold inbox?
  rw [find?_putCore]
  by_cases same : id = a.id
  · cases done : core.isDone <;> simp [same, done, Option.filter]
  · simp [same]

/-- A stroke adds a message that it posts, and the end of an actor leaves it none to receive. -/
theorem inbox?_struck (found : w.find? a.id = some a) {stroke : Stroke}
    (suffers : a.core.Suffers stroke) (silent : ∀ message, stroke ≠ .post message) :
    (w.putCore a (a.core.struck stroke)).inbox? id = none ∨
      (w.putCore a (a.core.struck stroke)).inbox? id = w.inbox? id := by
  rw [inbox?_putCore]
  by_cases same : id = a.id
  · subst same
    rw [if_pos rfl]
    cases done : (a.core.struck stroke).isDone with
    | true => exact .inl (if_pos rfl)
    | false =>
      have alive : a.core.isDone = false := by
        by_contra past
        cases done.symm.trans (Core.isDone_struck suffers (Bool.eq_true_of_not_eq_false past))
      rw [inbox?_alive found alive, if_neg Bool.false_ne_true]
      cases stroke with
      | post message => exact absurd rfl (silent message)
      | finish reason => cases done
      | _ => exact .inr rfl
  · exact .inr (if_neg same)

theorem Strikes.greets {may : World → Actor → Stroke → Prop} (strikes : Strikes may w v) :
    v.greets = w.greets := by
  funext i
  unfold World.greets
  cases found : w.find? i with
  | none => rw [strikes.missing found]
  | some a =>
    obtain ⟨b, present, role, -⟩ := strikes.actor found
    rw [present, Option.any_some, Option.any_some, role]

/-- The queue of an actor, unless it is done, has grown by the messages that were on their way to it and
by those that are on record since, but for those that are still on their way. -/
def Brings (id : Identity) (due left : List Term) (w v : World) : Prop :=
  ∃ new, v.journal.records = w.journal.records ++ new ∧
    (v.inbox? id = none ∨ (v.inbox? id).map (· ++ left)
      = (w.inbox? id).map (· ++ (due ++ new.flatMap (Record.mail w.greets id))))

structure Delivers (id : Identity) (due left : List Term) (w v : World) : Prop where
  strikes : Strikes (fun _ _ _ => True) w v
  running : v.running ≤ w.running
  told : Brings id due left w v

namespace Delivers

theorem trans (first : Delivers id due mid w v) (second : Delivers id mid left v u) :
    Delivers id due left w u := by
  obtain ⟨new, records, before⟩ := first.told
  obtain ⟨more, records', after⟩ := second.told
  rw [first.strikes.greets] at after
  refine ⟨first.strikes.trans second.strikes, second.running.trans first.running, new ++ more,
    by rw [records', records, List.append_assoc], ?_⟩
  rcases after with gone | grown
  · exact .inl gone
  · rcases before with gone | reached
    · exact .inl (by simpa [gone] using grown)
    · refine .inr ?_
      calc (u.inbox? id).map (· ++ left)
          = ((v.inbox? id).map (· ++ mid)).map (· ++ more.flatMap (Record.mail w.greets id)) := by
            simp [grown, Function.comp_def]
        _ = _ := by simp [reached, Function.comp_def, List.flatMap_append]

/-- What leaves the records as they are, but for one that tells of no message. -/
theorem still (new : List Record) (strikes : Strikes (fun _ _ _ => True) w v)
    (running : v.running ≤ w.running) (records : v.journal.records = w.journal.records ++ new)
    (mute : new.flatMap (Record.mail w.greets id) = [])
    (same : v.inbox? id = none ∨ v.inbox? id = w.inbox? id) : Delivers id due due w v :=
  ⟨strikes, running, new, records, same.imp_right fun same => by rw [same, mute, List.append_nil]⟩

theorem refl (w : World) : Delivers id due due w w :=
  .still [] (.refl w) le_rfl (by simp) rfl (.inr rfl)

theorem emit (event : Event)
    (mute : (⟨w.journal.spans, event⟩ : Record).mail w.greets id = []) :
    Delivers id due due w (w.emit event) :=
  .still [⟨w.journal.spans, event⟩] (.emit w event) le_rfl rfl (by simpa using mute)
    (.inr rfl)

/-- What an event tells of is on its way. -/
theorem announce (event : Event) :
    Delivers id [] ((⟨w.journal.spans, event⟩ : Record).mail w.greets id) w (w.emit event) :=
  ⟨.emit w event, le_rfl, [⟨w.journal.spans, event⟩], rfl, .inr (by simp [inbox?])⟩

theorem note (j : Identity) (note : Note) : Delivers id due due w (w.note j note) :=
  .still [] (.note w j note) le_rfl (by simp [World.note, Journal.note]) rfl (.inr rfl)

theorem spans (w : World) (spans : List Span) :
    Delivers id due due w { w with journal := { w.journal with spans } } :=
  .still [] (.write w _) le_rfl (by simp) rfl (.inr rfl)

end Delivers

theorem running_struck (found : w.find? a.id = some a) {stroke : Stroke}
    (late : stroke ≠ .start) : (w.putCore a (a.core.struck stroke)).running ≤ w.running := by
  have count : (w.putCore a (a.core.struck stroke)).running + (if a.core.isRunning then 1 else 0)
      = w.running + (if (a.core.struck stroke).isRunning then 1 else 0) :=
    Registry.countP_put w.actors (fun a => a.core.isRunning) _ found
  have stopped : (a.core.struck stroke).isRunning = true → a.core.isRunning = true := by
    cases stroke with
    | start => exact absurd rfl late
    | accept sender reason => exact fun runs => by cases runs
    | finish reason => exact fun runs => by cases runs
    | _ => exact id
  split_ifs at count with before after later
  · omega
  · omega
  · exact absurd (stopped later) before
  · omega

theorem Delivers.struck (found : w.find? a.id = some a) (stroke : Stroke)
    (suffers : a.core.Suffers stroke) (late : stroke ≠ .start)
    (silent : ∀ message, stroke ≠ .post message) :
    Delivers id due due w (w.putCore a (a.core.struck stroke)) :=
  .still [] (.of_strike (.strike found suffers trivial)) (running_struck found late)
    (by simp [putCore]) rfl (inbox?_struck found suffers silent)

theorem Delivers.changeCore (keyed : w.Keyed) (found : w.find? i = some a) (f : Core → Core)
    (stroke : Stroke) (struck : f a.core = a.core.struck stroke) (suffers : a.core.Suffers stroke)
    (late : stroke ≠ .start) (silent : ∀ message, stroke ≠ .post message) :
    Delivers id due due w (w.changeCore i f) := by
  have name : a.id = i := keyed found
  subst name
  rw [changeCore_found found, struck]
  exact .struck found stroke suffers late silent

/-- What is sent to an actor that is done or gone is lost. -/
theorem Delivers.lost {due' left' : List Term} (delivers : Delivers id due left w v)
    (gone : v.inbox? id = none) : Delivers id due' left' w v := by
  obtain ⟨new, records, -⟩ := delivers.told
  exact ⟨delivers.strikes, delivers.running, new, records, .inl gone⟩

theorem delivers_send (keyed : w.Keyed) (receiver : Identity) (message : Term) :
    Delivers id (if receiver = id then [message] else []) [] w (w.send receiver message) := by
  have lost {v : World} (same : v.inbox? id = w.inbox? id) (gone : w.inbox? receiver = none)
      (delivers : Delivers id [] [] w v) :
      Delivers id (if receiver = id then [message] else []) [] w v := by
    by_cases own : receiver = id
    · exact delivers.lost (same.trans (own ▸ gone))
    · rwa [if_neg own]
  unfold send
  cases found : w.find? receiver with
  | none =>
    have gone : w.inbox? receiver = none := by simp [inbox?, found]
    by_cases stub : (w.stubs.find? receiver).isSome = true
    · simp only [stub, if_true]
      exact lost rfl gone (.note ..)
    · simp only [stub]
      exact lost rfl gone (.emit _ (by simp [Record.mail]))
  | some a =>
    cases done : a.core.isDone with
    | true =>
      have gone : w.inbox? receiver = none := by simp [inbox?, found, done, Option.filter]
      simp only [done, if_true]
      exact lost rfl gone (.emit _ (by simp [Record.mail]))
    | false =>
      have name : a.id = receiver := keyed found
      subst name
      simp only [done, Bool.false_eq_true, if_false]
      rw [changeCore_found found, Core.post_struck done]
      refine ⟨.of_strike (.strike found done trivial), running_struck found (by simp), [],
        by simp [putCore], .inr ?_⟩
      rw [inbox?_putCore]
      by_cases own : a.id = id
      · subst own
        have still : (a.core.struck (.post message)).isDone = false := done
        rw [if_pos rfl, still, if_pos rfl, inbox?_alive found done]
        simp [Core.struck]
      · simp [own, Ne.symm own]

/-- The offer of a signal that is accepted is on record before the message that its sender is sent. -/
theorem delivers_offer (keyed : w.Keyed) (i sender : Identity) (reason : Exit) :
    Delivers id [] (match w.offer i sender reason with
      | .ok true _ => w.farewell id i sender
      | _ => []) w (w.offer i sender reason).world := by
  have entered : Delivers id [] [] w (w.entering (.offer sender i)) := .spans w _
  have mute (event : Event) (mute : ∀ spans, (⟨spans, event⟩ : Record).mail w.greets id = []) :
      Delivers id [] [] w (((w.entering (.offer sender i)).emit event).leaving w) := by
    have told : Delivers id [] [] (w.entering (.offer sender i))
        ((w.entering (.offer sender i)).emit event) := .emit event (mute _)
    exact entered.trans (told.trans (.spans _ _))
  unfold offer
  cases found : w.find? i with
  | none =>
    rw [within_ok (by simp only [(alike_entering ..).find?, found]; rfl)]
    exact entered.trans (.spans _ _)
  | some a =>
    have name : a.id = i := keyed found
    subst name
    cases offered : a.core.offer reason with
    | error e =>
      rw [within_error (by simp only [(alike_entering ..).find?, found, offered]; rfl)]
      exact entered.trans (.spans _ _)
    | ok answer =>
      obtain ⟨acceptance, core⟩ := answer
      cases acceptance with
      | accepted =>
        rw [within_ok (by simp only [(alike_entering ..).find?, found, offered]; rfl)]
        obtain ⟨runs, rfl⟩ := Core.offer_accepted.mp offered
        have greeting : (⟨w.journal.spans ++ [.offer sender a.id], .exitAccepted⟩ : Record).mail
            w.greets id = w.farewell id a.id sender := by
          simp [Record.mail, farewell]
        have told : Delivers id [] (w.farewell id a.id sender) (w.entering (.offer sender a.id))
            ((w.entering (.offer sender a.id)).emit .exitAccepted) := by
          rw [← greeting]
          exact .announce (w := w.entering (.offer sender a.id)) .exitAccepted
        have accepted (due : List Term) : Delivers id due due _ _ :=
          .struck (w := (w.entering (.offer sender a.id)).emit .exitAccepted) found
            (.accept sender reason) runs (by simp) (by simp)
        exact entered.trans (told.trans ((accepted _).trans (.spans _ _)))
      | pending =>
        rw [within_ok (by simp only [(alike_entering ..).find?, found, offered]; rfl)]
        exact mute _ fun spans => by simp [Record.mail]
      | done =>
        rw [within_ok (by simp only [(alike_entering ..).find?, found, offered]; rfl)]
        exact mute _ fun spans => by simp [Record.mail]

def Delivering (id : Identity) (R : Reaction) (n : Nat) : Prop :=
  ∀ ⦃w i a⦄ sender reason, w.Keyed → w.running < n → w.find? i = some a → a.core.isDone = false →
    Delivers id (w.farewell id i sender) [] w (R i sender reason w).world

section Chain

variable (delivering : Delivering id R n) (keyed : w.Keyed) (bounded : w.running ≤ n)
include delivering keyed bounded

theorem delivers_forwardWith (i sender : Identity) (reason : Exit) :
    Delivers id [] [] w (forwardWith R w i sender reason).world := by
  unfold forwardWith
  split
  · exact .emit _ (by simp [Record.mail])
  · have delivers : Delivers id [] _ w (w.offer i sender reason).world :=
      delivers_offer keyed i sender reason
    have outcome := offered keyed i sender reason
    revert delivers outcome
    generalize w.offer i sender reason = result
    intro delivers outcome
    cases outcome with
    | gone missing alike => exact delivers
    | refused found unborn alike => exact delivers
    | ignored found surfaced alike => exact delivers
    | @accepted v a core found accepted replaces same =>
      have name : a.id = i := keyed found
      subst name
      have alive : core.isDone = false := by
        rw [(Core.offer_accepted.mp accepted).2]
        rfl
      have reaction := delivering (w := v) sender reason (delivers.strikes.keyed keyed)
        ((running_lt_accept replaces accepted).trans_le bounded)
        ((replaces.find? a.id).trans (if_pos rfl)) alive
      rw [farewell, show v.greets = w.greets from delivers.strikes.greets] at reaction
      exact delivers.trans reaction

theorem delivers_deliverWith (receiver sender : Identity) (reason : Exit) :
    Delivers id [] [] w (deliverWith R w receiver sender reason).world := by
  unfold deliverWith
  cases found : w.find? receiver with
  | none =>
    dsimp only
    split
    · exact .note ..
    · exact .emit _ (by simp [Record.mail])
  | some a =>
    dsimp only [signalWith]
    cases screened : a.screen sender reason with
    | ignoreSelf => exact .emit _ (by simp [Record.mail])
    | ignoreNormal => exact .emit _ (by simp [Record.mail])
    | trap trapped =>
      have told : Delivers id [] _ w (w.emit (.trapped a.id sender trapped)) := .announce ..
      have sent : Delivers id _ [] (w.emit (.trapped a.id sender trapped)) _ :=
        delivers_send (told.strikes.keyed keyed) a.id (.exitMessage sender trapped)
      exact told.trans sent
    | forward converted => exact delivers_forwardWith delivering keyed bounded a.id sender converted

theorem delivers_broadcastWith (sender : Identity) (reason : Exit) (peers : List Identity) :
    Delivers id [] [] w (broadcastWith R sender reason peers w).world := by
  induction peers generalizing w with
  | nil => exact .refl w
  | cons peer rest ih =>
    have told : Delivers id [] [] w (w.emit (.linkExit peer)) := .emit _ (by simp [Record.mail])
    have first := told.trans (delivers_deliverWith delivering (told.strikes.keyed keyed)
      (told.running.trans bounded) peer sender reason)
    unfold broadcastWith
    revert first
    generalize deliverWith R (w.emit (.linkExit peer)) peer sender reason = result
    intro first
    cases result with
    | error fault v => exact first
    | ok answer v =>
      exact first.trans (ih (first.strikes.keyed keyed) (first.running.trans bounded))

theorem delivers_finishWith (i : Identity) (reason : Exit) :
    Delivers id [] [] w (finishWith R w i reason).world := by
  have entered : Delivers id [] [] w (w.entering (.termination i)) := .spans w _
  cases found : w.find? i with
  | none =>
    rw [finishWith_gone found]
    exact entered.trans (.spans _ _)
  | some a =>
    have name : a.id = i := keyed found
    subst name
    cases finished : a.core.isDone with
    | true =>
      have told : Delivers id [] [] (w.entering (.termination a.id))
          ((w.entering (.termination a.id)).emit .alreadyDone) := .emit _ (by simp [Record.mail])
      rw [finishWith_done found finished]
      exact entered.trans (told.trans (.spans _ _))
    | false =>
      have struck : Delivers id [] [] _ _ :=
        .struck (w := w.entering (.termination a.id)) found (.finish reason) finished (by simp)
          (by simp)
      have ended : Delivers id [] [] w (w.ended a reason) :=
        entered.trans (struck.trans (.emit _ (by simp [Record.mail])))
      have told := delivers_broadcastWith delivering (ended.strikes.keyed keyed)
        (ended.running.trans bounded) a.id (a.core.finalReason reason) a.core.links.members
      rw [finishWith_alive keyed found finished, Outcome.world_concluding]
      exact ended.trans (told.trans (.spans _ _))

theorem delivers_runHook (found : w.find? i = some a) {hook : Hook} (role : a.role = .plain hook)
    (sender : Identity) (reason : Exit) :
    Delivers id (w.farewell id i sender) [] w (runHook R hook i sender reason w).world := by
  let phase := ((w.find? i).map (·.core.phase)).getD .done
  have noted {due : List Term} : Delivers id due due w (w.note i (.hook sender reason phase)) :=
    .note ..
  have keyed' : (w.note i (.hook sender reason phase)).Keyed := keyed
  have quiet (silent : (Role.plain hook).greets = false) : w.farewell id i sender = [] := by
    simp [farewell, World.greets, found, role, silent]
  cases hook with
  | record => exact quiet rfl ▸ noted
  | raise => exact quiet rfl ▸ noted
  | terminate last =>
    rw [quiet rfl]
    have ended := noted.trans (delivers_finishWith delivering keyed' bounded i last)
    unfold runHook
    revert ended
    dsimp only
    generalize finishWith R _ i last = result
    intro ended
    cases result with
    | error fault v => exact ended
    | ok final v => exact ended.trans (.note ..)
  | reply answer =>
    rw [quiet rfl]
    exact noted.trans (delivers_deliverWith delivering keyed' bounded sender i answer)
  | send =>
    have greeting : w.farewell id i sender = if sender = id then [.str "bye"] else [] := by
      simp [farewell, World.greets, found, role, Role.greets]
    rw [greeting]
    exact noted.trans (delivers_send keyed' sender (.str "bye"))
  | unlink =>
    rw [quiet rfl]
    have parted : Delivers id [] [] (w.note i (.hook sender reason phase))
        ((w.note i (.hook sender reason phase)).changeCore i (·.eraseLink sender)) :=
      .changeCore keyed' found _ (.part sender) rfl trivial (by simp) (by simp)
    exact noted.trans parted

end Chain

theorem delivering_react {d : Nat} (deep : n ≤ d) : Delivering id (react d) n := by
  induction n generalizing d with
  | zero => exact fun w i a sender reason keyed bounded => absurd bounded (Nat.not_lt_zero _)
  | succ n ih =>
    obtain ⟨d, rfl⟩ : ∃ e, d = e + 1 := ⟨d - 1, by omega⟩
    intro w i a sender reason keyed bounded found alive
    have quiet (silent : a.role.greets = false) : w.farewell id i sender = [] := by
      simp [farewell, World.greets, found, silent]
    cases role : a.role with
    | process flags =>
      rw [react_process found role, quiet (by rw [role]; rfl)]
      exact .emit _ (by simp [Record.mail])
    | port name owner =>
      rw [react_port found role, quiet (by rw [role]; rfl)]
      exact .emit _ (by simp [Record.mail])
    | plain hook =>
      rw [react_plain found role]
      exact delivers_runHook (ih (by omega)) keyed (by omega) found role sender reason

section Operate

variable (keyed : w.Keyed)
include keyed

theorem delivers_recordLink (i peer : Identity) : Delivers id [] [] w (w.recordLink i peer).2 := by
  unfold recordLink
  split
  · exact .refl w
  · split
    · exact .emit _ (by simp [Record.mail])
    · split
      · exact .refl w
      · next a found =>
        split
        · exact .emit _ (by simp [Record.mail])
        · next alive =>
          exact .changeCore keyed found (·.insertLink peer) (.join peer) rfl
            (Bool.eq_false_of_not_eq_true alive) (by simp) (by simp)

theorem delivers_linkThrough (handle peer : Identity) :
    Delivers id [] [] w (w.linkThrough handle peer).2 := by
  unfold linkThrough
  split
  · exact delivers_recordLink keyed handle peer
  · split
    · exact .refl w
    · exact .note ..

theorem delivers_link (i peer : Identity) : Delivers id [] [] w (w.link i peer).2 := by
  have first : Delivers id [] [] w (w.recordLink i peer).2 := delivers_recordLink keyed i peer
  unfold link
  revert first
  generalize w.recordLink i peer = result
  intro first
  obtain ⟨_ | _, v⟩ := result
  · exact first
  · exact first.trans (delivers_linkThrough (first.strikes.keyed keyed) peer i)

theorem brings_start (i : Identity) : Brings id [] [] w (w.start i).world := by
  have still {v : World} (records : v.journal.records = w.journal.records)
      (same : v.inbox? id = none ∨ v.inbox? id = w.inbox? id) : Brings id [] [] w v :=
    ⟨[], by simp [records], same.imp_right fun same => by simp [same]⟩
  unfold start
  cases found : w.find? i with
  | none => exact still rfl (.inr rfl)
  | some a =>
    have name : a.id = i := keyed found
    subst name
    dsimp only
    cases started : a.core.start with
    | error refusal => exact still rfl (.inr rfl)
    | ok core =>
      obtain ⟨unborn, same⟩ : a.core.life = .init ∧ core = a.core.struck .start := by
        cases life : a.core.life <;> simp [Core.start, life, Life.start, Except.map] at started
        exact ⟨rfl, started.symm⟩
      subst same
      exact still rfl (inbox?_struck found unborn (by simp))

/-- An operation that deals with cores brings what it sends and what follows from it. -/
theorem brings_operate (i : Identity) {op : Operation} (dealing : op.isDealing = true) :
    Brings id ((Action.operate i op).posted id) [] w (w.operate i op) := by
  have delivering : Delivering id (react w.running) w.running := delivering_react le_rfl
  cases op with
  | start => exact brings_start keyed i
  | signal sender reason => exact (delivers_deliverWith delivering keyed le_rfl i sender reason).told
  | forward sender reason => exact (delivers_forwardWith delivering keyed le_rfl i sender reason).told
  | terminate reason => exact (delivers_finishWith delivering keyed le_rfl i reason).told
  | send message => exact (delivers_send keyed i message).told
  | record peer => exact (delivers_linkThrough keyed i peer).told
  | link peer => exact (delivers_link keyed i peer).told
  | unlink peer =>
    rw [operate, unlink]
    cases found : w.find? i with
    | none =>
      rw [changeCore_missing found]
      exact (Delivers.refl w).told
    | some a =>
      exact (Delivers.changeCore keyed found (·.eraseLink peer) (.part peer) rfl trivial
        (by simp) (by simp)).told
  | poll errand sleeper ticket => cases dealing
  | cancel bell ticket => cases dealing
  | setFlags flags => cases dealing

end Operate

def delivered (id : Identity) (m : Moment) : List Term :=
  if m.1.isAllocated id then
    m.2.posted id ++ ((m.1.act m.2).journal.records.drop m.1.journal.records.length).flatMap
      (Record.mail m.1.greets id)
  else []

end World

end Actors
