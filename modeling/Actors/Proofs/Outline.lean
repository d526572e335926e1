import Actors.Proofs.Operation
import Mathlib.Data.List.Induction

/-! Outlines. Where hooks do no more than record, the links of an actor and whether it has ended
follow from the link events on it and its end, whatever else happens in the world. -/
namespace Actors

inductive LinkEvent
  | joined (peer : Identity)
  | parted (peer : Identity)
  deriving DecidableEq, Repr

def Stays (peer : Identity) (events : List LinkEvent) : Prop :=
  ∃ before later, events = before ++ .joined peer :: later ∧ .parted peer ∉ later

theorem stays_snoc {peer : Identity} {events : List LinkEvent} {event : LinkEvent} :
    Stays peer (events ++ [event]) ↔
      event = .joined peer ∨ (Stays peer events ∧ event ≠ .parted peer) := by
  constructor
  · rintro ⟨before, later, split, stays⟩
    rcases List.eq_nil_or_concat later with rfl | ⟨rest, last, rfl⟩
    · obtain ⟨-, same⟩ := List.append_inj' split rfl
      exact .inl (List.singleton_inj.mp same)
    · rw [List.concat_eq_append, ← List.cons_append, ← List.append_assoc] at split
      obtain ⟨rfl, same⟩ := List.append_inj' split rfl
      cases List.singleton_inj.mp same
      refine .inr ⟨⟨before, rest, rfl, fun member => stays ?_⟩, fun parted => stays ?_⟩
      · simp [member]
      · simp [parted]
  · rintro (rfl | ⟨⟨before, later, rfl, stays⟩, different⟩)
    · exact ⟨events, [], rfl, List.not_mem_nil⟩
    · exact ⟨before, later ++ [event], by simp, by simp [stays, Ne.symm different]⟩

namespace Links

def next (s : Links) : LinkEvent → Links
  | .joined peer => s.insert peer
  | .parted peer => s.erase peer

def replay (s : Links) (events : List LinkEvent) : Links := events.foldl next s

theorem replay_append (s : Links) (first later : List LinkEvent) :
    s.replay (first ++ later) = (s.replay first).replay later := List.foldl_append

/-- A peer is in the links exactly if the last event about it is that it joined. -/
theorem mem_replay {events : List LinkEvent} {peer : Identity} :
    peer ∈ (replay {} events).members ↔ Stays peer events := by
  induction events using List.reverseRecOn with
  | nil => simp [replay, Stays]
  | append_singleton events event ih =>
    rw [replay_append, stays_snoc, ← ih]
    cases event with
    | joined other =>
      have member : peer ∈ ((replay {} events).replay [.joined other]).members ↔
          peer = other ∨ peer ∈ (replay {} events).members := mem_insert
      simp [member, eq_comm]
    | parted other =>
      have member : peer ∈ ((replay {} events).replay [.parted other]).members ↔
          peer ∈ (replay {} events).members ∧ peer ≠ other := mem_erase
      simp [member, eq_comm]

theorem mem_replay_from {s : Links} {events : List LinkEvent} {peer : Identity}
    (member : peer ∈ (s.replay events).members) :
    peer ∈ s.members ∨ .joined peer ∈ events := by
  induction events using List.reverseRecOn with
  | nil => exact .inl member
  | append_singleton events event ih =>
    rw [replay_append] at member
    cases event with
    | joined other =>
      rcases mem_insert.mp (show peer ∈ (insert _ other).members from member) with rfl | earlier
      · exact .inr (by simp)
      · exact (ih earlier).imp_right fun joined => List.mem_append_left _ joined
    | parted other =>
      have earlier := (mem_erase.mp (show peer ∈ (erase _ other).members from member)).1
      exact (ih earlier).imp_right fun joined => List.mem_append_left _ joined

theorem replay_empty {events : List LinkEvent} (unjoined : ∀ peer, .joined peer ∉ events) :
    replay {} events = {} := by
  have none (peer : Identity) : peer ∉ (replay {} events).members := fun member =>
    (mem_replay_from member).elim List.not_mem_nil (unjoined peer)
  cases replayed : replay {} events with
  | mk members ordered =>
    rw [replayed] at none
    obtain rfl := List.eq_nil_iff_forall_not_mem.mpr none
    rfl

end Links

structure Outline where
  isOver : Bool
  links : Links

namespace Outline

def ended (o : Outline) : Outline := if o.isOver then o else ⟨true, {}⟩

def replay (o : Outline) (events : List LinkEvent) : Outline :=
  { o with links := o.links.replay events }

@[simp] theorem replay_nil (o : Outline) : o.replay [] = o := rfl

theorem replay_append (o : Outline) (first later : List LinkEvent) :
    o.replay (first ++ later) = (o.replay first).replay later := by
  simp only [replay, Links.replay_append]

end Outline

namespace Core

theorem isDone_of_life {c core : Core} (life : core.life = c.life) : core.isDone = c.isDone := by
  rw [isDone, isDone, phase, phase, life]

theorem isDone_taking (c : Core) (reaching : Option Exit) :
    (c.taking reaching).isDone = c.isDone := by
  cases runs : c.isRunning with
  | false => rw [taking_stopped runs]
  | true =>
    cases reaching with
    | none => rw [taking_none]
    | some reason =>
      have alive : c.isDone = false := by
        simp [isDone, phase, isRunning_iff.mp runs, Life.phase]
      rw [taking_running runs, alive]
      rfl

theorem isDone_start {c core : Core} (started : c.start = .ok core) :
    core.isDone = c.isDone := by
  obtain ⟨unborn, runs⟩ := life_start started
  simp [isDone, phase, unborn, runs, Life.phase]

theorem links_start {c core : Core} (started : c.start = .ok core) : core.links = c.links := by
  unfold start at started
  cases life : c.life.start with
  | error refusal => simp [life, Except.map] at started
  | ok next =>
    simp only [life, Except.map, Except.ok.injEq] at started
    exact started ▸ rfl

end Core

namespace Actor

theorem isDone_coreAfter (a : Actor) (sender : Identity) (reason : Exit) :
    (a.coreAfter sender reason).isDone = a.core.isDone := by
  unfold coreAfter
  split
  · exact Core.isDone_of_life (Core.life_post ..)
  · exact Core.isDone_taking ..

def outline (a : Actor) : Outline := ⟨a.core.isDone, a.core.links⟩

end Actor

namespace World

variable {w v u : World} {id : Identity}

def outline? (w : World) (i : Identity) : Option Outline := (w.find? i).map Actor.outline

def Records (w : World) : Prop := ∀ ⦃i a⦄, w.find? i = some a → a.role.isQuiet = true

/-- The second world has the actors of the first, with the outlines that a function gives them. -/
structure Reshapes (w : World) (shape : Identity → Outline → Outline) (v : World) : Prop where
  keyed : v.Keyed
  records : v.Records
  outline : ∀ i, v.outline? i = (w.outline? i).map (shape i)
  stubs : v.stubs = w.stubs
  serial : v.serial = w.serial

abbrev Steady (w v : World) : Prop := Reshapes w (fun _ o => o) v

theorem Reshapes.trans {f g : Identity → Outline → Outline} (first : Reshapes w f v)
    (second : Reshapes v g u) : Reshapes w (fun i o => g i (f i o)) u := by
  refine ⟨second.keyed, second.records, fun i => ?_, second.stubs.trans first.stubs,
    second.serial.trans first.serial⟩
  rw [second.outline, first.outline, Option.map_map]
  rfl

theorem Reshapes.congr {f g : Identity → Outline → Outline} (reshapes : Reshapes w f v)
    (same : ∀ i o, w.outline? i = some o → f i o = g i o) : Reshapes w g v := by
  refine ⟨reshapes.keyed, reshapes.records, fun i => ?_, reshapes.stubs, reshapes.serial⟩
  rw [reshapes.outline]
  exact Option.map_congr fun o present => same i o present

theorem Reshapes.of_missing {f : Identity → Outline → Outline} (steady : Steady w v)
    (missing : w.find? id = none) (others : ∀ i o, i ≠ id → f i o = o) : Reshapes w f v := by
  refine steady.congr fun i o present => (others i o ?_).symm
  rintro rfl
  simp [outline?, missing] at present

def joins (w : World) (i id peer : Identity) : List LinkEvent :=
  if i = id ∧ peer ≠ id ∧ (w.recordLink id peer).1.isOk then [.joined peer] else []

def linkEvents (w : World) (i id : Identity) : Operation → List LinkEvent
  | .record peer => w.joins i id peer
  | .link peer =>
    w.joins i id peer ++
      if (w.recordLink id peer).1.isOk then (w.recordLink id peer).2.joins i peer id else []
  | .unlink peer => if i = id ∧ w.isAllocated id then [.parted peer] else []
  | _ => []

theorem joins_other {i id : Identity} (other : i ≠ id) (peer : Identity) :
    w.joins i id peer = [] := if_neg fun same => other same.1

def IsKnown (w : World) (i : Identity) : Prop :=
  (w.outline? i).isSome = true ∨ (w.stubs.find? i).isSome = true

theorem Reshapes.known {f : Identity → Outline → Outline} (reshapes : Reshapes w f v)
    (i : Identity) : v.IsKnown i ↔ w.IsKnown i := by
  simp [IsKnown, reshapes.outline, reshapes.stubs]

theorem recordLink_ok {id peer : Identity} (different : peer ≠ id)
    (answer : (w.recordLink id peer).1.isOk = true) :
    w.isLive peer = true ∧ ∃ a, w.find? id = some a ∧ a.core.isDone = false := by
  unfold recordLink at answer
  rw [if_neg different] at answer
  split at answer
  · cases answer
  · next live =>
    split at answer
    · cases answer
    · next a found =>
      split at answer
      · cases answer
      · next finished => exact ⟨by simpa using live, a, found, by simpa using finished⟩

theorem joins_missing {i : Identity} (missing : w.outline? i = none) (id peer : Identity) :
    w.joins i id peer = [] := by
  refine if_neg fun ⟨same, different, answer⟩ => ?_
  obtain ⟨-, a, found, -⟩ := recordLink_ok different answer
  simp [outline?, same, found] at missing

theorem joins_over {i : Identity} {o : Outline} (present : w.outline? i = some o)
    (finished : o.isOver = true) (id peer : Identity) : w.joins i id peer = [] := by
  refine if_neg fun ⟨same, different, answer⟩ => ?_
  obtain ⟨-, a, found, alive⟩ := recordLink_ok different answer
  subst same
  rw [outline?, found] at present
  cases present
  exact Bool.false_ne_true (alive.symm.trans finished)

theorem known_of_joined {i id peer other : Identity} (joined : .joined other ∈ w.joins i id peer) :
    w.IsKnown other := by
  unfold joins at joined
  split at joined
  · next taken =>
    have same : other = peer := by simpa using joined
    have live := (recordLink_ok taken.2.1 taken.2.2).1
    unfold isLive at live
    rw [same, IsKnown, outline?, Option.isSome_map]
    split at live
    · next a found => exact .inl (by rw [found]; rfl)
    · cases stub : w.stubs.find? peer with
      | none => simp [stub] at live
      | some stub => exact .inr rfl
  · cases joined

def shape (w : World) (id : Identity) (op : Operation) (i : Identity) (o : Outline) : Outline :=
  match op with
  | .terminate _ => if i = id then o.ended else o
  | op => o.replay (w.linkEvents i id op)

theorem links_shape {i id : Identity} {op : Operation} {o : Outline} {peer : Identity}
    (member : peer ∈ (w.shape id op i o).links.members) :
    peer ∈ o.links.members ∨ .joined peer ∈ w.linkEvents i id op := by
  cases op with
  | terminate reason =>
    refine .inl ?_
    rw [shape, Outline.ended] at member
    split at member
    · split at member
      · exact member
      · cases member
    · exact member
  | _ => exact Links.mem_replay_from member

theorem shape_alive {i id : Identity} {op : Operation} {o : Outline}
    (alive : (w.shape id op i o).isOver = false) :
    o.isOver = false ∧ w.shape id op i o = o.replay (w.linkEvents i id op) := by
  cases op with
  | terminate reason =>
    rw [shape] at alive ⊢
    split at alive
    · unfold Outline.ended at alive
      split at alive
      · next finished => exact absurd finished (by simp [alive])
      · cases alive
    · next other => exact ⟨alive, if_neg other⟩
  | _ => exact ⟨alive, rfl⟩

section Recording

variable (keyed : w.Keyed) (records : w.Records)
include keyed records

theorem Alike.steady (alike : Alike w v) : Steady w v := by
  refine ⟨alike.keyed keyed, fun i a found => records (alike.find? i ▸ found), fun i => ?_,
    alike.stubs, alike.serial⟩
  rw [outline?, alike.find?, Option.map_id']
  rfl

theorem Received.reshapes {a : Actor} {core : Core} {signals : List (Identity × Exit)}
    (received : Received w a core signals v) (found : w.find? id = some a) (same : core.id = a.id)
    {f : Identity → Outline → Outline} (own : f id a.outline = ⟨core.isDone, core.links⟩)
    (others : ∀ i o, i ≠ id → f i o = o) : Reshapes w f v := by
  have name : a.id = id := keyed found
  refine ⟨received.keyed same keyed, fun i b present => ?_, fun i => ?_, received.stubs,
    received.serial⟩
  · rw [received.find?] at present
    split at present
    · cases present
      have quiet := records found
      exact quiet
    · exact records present
  · rw [outline?, received.find?, outline?]
    by_cases equal : i = id
    · subst equal
      rw [if_pos name.symm, found, Option.map_some, Option.map_some, Option.map_some, own]
      rfl
    · rw [if_neg (name ▸ equal), Option.map_map]
      refine Option.map_congr fun b _ => ?_
      exact (others i _ equal).symm

theorem Received.steady {a : Actor} {core : Core} {signals : List (Identity × Exit)}
    (received : Received w a core signals v) (found : w.find? id = some a) (same : core.id = a.id)
    (finished : core.isDone = a.core.isDone) (links : core.links = a.core.links) : Steady w v :=
  received.reshapes keyed records found same (by rw [finished, links]; rfl) fun _ _ _ => rfl

theorem steady_deliver (receiver sender : Identity) (reason : Exit) :
    Steady w (w.deliver receiver sender reason).world := by
  cases found : w.find? receiver with
  | none =>
    obtain ⟨v, sent, alike⟩ := deliver_absent found sender reason
    rw [sent]
    exact alike.steady keyed records
  | some a =>
    obtain ⟨-, v, sent, alike⟩ | ⟨-, v, sent, received⟩ :=
      deliver_quiet keyed found (records found) sender reason
    · rw [sent]
      exact alike.steady keyed records
    · rw [sent]
      exact received.steady keyed records found (a.id_coreAfter ..) (a.isDone_coreAfter ..)
        (a.links_coreAfter ..)

theorem steady_broadcast (sender : Identity) (reason : Exit) (peers : List Identity) :
    Steady w (broadcast sender reason peers w).world := by
  induction peers generalizing w with
  | nil => exact (Alike.refl w).steady keyed records
  | cons peer rest ih =>
    have emitted : Steady w (w.emit (.linkExit peer)) :=
      (alike_emit w (.linkExit peer) fun _ => rfl).steady keyed records
    have first := emitted.trans (steady_deliver emitted.keyed emitted.records peer sender reason)
    unfold broadcast
    revert first
    generalize (w.emit (.linkExit peer)).deliver peer sender reason = result
    intro first
    cases result with
    | error fault v => exact first
    | ok answer v => exact first.trans (ih first.keyed first.records)

theorem reshapes_ended {a : Actor} (found : w.find? a.id = some a) (alive : a.core.isDone = false)
    (reason : Exit) :
    Reshapes w (fun i o => if i = a.id then o.ended else o) (w.ended a reason) := by
  have received := (replaces_ended found alive reason).received (reactions_ended a reason)
  refine received.reshapes keyed records found rfl ?_ fun i o other => if_neg other
  rw [if_pos rfl, Outline.ended, Actor.outline, alive]
  rfl

theorem reshapes_terminate (id : Identity) (reason : Exit) :
    Reshapes w (fun i o => if i = id then o.ended else o) (w.terminate id reason).world := by
  cases found : w.find? id with
  | none =>
    obtain ⟨v, answered, alike⟩ := terminate_gone found reason
    rw [answered]
    exact .of_missing (alike.steady keyed records) found fun i o other => if_neg other
  | some a =>
    have name : a.id = id := keyed found
    subst name
    cases finished : a.core.isDone with
    | true =>
      obtain ⟨v, answered, alike⟩ := terminate_done found finished reason
      rw [answered]
      refine (alike.steady keyed records).congr fun i o present => ?_
      by_cases own : i = a.id
      · subst own
        rw [outline?, found] at present
        cases present
        simp [Outline.ended, Actor.outline, finished]
      · rw [if_neg own]
    | false =>
      have ended := reshapes_ended keyed records found finished reason
      have told := ended.trans (steady_broadcast ended.keyed ended.records a.id
        (a.core.finalReason reason) a.core.links.members)
      rw [terminate_alive keyed found finished, Outcome.world_concluding]
      exact told.trans ((alike_leaving ..).steady told.keyed told.records)

theorem reshapes_recordLink (id peer : Identity) :
    Reshapes w (fun i o => o.replay (w.joins i id peer)) (w.recordLink id peer).2 := by
  cases found : w.find? id with
  | none =>
    obtain ⟨v, answer, alike⟩ := recorded_missing found peer
    rw [answer]
    refine .of_missing (alike.steady keyed records) found fun i o other => ?_
    rw [joins_other other, Outline.replay_nil]
  | some a =>
    rcases recorded keyed found peer with ⟨admitted, v, answer, received⟩ | ⟨-, v, answer, alike⟩
    · have name : a.id = id := keyed found
      have different : peer ≠ id := by
        rintro rfl
        simp [admits, name] at admitted
      have joined : w.joins id id peer = [.joined peer] :=
        if_pos ⟨rfl, different, by rw [answer]; rfl⟩
      rw [answer]
      refine received.reshapes keyed records found rfl (by rw [joined]; rfl) fun i o other => ?_
      rw [joins_other other, Outline.replay_nil]
    · have unjoined (i : Identity) : w.joins i id peer = [] := by
        refine if_neg ?_
        rintro ⟨-, different, admitted⟩
        rw [answer, if_neg different] at admitted
        cases admitted
      rw [answer]
      refine (alike.steady keyed records).congr fun i o _ => ?_
      rw [unjoined, Outline.replay_nil]

theorem reshapes_linkThrough (handle peer : Identity) :
    Reshapes w (fun i o => o.replay (w.joins i handle peer)) (w.linkThrough handle peer).2 := by
  cases found : w.find? handle with
  | some a =>
    rw [linkThrough_found found]
    exact reshapes_recordLink keyed records handle peer
  | none =>
    rcases linkedThrough keyed handle peer with alike | ⟨a, present, -⟩
    · refine .of_missing (alike.steady keyed records) found fun i o other => ?_
      rw [joins_other other, Outline.replay_nil]
    · cases found.symm.trans present

theorem reshapes_link (id peer : Identity) :
    Reshapes w (fun i o => o.replay (w.linkEvents i id (.link peer))) (w.link id peer).2 := by
  have first := reshapes_recordLink keyed records id peer
  unfold link
  cases outcome : w.recordLink id peer with
  | mk answer v =>
    rw [outcome] at first
    cases answer with
    | error interrupt =>
      refine first.congr fun i o _ => ?_
      simp [linkEvents, outcome, Except.isOk, Except.toBool]
    | ok done =>
      refine (first.trans (reshapes_linkThrough first.keyed first.records peer id)).congr
        fun i o _ => ?_
      simp [linkEvents, outcome, Except.isOk, Except.toBool, Outline.replay_append]

theorem steady_forward (id sender : Identity) (reason : Exit) :
    Steady w (w.forward id sender reason).world := by
  cases found : w.find? id with
  | none =>
    unfold forward forwardWith
    split
    · exact (alike_emit _ _ fun _ => rfl).steady keyed records
    · have outcome := offered keyed id sender reason
      revert outcome
      generalize w.offer id sender reason = result
      rintro (⟨missing, alike⟩ | ⟨present, -, -⟩ | ⟨present, -, -, -⟩ | ⟨present, -, -⟩)
      · exact alike.steady keyed records
      all_goals cases found.symm.trans present
  | some a =>
    by_cases own : sender = id
    · subst own
      obtain ⟨v, sent, received⟩ := forward_own keyed found reason
      rw [sent]
      exact received.steady keyed records found rfl rfl rfl
    · obtain ⟨-, v, sent, alike⟩ | ⟨-, v, sent, received⟩ :=
        forward_quiet keyed found (records found) own reason
      · rw [sent]
        exact alike.steady keyed records
      · rw [sent]
        exact received.steady keyed records found (Core.id_taking ..) (Core.isDone_taking ..)
          (Core.links_taking ..)

theorem steady_start (id : Identity) : Steady w (w.start id).world := by
  unfold start
  cases found : w.find? id with
  | none => exact (Alike.refl w).steady keyed records
  | some a =>
    dsimp only
    cases started : a.core.start with
    | error refusal => exact (Alike.refl w).steady keyed records
    | ok core =>
      have received := received_changeCore found fun _ => core
      rw [changeCore_found found] at received
      exact received.steady keyed records found (Core.id_start started)
        (Core.isDone_start started) (Core.links_start started)

theorem steady_send (id : Identity) (message : Term) : Steady w (w.send id message) := by
  cases found : w.find? id with
  | none =>
    unfold send
    rw [found]
    dsimp only
    split
    · exact (alike_note _ _ _ fun _ => rfl).steady keyed records
    · exact (alike_emit _ _ fun _ => rfl).steady keyed records
  | some a =>
    exact (received_send keyed found message).steady keyed records found (Core.id_post ..)
      (Core.isDone_of_life (Core.life_post ..)) (Core.links_post ..)

theorem steady_setFlags (id : Identity) (flags : Flags) : Steady w (w.setFlags id flags) := by
  unfold setFlags
  cases found : w.find? id with
  | none => exact (Alike.refl w).steady keyed records
  | some a =>
    rw [Option.bind_some]
    split
    · exact (Alike.refl w).steady keyed records
    · refine ⟨keyed_setRole keyed found _, fun i b present => ?_, fun i => ?_, ?_, ?_⟩
      · rw [find?_setRole found] at present
        split at present
        · cases present
          rfl
        · exact records present
      · rw [outline?, outline?, find?_setRole found, Option.map_id']
        split
        · next same =>
          rw [same, found]
          rfl
        · rfl
      · rw [setRole, found]
      · rw [setRole, found]

theorem steady_changeCore (id : Identity) (f : Core → Core)
    (waited : ∀ c, Core.Waited c (f c)) : Steady w (w.changeCore id f) := by
  cases found : w.find? id with
  | none =>
    rw [changeCore_missing found]
    exact (Alike.refl w).steady keyed records
  | some a =>
    have waited := waited a.core
    exact (received_changeCore found f).steady keyed records found waited.id
      (Core.isDone_of_life waited.life) waited.links

theorem reshapes_unlink (id peer : Identity) :
    Reshapes w (fun i o => o.replay (w.linkEvents i id (.unlink peer))) (w.unlink id peer) := by
  cases found : w.find? id with
  | none =>
    rw [unlink, changeCore_missing found]
    refine .of_missing ((Alike.refl w).steady keyed records) found fun i o other => ?_
    rw [linkEvents, if_neg fun same => other same.1, Outline.replay_nil]
  | some a =>
    refine (received_changeCore found (·.eraseLink peer)).reshapes keyed records found rfl ?_
      fun i o other => ?_
    · rw [linkEvents, if_pos ⟨rfl, by rw [isAllocated, found]; rfl⟩]
      rfl
    · rw [linkEvents, if_neg fun same => other same.1, Outline.replay_nil]

/-- An operation gives every actor the outline that its link events and its end come to. -/
theorem reshapes_operate (id : Identity) (op : Operation) :
    Reshapes w (w.shape id op) (w.operate id op) := by
  cases op with
  | start => exact steady_start keyed records id
  | signal sender reason => exact steady_deliver keyed records id sender reason
  | forward sender reason => exact steady_forward keyed records id sender reason
  | terminate reason => exact reshapes_terminate keyed records id reason
  | send message => exact steady_send keyed records id message
  | record peer => exact reshapes_linkThrough keyed records id peer
  | link peer => exact reshapes_link keyed records id peer
  | unlink peer => exact reshapes_unlink keyed records id peer
  | poll errand sleeper ticket =>
    exact steady_changeCore keyed records id _ fun c => c.waited_polled errand sleeper ticket
  | cancel bell ticket =>
    exact steady_changeCore keyed records id _ fun c => c.waited_cancel bell ticket
  | setFlags flags => exact steady_setFlags keyed records id flags

theorem linkEvents_missing {i : Identity} (missing : w.outline? i = none) (id : Identity)
    (op : Operation) : w.linkEvents i id op = [] := by
  cases op with
  | record peer => exact joins_missing missing id peer
  | link peer =>
    have reshapes := reshapes_recordLink keyed records id peer
    have missing' : (w.recordLink id peer).2.outline? i = none := by
      rw [reshapes.outline, missing]
      rfl
    rw [linkEvents, joins_missing missing, joins_missing missing', ite_self]
    rfl
  | unlink peer =>
    refine if_neg fun ⟨same, allocated⟩ => ?_
    subst same
    simp [isAllocated, outline?] at allocated missing
    simp [missing] at allocated
  | _ => rfl

/-- Peers are taken in only while an actor or a stub is behind their identity. -/
theorem joined_known {i id peer : Identity} {op : Operation}
    (joined : .joined peer ∈ w.linkEvents i id op) : w.IsKnown peer := by
  cases op with
  | record other => exact known_of_joined joined
  | link other =>
    have reshapes := reshapes_recordLink keyed records id other
    rcases List.mem_append.mp joined with first | second
    · exact known_of_joined first
    · split at second
      · exact (reshapes.known peer).mp (known_of_joined second)
      · cases second
  | unlink other =>
    have events : w.linkEvents i id (.unlink other) = [.parted other] ∨
        w.linkEvents i id (.unlink other) = [] := ite_eq_or_eq ..
    rcases events with same | same
    · simp [same] at joined
    · simp [same] at joined
  | _ => cases joined

theorem linkEvents_over {i : Identity} {o : Outline} (present : w.outline? i = some o)
    (finished : o.isOver = true) (id : Identity) (op : Operation) :
    ∀ peer, .joined peer ∉ w.linkEvents i id op := by
  intro other joined
  cases op with
  | record peer =>
    rw [linkEvents, joins_over present finished] at joined
    cases joined
  | link peer =>
    have reshapes := reshapes_recordLink keyed records id peer
    have present' : (w.recordLink id peer).2.outline? i = some o := by
      rw [reshapes.outline, present, joins_over present finished]
      rfl
    rw [linkEvents, joins_over present finished, joins_over present' finished, ite_self] at joined
    cases joined
  | unlink peer =>
    have events : w.linkEvents i id (.unlink peer) = [.parted peer] ∨
        w.linkEvents i id (.unlink peer) = [] := ite_eq_or_eq ..
    rcases events with same | same <;> simp [same] at joined
  | _ => cases joined

theorem shape_over {i : Identity} (present : w.outline? i = some ⟨true, {}⟩) (id : Identity)
    (op : Operation) : w.shape id op i ⟨true, {}⟩ = ⟨true, {}⟩ := by
  have unjoined := linkEvents_over keyed records present rfl id op
  cases op with
  | terminate reason => exact ite_self _
  | _ => exact congrArg (Outline.mk true) (Links.replay_empty unjoined)

end Recording

end World

end Actors
