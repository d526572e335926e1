import Mathlib.Algebra.Order.Group.Multiset
import Mathlib.Logic.Relation
import Actors.World.Signal

/-! Changes of a world. Work on signals and ends proceeds by changes of three kinds: something is
written that is no reaction, an actor accepts a signal and reacts to it, or the core of an actor
that is not done is adjusted. What one change keeps, every such work keeps. -/
namespace Actors

def Event.reactionOf (id : Identity) : Event → Option (Identity × Exit)
  | .processExiting process sender reason => if process = id then some (sender, reason) else none
  | .portClosing port _ sender reason => if port = id then some (sender, reason) else none
  | _ => none

def Note.reactionOf (id : Identity) : Identity × Note → Option (Identity × Exit)
  | (actor, .hook sender reason _) => if actor = id then some (sender, reason) else none
  | _ => none

def Journal.reactions (j : Journal) (id : Identity) : Multiset (Identity × Exit) :=
  (j.records.filterMap fun record => record.event.reactionOf id : List (Identity × Exit))
    + (j.notes.filterMap (Note.reactionOf id) : List (Identity × Exit))

namespace Core

def finalReason (c : Core) (reason : Exit) : Exit := c.life.pending?.getD reason

def ended (c : Core) (reason : Exit) : Core :=
  { c with life := .done (c.finalReason reason), links := {}, mailbox := c.mailbox.clear }.alert

inductive Adjusts (c : Core) : Core → Prop
  | finish (reason : Exit) : Adjusts c (c.ended reason)
  | post (message : Term) : Adjusts c (c.post message)
  | unlink (peer : Identity) : Adjusts c (c.eraseLink peer)

theorem isDone_iff {c : Core} : c.isDone = true ↔ ∃ final, c.life = .done final := by
  cases life : c.life <;> simp [isDone, phase, life, Life.phase]

theorem offer_accepted {c core : Core} {reason : Exit} :
    c.offer reason = .ok (.accepted, core) ↔
      c.life = .running ∧ core = { c with life := .exiting reason }.alert := by
  cases c with
  | mk id life mailbox links exitWaits => cases life <;> simp [offer, Life.accept, eq_comm]

theorem finish_alive {c : Core} (alive : c.isDone = false) (reason : Exit) :
    c.finish reason = (some (c.finalReason reason, c.links.members), c.ended reason) := by
  cases c with
  | mk id life mailbox links exitWaits =>
    cases life with
    | done final => cases alive
    | init => rfl
    | running => rfl
    | exiting first => rfl

theorem finish_done {c : Core} (finished : c.isDone = true) (reason : Exit) :
    c.finish reason = (none, c) := by
  obtain ⟨final, life⟩ := isDone_iff.mp finished
  simp [finish, life, Life.finish]

@[simp] theorem id_post (c : Core) (message : Term) : (c.post message).id = c.id := by
  unfold post; split <;> rfl

@[simp] theorem life_post (c : Core) (message : Term) : (c.post message).life = c.life := by
  unfold post; split <;> rfl

@[simp] theorem links_post (c : Core) (message : Term) : (c.post message).links = c.links := by
  unfold post; split <;> rfl

theorem Adjusts.id_eq {c core : Core} (adjusted : c.Adjusts core) : core.id = c.id := by
  cases adjusted with
  | finish reason => rfl
  | post message => exact id_post c message
  | unlink peer => rfl

def isRunning (c : Core) : Bool := c.phase == .running

theorem Adjusts.running {c core : Core} (adjusted : c.Adjusts core) (now : core.isRunning = true) :
    c.isRunning = true := by
  cases adjusted with
  | finish reason => cases now
  | post message => simpa [isRunning, phase] using now
  | unlink peer => exact now

end Core

namespace Registry

variable {α : Type}

theorem countP_place (p : α → Bool) (i : Identity) (value old : α)
    (entries : List (Identity × α)) (found : lookup i entries = some old) :
    ((place i value entries).map (·.2)).countP p + (if p old then 1 else 0)
      = (entries.map (·.2)).countP p + (if p value then 1 else 0) := by
  induction entries with
  | nil => simp [lookup] at found
  | cons entry rest ih =>
    obtain ⟨other, first⟩ := entry
    unfold place
    split
    · next same =>
      have equal : first = old := by simpa [lookup, same] using found
      subst equal
      simp only [List.map_cons, List.countP_cons]
      omega
    · next different =>
      have later : lookup i rest = some old := by simpa [lookup, different] using found
      have count := ih later
      simp only [List.map_cons, List.countP_cons]
      omega

theorem mem_of_lookup {i : Identity} {value : α} {entries : List (Identity × α)}
    (found : lookup i entries = some value) : (i, value) ∈ entries := by
  induction entries with
  | nil => simp [lookup] at found
  | cons entry rest ih =>
    obtain ⟨other, first⟩ := entry
    unfold lookup at found
    split at found
    · next same =>
      cases found
      exact same ▸ List.mem_cons_self
    · exact List.mem_cons_of_mem _ (ih found)

theorem countP_put (r : Registry α) (p : α → Bool) {i : Identity} (value : α) {old : α}
    (found : r.find? i = some old) :
    (r.put i value).values.countP p + (if p old then 1 else 0)
      = r.values.countP p + (if p value then 1 else 0) :=
  countP_place p i value old r.entries found

end Registry

namespace World

def Outcome.world {α : Type} : Outcome α → World
  | .ok _ w => w
  | .error _ w => w

@[simp] theorem Outcome.world_ok {α : Type} (a : α) (w : World) :
    Outcome.world (.ok a w : Outcome α) = w := rfl

@[simp] theorem Outcome.world_error {α : Type} (fault : Fault) (w : World) :
    Outcome.world (.error fault w : Outcome α) = w := rfl

def Keyed (w : World) : Prop := ∀ ⦃i : Identity⦄ ⦃a : Actor⦄, w.find? i = some a → a.id = i

theorem keyed_of_entries {w : World}
    (named : ∀ entry ∈ w.actors.entries, entry.2.id = entry.1) : w.Keyed :=
  fun _ _ found => named _ (Registry.mem_of_lookup found)

def reactions (w : World) (id : Identity) : Multiset (Identity × Exit) := w.journal.reactions id

/-- The second world differs from the first in what was written at most, reactions apart, and in the
drivers that were called. -/
structure Alike (w w' : World) : Prop where
  actors : w'.actors = w.actors
  stubs : w'.stubs = w.stubs
  serial : w'.serial = w.serial
  reactions : ∀ i, w'.reactions i = w.reactions i

namespace Alike

variable {w w' w'' : World}

theorem refl (w : World) : Alike w w := ⟨rfl, rfl, rfl, fun _ => rfl⟩

theorem trans (first : Alike w w') (second : Alike w' w'') : Alike w w'' :=
  ⟨second.actors.trans first.actors, second.stubs.trans first.stubs,
    second.serial.trans first.serial, fun i => (second.reactions i).trans (first.reactions i)⟩

theorem find? (alike : Alike w w') (i : Identity) : w'.find? i = w.find? i := by
  simp only [World.find?, alike.actors]

theorem running (alike : Alike w w') : w'.running = w.running := by
  simp only [World.running, alike.actors]

theorem keyed (alike : Alike w w') (keyed : w.Keyed) : w'.Keyed :=
  fun i _ found => keyed (alike.find? i ▸ found)

end Alike

theorem reactions_emit (w : World) (event : Event) (i : Identity) :
    (w.emit event).reactions i = w.reactions i + ((event.reactionOf i).toList : List _) := by
  simp only [reactions, emit, Journal.emit, Journal.reactions, List.filterMap_append,
    ← Multiset.coe_add]
  cases told : event.reactionOf i <;>
    simp [told, List.filterMap, -Multiset.coe_add, add_right_comm]

theorem reactions_note (w : World) (id : Identity) (note : Note) (i : Identity) :
    (w.note id note).reactions i
      = w.reactions i + ((Note.reactionOf i (id, note)).toList : List _) := by
  simp only [reactions, World.note, Journal.note, Journal.reactions, List.filterMap_append,
    ← Multiset.coe_add]
  cases told : Note.reactionOf i (id, note) <;>
    simp [told, List.filterMap, -Multiset.coe_add, add_assoc]

theorem alike_emit (w : World) (event : Event) (quiet : ∀ i, event.reactionOf i = none) :
    Alike w (w.emit event) :=
  ⟨rfl, rfl, rfl, fun i => by simp [reactions_emit, quiet]⟩

theorem alike_note (w : World) (id : Identity) (note : Note)
    (quiet : ∀ i, Note.reactionOf i (id, note) = none) : Alike w (w.note id note) :=
  ⟨rfl, rfl, rfl, fun i => by simp [reactions_note, quiet]⟩

def entering (w : World) (span : Span) : World := { w with journal := w.journal.enter span }

def leaving (after w : World) : World :=
  { after with journal := { after.journal with spans := w.journal.spans } }

theorem alike_entering (w : World) (span : Span) : Alike w (w.entering span) :=
  ⟨rfl, rfl, rfl, fun _ => rfl⟩

theorem alike_leaving (after w : World) : Alike after (after.leaving w) :=
  ⟨rfl, rfl, rfl, fun _ => rfl⟩

theorem within_ok {α : Type} {w v : World} {span : Span} {work : World → Outcome α} {a : α}
    (worked : work (w.entering span) = .ok a v) : w.within span work = .ok a (v.leaving w) := by
  unfold within
  rw [show { w with journal := w.journal.enter span } = w.entering span from rfl, worked]
  rfl

theorem within_error {α : Type} {w v : World} {span : Span} {work : World → Outcome α}
    {fault : Fault} (worked : work (w.entering span) = .error fault v) :
    w.within span work = .error fault (v.leaving w) := by
  unfold within
  rw [show { w with journal := w.journal.enter span } = w.entering span from rfl, worked]
  rfl

structure Replaces (w : World) (a : Actor) (core : Core) (w' : World) : Prop where
  found : w.find? a.id = some a
  alive : a.core.isDone = false
  actors : w'.actors = w.actors.put a.id { a with core }
  stubs : w'.stubs = w.stubs
  serial : w'.serial = w.serial

theorem Replaces.find? {w w' : World} {a : Actor} {core : Core} (replaces : Replaces w a core w')
    (i : Identity) : w'.find? i = if i = a.id then some { a with core } else w.find? i := by
  rw [World.find?, replaces.actors]
  exact Registry.find?_put ..

inductive Change (w w' : World) : Prop
  | quiet (alike : Alike w w')
  | accept {a : Actor} {core : Core} {sender : Identity} {reason : Exit}
      (replaces : Replaces w a core w') (other : sender ≠ a.id)
      (accepted : a.core.offer reason = .ok (.accepted, core))
      (reactions : ∀ i,
        w'.reactions i = w.reactions i + if i = a.id then {(sender, reason)} else 0)
  | adjust {a : Actor} {core : Core} (replaces : Replaces w a core w')
      (adjusted : a.core.Adjusts core) (reactions : ∀ i, w'.reactions i = w.reactions i)

def Changes : World → World → Prop := Relation.ReflTransGen Change

namespace Replaces

variable {w w' : World} {a : Actor} {core : Core}

theorem keyed (replaces : Replaces w a core w') (same : core.id = a.id) (keyed : w.Keyed) :
    w'.Keyed := by
  intro i b found
  rw [replaces.find?] at found
  split at found
  · next equal =>
    cases found
    exact same.trans equal.symm
  · exact keyed found

theorem running (replaces : Replaces w a core w') :
    w'.running + (if a.core.isRunning then 1 else 0)
      = w.running + (if core.isRunning then 1 else 0) := by
  unfold World.running
  rw [replaces.actors]
  exact Registry.countP_put w.actors (fun a => a.core.isRunning) _ replaces.found

/-- An actor that is done is none whose core is replaced. -/
theorem done (replaces : Replaces w a core w') {i : Identity} {b : Actor}
    (found : w.find? i = some b) (ended : b.core.isDone = true) : i ≠ a.id := by
  rintro rfl
  cases replaces.found.symm.trans found
  exact Bool.false_ne_true (replaces.alive.symm.trans ended)

end Replaces

namespace Change

variable {w w' : World}

theorem keyed (change : Change w w') (keyed : w.Keyed) : w'.Keyed := by
  cases change with
  | quiet alike => exact alike.keyed keyed
  | accept replaces other accepted =>
    refine replaces.keyed ?_ keyed
    rw [(Core.offer_accepted.mp accepted).2]
    rfl
  | adjust replaces adjusted => exact replaces.keyed adjusted.id_eq keyed

/-- No change sets an actor running. -/
theorem running_le (change : Change w w') : w'.running ≤ w.running := by
  cases change with
  | quiet alike => exact alike.running.le
  | accept replaces other accepted =>
    have count := replaces.running
    rw [(Core.offer_accepted.mp accepted).2] at count
    have stopped (c : Core) (reason : Exit) :
        ({ c with life := .exiting reason }.alert).isRunning = false := rfl
    simp only [stopped, Bool.false_eq_true, if_false] at count
    omega
  | @adjust a core replaces adjusted =>
    have count := replaces.running
    by_cases now : core.isRunning = true
    · simp only [now, adjusted.running now, if_true] at count
      omega
    · simp only [now, Bool.false_eq_true, if_false] at count
      omega

/-- An actor that is done stays as it is and reacts to nothing. -/
theorem done (change : Change w w') {i : Identity} {a : Actor} (found : w.find? i = some a)
    (ended : a.core.isDone = true) :
    w'.find? i = some a ∧ w'.reactions i = w.reactions i := by
  cases change with
  | quiet alike => exact ⟨(alike.find? i).trans found, alike.reactions i⟩
  | accept replaces other accepted reactions =>
    have different := replaces.done found ended
    simp [replaces.find?, reactions, different, found]
  | adjust replaces adjusted reactions =>
    have different := replaces.done found ended
    simp [replaces.find?, reactions, different, found]

end Change

namespace Changes

variable {w w' w'' : World}

theorem refl (w : World) : Changes w w := Relation.ReflTransGen.refl

theorem trans (first : Changes w w') (second : Changes w' w'') : Changes w w'' :=
  Relation.ReflTransGen.trans first second

theorem of_change (change : Change w w') : Changes w w' := Relation.ReflTransGen.single change

theorem of_alike (alike : Alike w w') : Changes w w' := of_change (.quiet alike)

theorem keyed (changes : Changes w w') (keyed : w.Keyed) : w'.Keyed := by
  induction changes with
  | refl => exact keyed
  | tail earlier change ih => exact change.keyed ih

theorem running_le (changes : Changes w w') : w'.running ≤ w.running := by
  induction changes with
  | refl => exact le_rfl
  | tail earlier change ih => exact change.running_le.trans ih

theorem done (changes : Changes w w') {i : Identity} {a : Actor} (found : w.find? i = some a)
    (ended : a.core.isDone = true) :
    w'.find? i = some a ∧ w'.reactions i = w.reactions i := by
  induction changes with
  | refl => exact ⟨found, rfl⟩
  | tail earlier change ih =>
    obtain ⟨present, same⟩ := ih
    exact ⟨(change.done present ended).1, (change.done present ended).2.trans same⟩

end Changes

end World

end Actors
