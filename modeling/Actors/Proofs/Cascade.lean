import Actors.Proofs.Broadcast

/-! Cascades. One end spreads along the links of started processes and ports. What a cascade leaves
behind depends on the set of the actors that have ended alone, and in the end this is the set of
those that the links reach, whichever pending actor ends first. -/
namespace Actors.World

structure Calm (w : World) : Prop where
  keyed : w.Keyed
  kind : ∀ ⦃i a⦄, w.find? i = some a →
    (∃ flags, a.role = .process flags) ∨ ∃ name owner, a.role = .port name owner
  started : ∀ ⦃i a⦄, w.find? i = some a → a.core.life = .running ∨ ∃ final, a.core.life = .done final
  apart : ∀ ⦃i a⦄, w.find? i = some a → i ∉ a.core.links.members

/-- Actors with a pending exit are told to end, one after another. -/
inductive Cascade : World → List Identity → World → Prop
  | nil (w : World) : Cascade w [] w
  | cons {w v u : World} {i : Identity} {a : Actor} {pending reason : Exit} {answer : Option Exit}
      {rest : List Identity} (found : w.find? i = some a) (exiting : a.core.life = .exiting pending)
      (ended : w.terminate i reason = .ok answer v) (later : Cascade v rest u) :
      Cascade w (i :: rest) u

theorem calm_of_entries {w : World}
    (named : ∀ entry ∈ w.actors.entries, entry.2.id = entry.1)
    (kind : ∀ entry ∈ w.actors.entries, entry.2.role.kind ≠ .plain)
    (started : ∀ entry ∈ w.actors.entries,
      entry.2.core.phase = .running ∨ entry.2.core.phase = .done)
    (apart : ∀ entry ∈ w.actors.entries, entry.1 ∉ entry.2.core.links.members) : Calm w := by
  refine ⟨keyed_of_entries named, fun i a found => ?_, fun i a found => ?_, fun i a found => ?_⟩
  · have plain := kind _ (Registry.mem_of_lookup found)
    cases role : a.role with
    | process flags => exact .inl ⟨flags, rfl⟩
    | port name owner => exact .inr ⟨name, owner, rfl⟩
    | plain hook => simp [role, Role.kind] at plain
  · have phase := started _ (Registry.mem_of_lookup found)
    cases life : a.core.life <;> simp_all [Core.phase, Life.phase]
  · exact apart _ (Registry.mem_of_lookup found)

def Settled (w : World) : Prop := ∀ i a, w.find? i = some a → a.core.phase ≠ .exiting

def lastReason (first : Identity) (reason : Exit) (i : Identity) : Exit :=
  if i = first then reason else if reason.isKill then .killed else reason

def LinkedTo (w : World) (i j : Identity) : Prop :=
  ∃ a, w.find? i = some a ∧ j ∈ a.core.links.members

def Spreads (w : World) (first : Identity) (reason : Exit) (i j : Identity) : Prop :=
  w.LinkedTo i j ∧ ∃ b, w.find? j = some b ∧ b.core.life = .running ∧
    (b.reaching i (lastReason first reason i)).isSome = true

def Falls (w : World) (first : Identity) (reason : Exit) : Identity → Prop :=
  Relation.ReflTransGen (w.Spreads first reason) first

variable {w v : World} {first : Identity} {reason : Exit} {fallen : List Identity}

def Hears (w : World) (first : Identity) (reason : Exit) (b : Actor) (i j : Identity) : Prop :=
  w.LinkedTo i j ∧ b.core.isDone = false ∧
    (b.trapping i (lastReason first reason i)).isSome = true

open Classical in
/-- The messages that an actor has received from the fallen. -/
noncomputable def news (w : World) (first : Identity) (reason : Exit) (fallen : List Identity)
    (b : Actor) (j : Identity) : List Term :=
  (fallen.filter fun i => decide (w.Hears first reason b i j)).map fun i =>
    .exitMessage i (lastReason first reason i)

def Struck (w : World) (first : Identity) (reason : Exit) (fallen : List Identity) (b : Actor)
    (j : Identity) : Prop :=
  ∃ i ∈ fallen, w.LinkedTo i j ∧ (b.reaching i (lastReason first reason i)).isSome = true

inductive Fate (w : World) (first : Identity) (reason : Exit) (fallen : List Identity) (b : Actor)
    (j : Identity) (c : Actor) : Prop
  | ended (member : j ∈ fallen) (life : c.core.life = .done (lastReason first reason j))
      (links : c.core.links.members = []) (queue : c.core.mailbox.queue = [])
  | pending (absent : j ∉ fallen) (runs : b.core.life = .running)
      (struck : w.Struck first reason fallen b j)
      (life : c.core.life = .exiting (lastReason first reason j)) (links : c.core.links = b.core.links)
  | spared (absent : j ∉ fallen) (missed : b.core.life = .running → ¬w.Struck first reason fallen b j)
      (life : c.core.life = b.core.life) (links : c.core.links = b.core.links)
      (queue : c.core.mailbox.queue = b.core.mailbox.queue ++ w.news first reason fallen b j)

structure Aftermath (w : World) (first : Identity) (reason : Exit) (fallen : List Identity)
    (v : World) : Prop where
  keyed : v.Keyed
  missing : ∀ i, w.find? i = none → v.find? i = none
  fate : ∀ i b, w.find? i = some b → ∃ c, v.find? i = some c ∧ c.role = b.role ∧
    Fate w first reason fallen b i c

theorem aftermath_refl (calm : Calm w) : Aftermath w first reason [] w := by
  refine ⟨calm.keyed, fun i missing => missing, fun i b found => ⟨b, found, rfl, ?_⟩⟩
  refine .spared List.not_mem_nil (fun _ => ?_) rfl rfl ?_
  · rintro ⟨j, member, -⟩
    cases member
  · simp [news]

/-- A request to kill is passed on as `killed`, and every other reason as it is. -/
theorem reaching_lastReason {b : Actor} {i : Identity} {taken : Exit}
    (kind : (∃ flags, b.role = .process flags) ∨ ∃ name owner, b.role = .port name owner)
    (reached : b.reaching i (lastReason first reason i) = some taken) :
    taken = if reason.isKill then .killed else reason := by
  have converted : taken = if (lastReason first reason i).isKill then .killed
      else lastReason first reason i := by
    unfold Actor.reaching Actor.screen Role.screen at reached
    rcases kind with ⟨flags, role⟩ | ⟨name, owner, role⟩
    · simp only [role] at reached
      split_ifs at reached <;> simp_all
    · simp only [role] at reached
      split_ifs at reached <;> simp_all
  rw [converted]
  unfold lastReason
  split_ifs with own kill killed <;> simp_all [Exit.isKill, Exit.isAtom, Exit.killed, Atom.killed, Atom.kill]

theorem struck_snoc {b : Actor} {i j : Identity} :
    w.Struck first reason (fallen ++ [i]) b j ↔ w.Struck first reason fallen b j ∨
      (w.LinkedTo i j ∧ (b.reaching i (lastReason first reason i)).isSome = true) := by
  unfold Struck
  constructor
  · rintro ⟨k, member, linked, reached⟩
    rcases List.mem_append.mp member with earlier | last
    · exact .inl ⟨k, earlier, linked, reached⟩
    · cases List.mem_singleton.mp last
      exact .inr ⟨linked, reached⟩
  · rintro (⟨k, member, linked, reached⟩ | ⟨linked, reached⟩)
    · exact ⟨k, List.mem_append_left _ member, linked, reached⟩
    · exact ⟨i, List.mem_append_right _ List.mem_cons_self, linked, reached⟩

theorem news_heard {b : Actor} {i j : Identity} (hears : w.Hears first reason b i j) :
    w.news first reason (fallen ++ [i]) b j
      = w.news first reason fallen b j ++ [.exitMessage i (lastReason first reason i)] := by
  simp [news, List.filter_append, hears]

theorem news_unheard {b : Actor} {i j : Identity} (unheard : ¬w.Hears first reason b i j) :
    w.news first reason (fallen ++ [i]) b j = w.news first reason fallen b j := by
  simp [news, List.filter_append, unheard]

section Fate

variable {b c : Actor} {i j : Identity} (other : j ≠ i)
include other

theorem not_mem_snoc (outside : j ∉ fallen) : j ∉ fallen ++ [i] := by
  simp [outside, other]

section Spared

variable (outside : j ∉ fallen)
  (missed : b.core.life = .running → ¬w.Struck first reason fallen b j)
  (life : c.core.life = b.core.life) (links : c.core.links = b.core.links)
  (queue : c.core.mailbox.queue = b.core.mailbox.queue ++ w.news first reason fallen b j)
include outside missed life links queue

theorem fate_untouched (unheard : ¬w.Hears first reason b i j)
    (unreached : b.core.life = .running → ¬(w.LinkedTo i j ∧
      (b.reaching i (lastReason first reason i)).isSome = true)) :
    Fate w first reason (fallen ++ [i]) b j c := by
  refine .spared (not_mem_snoc other outside) (fun runs struck => ?_) life links ?_
  · rcases struck_snoc.mp struck with earlier | reached
    · exact missed runs earlier
    · exact unreached runs reached
  · rw [queue, news_unheard unheard]

theorem fate_trapped (linked : w.LinkedTo i j) (alive : b.core.isDone = false) {trapped : Exit}
    (trap : b.trapping i (lastReason first reason i) = some trapped) :
    Fate w first reason (fallen ++ [i]) b j
      { c with core := c.core.post (.exitMessage i (lastReason first reason i)) } := by
  have hears : w.Hears first reason b i j := ⟨linked, alive, by rw [trap]; rfl⟩
  refine .spared (not_mem_snoc other outside) (fun runs struck => ?_) ?_ ?_ ?_
  · rcases struck_snoc.mp struck with earlier | ⟨-, reached⟩
    · exact missed runs earlier
    · simp [Actor.reaching_of_trapping trap] at reached
  · exact (Core.life_post ..).trans life
  · exact (Core.links_post ..).trans links
  · have alive' : c.core.isDone = false := by
      simpa only [Core.isDone, Core.phase, life] using alive
    have posted : (c.core.post (.exitMessage i (lastReason first reason i))).mailbox.queue
        = c.core.mailbox.queue ++ [.exitMessage i (lastReason first reason i)] := by
      simp [Core.post, alive']
    rw [posted, queue, news_heard hears, List.append_assoc]

theorem fate_running (linked : w.LinkedTo i j) (rooted : first ∈ fallen ++ [i])
    (kind : (∃ flags, b.role = .process flags) ∨ ∃ name owner, b.role = .port name owner)
    (runs : b.core.life = .running) (role : c.role = b.role) (name : c.id = b.id) :
    Fate w first reason (fallen ++ [i]) b j (c.after i (lastReason first reason i)) := by
  have same := Actor.reaching_congr role name i (lastReason first reason i)
  have same' := Actor.trapping_congr role name i (lastReason first reason i)
  have running : c.core.isRunning = true := Core.isRunning_iff.mpr (life.trans runs)
  have alive : b.core.isDone = false := by simp [Core.isDone, Core.phase, runs, Life.phase]
  cases trap : b.trapping i (lastReason first reason i) with
  | some trapped =>
    rw [Actor.after, Actor.coreAfter_trapping (same'.trans trap)]
    exact fate_trapped other outside missed life links queue linked alive trap
  | none =>
    rw [Actor.after, Actor.coreAfter_untrapped (same'.trans trap), same]
    cases reached : b.reaching i (lastReason first reason i) with
    | some taken =>
      -- the first of the fallen was running, and so is not the receiver
      have later : j ≠ first := by
        rintro rfl
        exact not_mem_snoc other outside rooted
      have last : lastReason first reason j = taken := by
        rw [lastReason, if_neg later, reaching_lastReason kind reached]
      rw [Core.taking_running running]
      refine .pending (not_mem_snoc other outside) runs (struck_snoc.mpr (.inr ⟨linked, ?_⟩)) ?_
        links
      · rw [reached]
        rfl
      · rw [last]
        rfl
    | none =>
      rw [Core.taking_none]
      refine fate_untouched other outside missed life links queue (fun hears => ?_)
        fun _ struck => ?_
      · simpa [trap] using hears.2.2
      · simpa [reached] using struck.2

end Spared

variable (fate : Fate w first reason fallen b j c)
include fate

theorem fate_unlinked (apart : ¬w.LinkedTo i j) :
    Fate w first reason (fallen ++ [i]) b j c := by
  cases fate with
  | ended member life links queue =>
    exact .ended (List.mem_append_left _ member) life links queue
  | pending outside runs struck life links =>
    exact .pending (not_mem_snoc other outside) runs (struck_snoc.mpr (.inl struck)) life links
  | spared outside missed life links queue =>
    exact fate_untouched other outside missed life links queue (fun hears => apart hears.1)
      fun _ struck => apart struck.1

theorem fate_linked (linked : w.LinkedTo i j) (rooted : first ∈ fallen ++ [i])
    (kind : (∃ flags, b.role = .process flags) ∨ ∃ name owner, b.role = .port name owner)
    (started : b.core.life = .running ∨ ∃ final, b.core.life = .done final)
    (role : c.role = b.role) (name : c.id = b.id) :
    Fate w first reason (fallen ++ [i]) b j (c.after i (lastReason first reason i)) := by
  cases fate with
  | ended member life links queue =>
    have finished : c.core.isDone = true := Core.isDone_iff.mpr ⟨_, life⟩
    rw [Actor.after, Actor.coreAfter_done finished]
    exact .ended (List.mem_append_left _ member) life links queue
  | pending outside runs struck life links =>
    have stopped : c.core.isRunning = false := by
      simp [Core.isRunning, Core.phase, life, Life.phase]
    refine .pending (not_mem_snoc other outside) runs (struck_snoc.mpr (.inl struck)) ?_ ?_
    · exact (Actor.life_coreAfter_stopped stopped ..).trans life
    · exact (Actor.links_coreAfter ..).trans links
  | spared outside missed life links queue =>
    rcases started with runs | ⟨final, ended⟩
    · exact fate_running other outside missed life links queue linked rooted kind runs role name
    · have finished : b.core.isDone = true := Core.isDone_iff.mpr ⟨final, ended⟩
      have finished' : c.core.isDone = true := Core.isDone_iff.mpr ⟨final, life.trans ended⟩
      rw [Actor.after, Actor.coreAfter_done finished']
      refine fate_untouched other outside missed life links queue (fun hears => ?_)
        fun runs _ => ?_
      · exact Bool.false_ne_true (hears.2.1.symm.trans finished)
      · cases runs.symm.trans ended

end Fate

theorem Fate.started {b c : Actor} {j : Identity} (fate : Fate w first reason fallen b j c)
    (started : b.core.life = .running ∨ ∃ final, b.core.life = .done final) :
    c.core.phase ≠ .init := by
  unfold Core.phase
  cases fate with
  | ended member life => simp [life, Life.phase]
  | pending absent runs struck life => simp [life, Life.phase]
  | spared absent missed life =>
    rcases started with runs | ⟨final, ended⟩
    · simp [life, runs, Life.phase]
    · simp [life, ended, Life.phase]

theorem Aftermath.known (aftermath : Aftermath w first reason fallen v) {i : Identity} {c : Actor}
    (found : v.find? i = some c) :
    ∃ b, w.find? i = some b ∧ c.role = b.role ∧ Fate w first reason fallen b i c := by
  cases known : w.find? i with
  | none => cases (aftermath.missing i known).symm.trans found
  | some b =>
    obtain ⟨d, present, role, fate⟩ := aftermath.fate i b known
    cases present.symm.trans found
    exact ⟨b, rfl, role, fate⟩

theorem Calm.quiet {b : Actor} {i : Identity} (calm : Calm w) (found : w.find? i = some b) :
    b.role.isQuiet = true := by
  rcases calm.kind found with ⟨flags, role⟩ | ⟨name, owner, role⟩
  · rw [role]; rfl
  · rw [role]; rfl

theorem Aftermath.quiet (aftermath : Aftermath w first reason fallen v) (calm : Calm w)
    (peers : List Identity) : v.Quiet peers := by
  intro peer _ c found
  obtain ⟨b, known, role, -⟩ := aftermath.known found
  rw [role]
  exact calm.quiet known

/-- No delivery raises, since every actor has been started. -/
theorem Aftermath.willing (aftermath : Aftermath w first reason fallen v) (calm : Calm w)
    (sender : Identity) (sent : Exit) (peer : Identity) : ¬v.Refuses sender sent peer := by
  rintro ⟨c, found, refused⟩
  obtain ⟨b, known, -, fate⟩ := aftermath.known found
  have born := fate.started (calm.started known)
  simp [Actor.refuses, born] at refused

/-- The end of one more actor, which all its links hear of. -/
theorem aftermath_step (calm : Calm w) (aftermath : Aftermath w first reason fallen v)
    {i : Identity} {b c : Actor} (known : w.find? i = some b) (found : v.find? i = some c)
    (links : c.core.links = b.core.links) (alive : c.core.isDone = false) (given : Exit)
    (last : c.core.finalReason given = lastReason first reason i) (rooted : first ∈ fallen ++ [i]) :
    ∃ u, v.terminate i given = .ok (some (lastReason first reason i)) u ∧
      Aftermath w first reason (fallen ++ [i]) u := by
  have name : c.id = i := aftermath.keyed found
  obtain ⟨u, answered, keyed, ended⟩ := terminate_ended aftermath.keyed found alive
    (aftermath.quiet calm _) given fun peer _ => aftermath.willing calm _ _ peer
  rw [last] at answered
  refine ⟨u, answered, keyed, fun j missing => ?_, fun j d present => ?_⟩
  · have different : j ≠ i := by
      rintro rfl
      cases known.symm.trans missing
    rw [ended.find?, name, if_neg different, aftermath.missing j missing]
    simp
  · obtain ⟨e, present', role, fate⟩ := aftermath.fate j d present
    rw [ended.find?, name]
    by_cases same : j = i
    · subst same
      cases known.symm.trans present
      cases found.symm.trans present'
      refine ⟨_, if_pos rfl, role, .ended (List.mem_append_right _ List.mem_cons_self) ?_ rfl rfl⟩
      rw [← last]
      rfl
    · rw [if_neg same]
      by_cases member : j ∈ c.core.links.members
      · have linked : w.LinkedTo i j := ⟨b, known, links ▸ member⟩
        rw [if_pos member, present', last]
        refine ⟨_, rfl, role, fate_linked same fate linked rooted (calm.kind present)
          (calm.started present) role ?_⟩
        exact (aftermath.keyed present').trans (calm.keyed present).symm
      · have apart : ¬w.LinkedTo i j := by
          rintro ⟨f, known', member'⟩
          cases known.symm.trans known'
          exact member (links ▸ member')
        rw [if_neg member, present']
        exact ⟨e, rfl, role, fate_unlinked same fate apart⟩

theorem Fate.exiting {b c : Actor} {j : Identity} {pending : Exit}
    (fate : Fate w first reason fallen b j c)
    (started : b.core.life = .running ∨ ∃ final, b.core.life = .done final)
    (life : c.core.life = .exiting pending) :
    j ∉ fallen ∧ b.core.life = .running ∧ w.Struck first reason fallen b j ∧
      pending = lastReason first reason j ∧ c.core.links = b.core.links := by
  cases fate with
  | ended member finished => cases finished.symm.trans life
  | pending absent runs struck last links =>
    cases last.symm.trans life
    exact ⟨absent, runs, struck, rfl, links⟩
  | spared absent missed same =>
    rcases started with runs | ⟨final, ended⟩
    · cases (same.trans runs).symm.trans life
    · cases (same.trans ended).symm.trans life

structure Toppled (w : World) (first : Identity) (reason : Exit) (fallen : List Identity) : Prop where
  rooted : first ∈ fallen
  distinct : fallen.Nodup
  ran : ∀ i ∈ fallen, ∃ b, w.find? i = some b ∧ b.core.life = .running
  reached : ∀ i ∈ fallen, w.Falls first reason i

/-- A pending actor can always be told to end, and its end carries the cascade on. -/
theorem pending_ends (calm : Calm w) (toppled : Toppled w first reason fallen)
    (aftermath : Aftermath w first reason fallen v) {i : Identity} {c : Actor} {pending : Exit}
    (found : v.find? i = some c) (exiting : c.core.life = .exiting pending) (given : Exit) :
    ∃ u, v.terminate i given = .ok (some (lastReason first reason i)) u ∧
      Aftermath w first reason (fallen ++ [i]) u ∧ Toppled w first reason (fallen ++ [i]) := by
  obtain ⟨b, known, role, fate⟩ := aftermath.known found
  obtain ⟨absent, runs, ⟨k, member, linked, reached⟩, last, links⟩ :=
    fate.exiting (calm.started known) exiting
  have alive : c.core.isDone = false := by simp [Core.isDone, Core.phase, exiting, Life.phase]
  have final : c.core.finalReason given = lastReason first reason i := by
    rw [← last]
    simp [Core.finalReason, exiting, Life.pending?]
  have rooted : first ∈ fallen ++ [i] := List.mem_append_left _ toppled.rooted
  obtain ⟨u, answered, after⟩ :=
    aftermath_step calm aftermath known found links alive given final rooted
  refine ⟨u, answered, after, rooted, ?_, fun j inside => ?_, fun j inside => ?_⟩
  · refine List.nodup_append.mpr ⟨toppled.distinct, List.nodup_singleton i, ?_⟩
    rintro j inside k last rfl
    exact absent (List.mem_singleton.mp last ▸ inside)
  · rcases List.mem_append.mp inside with earlier | here
    · exact toppled.ran j earlier
    · cases List.mem_singleton.mp here
      exact ⟨b, known, runs⟩
  · rcases List.mem_append.mp inside with earlier | here
    · exact toppled.reached j earlier
    · cases List.mem_singleton.mp here
      exact (toppled.reached k member).tail ⟨linked, b, known, runs, reached⟩

theorem cascade_aftermath (calm : Calm w) (toppled : Toppled w first reason fallen)
    (aftermath : Aftermath w first reason fallen v) {order : List Identity} {u : World}
    (cascade : Cascade v order u) :
    Aftermath w first reason (fallen ++ order) u ∧ Toppled w first reason (fallen ++ order) := by
  induction cascade generalizing fallen with
  | nil v => exact ⟨by simpa using aftermath, by simpa using toppled⟩
  | @cons v t u i c pending given answer rest found exiting ended later ih =>
    obtain ⟨t', answered, after, toppled'⟩ :=
      pending_ends calm toppled aftermath found exiting given
    cases ended.symm.trans answered
    simpa using ih toppled' after

theorem Toppled.length_le (toppled : Toppled w first reason fallen) :
    fallen.length ≤ w.running := by
  let ran := w.actors.entries.filter fun entry => entry.2.core.isRunning
  have inside : fallen ⊆ ran.map (·.1) := by
    intro i member
    obtain ⟨b, found, runs⟩ := toppled.ran i member
    have entry := Registry.mem_of_lookup found
    exact List.mem_map.mpr
      ⟨(i, b), List.mem_filter.mpr ⟨entry, Core.isRunning_iff.mpr runs⟩, rfl⟩
  have count : (ran.map (·.1)).length = w.running := by
    rw [List.length_map, ← List.countP_eq_length_filter, World.running, Registry.values,
      List.countP_map]
    rfl
  exact count ▸ (toppled.distinct.subperm inside).length_le

/-- Once nothing is pending, those that have fallen are those that the links reach. -/
theorem settled_mem_iff {u : World} (toppled : Toppled w first reason fallen)
    (aftermath : Aftermath w first reason fallen u) (settled : u.Settled) (i : Identity) :
    i ∈ fallen ↔ w.Falls first reason i := by
  constructor
  · exact toppled.reached i
  · intro falls
    induction falls with
    | refl => exact toppled.rooted
    | tail reached spreads ih =>
      obtain ⟨linked, b, known, runs, accepted⟩ := spreads
      obtain ⟨c, found, -, fate⟩ := aftermath.fate _ b known
      cases fate with
      | ended member => exact member
      | pending absent runs struck life =>
        exact absurd (by simp [Core.phase, life, Life.phase]) (settled _ c found)
      | spared absent missed => exact absurd ⟨_, ih, linked, accepted⟩ (missed runs)

/-- What a settled cascade has made of an actor: one that falls has ended, and one that does not
keeps its state and has a message from each of the fallen whose signals it traps. -/
structure Verdict (w : World) (first : Identity) (reason : Exit) (i : Identity) (b c : Actor) :
    Prop where
  role : c.role = b.role
  fallen : w.Falls first reason i → b.core.life = .running ∧
    c.core.life = .done (lastReason first reason i) ∧ c.core.links.members = [] ∧
    c.core.mailbox.queue = []
  spared : ¬w.Falls first reason i → c.core.life = b.core.life ∧ c.core.links = b.core.links ∧
    ∃ senders : List Identity, senders.Nodup ∧
      (∀ s, s ∈ senders ↔ w.Falls first reason s ∧ w.Hears first reason b s i) ∧
      c.core.mailbox.queue = b.core.mailbox.queue
        ++ senders.map fun s => .exitMessage s (lastReason first reason s)

/-- A settled cascade leaves every actor with its verdict. -/
theorem settled_verdict {u : World} (toppled : Toppled w first reason fallen)
    (aftermath : Aftermath w first reason fallen u) (settled : u.Settled) {i : Identity} {b : Actor}
    (known : w.find? i = some b) :
    ∃ c, u.find? i = some c ∧ Verdict w first reason i b c := by
  classical
  have members := settled_mem_iff toppled aftermath settled
  obtain ⟨c, found, role, fate⟩ := aftermath.fate i b known
  refine ⟨c, found, role, fun falls => ?_, fun stands => ?_⟩
  · cases fate with
    | ended member life links queue =>
      obtain ⟨d, known', runs⟩ := toppled.ran i member
      cases known.symm.trans known'
      exact ⟨runs, life, links, queue⟩
    | pending absent => exact absurd ((members i).mpr falls) absent
    | spared absent => exact absurd ((members i).mpr falls) absent
  · cases fate with
    | ended member => exact absurd ((members i).mp member) stands
    | pending absent runs struck life =>
      exact absurd (by simp [Core.phase, life, Life.phase]) (settled i c found)
    | spared absent missed life links queue =>
      refine ⟨life, links, fallen.filter fun s => decide (w.Hears first reason b s i),
        toppled.distinct.filter _, fun s => ?_, ?_⟩
      · simp [← members s]
      · rw [queue, news]

/-- The end of a running actor is a cascade of one, whose links have heard of it. -/
theorem cascade_begins (calm : Calm w) {a : Actor} (found : w.find? first = some a)
    (runs : a.core.life = .running) (reason : Exit) :
    ∃ v, w.terminate first reason = .ok (some reason) v ∧
      Aftermath w first reason [first] v ∧ Toppled w first reason [first] := by
  have alive : a.core.isDone = false := by simp [Core.isDone, Core.phase, runs, Life.phase]
  have last : a.core.finalReason reason = lastReason first reason first := by
    simp [Core.finalReason, runs, Life.pending?, lastReason]
  obtain ⟨v, answered, after⟩ := aftermath_step calm (aftermath_refl calm) found found rfl alive
    reason last List.mem_cons_self
  refine ⟨v, ?_, after, List.mem_cons_self, List.nodup_singleton first, ?_, ?_⟩
  · simpa [lastReason] using answered
  · intro i member
    cases List.mem_singleton.mp member
    exact ⟨a, found, runs⟩
  · intro i member
    cases List.mem_singleton.mp member
    exact .refl

/-- A cascade ends after as many ends as there were running actors at most, none of which raises, in
a world that does not depend on their order, up to the order of the messages of each survivor. -/
theorem cascade_order_independent (calm : Calm w) {a : Actor} (found : w.find? first = some a)
    (runs : a.core.life = .running) (reason : Exit) :
    ∃ v, w.terminate first reason = .ok (some reason) v ∧
      (∀ order u, Cascade v order u → order.length + 1 ≤ w.running ∧
        ∀ i c, u.find? i = some c → c.core.phase = .exiting → ∀ given,
          ∃ t, u.terminate i given = .ok (some (lastReason first reason i)) t) ∧
      (∀ order u, Cascade v order u → u.Settled →
        (∀ i, w.find? i = none → u.find? i = none) ∧
        ∀ i b, w.find? i = some b → ∃ c, u.find? i = some c ∧ Verdict w first reason i b c) ∧
      (∀ order u order' u', Cascade v order u → u.Settled → Cascade v order' u' → u'.Settled →
        ∀ i b, w.find? i = some b → ∃ c c', u.find? i = some c ∧ u'.find? i = some c' ∧
          c.role = c'.role ∧ c.core.life = c'.core.life ∧ c.core.links = c'.core.links ∧
          (c.core.phase ≠ .done → ∃ letters letters', letters.Perm letters' ∧
            c.core.mailbox.queue = b.core.mailbox.queue ++ letters ∧
            c'.core.mailbox.queue = b.core.mailbox.queue ++ letters')) := by
  obtain ⟨v, answered, after, toppled⟩ := cascade_begins calm found runs reason
  refine ⟨v, answered, fun order u cascade => ?_, fun order u cascade settled => ?_,
    fun order u order' u' cascade settled cascade' settled' i b known => ?_⟩
  · obtain ⟨after', toppled'⟩ := cascade_aftermath calm toppled after cascade
    refine ⟨by simpa using toppled'.length_le, fun i c present exiting given => ?_⟩
    obtain ⟨pending, life⟩ : ∃ pending, c.core.life = .exiting pending := by
      cases life : c.core.life <;> simp_all [Core.phase, Life.phase]
    obtain ⟨t, ended, -⟩ := pending_ends calm toppled' after' present life given
    exact ⟨t, ended⟩
  · obtain ⟨after', toppled'⟩ := cascade_aftermath calm toppled after cascade
    exact ⟨after'.missing, fun i b known => settled_verdict toppled' after' settled known⟩
  · obtain ⟨one, toppled₁⟩ := cascade_aftermath calm toppled after cascade
    obtain ⟨two, toppled₂⟩ := cascade_aftermath calm toppled after cascade'
    obtain ⟨c, present, verdict⟩ := settled_verdict toppled₁ one settled known
    obtain ⟨c', present', verdict'⟩ := settled_verdict toppled₂ two settled' known
    refine ⟨c, c', present, present', verdict.role.trans verdict'.role.symm, ?_⟩
    by_cases falls : w.Falls first reason i
    · obtain ⟨-, life, links, queue⟩ := verdict.fallen falls
      obtain ⟨-, life', links', queue'⟩ := verdict'.fallen falls
      refine ⟨life.trans life'.symm, ?_, fun alive => ?_⟩
      · cases linked : c.core.links
        cases linked' : c'.core.links
        simp_all
      · simp [Core.phase, life, Life.phase] at alive
    · obtain ⟨life, links, senders, distinct, members, queue⟩ := verdict.spared falls
      obtain ⟨life', links', senders', distinct', members', queue'⟩ := verdict'.spared falls
      refine ⟨life.trans life'.symm, links.trans links'.symm, fun alive => ?_⟩
      have same : senders.Perm senders' :=
        (List.perm_ext_iff_of_nodup distinct distinct').mpr fun s =>
          (members s).trans (members' s).symm
      exact ⟨_, _, same.map _, queue, queue'⟩

/-- A process linked to one that traps exits, to another process, and to a port of this other, which
is linked to the port as well. -/
def household : World :=
  let id (n : Nat) (tag : Tag) : Identity := .ofSerial n tag
  let links (peers : List Identity) : Links := peers.foldl (·.insert ·) {}
  let entry (i : Identity) (role : Role) (peers : List Identity) : Identity × Actor :=
    (i, { core := { id := i, life := .running, links := links peers }, role })
  { actors := ⟨[
      entry (id 1 .process) (.process .empty) [id 2 .process, id 3 .process, id 4 .port],
      entry (id 2 .process) (.process .trap) [id 1 .process],
      entry (id 3 .process) (.process .empty) [id 1 .process, id 4 .port],
      entry (id 4 .port) (.port ⟨"tty"⟩ (id 3 .process)) [id 3 .process]]⟩
    serial := 5 }

theorem household_falls_alike : ∃ v, household.terminate (.ofSerial 1 .process) .noproc
      = .ok (some .noproc) v ∧
    ∀ order u, Cascade v order u → order.length + 1 ≤ 4 := by
  have calm : Calm household :=
    calm_of_entries (by decide) (by decide) (by decide) (by decide)
  obtain ⟨a, found, runs⟩ : ∃ a, household.find? (.ofSerial 1 .process) = some a ∧
    a.core.life = .running := ⟨_, rfl, rfl⟩
  obtain ⟨v, answered, bounded, -⟩ := cascade_order_independent calm found runs .noproc
  exact ⟨v, answered, fun order u cascade => (bounded order u cascade).1⟩

end Actors.World
