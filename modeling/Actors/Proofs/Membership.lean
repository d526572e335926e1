import Actors.Links.Session
import Actors.Node.Step
import Actors.Proofs.History

/-! Membership. A link set holds who was put in and not taken out since, in the order of the identities,
whatever was done to it and to its copy. Handles compare as their identities do, so that an entry is
found by its identity alone. -/
namespace Actors

namespace Identity

theorem compare_bits (i j : Identity) : compare i j = compare i.bits j.bits := by
  change compareOfLessAndEq i j = compareOfLessAndEq i.bits j.bits
  unfold compareOfLessAndEq
  obtain ⟨bits⟩ := i
  obtain ⟨bits'⟩ := j
  simp only [mk.injEq]
  rfl

theorem compare_eq_lt {i j : Identity} : compare i j = .lt ↔ i < j := by
  rw [compare_bits]
  exact Std.compare_eq_lt

theorem compare_eq_gt {i j : Identity} : compare i j = .gt ↔ j < i := by
  rw [compare_bits]
  exact Std.compare_eq_gt

end Identity

namespace Links

theorem eq_of_mem {s t : Links} (same : ∀ i, i ∈ s.members ↔ i ∈ t.members) : s = t := by
  have members : s.members = t.members := s.ordered.eq_of_mem_iff t.ordered same
  cases s
  cases members
  rfl

theorem contains_iff {s : Links} {i : Identity} : s.contains i = true ↔ i ∈ s.members :=
  List.contains_iff_mem

theorem mem_inserts {s : Links} {ids : List Identity} {i : Identity} :
    i ∈ (ids.foldl insert s).members ↔ i ∈ ids ∨ i ∈ s.members := by
  induction ids generalizing s with
  | nil => simp
  | cons j rest ih =>
    rw [List.foldl_cons, ih, mem_insert, List.mem_cons]
    tauto

/-- Where an identity is in an ordered list, or would be. -/
theorem split_at (i : Identity) {members : List Identity} (ordered : members.Pairwise (· < ·)) :
    members = members.filter (· < i) ++ (if i ∈ members then [i] else []) ++
      members.filter (i < ·) := by
  refine ordered.eq_of_mem_iff ?_ fun j => ?_
  · have own : (if i ∈ members then [i] else []).Pairwise (· < ·) := by
      split <;> simp
    refine List.pairwise_append.mpr ⟨List.pairwise_append.mpr ⟨ordered.filter _, own, ?_⟩,
      ordered.filter _, ?_⟩
    · intro j below k same
      obtain ⟨-, rfl⟩ : i ∈ members ∧ k = i := by simpa using same
      simpa using (List.mem_filter.mp below).2
    · intro j upTo k above
      have more : i < k := by simpa using (List.mem_filter.mp above).2
      rcases List.mem_append.mp upTo with below | same
      · have less : j < i := by simpa using (List.mem_filter.mp below).2
        exact Identity.lt_trans less more
      · obtain ⟨-, rfl⟩ : i ∈ members ∧ j = i := by simpa using same
        exact more
  · by_cases same : j = i
    · subst same
      simp [Identity.lt_irrefl]
    · by_cases less : j < i
      · have notMore : ¬i < j := fun more => Identity.lt_irrefl j (Identity.lt_trans less more)
        simp [same, less, notMore]
      · simp [same, less, Identity.lt_of_not_lt_of_ne less same]

/-- By the comparison of handles the entries are before an identity, then it alone if it is contained,
and then after it: a search by the identity ends where its entry is. -/
def FoundBy (s : Links) (w : World) (i : Identity) : Prop :=
  ∃ below above, s.members = below ++ (if s.contains i then [i] else []) ++ above ∧
    (∀ j ∈ below, (Node.comparison w j i).order = .lt) ∧
    (Node.comparison w i i).order = .eq ∧
    ∀ j ∈ above, (Node.comparison w j i).order = .gt

theorem foundBy (s : Links) (w : World) (i : Identity) : s.FoundBy w i := by
  refine ⟨s.members.filter (· < i), s.members.filter (i < ·), ?_, fun j member => ?_, ?_,
    fun j member => ?_⟩
  · simp only [contains_iff]
    exact split_at i s.ordered
  · exact Identity.compare_eq_lt.mpr (by simpa using (List.mem_filter.mp member).2)
  · exact (Identity.compare_bits i i).trans (Std.compare_eq_iff_eq.mpr rfl)
  · exact Identity.compare_eq_gt.mpr (by simpa using (List.mem_filter.mp member).2)

def Answer.Says (answer : Answer) (fact : Prop) : Prop :=
  ∃ value, answer = .flag value ∧ (value = true ↔ fact)

namespace Session

/-- Who was put in and taken out since a set was last drained. A copy takes this along. -/
structure Lines where
  links : List LinkEvent := []
  spare : List LinkEvent := []

def Lines.next (lines : Lines) : Command → Lines
  | .insert i => { lines with links := lines.links ++ [.joined i] }
  | .remove i => { lines with links := lines.links ++ [.parted i] }
  | .drain => { lines with links := [] }
  | .save => { lines with spare := lines.links }
  | .restore => { lines with links := lines.spare }
  | .contains _ | .pretty => lines

def lines (commands : List Command) : Lines := commands.foldl Lines.next {}

def after (s : Session) (commands : List Command) : Session :=
  commands.foldl (fun s command => (s.perform command).2) s

def Lines.session (lines : Lines) : Session := ⟨.replay {} lines.links, .replay {} lines.spare⟩

theorem perform_session (lines : Lines) (command : Command) :
    (lines.session.perform command).2 = (lines.next command).session := by
  cases command with
  | insert | remove =>
    simp only [Lines.session, Lines.next, replay_append]
    rfl
  | _ => rfl

theorem after_eq (commands : List Command) : after {} commands = (lines commands).session := by
  induction commands using List.reverseRecOn with
  | nil => rfl
  | append_singleton commands command ih =>
    rw [after, List.foldl_append, lines, List.foldl_append]
    exact (congrArg (fun s => (perform s command).2) ih).trans (perform_session ..)

theorem after_append (s : Session) (first later : List Command) :
    s.after (first ++ later) = (s.after first).after later := List.foldl_append

theorem spare_perform {s : Session} {command : Command} (other : command ≠ .save) :
    (s.perform command).2.spare = s.spare := by
  cases command with
  | save => exact absurd rfl other
  | _ => rfl

/-- Nothing but a new copy changes a copy. -/
theorem spare_after (s : Session) {commands : List Command} (others : .save ∉ commands) :
    (s.after commands).spare = s.spare := by
  induction commands generalizing s with
  | nil => rfl
  | cons command rest ih =>
    simp only [List.mem_cons, not_or] at others
    exact (ih _ others.2).trans (spare_perform (Ne.symm others.1))

theorem after_inserts (s : Session) (ids : List Identity) :
    s.after (ids.map .insert) = ⟨ids.foldl Links.insert s.links, s.spare⟩ := by
  induction ids generalizing s with
  | nil => rfl
  | cons i rest ih => exact ih _

structure Holds (lines : Lines) (s : Session) : Prop where
  ordered : s.links.members.Pairwise fun i j => i.bits < j.bits
  once : s.links.members.Nodup
  stays : ∀ i, i ∈ s.links.members ↔ Stays i lines.links
  copied : ∀ i, i ∈ s.spare.members ↔ Stays i lines.spare
  insert : ∀ i, (s.perform (.insert i)).1.Says (¬Stays i lines.links)
  remove : ∀ i, (s.perform (.remove i)).1.Says (Stays i lines.links)
  contains : ∀ i, (s.perform (.contains i)).1.Says (Stays i lines.links)
  drain : s.perform .drain = (.members s.links.members, { s with links := {} })
  found : ∀ w i, s.links.FoundBy w i

theorem Lines.holds (lines : Lines) : Holds lines lines.session where
  ordered := lines.session.links.ordered
  once := World.nodup_members _
  stays i := mem_replay
  copied i := mem_replay
  insert i := ⟨_, rfl, by simp [contains_iff, Lines.session, mem_replay, ← Bool.not_eq_true]⟩
  remove i := ⟨_, rfl, contains_iff.trans mem_replay⟩
  contains i := ⟨_, rfl, contains_iff.trans mem_replay⟩
  drain := rfl
  found := foundBy _

/-- Whatever is done to an empty set and its copy: each holds, in the order of the words, who was put in
and not taken out since, and answers accordingly. A copy stays as it was made, and it does not matter in
which order and how often identities are put in. Handles compare as the words of their identities. -/
theorem sessions_hold_sets (commands : List Command) :
    Holds (lines commands) (after {} commands) ∧
      (∀ later, .save ∉ later →
        (after {} (commands ++ .save :: later)).spare = (after {} commands).links ∧
        (after {} (commands ++ .save :: later ++ [.restore])).links = (after {} commands).links) ∧
      (∀ ids ids' : List Identity, (∀ i, i ∈ ids ↔ i ∈ ids') →
        after {} (commands ++ ids.map .insert) = after {} (commands ++ ids'.map .insert)) ∧
      ∀ w i j, (Node.comparison w i j).order = compare i.bits j.bits ∧
        ∀ order, (Node.comparison w i j).typed = some order →
          order = (Node.comparison w i j).order := by
  refine ⟨after_eq commands ▸ (lines commands).holds, fun later others => ?_,
    fun ids ids' same => ?_, fun w i j => ⟨Identity.compare_bits i j, fun order typed => ?_⟩⟩
  · have copied : (after {} (commands ++ .save :: later)).spare = (after {} commands).links := by
      rw [after_append]
      exact spare_after _ others
    refine ⟨copied, ?_⟩
    rw [after_append]
    exact copied
  · rw [after_append, after_append, after_inserts, after_inserts]
    refine congrArg (Session.mk · _) (eq_of_mem fun i => ?_)
    rw [mem_inserts, mem_inserts, same]
  · exact (Option.some.inj (Option.ite_none_right_eq_some.mp typed).2).symm

theorem swapped_inserts_hold :
    let a : Identity := .ofSerial 2 .process
    let b : Identity := .ofSerial 1 .port
    .save ∉ [Command.drain, .insert b] ∧
      (after {} [.insert a, .save, .drain, .insert b, .restore]).links.members = [a] ∧
      (after {} [.insert a, .insert b]).links.members = [b, a] ∧
      after {} [.insert a, .insert b] = after {} [.insert b, .insert a] := by
  intro a b
  have others : .save ∉ [Command.drain, .insert b] := by simp
  obtain ⟨-, copies, -, -⟩ := sessions_hold_sets [.insert a]
  obtain ⟨-, -, orders, -⟩ := sessions_hold_sets []
  exact ⟨others, congrArg members (copies _ others).2, rfl,
    orders [a, b] [b, a] fun i => by simp [or_comm]⟩

end Session

end Links

end Actors
