import Actors.Life.Session
import Mathlib.Data.List.Induction

/-! Biographies. What a new life was told, with what it answered, is its story. At most one signal is
accepted in it and at most one end comes, and the life follows from the two, as does every answer it
still has to give. -/
namespace Actors

namespace Life

abbrev Chapter := Command × Answer

namespace Chapter

def isStart : Chapter → Bool
  | (.start, .nothing) => true
  | _ => false

def accepted? : Chapter → Option Exit
  | (.accept reason, .acceptance .accepted) => some reason
  | _ => none

def final? : Chapter → Option Exit
  | (.finish _, .exit final) => final
  | _ => none

end Chapter

def after (life : Life) (commands : List Command) : Life :=
  commands.foldl (fun life command => (life.perform command).2) life

def story (life : Life) (commands : List Command) : List Chapter :=
  commands.zip ((life.performAll commands).map Prod.fst)

def acceptances (story : List Chapter) : List Exit := story.filterMap Chapter.accepted?

def endings (story : List Chapter) : List Exit := story.filterMap Chapter.final?

def told (story : List Chapter) : Life :=
  match endings story, acceptances story with
  | final :: _, _ => done final
  | [], reason :: _ => exiting reason
  | [], [] => if story.any Chapter.isStart then running else init

variable {life : Life} {command : Command} {commands : List Command} {story : List Chapter}

theorem performAll_append (life : Life) (first later : List Command) :
    life.performAll (first ++ later) =
      life.performAll first ++ (life.after first).performAll later := by
  induction first generalizing life with
  | nil => rfl
  | cons command rest ih => simp [performAll, after, ih]

theorem length_performAll (life : Life) (commands : List Command) :
    (life.performAll commands).length = commands.length := by
  induction commands generalizing life with
  | nil => rfl
  | cons command rest ih => simp [performAll, ih]

theorem after_append (life : Life) (first later : List Command) :
    life.after (first ++ later) = (life.after first).after later := List.foldl_append

theorem story_append (life : Life) (first later : List Command) :
    life.story (first ++ later) = life.story first ++ (life.after first).story later := by
  simp [Life.story, performAll_append, List.zip_append, length_performAll]

theorem acceptances_snoc (story : List Chapter) (chapter : Chapter) :
    acceptances (story ++ [chapter]) = acceptances story ++ chapter.accepted?.toList := by
  cases given : chapter.accepted? <;> simp [acceptances, given]

theorem endings_snoc (story : List Chapter) (chapter : Chapter) :
    endings (story ++ [chapter]) = endings story ++ chapter.final?.toList := by
  cases given : chapter.final? <;> simp [endings, given]

/-- What a story says of the life that it is the story of: who was accepted before the end is who the
end names. -/
def Tells (story : List Chapter) : Life → Prop
  | init => acceptances story = [] ∧ endings story = [] ∧ story.any Chapter.isStart = false
  | running => acceptances story = [] ∧ endings story = [] ∧ story.any Chapter.isStart = true
  | exiting reason => acceptances story = [reason] ∧ endings story = []
  | done final => (acceptances story = [] ∨ acceptances story = [final]) ∧ endings story = [final]

theorem tells_perform (tells : Tells story life) (onward : command ≠ .reset) :
    Tells (story ++ [(command, (life.perform command).1)]) (life.perform command).2 := by
  -- a life that is done accepts nothing and ends no more, so the two lists stay
  cases life <;> cases command <;>
    simp_all [Tells, perform, Life.start, accept, finish, acceptances_snoc, endings_snoc,
      Chapter.accepted?, Chapter.final?, Chapter.isStart]

theorem tells_after (onward : .reset ∉ commands) :
    Tells (init.story commands) (init.after commands) := by
  induction commands using List.reverseRecOn with
  | nil => exact ⟨rfl, rfl, rfl⟩
  | append_singleton commands command ih =>
    rw [story_append, after_append]
    simp only [List.mem_append, List.mem_singleton, not_or] at onward
    exact tells_perform (ih onward.1) (Ne.symm onward.2)

theorem Tells.told (tells : Tells story life) : life = told story := by
  cases life <;> simp_all [Tells, Life.told]

structure Onward (l m : Life) : Prop where
  phase : l.phase ≤ m.phase
  reason : ∀ r, l.reason? = some r → m.reason? = some r

theorem Onward.trans {l m n : Life} (first : Onward l m) (second : Onward m n) : Onward l n :=
  ⟨Nat.le_trans first.phase second.phase, fun r kept => second.reason r (first.reason r kept)⟩

theorem onward_perform (life : Life) (onward : command ≠ .reset) :
    Onward life (life.perform command).2 := by
  constructor
  · change life.phase.rank ≤ (life.perform command).2.phase.rank
    cases life <;> cases command <;>
      simp_all [perform, Life.start, accept, finish, phase, Phase.rank]
  · cases life <;> cases command <;> simp_all [perform, Life.start, accept, finish, reason?]

theorem onward_after (life : Life) (onward : .reset ∉ commands) :
    Onward life (life.after commands) := by
  induction commands using List.reverseRecOn with
  | nil => exact ⟨Nat.le_refl _, fun _ kept => kept⟩
  | append_singleton commands command ih =>
    simp only [List.mem_append, List.mem_singleton, not_or] at onward
    rw [after_append]
    exact (ih onward.1).trans (onward_perform _ (Ne.symm onward.2))

structure Follows (story : List Chapter) (life : Life) : Prop where
  told : life = told story
  accepted : (acceptances story).length ≤ 1
  ended : (endings story).length ≤ 1
  unrecorded : life.reason? = none ↔ life.phase = .init ∨ life.phase = .running
  surfaced : life.surfaced? = life.reason?
  pending : life.pending? = if life.phase = .exiting then life.reason? else none
  start : (∃ e, (life.perform .start).1 = .raised e) ↔ life.phase ≠ .init
  signal : ∀ reason, (∃ e, (life.perform (.accept reason)).1 = .raised e) ↔ life.phase = .init
  later : ∀ reason, (life.perform (.accept reason)).1 = .acceptance .pending ↔
    acceptances story ≠ [] ∧ endings story = []
  late : ∀ reason, (life.perform (.accept reason)).1 = .acceptance .done ↔ endings story ≠ []
  /-- An accepted signal goes before the reason that the life is ended with. -/
  finish : ∀ reason, (life.perform (.finish reason)).1 =
    .exit (if (endings story).isEmpty then some ((acceptances story).headD reason) else none)
  unchanged : ∀ command e, (life.perform command).1 = .raised e → (life.perform command).2 = life

/-- A life follows from the two facts that its story tells. -/
theorem Tells.follows (tells : Tells story life) : Follows story life where
  told := tells.told
  accepted := by
    cases life <;> simp [Tells] at tells
    case done => rcases tells.1 with given | given <;> simp [given]
    all_goals simp [tells]
  ended := by cases life <;> simp_all [Tells]
  unrecorded := by cases life <;> simp [reason?, phase]
  surfaced := by cases life <;> rfl
  pending := by cases life <;> rfl
  start := by cases life <;> simp [perform, Life.start, phase]
  signal reason := by cases life <;> simp [perform, accept, phase]
  later reason := by cases life <;> simp_all [Tells, perform, accept]
  late reason := by cases life <;> simp_all [Tells, perform, accept]
  finish reason := by cases life <;> simp_all [Tells, perform, Life.finish]
  unchanged command e raised := by
    cases life <;> cases command <;> simp_all [perform, Life.start, accept, Life.finish]

/-- Whatever a new life is told, but to begin anew: it is what its story tells, in which at most one
signal was accepted and at most one end came, and answers accordingly. It never goes back to an earlier
phase, and once there is a reason, it stays. -/
theorem life_follows_story (commands : List Command) (onward : .reset ∉ commands) :
    Follows (init.story commands) (init.after commands) ∧
    ∀ before later, commands = before ++ later →
      Onward (init.after before) (init.after commands) := by
  refine ⟨(tells_after onward).follows, fun before later split => ?_⟩
  subst split
  rw [after_append]
  exact onward_after _ fun reset => onward (List.mem_append_right _ reset)

def troubled : List Command :=
  [.accept .kill, .start, .start, .accept (.atom ⟨"crash"⟩), .accept .kill, .finish .normal,
    .accept .kill, .finish .normal]

theorem troubled_follows :
    .reset ∉ troubled ∧ Follows (init.story troubled) (init.after troubled) ∧
      Onward (init.after (troubled.take 4)) (init.after troubled) ∧
      acceptances (init.story troubled) = [.atom ⟨"crash"⟩] ∧
      endings (init.story troubled) = [.atom ⟨"crash"⟩] := by
  have onward : Command.reset ∉ troubled := by simp [troubled]
  obtain ⟨follows, prefixes⟩ := life_follows_story troubled onward
  exact ⟨onward, follows, prefixes _ (troubled.drop 4) rfl, rfl, rfl⟩

end Life

end Actors
