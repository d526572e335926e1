import Actors.Proofs.Operation
import Actors.Proofs.Stroke

/-! Dealings. An operation on an actor deals a stroke or two itself; all other strokes in the course of
it come from the signals that it sends and from those that follow them. -/
namespace Actors

namespace Operation

def isWait : Operation → Bool
  | poll _ _ _ | cancel _ _ => true
  | _ => false

def isDealing : Operation → Bool
  | setFlags _ => false
  | op => !op.isWait

inductive Deals (id : Identity) : Operation → Identity → Stroke → Prop
  | start : Deals id .start id .start
  | forward (sender : Identity) (reason : Exit) :
      Deals id (.forward sender reason) id (.accept sender reason)
  | terminate (reason : Exit) : Deals id (.terminate reason) id (.finish reason)
  | send (message : Term) : Deals id (.send message) id (.post message)
  | record (peer : Identity) : Deals id (.record peer) id (.join peer)
  | link (peer : Identity) : Deals id (.link peer) id (.join peer)
  | linkBack (peer : Identity) : Deals id (.link peer) peer (.join id)
  | unlink (peer : Identity) : Deals id (.unlink peer) id (.part peer)

def Sends (traffic : World.Traffic) (w : World) (id : Identity) : Operation → Prop
  | signal sender reason | forward sender reason => traffic w id sender reason
  | terminate reason => ∀ a, w.find? id = some a → a.core.isDone = false →
      ∀ peer ∈ a.core.links.members, traffic (w.ended a reason) peer id (a.core.finalReason reason)
  | _ => True

theorem sends_any (op : Operation) (w : World) (id : Identity) :
    op.Sends (fun _ _ _ _ => True) w id := by
  cases op <;> simp [Sends]

end Operation

namespace World

variable {may : World → Actor → Stroke → Prop} {w : World}

section Own

variable (keyed : w.Keyed)
include keyed

theorem strikes_start {id : Identity} (allowed : ∀ a, w.find? id = some a → may w a .start) :
    Strikes may w (w.start id).world := by
  unfold start
  cases found : w.find? id with
  | none => exact .refl w
  | some a =>
    have name : a.id = id := keyed found
    subst name
    cases started : a.core.start with
    | error refusal =>
      simp only [started]
      exact .refl w
    | ok core =>
      obtain ⟨unborn, same⟩ : a.core.life = .init ∧ core = a.core.struck .start := by
        cases life : a.core.life <;> simp [Core.start, life, Life.start, Except.map] at started
        exact ⟨rfl, started.symm⟩
      subst same
      simp only [started]
      exact .of_strike (.strike found unborn (allowed a found))

theorem strikes_recordLink {id peer : Identity}
    (allowed : ∀ a, w.find? id = some a → may w a (.join peer)) :
    Strikes may w (w.recordLink id peer).2 := by
  unfold recordLink
  split
  · exact .refl w
  · split
    · exact .emit ..
    · split
      · exact .refl w
      · next a found =>
        split
        · exact .emit ..
        · next alive =>
          exact .changeCore keyed found (·.insertLink peer) (.join peer) rfl
            (Bool.eq_false_of_not_eq_true alive) (allowed a found)

theorem strikes_linkThrough {handle peer : Identity}
    (allowed : ∀ a, w.find? handle = some a → may w a (.join peer)) :
    Strikes may w (w.linkThrough handle peer).2 := by
  unfold linkThrough
  split
  · exact strikes_recordLink keyed allowed
  · split
    · exact .refl w
    · exact .note ..

theorem strikes_link {id peer : Identity} (own : ∀ v a, a.id = id → may v a (.join peer))
    (back : ∀ v a, a.id = peer → may v a (.join id)) : Strikes may w (w.link id peer).2 := by
  have first : Strikes may w (w.recordLink id peer).2 :=
    strikes_recordLink keyed fun a found => own w a (keyed found)
  unfold link
  revert first
  generalize w.recordLink id peer = result
  intro first
  obtain ⟨_ | _, v⟩ := result
  · exact first
  · have keyed' := first.keyed keyed
    exact first.trans (strikes_linkThrough keyed' fun a found => back v a (keyed' found))

/-- Every stroke in the course of an operation is dealt by it or has a cause in the signals. -/
theorem strikes_operate {traffic : Traffic} (spreads : traffic.Spreads) {id : Identity}
    {op : Operation} (dealing : op.isDealing = true) (sends : op.Sends traffic w id) :
    Strikes (fun w a stroke => Cause traffic w a stroke ∨ op.Deals id a.id stroke) w
      (w.operate id op) := by
  cases op with
  | start => exact strikes_start keyed fun a found => .inr (keyed found ▸ .start)
  | signal sender reason =>
    exact (strikes_deliver spreads keyed sends).mono fun _ _ _ cause => .inl cause
  | forward sender reason =>
    exact strikes_forward spreads keyed (fun _ _ _ cause => .inl cause) sends
      fun journal a found => .inr (keyed found ▸ .forward sender reason)
  | terminate reason =>
    exact strikes_terminate spreads keyed (fun _ _ _ cause => .inl cause)
      (fun journal a found => .inr (keyed found ▸ .terminate reason)) sends
  | send message =>
    exact strikes_send keyed id message fun a found => .inr (keyed found ▸ .send message)
  | record peer =>
    exact strikes_linkThrough keyed fun a found => .inr (keyed found ▸ .record peer)
  | link peer =>
    refine strikes_link keyed (fun v a name => .inr (name ▸ .link peer)) fun v a name => .inr ?_
    rw [name]
    exact .linkBack peer
  | unlink peer =>
    rw [operate, unlink]
    cases found : w.find? id with
    | none =>
      rw [changeCore_missing found]
      exact .refl w
    | some a =>
      exact .changeCore keyed found (·.eraseLink peer) (.part peer) rfl trivial
        (.inr (keyed found ▸ .unlink peer))
  | poll errand sleeper ticket => cases dealing
  | cancel bell ticket => cases dealing
  | setFlags flags => cases dealing

end Own

end World

end Actors
