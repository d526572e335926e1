import Actors.Proofs.Outline
import Mathlib.Data.List.Sort

/-! Histories. From the empty world on, identities are given out in increasing order, and what the
links of an actor are when it ends is told by the link events on it so far. -/
namespace Actors

namespace Identity

theorem toNat_ofSerial {serial : Nat} (bound : serial ≤ maxSerial) (tag : Tag) :
    (ofSerial serial tag).bits.toNat = serial * 2 ^ 4 + tag.bits.toNat := by
  have small : tag.bits.toNat < 2 ^ 4 := by cases tag <;> decide
  have fits : serial < 2 ^ 60 := Nat.lt_of_le_pred (by decide) bound
  have room : serial <<< 4 < 2 ^ 64 := by
    rw [Nat.shiftLeft_eq]
    omega
  have shifted : (UInt64.ofNat serial <<< 4).toNat = serial <<< 4 := by
    have whole : serial % 2 ^ 64 = serial := Nat.mod_eq_of_lt (by omega)
    have places : UInt64.toNat 4 % 64 = 4 := by decide
    rw [UInt64.toNat_shiftLeft, UInt64.toNat_ofNat', places, whole]
    exact Nat.mod_eq_of_lt room
  rw [ofSerial, UInt64.toNat_or, shifted, ← Nat.shiftLeft_add_eq_or_of_lt small, Nat.shiftLeft_eq]

theorem ofSerial_lt {serial later : Nat} (less : serial < later) (bound : later ≤ maxSerial)
    (tag tag' : Tag) : ofSerial serial tag < ofSerial later tag' := by
  have small : tag.bits.toNat < 2 ^ 4 := by cases tag <;> decide
  apply UInt64.lt_iff_toNat_lt.mpr
  rw [toNat_ofSerial (less.le.trans bound), toNat_ofSerial bound]
  omega

instance : Std.Irrefl fun i j : Identity => i < j := ⟨lt_irrefl⟩

instance : Std.Antisymm fun i j : Identity => i < j where
  antisymm _ _ less more := absurd (lt_trans less more) (lt_irrefl _)

end Identity

inductive Action
  | allocate (tag : Tag) (role : Role)
  | allocateStub (tag : Tag) (stub : Stub)
  | setStub (id : Identity) (isLive : Bool)
  | free (id : Identity)
  | operate (id : Identity) (op : Operation)

def Action.isQuiet : Action → Bool
  | allocate _ role => role.isQuiet
  | _ => true

namespace World

def setStub (w : World) (id : Identity) (isLive : Bool) : World :=
  match w.stubs.find? id with
  | none => w
  | some stub => { w with stubs := w.stubs.put id { stub with isLive } }

/-- The world after an action, also after one that ends with a fault. -/
def act (w : World) : Action → World
  | .allocate tag role => (w.issue (·.allocate tag role)).world
  | .allocateStub tag stub => (w.issue (·.allocateStub tag stub)).world
  | .setStub id isLive => w.setStub id isLive
  | .free id => w.free id
  | .operate id op => w.operate id op

def run (w : World) (actions : List Action) : World := actions.foldl act w

def born (w : World) : Action → List Identity
  | .allocate tag _ | .allocateStub tag _ =>
    if w.serial ≤ Identity.maxSerial then [.ofSerial w.serial tag] else []
  | _ => []

def births : World → List Action → List Identity
  | _, [] => []
  | w, action :: rest => w.born action ++ births (w.act action) rest

def actEvents (w : World) (i : Identity) : Action → List LinkEvent
  | .operate id op => w.linkEvents i id op
  | _ => []

def history (w : World) (i : Identity) : List Action → List LinkEvent
  | [] => []
  | action :: rest => w.actEvents i action ++ history (w.act action) i rest

structure Grown (births : List Identity) (w : World) : Prop where
  keyed : w.Keyed
  records : w.Records
  serial : w.serial ≤ Identity.maxSerial + 1
  ordered : births.Pairwise (· < ·)
  earlier : ∀ i ∈ births, ∃ serial < w.serial, ∃ tag, i = .ofSerial serial tag
  actors : ∀ ⦃i o⦄, w.outline? i = some o → i ∈ births ∧ ∀ peer ∈ o.links.members, peer ∈ births
  stubs : ∀ ⦃i stub⦄, w.stubs.find? i = some stub → i ∈ births ∧ w.outline? i = none

variable {w v : World} {given : List Identity}

theorem world_issue (w : World) (make : World → Identity × World) :
    (w.issue make).world = if w.serial ≤ Identity.maxSerial then (make w).2 else w := by
  unfold issue
  split <;> rfl

theorem find?_allocate (w : World) (tag : Tag) (role : Role) (i : Identity) :
    (w.allocate tag role).2.find? i = if i = .ofSerial w.serial tag
      then some { core := { id := .ofSerial w.serial tag }, role } else w.find? i :=
  Registry.find?_put ..

theorem find?_free (w : World) (id i : Identity) :
    (w.free id).find? i = if i = id then none else w.find? i := by
  rw [World.find?, free, Registry.erase, Registry.find?_keep]
  by_cases same : i = id <;> simp [same, World.find?]

theorem outline?_allocate (w : World) (tag : Tag) (role : Role) (i : Identity) :
    (w.allocate tag role).2.outline? i
      = if i = .ofSerial w.serial tag then some ⟨false, {}⟩ else w.outline? i := by
  rw [outline?, find?_allocate]
  split <;> rfl

theorem outline?_free (w : World) (id i : Identity) :
    (w.free id).outline? i = if i = id then none else w.outline? i := by
  rw [outline?, find?_free]
  split <;> rfl

namespace Grown

theorem empty : Grown [] {} := by
  refine ⟨fun i a found => ?_, fun i a found => ?_, by decide, .nil, fun i member => ?_,
    fun i o present => ?_, fun i stub found => ?_⟩
  · cases found
  · cases found
  · cases member
  · cases present
  · cases found

theorem fresh (grown : Grown given w) (room : w.serial ≤ Identity.maxSerial) (tag : Tag) :
    ∀ i ∈ given, i < .ofSerial w.serial tag := by
  intro i member
  obtain ⟨serial, less, tag', rfl⟩ := grown.earlier i member
  exact Identity.ofSerial_lt less room ..

theorem unused (grown : Grown given w) (room : w.serial ≤ Identity.maxSerial) (tag : Tag) :
    Identity.ofSerial w.serial tag ∉ given :=
  fun member => Identity.lt_irrefl _ (grown.fresh room tag _ member)

/-- The given identities with the next one, in a world that has one serial less left. -/
theorem ordered_next (grown : Grown given w) (room : w.serial ≤ Identity.maxSerial) (tag : Tag) :
    (given ++ [Identity.ofSerial w.serial tag]).Pairwise (· < ·) ∧
      ∀ i ∈ given ++ [Identity.ofSerial w.serial tag],
        ∃ serial < w.serial + 1, ∃ tag, i = .ofSerial serial tag := by
  refine ⟨List.pairwise_append.mpr ⟨grown.ordered, List.pairwise_singleton .., ?_⟩, ?_⟩
  · intro i member j last
    exact List.mem_singleton.mp last ▸ grown.fresh room tag i member
  · intro i member
    rcases List.mem_append.mp member with before | last
    · obtain ⟨serial, less, named⟩ := grown.earlier i before
      exact ⟨serial, less.trans (Nat.lt_succ_self _), named⟩
    · exact ⟨w.serial, Nat.lt_succ_self _, tag, List.mem_singleton.mp last⟩

theorem allocate (grown : Grown given w) (room : w.serial ≤ Identity.maxSerial) (tag : Tag)
    {role : Role} (quiet : role.isQuiet = true) :
    Grown (given ++ [.ofSerial w.serial tag]) (w.allocate tag role).2 := by
  obtain ⟨ordered, earlier⟩ := grown.ordered_next room tag
  refine ⟨fun i a found => ?_, fun i a found => ?_, Nat.succ_le_succ room, ordered, earlier,
    fun i o present => ?_, fun i stub found => ?_⟩
  · rw [find?_allocate] at found
    split at found
    · next same =>
      cases found
      exact same.symm
    · exact grown.keyed found
  · rw [find?_allocate] at found
    split at found
    · cases found
      exact quiet
    · exact grown.records found
  · rw [outline?_allocate] at present
    split at present
    · next same =>
      cases present
      exact ⟨by simp [same], fun peer member => by cases member⟩
    · obtain ⟨member, links⟩ := grown.actors present
      exact ⟨List.mem_append_left _ member,
        fun peer inside => List.mem_append_left _ (links peer inside)⟩
  · obtain ⟨member, apart⟩ := grown.stubs found
    refine ⟨List.mem_append_left _ member, ?_⟩
    rw [outline?_allocate, if_neg, apart]
    rintro rfl
    exact grown.unused room tag member

theorem allocateStub (grown : Grown given w) (room : w.serial ≤ Identity.maxSerial) (tag : Tag)
    (stub : Stub) : Grown (given ++ [.ofSerial w.serial tag]) (w.allocateStub tag stub).2 := by
  obtain ⟨ordered, earlier⟩ := grown.ordered_next room tag
  refine ⟨grown.keyed, grown.records, Nat.succ_le_succ room, ordered, earlier,
    fun i o present => ?_, fun i other found => ?_⟩
  · obtain ⟨member, links⟩ := grown.actors present
    exact ⟨List.mem_append_left _ member,
      fun peer inside => List.mem_append_left _ (links peer inside)⟩
  · have found := (Registry.find?_put ..).symm.trans found
    split at found
    · next same =>
      refine ⟨by simp [same], ?_⟩
      cases present : w.outline? i with
      | none => exact present
      | some o => exact absurd (same ▸ (grown.actors present).1) (grown.unused room tag)
    · obtain ⟨member, apart⟩ := grown.stubs found
      exact ⟨List.mem_append_left _ member, apart⟩

theorem setStub (grown : Grown given w) (id : Identity) (isLive : Bool) :
    Grown given (w.setStub id isLive) := by
  unfold World.setStub
  split
  · exact grown
  · next stub known =>
    refine ⟨grown.keyed, grown.records, grown.serial, grown.ordered, grown.earlier, grown.actors,
      fun i other found => ?_⟩
    have found := (Registry.find?_put ..).symm.trans found
    split at found
    · next same =>
      subst same
      exact grown.stubs known
    · exact grown.stubs found

theorem free (grown : Grown given w) (id : Identity) : Grown given (w.free id) := by
  refine ⟨fun i a found => ?_, fun i a found => ?_, grown.serial, grown.ordered, grown.earlier,
    fun i o present => ?_, fun i stub found => ?_⟩
  · rw [find?_free] at found
    split at found
    · cases found
    · exact grown.keyed found
  · rw [find?_free] at found
    split at found
    · cases found
    · exact grown.records found
  · rw [outline?_free] at present
    split at present
    · cases present
    · exact grown.actors present
  · obtain ⟨member, apart⟩ := grown.stubs found
    refine ⟨member, ?_⟩
    rw [outline?_free, apart, ite_self]

theorem known (grown : Grown given w) {i : Identity} (known : w.IsKnown i) : i ∈ given := by
  rcases known with present | found
  · obtain ⟨o, present⟩ := Option.isSome_iff_exists.mp present
    exact (grown.actors present).1
  · obtain ⟨stub, found⟩ := Option.isSome_iff_exists.mp found
    exact (grown.stubs found).1

theorem operate (grown : Grown given w) (id : Identity) (op : Operation) :
    Grown given (w.operate id op) := by
  have reshapes := reshapes_operate grown.keyed grown.records id op
  refine ⟨reshapes.keyed, reshapes.records, ?_, grown.ordered, ?_, fun i o present => ?_,
    fun i stub found => ?_⟩
  · rw [reshapes.serial]
    exact grown.serial
  · rw [reshapes.serial]
    exact grown.earlier
  · rw [reshapes.outline] at present
    obtain ⟨before, existing, rfl⟩ := Option.map_eq_some_iff.mp present
    obtain ⟨member, links⟩ := grown.actors existing
    refine ⟨member, fun peer inside => ?_⟩
    rcases links_shape inside with old | joined
    · exact links peer old
    · exact grown.known (joined_known grown.keyed grown.records joined)
  · rw [reshapes.stubs] at found
    obtain ⟨member, apart⟩ := grown.stubs found
    refine ⟨member, ?_⟩
    rw [reshapes.outline, apart]
    rfl

theorem act (grown : Grown given w) {action : Action} (quiet : action.isQuiet = true) :
    Grown (given ++ w.born action) (w.act action) := by
  cases action with
  | allocate tag role =>
    rw [World.act, world_issue, born]
    split
    · next room => exact grown.allocate room tag quiet
    · simpa using grown
  | allocateStub tag stub =>
    rw [World.act, world_issue, born]
    split
    · next room => exact grown.allocateStub room tag stub
    · simpa using grown
  | setStub id isLive => simpa [born, World.act] using grown.setStub id isLive
  | free id => simpa [born, World.act] using grown.free id
  | operate id op => simpa [born, World.act] using grown.operate id op

theorem run (grown : Grown given w) {actions : List Action}
    (quiet : ∀ action ∈ actions, action.isQuiet = true) :
    Grown (given ++ w.births actions) (w.run actions) := by
  induction actions generalizing w given with
  | nil => simpa [births, World.run] using grown
  | cons action rest ih =>
    have next := grown.act (quiet action List.mem_cons_self)
    have last := ih next fun later member => quiet later (List.mem_cons_of_mem action member)
    rw [List.append_assoc] at last
    exact last

end Grown

structure Follows (i : Identity) (given : List Identity) (events : List LinkEvent) (w : World) :
    Prop where
  links : ∀ o, w.outline? i = some o → o.isOver = false → o.links = .replay {} events
  silent : i ∉ given → events = []

variable {i : Identity} {events : List LinkEvent}

theorem follows_empty (i : Identity) : Follows i [] [] {} :=
  ⟨fun o present => (by cases present), fun _ => rfl⟩

theorem Follows.congr {given' : List Identity} (follows : Follows i given events w)
    (more : given ⊆ given') (same : v.outline? i = w.outline? i) : Follows i given' events v :=
  ⟨fun o present => follows.links o (same ▸ present),
    fun absent => follows.silent fun member => absent (more member)⟩

theorem Follows.allocate (follows : Follows i given events w) (grown : Grown given w)
    (room : w.serial ≤ Identity.maxSerial) (tag : Tag) (role : Role) :
    Follows i (given ++ [.ofSerial w.serial tag]) events (w.allocate tag role).2 := by
  refine ⟨fun o present alive => ?_, fun absent => follows.silent fun member => absent ?_⟩
  · rw [outline?_allocate] at present
    split at present
    · next same =>
      -- nothing has happened yet to an identity that is just given out
      cases present
      rw [follows.silent (same ▸ grown.unused room tag)]
      rfl
    · exact follows.links o present alive
  · exact List.mem_append_left _ member

theorem Follows.operate (follows : Follows i given events w) (grown : Grown given w)
    (id : Identity) (op : Operation) :
    Follows i given (events ++ w.linkEvents i id op) (w.operate id op) := by
  have reshapes := reshapes_operate grown.keyed grown.records id op
  refine ⟨fun o present alive => ?_, fun absent => ?_⟩
  · rw [reshapes.outline] at present
    obtain ⟨before, existing, rfl⟩ := Option.map_eq_some_iff.mp present
    obtain ⟨earlier, shaped⟩ := shape_alive alive
    rw [shaped, Links.replay_append, ← follows.links before existing earlier]
    rfl
  · have missing : w.outline? i = none := by
      cases existing : w.outline? i with
      | none => rfl
      | some o => exact absurd (grown.actors existing).1 absent
    rw [follows.silent absent, linkEvents_missing grown.keyed grown.records missing]
    rfl

/-- The links follow the link events on record, through every action. -/
theorem Follows.act (follows : Follows i given events w) (grown : Grown given w) (action : Action) :
    Follows i (given ++ w.born action) (events ++ w.actEvents i action) (w.act action) := by
  have more : given ⊆ given ++ w.born action := List.subset_append_left ..
  cases action with
  | allocate tag role =>
    simp only [World.act, world_issue, born, actEvents, List.append_nil]
    split
    · next room => exact follows.allocate grown room tag role
    · simpa using follows
  | allocateStub tag stub =>
    simp only [World.act, world_issue, actEvents, List.append_nil]
    split
    · exact follows.congr more rfl
    · exact follows.congr more rfl
  | setStub id isLive =>
    simp only [World.act, actEvents, List.append_nil]
    refine follows.congr more ?_
    unfold World.setStub
    split <;> rfl
  | free id =>
    simp only [World.act, actEvents, List.append_nil]
    refine ⟨fun o present => ?_, fun absent => follows.silent fun member => absent (more member)⟩
    rw [outline?_free] at present
    split at present
    · cases present
    · exact follows.links o present
  | operate id op => simpa [born, World.act, actEvents] using follows.operate grown id op

theorem Follows.run (follows : Follows i given events w) (grown : Grown given w)
    {actions : List Action} (quiet : ∀ action ∈ actions, action.isQuiet = true) :
    Follows i (given ++ w.births actions) (events ++ w.history i actions) (w.run actions) := by
  induction actions generalizing w given events with
  | nil => simpa [births, history, World.run] using follows
  | cons action rest ih =>
    have next := ih (follows.act grown action) (grown.act (quiet action List.mem_cons_self))
      fun later member => quiet later (List.mem_cons_of_mem action member)
    rw [List.append_assoc, List.append_assoc] at next
    exact next

structure Closed (i : Identity) (w : World) : Prop where
  stub : w.stubs.find? i = none
  actor : ∀ o, w.outline? i = some o → o = ⟨true, {}⟩

/-- An actor that has ended forms no link again, whatever is done. -/
theorem Closed.act (closed : Closed i w) (member : i ∈ given) (grown : Grown given w)
    {action : Action} : Closed i (w.act action) := by
  cases action with
  | allocate tag role =>
    rw [World.act, world_issue]
    split
    · next room =>
      refine ⟨closed.stub, fun o present => ?_⟩
      rw [outline?_allocate, if_neg] at present
      · exact closed.actor o present
      · rintro rfl
        exact grown.unused room tag member
    · exact closed
  | allocateStub tag stub =>
    rw [World.act, world_issue]
    split
    · next room =>
      refine ⟨(Registry.find?_put_ne _ _ ?_).trans closed.stub, closed.actor⟩
      rintro rfl
      exact grown.unused room tag member
    · exact closed
  | setStub id isLive =>
    rw [World.act, setStub]
    split
    · exact closed
    · next stub known =>
      refine ⟨(Registry.find?_put_ne _ _ ?_).trans closed.stub, closed.actor⟩
      rintro rfl
      cases closed.stub.symm.trans known
  | free id =>
    refine ⟨closed.stub, fun o present => ?_⟩
    rw [World.act, outline?_free] at present
    split at present
    · cases present
    · exact closed.actor o present
  | operate id op =>
    have reshapes := reshapes_operate grown.keyed grown.records id op
    refine ⟨reshapes.stubs ▸ closed.stub, fun o present => ?_⟩
    rw [World.act, reshapes.outline] at present
    obtain ⟨before, existing, rfl⟩ := Option.map_eq_some_iff.mp present
    obtain rfl := closed.actor before existing
    exact shape_over grown.keyed grown.records existing id op

theorem Closed.run (closed : Closed i w) (member : i ∈ given) (grown : Grown given w)
    {actions : List Action} (quiet : ∀ action ∈ actions, action.isQuiet = true) :
    Closed i (w.run actions) := by
  induction actions generalizing w given with
  | nil => exact closed
  | cons action rest ih =>
    exact ih (closed.act member grown) (List.mem_append_left _ member)
      (grown.act (quiet action List.mem_cons_self))
      fun later inside => quiet later (List.mem_cons_of_mem action inside)

/-- An actor that is over links to nobody any more and ends no more. -/
theorem Closed.refuses (closed : Closed i w) (keyed : w.Keyed) :
    (∀ b, w.find? i = some b → b.core.links.members = []) ∧
    (∀ peer, peer ≠ i → (w.recordLink i peer).1 = .error .noproc ∧
      (w.linkThrough i peer).1 = .error .noproc) ∧
    ∀ reason, ∃ v, w.terminate i reason = .ok none v ∧ Alike w v := by
  cases found : w.find? i with
  | none =>
    refine ⟨fun b present => ?_, fun peer other => ?_, terminate_gone found⟩
    · cases present
    · obtain ⟨v, answer, -⟩ := recorded_missing found peer
      refine ⟨by rw [answer, if_neg other], ?_⟩
      simp [linkThrough, isAllocated, found, closed.stub]
  | some a =>
    have outline := closed.actor a.outline (by rw [outline?, found]; rfl)
    have done : a.core.isDone = true := congrArg Outline.isOver outline
    refine ⟨fun b present => ?_, fun peer other => ?_, terminate_done found done⟩
    · cases present
      exact congrArg (fun o => o.links.members) outline
    · have refused : (w.recordLink i peer).1 = .error .noproc := by
        rcases recorded keyed found peer with ⟨admitted, -⟩ | ⟨-, v, answer, -⟩
        · simp [admits, done] at admitted
        · rw [answer, if_neg other]
      exact ⟨refused, by rw [linkThrough_found found, refused]⟩

theorem Grown.closed_terminate (grown : Grown given w) {a : Actor} (found : w.find? i = some a)
    (alive : a.core.isDone = false) (reason : Exit) : Closed i (w.terminate i reason).world := by
  have reshapes := reshapes_terminate grown.keyed grown.records i reason
  have present : w.outline? i = some a.outline := by
    rw [outline?, found]
    rfl
  refine ⟨?_, fun o after => ?_⟩
  · rw [reshapes.stubs]
    cases stub : w.stubs.find? i with
    | none => rfl
    | some stub => cases (grown.stubs stub).2.symm.trans present
  · rw [reshapes.outline, present, Option.map_some, if_pos rfl, Outline.ended, Actor.outline,
      alive] at after
    exact (Option.some.inj after).symm

/-- After any run from the empty world the end of an actor, if no delivery raises, signals its reason
once to each of the peers that the last link event on the actor tells to have joined, in the order
in which they were allocated, and changes no one else. From then on the actor takes in no link and
ends no more. -/
theorem terminate_tells_history {actions : List Action}
    (quiet : ∀ action ∈ actions, action.isQuiet = true) {id : Identity} {a : Actor}
    (found : (run {} actions).find? id = some a) (alive : a.core.isDone = false) {reason : Exit}
    {answer : Option Exit} {v : World}
    (answered : (run {} actions).terminate id reason = .ok answer v) :
    answer = some (a.core.finalReason reason) ∧ (births {} actions).Nodup ∧
    ∃ peers, (∀ peer, peer ∈ peers ↔ Stays peer (history {} id actions)) ∧
      peers.Sublist (births {} actions) ∧
      (∃ told, Answered id (a.core.finalReason reason) ((run {} actions).ended a reason) peers told ∧
        v = told.leaving (run {} actions)) ∧
      (∀ i, i ≠ id → i ∉ peers → v.find? i = (run {} actions).find? i) ∧
      ∀ later, (∀ action ∈ later, action.isQuiet = true) →
        (∀ b, (run v later).find? id = some b → b.core.links.members = []) ∧
        (∀ peer, peer ≠ id → ((run v later).recordLink id peer).1 = .error .noproc ∧
          ((run v later).linkThrough id peer).1 = .error .noproc) ∧
        ∀ reason, ∃ u, (run v later).terminate id reason = .ok none u ∧ Alike (run v later) u := by
  have grown := Grown.empty.run quiet
  have follows := (follows_empty id).run Grown.empty quiet
  rw [List.nil_append] at grown follows
  revert found answered grown follows
  generalize run {} actions = w
  intro found answered grown follows
  have name : a.id = id := grown.keyed found
  have present : w.outline? id = some a.outline := by
    rw [outline?, found]
    rfl
  have links : a.core.links = .replay {} (history {} id actions) :=
    follows.links a.outline present alive
  have calm : w.Quiet a.core.links.members := fun peer _ b known => grown.records known
  have distinct : (births {} actions).Nodup := grown.ordered.nodup
  have chronological : a.core.links.members.Sublist (births {} actions) :=
    List.sublist_of_subperm_of_pairwise
      ((nodup_members a.core.links).subperm (grown.actors present).2)
      a.core.links.ordered grown.ordered
  obtain ⟨u, ended, -, effect⟩ := terminate_ended grown.keyed found alive calm reason fun peer =>
    willing_of_terminate grown.keyed found alive calm answered
  have outcome := answered
  rw [terminate_alive grown.keyed found alive] at outcome
  obtain ⟨said, told, broadcasted, left⟩ := concluding_ok_iff.mp outcome
  cases answered.symm.trans ended
  refine ⟨said, distinct, a.core.links.members, fun peer => ?_, chronological,
    ⟨told, broadcast_ok_iff.mp broadcasted, left⟩, fun i other outside => ?_,
    fun later calm' => ?_⟩
  · rw [links]
    exact Links.mem_replay
  · rw [effect.find?, name, if_neg other, if_neg outside]
  · have after : (w.terminate id reason).world = v := by rw [answered]; rfl
    have closed := grown.closed_terminate found alive reason
    have next := grown.operate id (.terminate reason)
    rw [World.operate] at next
    rw [after] at closed next
    have known := (grown.actors present).1
    exact (closed.run known next calm').refuses (next.run calm').keyed

def relinked : List Action :=
  let self : Identity := .ofSerial 1 .process
  let port : Identity := .ofSerial 2 .port
  let later : Identity := .ofSerial 3 .process
  [.allocate .process (.process .empty), .allocate .port (.port ⟨"tty"⟩ self),
    .allocate .process (.process .empty), .operate self .start, .operate port .start,
    .operate later .start, .operate self (.link later), .operate port (.link self),
    .operate self (.unlink later), .operate self (.record later)]

theorem relinked_tells_history :
    ∃ v, (run {} relinked).terminate (.ofSerial 1 .process) .killed = .ok (some .killed) v ∧
      ∃ peers : List Identity,
        (∀ peer, peer ∈ peers ↔ Stays peer (history {} (.ofSerial 1 .process) relinked)) ∧
        peers.Sublist [.ofSerial 1 .process, .ofSerial 2 .port, .ofSerial 3 .process] := by
  have quiet : ∀ action ∈ relinked, action.isQuiet = true := by decide
  obtain ⟨a, found, alive⟩ : ∃ a, (run {} relinked).find? (.ofSerial 1 .process) = some a ∧
    a.core.isDone = false := ⟨_, rfl, rfl⟩
  obtain ⟨v, answered⟩ : ∃ v, (run {} relinked).terminate (.ofSerial 1 .process) .killed
    = .ok (some .killed) v := ⟨_, rfl⟩
  obtain ⟨-, -, peers, members, chronological, -⟩ :=
    terminate_tells_history quiet found alive answered
  exact ⟨v, answered, peers, members, chronological⟩

end World

end Actors
