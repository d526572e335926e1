import Actors.Proofs.Course

/-! Numbering. A new actor or stub gets the next serial and the tag that is asked for, and both can be
read off its identity as long as there are serials left. Its text names it alone. -/
namespace Actors

theorem Tag.bits_lt (tag : Tag) : tag.bits.toNat < 2 ^ 4 := by cases tag <;> decide

namespace Identity

variable {serial : Nat}

theorem serial_ofSerial (bound : serial ≤ maxSerial) (tag : Tag) :
    (ofSerial serial tag).serial.toNat = serial := by
  have small := tag.bits_lt
  have places : UInt64.toNat 4 % 64 = 4 := by decide
  rw [Identity.serial, UInt64.toNat_shiftRight, places, Nat.shiftRight_eq_div_pow,
    toNat_ofSerial bound]
  omega

/-- The tag is what stands in the four low bits. -/
theorem mask_ofSerial (bound : serial ≤ maxSerial) (tag : Tag) :
    (ofSerial serial tag).bits &&& tagMask = tag.bits := by
  have small := tag.bits_lt
  apply UInt64.toNat_inj.mp
  rw [UInt64.toNat_and, show tagMask.toNat = 2 ^ 4 - 1 from rfl, Nat.and_two_pow_sub_one_eq_mod,
    toNat_ofSerial bound]
  omega

theorem tag_ofSerial (bound : serial ≤ maxSerial) (tag : Tag) : (ofSerial serial tag).tag = tag := by
  rw [Identity.tag, mask_ofSerial bound]
  cases tag <;> rfl

theorem bits_ofSerial_ne_zero (bound : serial ≤ maxSerial) (tag : Tag) :
    (ofSerial serial tag).bits ≠ 0 := by
  intro zero
  have read := mask_ofSerial bound tag
  rw [zero] at read
  cases tag <;> exact absurd read (by decide)

/-- The text of an identity tells its tag and its serial. -/
theorem tag_serial_of_text {i j : Identity} (same : i.text = j.text) :
    i.tag = j.tag ∧ i.serial = j.serial := by
  have read (n : Nat) : Nat.ofDigitChars 10 (toString n).toList 0 = n := by
    rw [Nat.toString_eq_repr, Nat.toList_repr, Nat.ofDigitChars_toDigits (by decide) (by decide)]
  have serials (digits : toString i.serial.toNat = toString j.serial.toNat) :
      i.serial = j.serial := by
    apply UInt64.toNat_inj.mp
    rw [← read i.serial.toNat, digits, read]
  unfold text at same
  cases mine : i.tag <;> cases other : j.tag <;> simp only [mine, other] at same
  case process.process | port.port =>
    exact ⟨rfl, serials ((String.append_right_inj _).mp ((String.append_left_inj _).mp same))⟩
  all_goals
    -- the texts differ in their third letter
    have letters := congrArg String.toList same
    simp at letters

/-- No two identities that can be given out have one text. -/
theorem ofSerial_of_text {serial' : Nat} (bound : serial ≤ maxSerial) (bound' : serial' ≤ maxSerial)
    {tag tag' : Tag} (same : (ofSerial serial tag).text = (ofSerial serial' tag').text) :
    ofSerial serial tag = ofSerial serial' tag' := by
  obtain ⟨tags, serials⟩ := tag_serial_of_text same
  rw [tag_ofSerial bound, tag_ofSerial bound'] at tags
  have serials := congrArg UInt64.toNat serials
  rw [serial_ofSerial bound, serial_ofSerial bound'] at serials
  rw [tags, serials]

def numbered (serial : Nat) (tags : List Tag) : List Identity :=
  (tags.zipIdx serial).map fun asked => ofSerial asked.2 asked.1

section Numbered

variable {tags : List Tag} (room : serial + tags.length ≤ maxSerial + 1)
include room

theorem bound_of_mem {asked : Tag × Nat} (member : asked ∈ tags.zipIdx serial) :
    asked.2 ≤ maxSerial := by
  have less := (List.mem_zipIdx member).2.1
  omega

theorem of_mem_numbered {i : Identity} (member : i ∈ numbered serial tags) :
    ∃ n ≤ maxSerial, ∃ tag, i = ofSerial n tag := by
  obtain ⟨asked, numbered, rfl⟩ := List.mem_map.mp member
  exact ⟨asked.2, bound_of_mem room numbered, asked.1, rfl⟩

theorem map_tag_numbered : (numbered serial tags).map tag = tags := by
  calc (numbered serial tags).map tag
      = (tags.zipIdx serial).map Prod.fst := by
        rw [numbered, List.map_map]
        exact List.map_congr_left fun asked member => tag_ofSerial (bound_of_mem room member) asked.1
    _ = tags := List.zipIdx_map_fst serial tags

theorem map_serial_numbered :
    (numbered serial tags).map (fun i => i.serial.toNat) = List.range' serial tags.length := by
  calc (numbered serial tags).map (fun i => i.serial.toNat)
      = (tags.zipIdx serial).map Prod.snd := by
        rw [numbered, List.map_map]
        exact List.map_congr_left fun asked member =>
          serial_ofSerial (bound_of_mem room member) asked.1
    _ = List.range' serial tags.length := List.zipIdx_map_snd serial tags

theorem pairwise_numbered : (numbered serial tags).Pairwise (· < ·) := by
  have rising : (tags.zipIdx serial).Pairwise fun asked later => asked.2 < later.2 := by
    rw [← List.pairwise_map (f := Prod.snd), List.zipIdx_map_snd]
    exact List.pairwise_lt_range' 1
  rw [numbered, List.pairwise_map]
  exact rising.imp_of_mem fun _ member less => ofSerial_lt less (bound_of_mem room member) ..

end Numbered

end Identity

def Action.tag? : Action → Option Tag
  | allocate tag _ | allocateStub tag _ => some tag
  | _ => none

namespace World

variable {w : World} {action : Action} {actions : List Action}

theorem act_asking {tag : Tag} (asks : action.tag? = some tag)
    (room : w.serial ≤ Identity.maxSerial) :
    w.born action = [.ofSerial w.serial tag] ∧ (w.act action).serial = w.serial + 1 := by
  cases action <;> cases asks <;> exact ⟨if_pos room, by rw [act, issue_room room]; rfl⟩

theorem act_idle (keyed : w.Keyed) (asks : action.tag? = none) :
    w.born action = [] ∧ (w.act action).serial = w.serial := by
  cases action with
  | allocate | allocateStub => cases asks
  | setStub id isLive =>
    refine ⟨rfl, ?_⟩
    rw [act, World.setStub]
    split <;> rfl
  | free id => exact ⟨rfl, rfl⟩
  | operate id op => exact ⟨rfl, (peopled_operate keyed id op).serial⟩

/-- While there are serials left, the identities that a run gives out are those of the tags that it asks
for, numbered from the next serial on. -/
theorem births_eq (keyed : w.Keyed)
    (room : w.serial + (actions.filterMap Action.tag?).length ≤ Identity.maxSerial + 1) :
    w.births actions = Identity.numbered w.serial (actions.filterMap Action.tag?) := by
  induction actions generalizing w with
  | nil => rfl
  | cons action rest ih =>
    have next := keyed_act keyed action
    rw [births]
    cases asks : action.tag? with
    | none =>
      obtain ⟨born, serial⟩ := act_idle keyed asks
      rw [List.filterMap_cons_none asks] at room ⊢
      rw [born, ih next (serial ▸ room), serial, List.nil_append]
    | some tag =>
      rw [List.filterMap_cons_some asks, List.length_cons] at room
      obtain ⟨born, serial⟩ := act_asking (w := w) asks (by omega)
      rw [List.filterMap_cons_some asks, born, ih next (by omega), serial]
      rfl

/-- A run that asks for fewer than `2 ^ 60` identities is given them with the tags that it asks for and
with the serials from one on. As words they are not zero and grow in the order in which they are given
out, whatever their tags; no two are written alike. In any world with serials left, the identity of a
new actor or stub says with which tag and serial it was made. -/
theorem births_tell_apart (actions : List Action)
    (few : (actions.filterMap Action.tag?).length < 2 ^ 60) :
    (births {} actions).map Identity.tag = actions.filterMap Action.tag? ∧
      (births {} actions).map (fun i => i.serial.toNat) =
        List.range' 1 (actions.filterMap Action.tag?).length ∧
      ((births {} actions).map fun i => i.bits.toNat).Pairwise (· < ·) ∧
      (∀ i ∈ births {} actions, i.bits ≠ 0 ∧ ∀ j ∈ births {} actions, i.text = j.text → i = j) ∧
      ∀ (w : World) (tag : Tag) (i : Identity), w.serial ≤ Identity.maxSerial →
        (∃ role, i = (w.allocate tag role).1) ∨ (∃ stub, i = (w.allocateStub tag stub).1) →
        i.tag = tag ∧ i.serial.toNat = w.serial := by
  have room : ({} : World).serial + (actions.filterMap Action.tag?).length ≤
      Identity.maxSerial + 1 := by
    have most : Identity.maxSerial + 1 = 2 ^ 60 := rfl
    have first : ({} : World).serial = 1 := rfl
    omega
  rw [births_eq rooted_empty.keyed room]
  refine ⟨Identity.map_tag_numbered room, Identity.map_serial_numbered room, ?_, ?_, ?_⟩
  · rw [List.pairwise_map]
    exact (Identity.pairwise_numbered room).imp fun less => UInt64.lt_iff_toNat_lt.mp less
  · intro i member
    obtain ⟨n, bound, tag, rfl⟩ := Identity.of_mem_numbered room member
    refine ⟨Identity.bits_ofSerial_ne_zero bound tag, fun j member' same => ?_⟩
    obtain ⟨n', bound', tag', rfl⟩ := Identity.of_mem_numbered room member'
    exact Identity.ofSerial_of_text bound bound' same
  · rintro w tag i bound (⟨role, rfl⟩ | ⟨stub, rfl⟩) <;>
      exact ⟨Identity.tag_ofSerial bound tag, Identity.serial_ofSerial bound tag⟩

def newcomers : List Action :=
  [.allocate .process (.process .empty), .allocateStub .port ⟨true, false⟩,
    .operate (.ofSerial 1 .process) .start, .allocate .process (.process .empty)]

theorem newcomers_tell_apart :
    (newcomers.filterMap Action.tag?).length < 2 ^ 60 ∧
      (births {} newcomers).map Identity.tag = [.process, .port, .process] ∧
      (births {} newcomers).map (fun i => i.serial.toNat) = [1, 2, 3] ∧
      ((births {} newcomers).map fun i => i.bits.toNat).Pairwise (· < ·) ∧
      (∀ i ∈ births {} newcomers, i.bits ≠ 0 ∧ ∀ j ∈ births {} newcomers, i.text = j.text → i = j) := by
  have few : (newcomers.filterMap Action.tag?).length < 2 ^ 60 := by decide
  obtain ⟨tags, serials, rising, distinct, -⟩ := births_tell_apart newcomers few
  exact ⟨few, tags, serials, rising, distinct⟩

end World

end Actors
