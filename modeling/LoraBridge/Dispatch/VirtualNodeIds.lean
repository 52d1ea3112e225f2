import LoraBridge.Dispatch.VirtualNodeMap
import Mathlib.Data.Nat.Bitwise

/-!
# The ids of virtual nodes

The constant and the factor of a turn of the loop are odd, so a turn flips the lowest
bit of the id and never leaves it where it was.  After the first turn the id is out of
the low range for good, and of the two ids left to avoid, the broadcast id and the
bridge's own, no orbit meets one after the other for more than three turns.
-/

namespace LoraBridge.VirtualNodeIds

open LoraBridge.VirtualNodeMap

/-- An id the loop does not leave. -/
def Good (avoidId id : UInt32) : Prop := 0xFF < id ∧ id ≠ 0xFFFFFFFF ∧ id ≠ avoidId

theorem isReserved_eq_false_iff (id : UInt32) :
    isReserved id = false ↔ 0xFF < id ∧ id ≠ 0xFFFFFFFF := by
  simp [isReserved]

theorem good_iff (avoidId id : UInt32) :
    Good avoidId id ↔ ¬ (isReserved id = true ∨ id = avoidId) := by
  rw [not_or, Bool.not_eq_true, isReserved_eq_false_iff, Good, and_assoc]

/-- The broadcast id. -/
def broadcast : UInt32 := 0xFFFFFFFF

/-- The id before it is forced out of the low range. -/
def mixed (id : UInt32) : UInt32 := (id ^^^ 0x9E3779B9) * 16777619

theorem remix_eq (id : UInt32) :
    remix id = if isReserved (mixed id) then mixed id ||| 0x00010000 else mixed id :=
  rfl

theorem mixed_mod_two (id : UInt32) : (mixed id).toNat % 2 = (id.toNat + 1) % 2 := by
  have hxor : (id ^^^ 0x9E3779B9).toNat % 2 = (id.toNat + 0x9E3779B9) % 2 := by
    rw [UInt32.toNat_xor]
    exact Nat.xor_mod_two_eq
  rw [mixed, UInt32.toNat_mul, Nat.mod_mod_of_dvd _ (by decide), Nat.mul_mod, hxor]
  rw [show (16777619 : UInt32).toNat % 2 = 1 from rfl, Nat.mul_one]
  omega

theorem or_mod_two (id : UInt32) : (id ||| 0x00010000).toNat % 2 = id.toNat % 2 := by
  have hlow := @Nat.or_mod_two_pow id.toNat (0x00010000 : UInt32).toNat 1
  rw [show (0x00010000 : UInt32).toNat % 2 ^ 1 = 0 from rfl, Nat.or_zero] at hlow
  exact hlow

/-- One turn flips the lowest bit. -/
theorem remix_mod_two (id : UInt32) : (remix id).toNat % 2 = (id.toNat + 1) % 2 := by
  rw [remix_eq]
  split
  · rw [or_mod_two, mixed_mod_two]
  · exact mixed_mod_two id

theorem remix_ne_self (id : UInt32) : remix id ≠ id := by
  intro hsame
  have hflips := remix_mod_two id
  rw [hsame] at hflips
  omega

/-- One turn leaves the low range. -/
theorem lt_remix (id : UInt32) : 0xFF < remix id := by
  rw [remix_eq]
  split
  · have hle : (0x00010000 : UInt32).toNat ≤ (mixed id ||| 0x00010000).toNat := by
      rw [UInt32.toNat_or]
      exact Nat.right_le_or
    exact UInt32.lt_iff_toNat_lt.mpr (Nat.lt_of_lt_of_le (by decide) hle)
  · rename_i hfree
    exact ((isReserved_eq_false_iff _).mp (by simpa using hfree)).1

theorem good_remix_iff (avoidId id : UInt32) :
    Good avoidId (remix id) ↔ remix id ≠ broadcast ∧ remix id ≠ avoidId :=
  ⟨fun hgood => hgood.2, fun hother => ⟨lt_remix id, hother⟩⟩

/-- The broadcast id is two turns away from itself or more. -/
theorem remix_remix_broadcast : remix (remix broadcast) ≠ broadcast := by decide

/-- Three turns end at a good id, or one of them was. -/
theorem good_of_three (avoidId id : UInt32) (hfirst : ¬ Good avoidId (remix id))
    (hsecond : ¬ Good avoidId (remix (remix id))) :
    Good avoidId (remix (remix (remix id))) := by
  simp only [good_remix_iff, not_and_or, not_not] at hfirst hsecond ⊢
  rcases hfirst with hbroadcast | havoid
  · rw [hbroadcast] at hsecond ⊢
    have hnext : remix broadcast = avoidId :=
      hsecond.resolve_left (remix_ne_self broadcast)
    exact ⟨remix_remix_broadcast, hnext ▸ remix_ne_self (remix broadcast)⟩
  · rw [havoid] at hsecond ⊢
    have hnext : remix avoidId = broadcast := hsecond.resolve_right (remix_ne_self avoidId)
    rw [hnext]
    refine ⟨remix_ne_self broadcast, fun hback => remix_remix_broadcast ?_⟩
    rw [hback, hnext]

/-- A good id is left alone. -/
theorem nudge_of_good {avoidId id : UInt32} (hgood : Good avoidId id) (turns : ℕ) :
    nudge avoidId turns id = id := by
  cases turns with
  | zero => rfl
  | succ turns => rw [nudge, if_neg ((good_iff avoidId id).mp hgood)]

/-- The loop goes on from an id that is not good. -/
theorem nudge_of_not_good {avoidId id : UInt32} (hbad : ¬ Good avoidId id) (turns : ℕ) :
    nudge avoidId (turns + 1) id = nudge avoidId turns (remix id) := by
  rw [nudge, if_pos (not_not.mp (mt (good_iff avoidId id).mpr hbad))]

/-- Three turns are always enough. -/
theorem good_nudge (avoidId id : UInt32) (turns : ℕ) :
    Good avoidId (nudge avoidId (turns + 3) id) := by
  by_cases hzero : Good avoidId id
  · rwa [nudge_of_good hzero]
  rw [nudge_of_not_good hzero]
  by_cases hone : Good avoidId (remix id)
  · rwa [nudge_of_good hone]
  rw [nudge_of_not_good hone]
  by_cases htwo : Good avoidId (remix (remix id))
  · rwa [nudge_of_good htwo]
  rw [nudge_of_not_good htwo]
  have hthree := good_of_three avoidId id hone htwo
  rwa [nudge_of_good hthree]

/-- Whatever the hash of the label is, the eight turns of the loop end with an id that
is not reserved and not the one to avoid, and that is the id `idForLabel` returns. -/
theorem idForLabel_not_reserved (avoidId : UInt32) :
    (∀ hash : UInt32, Good avoidId (nudge avoidId 8 hash)) ∧
      ∀ (label : List UInt8) (table : Table),
        Good avoidId (idForLabel label avoidId table).1 :=
  ⟨fun hash => good_nudge avoidId hash 5, fun label _ => good_nudge avoidId (hashLabel label) 5⟩

end LoraBridge.VirtualNodeIds
