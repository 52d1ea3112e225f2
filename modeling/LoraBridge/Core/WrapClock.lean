import Mathlib.Tactic

/-!
# A millisecond counter of 32 bits

The counter shows the time since boot modulo 2^32.  An age is an unsigned
difference, exact up to whole periods.  A deadline is checked by the sign of a
difference, which is right in every other half of a period after it.
-/

namespace LoraBridge.WrapClock

/-- The counter at a time in milliseconds since boot. -/
def ticks (now : ℕ) : UInt32 := UInt32.ofNat now

/-- `(int32_t)(now - deadline) >= 0`. -/
def reached (now deadline : UInt32) : Bool := 0 ≤ (now - deadline).toInt32

/-- The first half of some period of the counter. -/
def FirstHalf (elapsed : ℕ) : Prop := elapsed % 2 ^ 32 < 2 ^ 31

instance (elapsed : ℕ) : Decidable (FirstHalf elapsed) :=
  inferInstanceAs (Decidable (_ < _))

@[simp]
theorem toNat_ticks (now : ℕ) : (ticks now).toNat = now % 2 ^ 32 := by
  simp [ticks]

/-- Adding a wait to the counter. -/
theorem ticks_add (now : ℕ) (wait : UInt32) : ticks now + wait = ticks (now + wait.toNat) := by
  apply UInt32.toNat_inj.mp
  rw [UInt32.toNat_add, toNat_ticks, toNat_ticks]
  omega

/-- An age, up to whole periods. -/
theorem toNat_ticks_sub {earlier now : ℕ} (horder : earlier ≤ now) :
    (ticks now - ticks earlier).toNat = (now - earlier) % 2 ^ 32 := by
  rw [UInt32.toNat_sub, toNat_ticks, toNat_ticks]
  omega

/-- The sign bit of a difference. -/
theorem reached_eq_decide (now deadline : UInt32) :
    reached now deadline = decide ((now - deadline).toNat < 2 ^ 31) := by
  have hlt := (now - deadline).toNat_lt
  have hint : (now - deadline).toInt32.toInt = ((now - deadline).toNat : ℤ).bmod (2 ^ 32) := by
    rw [← Int32.toInt_toBitVec, UInt32.toBitVec_toInt32, BitVec.toInt_eq_toNat_bmod,
      UInt32.toNat_toBitVec]
  have hle : 0 ≤ (now - deadline).toInt32 ↔ 0 ≤ (now - deadline).toInt32.toInt := by
    rw [Int32.le_iff_toInt_le]
    rfl
  simp only [reached, hle, hint, Int.bmod_def]
  refine decide_eq_decide.mpr ?_
  omega

/-- A deadline that has passed is seen as passed in the first half of each period
after it. -/
theorem reached_ticks {deadline now : ℕ} (hpassed : deadline ≤ now) :
    reached (ticks now) (ticks deadline) = true ↔ FirstHalf (now - deadline) := by
  rw [reached_eq_decide, toNat_ticks_sub hpassed, decide_eq_true_eq, FirstHalf]

/-- A deadline to come within half a period is not taken for a passed one. -/
theorem not_reached_ticks {deadline now : ℕ} (hahead : now < deadline)
    (hnear : deadline ≤ now + 2 ^ 31) : reached (ticks now) (ticks deadline) = false := by
  rw [reached_eq_decide, UInt32.toNat_sub, toNat_ticks, toNat_ticks, decide_eq_false_iff_not]
  omega

end LoraBridge.WrapClock
