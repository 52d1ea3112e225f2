import LoraBridge.Control.CamC2

/-!
# The received messages

The portal reads the ring of operator messages from the newest one back.  However many
messages came in, it finds the last ones of them in that order, each with its sender,
its time and its text up to the size of the array.
-/

namespace LoraBridge.MessageRing

open LoraBridge.CamC2

/-- What one call of `storeMessage` is given. -/
structure Call where
  fromId : UInt32
  atSec : UInt32
  txt : List UInt8

def store (ring : Ring) (call : Call) : Ring :=
  storeMessage ring call.fromId call.atSec call.txt

/-- The ring after the calls, in their order. -/
def stored (calls : List Call) : Ring := calls.foldl store Ring.empty

/-- The message of a call: its text is cut and ends with a terminator. -/
structure Keeps (msg : Message) (call : Call) : Prop where
  fromId : msg.fromId = call.fromId
  atSec : msg.atSec = call.atSec
  text : call.txt.take MSG_TEXT_MAX ++ [0] <+: msg.text.toList

/-- The slot of the i-th newest message: nothing wraps in the 32 bits. -/
theorem messageIndex_eq (ring : Ring) {i : ℕ} (hi : i < MSG_RING) :
    messageIndex ring (Int32.ofNat i) = (ring.head + MSG_RING - 1 - i) % MSG_RING := by
  have hhead : ring.head.val < 12 := ring.head.isLt
  have hsmall : i < 12 := hi
  have hindex : (Int32.ofNat i).toUInt32 = UInt32.ofNat i := rfl
  have hring : UInt32.ofNat ring.head + UInt32.ofNat MSG_RING - 1 - UInt32.ofNat i =
      UInt32.ofNat (ring.head + MSG_RING - 1 - i) := by
    rw [UInt32.ofNat_sub (by simp only [MSG_RING]; omega),
      UInt32.ofNat_sub (by simp only [MSG_RING]; omega), UInt32.ofNat_add]
    rfl
  have hword : ring.head + MSG_RING - 1 - i < 2 ^ 32 := by
    simp only [MSG_RING]
    omega
  rw [messageIndex, hindex, hring, UInt32.toNat_mod, UInt32.toNat_ofNat_of_lt' hword]
  rfl

/-- The slot in front of the next write is the one just written. -/
theorem slot_newest {head : ℕ} (hhead : head < MSG_RING) :
    ((head + 1) % MSG_RING + MSG_RING - 1 - 0) % MSG_RING = head := by
  simp only [MSG_RING] at hhead ⊢
  omega

/-- The other messages are one further from the next write. -/
theorem slot_older {head i : ℕ} (hhead : head < MSG_RING) (hi : i + 1 < MSG_RING) :
    ((head + 1) % MSG_RING + MSG_RING - 1 - (i + 1)) % MSG_RING =
        (head + MSG_RING - 1 - i) % MSG_RING ∧
      (head + MSG_RING - 1 - i) % MSG_RING ≠ head := by
  simp only [MSG_RING] at hhead hi ⊢
  omega

/-- One call in front of the earlier ones, newest first. -/
structure Holds (ring : Ring) (newest : List Call) : Prop where
  count : ring.count = min newest.length MSG_RING
  keeps : ∀ (i : ℕ) (call : Call), newest[i]? = some call → ∀ hi : i < MSG_RING,
    Keeps (ring.msgs ⟨(ring.head + MSG_RING - 1 - i) % MSG_RING,
      Nat.mod_lt _ (Nat.zero_lt_of_lt hi)⟩) call

theorem holds_empty : Holds Ring.empty [] where
  count := rfl
  keeps i call hcall := by simp at hcall

/-- The new message takes the slot behind the newest, and with it the oldest one's
place when the ring is full. -/
theorem holds_store {ring : Ring} {newest : List Call} (hholds : Holds ring newest)
    (call : Call) : Holds (store ring call) (call :: newest) where
  count := by
    have hcount := hholds.count
    simp only [store, storeMessage, hcount, List.length_cons]
    split <;> omega
  keeps i old hold hi := by
    have hhead := ring.head.isLt
    simp only [store, storeMessage]
    cases i with
    | zero =>
        obtain rfl : call = old := by simpa using hold
        have hslot : (⟨((ring.head.val + 1) % MSG_RING + MSG_RING - 1 - 0) % MSG_RING,
            Nat.mod_lt _ (Nat.zero_lt_of_lt hi)⟩ : Fin MSG_RING) = ring.head :=
          Fin.ext (slot_newest hhead)
        rw [hslot, Function.update_self]
        exact ⟨rfl, rfl, _, by rw [List.append_assoc]; rfl⟩
    | succ i =>
        obtain ⟨hslot, hother⟩ := slot_older hhead hi
        simp only [hslot]
        rw [Function.update_of_ne fun heq => hother (congrArg Fin.val heq)]
        exact hholds.keeps i old (by simpa using hold) (Nat.lt_of_succ_lt hi)

theorem holds_stored (calls : List Call) : Holds (stored calls) calls.reverse := by
  induction calls using List.reverseRecOn with
  | nil => exact holds_empty
  | append_singleton calls call ih =>
      rw [stored, List.foldl_append, List.reverse_append]
      exact holds_store ih call

/-- After any calls the ring counts the last twelve of them, and the i-th newest message
is that of the i-th call from the end. -/
theorem holds_latest (calls : List Call) :
    messageCount (stored calls) = min calls.length MSG_RING ∧
      ∀ i < messageCount (stored calls), ∃ call, calls.reverse[i]? = some call ∧
        Keeps (message (stored calls) (Int32.ofNat i)) call := by
  have hholds := holds_stored calls
  have hcount : messageCount (stored calls) = min calls.length MSG_RING := by
    rw [messageCount, hholds.count, List.length_reverse]
  refine ⟨hcount, fun i hi => ?_⟩
  rw [hcount, Nat.lt_min, ← List.length_reverse] at hi
  refine ⟨calls.reverse[i], List.getElem?_eq_getElem hi.1, ?_⟩
  have hkeeps := hholds.keeps i _ (List.getElem?_eq_getElem hi.1) hi.2
  simpa only [message, messageIndex_eq _ hi.2] using hkeeps

end LoraBridge.MessageRing
