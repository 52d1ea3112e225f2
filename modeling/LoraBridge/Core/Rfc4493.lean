import Mathlib.Tactic

/-!
# CMAC over octet strings

The algorithm of RFC 4493, over any function from blocks of sixteen octets to such
blocks.  A block is read as a number with its most significant octet first, so that the
shift of the subkeys is a doubling modulo 2^128.
-/

namespace LoraBridge.Rfc4493

abbrev Octets := List UInt8

/-- An octet string as a number. -/
def value : Octets → ℕ
  | [] => 0
  | octet :: rest => octet.toNat * 256 ^ rest.length + value rest

/-- The lowest octets of a number. -/
def octets : ℕ → ℕ → Octets
  | 0, _ => []
  | length + 1, number => UInt8.ofNat (number / 256 ^ length) :: octets length number

def xor (left right : Octets) : Octets := List.zipWith (· ^^^ ·) left right

/-- `x << 1`. -/
def shiftLeft (x : Octets) : Octets := octets x.length (2 * value x)

/-- The most significant bit of a block is set. -/
def Msb (block : Octets) : Prop := 2 ^ 127 ≤ value block

instance (block : Octets) : Decidable (Msb block) := inferInstanceAs (Decidable (_ ≤ _))

def const_Rb : Octets := List.replicate 15 0 ++ [0x87]

/-- One step of `Generate_Subkey`. -/
def double (block : Octets) : Octets :=
  if Msb block then xor (shiftLeft block) const_Rb else shiftLeft block

/-- `10^i` behind a block that is not full. -/
def padding (block : Octets) : Octets := block ++ 0x80 :: List.replicate (15 - block.length) 0

/-- The i-th block of a message, from 0. -/
def block (msg : Octets) (i : ℕ) : Octets := (msg.drop (16 * i)).take 16

/-- `AES-CMAC (K, M, len)`, with the block cipher under K. -/
def cmac (encrypt : Octets → Octets) (msg : Octets) : Octets :=
  let k1 := double (encrypt (List.replicate 16 0))
  let k2 := double k1
  let n := if msg.length = 0 then 1 else (msg.length + 15) / 16
  let last := block msg (n - 1)
  let mLast :=
    if msg.length ≠ 0 ∧ msg.length % 16 = 0 then xor last k1 else xor (padding last) k2
  let x := (List.range (n - 1)).foldl (fun x i => encrypt (xor x (block msg i)))
    (List.replicate 16 0)
  encrypt (xor mLast x)

/-! ## Octet strings as numbers -/

theorem value_lt (x : Octets) : value x < 256 ^ x.length := by
  induction x with
  | nil => simp [value]
  | cons octet rest ih =>
      have hoctet := octet.toNat_lt
      have hmul : octet.toNat * 256 ^ rest.length ≤ 255 * 256 ^ rest.length :=
        Nat.mul_le_mul_right _ (by omega)
      rw [value, List.length_cons, pow_succ]
      omega

@[simp]
theorem length_octets (length number : ℕ) : (octets length number).length = length := by
  induction length with
  | zero => rfl
  | succ length ih => simp [octets, ih]

/-- Only the number modulo the range counts. -/
theorem octets_add_mul (length high low : ℕ) :
    octets length (high * 256 ^ length + low) = octets length low := by
  induction length generalizing high with
  | zero => rfl
  | succ length ih =>
      have hpos : 0 < 256 ^ length := Nat.pow_pos (by omega)
      have hsplit : high * 256 ^ (length + 1) + low = high * 256 * 256 ^ length + low := by
        rw [pow_succ]
        ring
      have hhead : UInt8.ofNat ((high * 256 * 256 ^ length + low) / 256 ^ length) =
          UInt8.ofNat (low / 256 ^ length) := by
        rw [Nat.add_comm, Nat.add_mul_div_right _ _ hpos]
        apply UInt8.toNat_inj.mp
        simp
      rw [octets, octets, hsplit, hhead, ih]

@[simp]
theorem octets_value (x : Octets) : octets x.length (value x) = x := by
  induction x with
  | nil => rfl
  | cons octet rest ih =>
      have hpos : 0 < 256 ^ rest.length := Nat.pow_pos (by omega)
      have hhead : (octet.toNat * 256 ^ rest.length + value rest) / 256 ^ rest.length =
          octet.toNat := by
        rw [Nat.add_comm, Nat.add_mul_div_right _ _ hpos, Nat.div_eq_of_lt (value_lt rest)]
        omega
      rw [List.length_cons, octets, value, octets_add_mul, ih, hhead, UInt8.ofNat_toNat]

/-- An octet string is the only one of its length and value. -/
theorem octets_eq {x : Octets} {number high : ℕ}
    (hvalue : number = high * 256 ^ x.length + value x) : octets x.length number = x := by
  rw [hvalue, octets_add_mul, octets_value]

theorem top_bit (octet : UInt8) : octet &&& 0x80 ≠ 0 ↔ 128 ≤ octet.toNat := by
  have hall : ∀ n < 256, (UInt8.ofNat n &&& 0x80 ≠ 0 ↔ 128 ≤ n) := by
    decide +kernel
  have hoctet := hall octet.toNat octet.toNat_lt
  rwa [UInt8.ofNat_toNat] at hoctet

theorem msb_iff {octet : UInt8} {rest : Octets} (hlength : rest.length = 15) :
    Msb (octet :: rest) ↔ octet &&& 0x80 ≠ 0 := by
  have hrest := value_lt rest
  rw [hlength] at hrest
  rw [top_bit, Msb, value, hlength]
  omega

end LoraBridge.Rfc4493
