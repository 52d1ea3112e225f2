import LoraBridge.Codec.LoRaWANCrypto
import LoraBridge.Core.Rfc4493

/-!
# The CMAC of the firmware

`aesCmac` is the algorithm of RFC 4493 over the one AES block operation, for every key
and every message.
-/

namespace LoraBridge.LoRaWANCrypto

open LoraBridge.Cipher LoraBridge.Rfc4493

theorem xorBytes_comm (left right : List UInt8) : xorBytes left right = xorBytes right left := by
  unfold xorBytes
  rw [List.zipWith_comm]
  simp only [UInt8.xor_comm]

@[simp]
theorem length_shiftWithCarry (block : List UInt8) :
    (shiftWithCarry block).1.length = block.length := by
  induction block with
  | nil => rfl
  | cons b rest ih => simp [shiftWithCarry, ih]

/-- A byte shifted left with a carry bit coming in. -/
theorem shift_byte (b carry : UInt8) (hcarry : carry = 0 ∨ carry = 1) :
    ((b <<< 1) ||| carry).toNat = 2 * b.toNat % 256 + carry.toNat := by
  have hall : ∀ n < 256, ((UInt8.ofNat n <<< 1) ||| 0).toNat = 2 * n % 256 ∧
      ((UInt8.ofNat n <<< 1) ||| 1).toNat = 2 * n % 256 + 1 := by
    decide +kernel
  have hbyte := hall b.toNat b.toNat_lt
  rw [UInt8.ofNat_toNat] at hbyte
  rcases hcarry with rfl | rfl
  · exact hbyte.1
  · exact hbyte.2

/-- The shifted bytes with the carry in front are twice the number. -/
theorem value_shiftWithCarry (block : List UInt8) :
    ((shiftWithCarry block).2 = 0 ∨ (shiftWithCarry block).2 = 1) ∧
      2 * value block = (shiftWithCarry block).2.toNat * 256 ^ block.length +
        value (shiftWithCarry block).1 := by
  induction block with
  | nil => exact ⟨.inl rfl, rfl⟩
  | cons b rest ih =>
      obtain ⟨hcarry, hrest⟩ := ih
      have hbyte := shift_byte b _ hcarry
      have hlt := b.toNat_lt
      have hnext : (shiftWithCarry (b :: rest)).2.toNat = 2 * b.toNat / 256 := by
        simp only [shiftWithCarry, top_bit]
        split
        · rw [UInt8.toNat_one]
          omega
        · rw [UInt8.toNat_zero]
          omega
      constructor
      · simp only [shiftWithCarry]
        split
        · exact .inr rfl
        · exact .inl rfl
      · rw [hnext]
        simp only [shiftWithCarry, value, length_shiftWithCarry, hbyte, List.length_cons, pow_succ]
        have hsplit : 2 * b.toNat = 2 * b.toNat / 256 * 256 + 2 * b.toNat % 256 := by omega
        calc 2 * (b.toNat * 256 ^ rest.length + value rest)
            = 2 * b.toNat * 256 ^ rest.length + 2 * value rest := by ring
          _ = (2 * b.toNat / 256 * 256 + 2 * b.toNat % 256) * 256 ^ rest.length +
                ((shiftWithCarry rest).2.toNat * 256 ^ rest.length +
                  value (shiftWithCarry rest).1) := by rw [← hsplit, ← hrest]
          _ = _ := by ring

theorem cmacShiftLeft_eq (block : List UInt8) : cmacShiftLeft block = shiftLeft block := by
  have hvalue := (value_shiftWithCarry block).2
  rw [shiftLeft, ← length_shiftWithCarry block, cmacShiftLeft]
  rw [← length_shiftWithCarry block] at hvalue
  exact (octets_eq hvalue).symm

/-- Only the last byte of `const_Rb` is set. -/
theorem xor_const_Rb {block : List UInt8} (hlength : block.length = 16) :
    Rfc4493.xor block const_Rb = block.set 15 (block.getD 15 0 ^^^ 0x87) := by
  refine List.ext_getElem (by simp [Rfc4493.xor, const_Rb, hlength]) fun i hi hi' => ?_
  have hi16 : i < 16 := by simpa [hlength] using hi'
  simp only [Rfc4493.xor, List.getElem_zipWith, List.getElem_set]
  by_cases hlast : i = 15
  · subst hlast
    simp [const_Rb, hlength]
  · have hlt : i < const_Rb.length := by simp [const_Rb]; omega
    have hzero : const_Rb[i] = 0 := by
      simp only [const_Rb]
      rw [List.getElem_append_left (by simp; omega), List.getElem_replicate]
    rw [hzero, if_neg (Ne.symm hlast), UInt8.xor_zero]

theorem cmacSubkey_eq {block : List UInt8} (hlength : block.length = 16) :
    cmacSubkey block = double block := by
  cases block with
  | nil => simp at hlength
  | cons b rest =>
      have hshift := cmacShiftLeft_eq (b :: rest)
      have hmsb : Msb (b :: rest) ↔ b &&& 0x80 ≠ 0 := msb_iff (by simpa using hlength)
      simp only [cmacSubkey, double, hmsb, List.getD_cons_zero, hshift]
      split
      · rw [xor_const_Rb (by simp only [shiftLeft, length_octets, hlength])]
      · rfl

@[simp]
theorem length_double {block : List UInt8} (hlength : block.length = 16) :
    (double block).length = 16 := by
  simp only [double, Rfc4493.xor]
  split <;> simp [shiftLeft, const_Rb, hlength]

/-- The loop over the full blocks. -/
theorem cmacChain_eq (aes : BlockCipher) (key x msg : List UInt8) (blocks : ℕ) :
    cmacChain aes key blocks x msg =
      ((List.range blocks).foldl
        (fun x i => aesEcb aes key (Rfc4493.xor x (block msg i))) x,
        msg.drop (16 * blocks)) := by
  induction blocks generalizing x msg with
  | zero => simp [cmacChain]
  | succ blocks ih =>
      rw [cmacChain, ih, List.range_succ_eq_map, List.foldl_cons, List.foldl_map, List.drop_drop]
      have hblock : ∀ i, block (msg.drop 16) i = block msg (i + 1) := by
        intro i
        rw [block, block, List.drop_drop]
        congr 2
        omega
      simp only [hblock]
      congr 2
      omega

theorem take_padding {last : List UInt8} (hshort : last.length < 16) :
    (last ++ 0x80 :: List.replicate 16 0).take 16 = padding last := by
  have hsplit : List.replicate 16 (0 : UInt8) =
      List.replicate (15 - last.length) 0 ++ List.replicate (last.length + 1) 0 := by
    rw [List.replicate_append_replicate]
    congr 1
    omega
  have hlength : (padding last).length = 16 := by
    simp only [padding, List.length_append, List.length_cons, List.length_replicate]
    omega
  rw [hsplit, ← List.cons_append, ← List.append_assoc]
  exact List.take_left' hlength

/-- The firmware's CMAC is the one of RFC 4493. -/
theorem aesCmac_eq (aes : BlockCipher) (key msg : List UInt8) :
    aesCmac aes key msg = cmac (aes.encrypt key) msg := by
  have hzero : (aesEcb aes key (List.replicate 16 0)).length = 16 := aes.length_encrypt key _
  have hk1 : (double (aesEcb aes key (List.replicate 16 0))).length = 16 := length_double hzero
  simp only [aesCmac, cmacSubkeys, cmacSubkey_eq hzero, cmacSubkey_eq hk1, cmacChain_eq]
  simp only [cmac]
  generalize hn : (if msg.length = 0 then 1 else (msg.length + 15) / 16) = n
  have hlast : (msg.drop (16 * (n - 1))).length ≤ 16 := by
    rw [List.length_drop]
    split at hn <;> omega
  have hblock : block msg (n - 1) = msg.drop (16 * (n - 1)) := List.take_of_length_le hlast
  rw [hblock, xorBytes_comm]
  by_cases hcomplete : msg.length ≠ 0 ∧ msg.length % 16 = 0
  · simp only [if_pos hcomplete]
    rfl
  · have hpartial : (msg.drop (16 * (n - 1))).length < 16 := by
      rw [List.length_drop]
      split at hn <;> omega
    simp only [if_neg hcomplete, take_padding hpartial]
    rfl

end LoraBridge.LoRaWANCrypto
