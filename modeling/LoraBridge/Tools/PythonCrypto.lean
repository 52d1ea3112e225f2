import LoraBridge.Codec.CmacConformance

/-!
# The crypto of the Python tools

`cam-c2.py` and `lw-verify.py` share their helpers.  Python's integers are unbounded, and
its CMAC comes from a library that implements RFC 4493.
-/

namespace LoraBridge.PythonCrypto

open LoraBridge.Cipher LoraBridge.LoRaWANCrypto LoraBridge.Memory

/-- An element of `bytes([...])`, already masked to eight bits. -/
def byte (v : ℕ) : UInt8 := UInt8.ofNat v

/-- `v & 0xFF, (v >> 8) & 0xFF, (v >> 16) & 0xFF, (v >> 24) & 0xFF`. -/
def le32 (v : ℕ) : List UInt8 :=
  [byte (v &&& 0xFF), byte ((v >>> 8) &&& 0xFF), byte ((v >>> 16) &&& 0xFF),
    byte ((v >>> 24) &&& 0xFF)]

/-- `b[p] | (b[p+1] << 8) | (b[p+2] << 16) | (b[p+3] << 24)`. -/
def rd32 (b : List UInt8) (p : ℕ) : ℕ :=
  (b.getD p 0).toNat ||| ((b.getD (p + 1) 0).toNat <<< 8) |||
    ((b.getD (p + 2) 0).toNat <<< 16) ||| ((b.getD (p + 3) 0).toNat <<< 24)

def aesEcb (aes : BlockCipher) (key block : List UInt8) : List UInt8 := aes.encrypt key block

/-- `CMAC(AES(key))`. -/
def aesCmac (aes : BlockCipher) (key data : List UInt8) : List UInt8 :=
  Rfc4493.cmac (aes.encrypt key) data

/-- `for j in range(count): out[off + j] ^= s[j]`. -/
def xorInto (off : ℕ) (s : List UInt8) : ℕ → List UInt8 → List UInt8
  | 0, out => out
  | count + 1, out =>
      let out := xorInto off s count out
      out.set (off + count) (out.getD (off + count) 0 ^^^ s.getD count 0)

/-- One turn of `for i in range(1, blocks + 1)`. -/
def cryptBlock (aes : BlockCipher) (key : List UInt8) (devAddr fcnt32 length : ℕ)
    (out : List UInt8) (i : ℕ) : List UInt8 :=
  let a := [0x01, 0, 0, 0, 0, 0] ++ le32 devAddr ++ le32 fcnt32 ++ [0x00, byte (i &&& 0xFF)]
  let s := aesEcb aes key a
  let off := (i - 1) * 16
  xorInto off s (min 16 (length - off)) out

/-- The keystream over a whole payload. -/
def cryptFrmPayload (aes : BlockCipher) (key : List UInt8) (devAddr fcnt32 : ℕ)
    (payload : List UInt8) : List UInt8 :=
  (List.range' 1 ((payload.length + 15) / 16)).foldl
    (cryptBlock aes key devAddr fcnt32 payload.length) payload

/-! ## The firmware's values -/

theorem byte_and (v : ℕ) : byte (v &&& 0xFF) = UInt8.ofNat v := by
  have hmask : v &&& 0xFF = v % 256 := Nat.and_two_pow_sub_one_eq_mod v 8
  rw [byte, hmask]
  apply UInt8.toNat_inj.mp
  simp

theorem le32_toNat (w : UInt32) : le32 w.toNat = wordBytes w := by
  have hbyte : ∀ shift : UInt32, shift < 32 →
      byte ((w.toNat >>> shift.toNat) &&& 0xFF) = (w >>> shift).toUInt8 := by
    intro shift hshift
    have hsmall : shift.toNat < 32 := UInt32.lt_iff_toNat_lt.mp hshift
    rw [byte_and]
    apply UInt8.toNat_inj.mp
    rw [UInt8.toNat_ofNat', UInt32.toNat_toUInt8, UInt32.toNat_shiftRight,
      Nat.mod_eq_of_lt hsmall]
  have hlow : byte (w.toNat &&& 0xFF) = w.toUInt8 := by
    rw [byte_and]
    apply UInt8.toNat_inj.mp
    rw [UInt8.toNat_ofNat', UInt32.toNat_toUInt8]
  have h8 := hbyte 8 (by decide)
  have h16 := hbyte 16 (by decide)
  have h24 := hbyte 24 (by decide)
  exact congrArg₂ _ hlow (congrArg₂ _ h8 (congrArg₂ _ h16 (congrArg₂ _ h24 rfl)))

/-- A word is read back where it was written. -/
theorem rd32_wordBytes (before : List UInt8) (w : UInt32) (after : List UInt8) :
    rd32 (before ++ (wordBytes w ++ after)) before.length = w.toNat := by
  have hword := (toNat_word_eq_or _ _ _ _).symm.trans (congrArg UInt32.toNat (word_of_bytes w))
  simp only [rd32, List.getD_eq_getElem?_getD, wordBytes,
    List.getElem?_append_right (Nat.le_refl _), List.getElem?_append_right (Nat.le_add_right _ _),
    Nat.sub_self, Nat.add_sub_cancel_left]
  exact hword

theorem aesCmac_eq (aes : BlockCipher) (key data : List UInt8) :
    aesCmac aes key data = LoRaWANCrypto.aesCmac aes key data :=
  (LoRaWANCrypto.aesCmac_eq aes key data).symm

/-! ## The keystream -/

@[simp]
theorem length_xorInto (off : ℕ) (s : List UInt8) (count : ℕ) (out : List UInt8) :
    (xorInto off s count out).length = out.length := by
  induction count with
  | zero => rfl
  | succ count ih => simp [xorInto, ih]

theorem getElem?_xorInto (off : ℕ) (s : List UInt8) (count : ℕ) (out : List UInt8) (i : ℕ) :
    (xorInto off s count out)[i]? =
      if off ≤ i ∧ i < off + count then out[i]?.map (· ^^^ s.getD (i - off) 0)
      else out[i]? := by
  induction count with
  | zero => rw [xorInto, if_neg (by omega)]
  | succ count ih =>
      rw [xorInto, List.getElem?_set, length_xorInto]
      by_cases hlast : off + count = i
      · subst hlast
        have hsame : (xorInto off s count out).getD (off + count) 0 = out.getD (off + count) 0 := by
          rw [List.getD_eq_getElem?_getD, ih, if_neg (by omega), List.getD_eq_getElem?_getD]
        have hlater : off ≤ off + count ∧ off + count < off + (count + 1) := by omega
        rw [if_pos rfl, if_pos hlater, hsame, Nat.add_sub_cancel_left]
        by_cases hinside : off + count < out.length
        · simp [hinside]
        · simp [hinside]
      · rw [if_neg hlast, ih]
        by_cases hbefore : off ≤ i ∧ i < off + count
        · rw [if_pos hbefore, if_pos (by omega)]
        · rw [if_neg hbefore, if_neg (by omega)]

/-- The block behind `pre` is xored with the stream, the rest stays. -/
theorem xorInto_eq (pre rest : List UInt8) {block s : List UInt8}
    (hlength : block.length ≤ s.length) :
    xorInto pre.length s block.length (pre ++ (block ++ rest)) =
      pre ++ (xorBytes block s ++ rest) := by
  refine List.ext_getElem? fun i => ?_
  rw [getElem?_xorInto]
  by_cases hpre : i < pre.length
  · rw [if_neg (by omega), List.getElem?_append_left hpre, List.getElem?_append_left hpre]
  · have hi : pre.length ≤ i := by omega
    have hblock : (xorBytes block s).length = block.length := by
      rw [length_xorBytes]
      omega
    rw [List.getElem?_append_right hi, List.getElem?_append_right hi]
    by_cases hinside : i < pre.length + block.length
    · have hk : i - pre.length < block.length := by omega
      have hstream : i - pre.length < s.length := by omega
      rw [if_pos ⟨hi, hinside⟩, List.getElem?_append_left hk,
        List.getElem?_append_left (by omega), xorBytes, List.getElem?_zipWith]
      simp [hk, hstream]
    · rw [if_neg (by omega), List.getElem?_append_right (by omega),
        List.getElem?_append_right (by omega), hblock]

theorem frmBlock_eq (devAddr fcnt32 : UInt32) (i : ℕ) :
    [0x01, 0, 0, 0, 0, 0] ++ le32 devAddr.toNat ++ le32 fcnt32.toNat ++
      [0x00, byte (i &&& 0xFF)] = frmBlock devAddr fcnt32 (UInt8.ofNat i) := by
  rw [le32_toNat, le32_toNat, byte_and]
  rfl

/-- The loop from some block on, over what is left behind that. -/
theorem foldl_cryptBlock (aes : BlockCipher) (key : List UInt8) (devAddr fcnt32 : UInt32)
    (pre rest : List UInt8) (i : ℕ) {blocks : ℕ} (hpre : pre.length = 16 * i)
    (hblocks : blocks = (rest.length + 15) / 16) :
    (List.range' (i + 1) blocks).foldl
        (cryptBlock aes key devAddr.toNat fcnt32.toNat (pre.length + rest.length))
        (pre ++ rest) =
      pre ++ cryptFrmBlocks aes key devAddr fcnt32 blocks (UInt8.ofNat (i + 1)) rest := by
  induction blocks generalizing pre rest i with
  | zero =>
      have hnil : rest = [] := List.length_eq_zero_iff.mp (by omega)
      simp [hnil, cryptFrmBlocks]
  | succ blocks ih =>
      have hstream := aes.length_encrypt key (frmBlock devAddr fcnt32 (UInt8.ofNat (i + 1)))
      have htake : (rest.take 16).length = min 16 (pre.length + rest.length - pre.length) := by
        rw [List.length_take]
        omega
      have hoff : (i + 1 - 1) * 16 = pre.length := by omega
      have hfirst : cryptBlock aes key devAddr.toNat fcnt32.toNat (pre.length + rest.length)
          (pre ++ rest) (i + 1) =
          pre ++ (xorBytes (rest.take 16) (LoRaWANCrypto.aesEcb aes key
            (frmBlock devAddr fcnt32 (UInt8.ofNat (i + 1)))) ++ rest.drop 16) := by
        have hshort : (rest.take 16).length ≤
            (aes.encrypt key (frmBlock devAddr fcnt32 (UInt8.ofNat (i + 1)))).length := by
          rw [hstream, List.length_take]
          omega
        have hxor := xorInto_eq pre (rest.drop 16) hshort
        rw [List.take_append_drop] at hxor
        simp only [cryptBlock, hoff, ← htake, frmBlock_eq, aesEcb]
        exact hxor
      rw [List.range'_succ, List.foldl_cons, hfirst, cryptFrmBlocks]
      generalize hblock : xorBytes (rest.take 16) (LoRaWANCrypto.aesEcb aes key
        (frmBlock devAddr fcnt32 (UInt8.ofNat (i + 1)))) = block
      have hlength : block.length = min 16 rest.length := by
        rw [← hblock, length_xorBytes, List.length_take, LoRaWANCrypto.aesEcb, hstream]
        omega
      by_cases hfull : 16 ≤ rest.length
      · have hnext := ih (pre ++ block) (rest.drop 16) (i + 1)
          (by rw [List.length_append]; omega) (by rw [List.length_drop]; omega)
        have htotal : (pre ++ block).length + (rest.drop 16).length =
            pre.length + rest.length := by
          rw [List.length_append, List.length_drop]
          omega
        have hindex : UInt8.ofNat (i + 1 + 1) = UInt8.ofNat (i + 1) + 1 := by simp
        rw [htotal, hindex] at hnext
        rw [← List.append_assoc, hnext, List.append_assoc]
      · have hlast : blocks = 0 := by omega
        rw [hlast, List.drop_eq_nil_of_le (by omega)]
        simp [cryptFrmBlocks]

/-- The tools compute the firmware's keystream. -/
theorem cryptFrmPayload_eq (aes : BlockCipher) (key : List UInt8) (devAddr fcnt32 : UInt32)
    (payload : List UInt8) :
    cryptFrmPayload aes key devAddr.toNat fcnt32.toNat payload =
      LoRaWANCrypto.cryptFrmPayload aes key devAddr fcnt32 payload := by
  have hloop := foldl_cryptBlock aes key devAddr fcnt32 [] payload 0 rfl rfl
  simpa [cryptFrmPayload, LoRaWANCrypto.cryptFrmPayload] using hloop

end LoraBridge.PythonCrypto
