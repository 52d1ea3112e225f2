import LoraBridge.Codec.Memory

/-!
# The block cipher and its modes

AES itself and its counter mode live in mbedTLS.  A `BlockCipher` is what the decoders and
encoders rely on: blocks of sixteen bytes, decryption undoing encryption under the same key,
and a counter mode that keeps the length and is its own inverse.  The ECB loop is the code's
own.
-/

namespace LoraBridge.Cipher

/-- A 16-byte block cipher with `mbedtls_aes_crypt_ctr`, which takes the key, the offset into
the stream block, the counter, the stream block and the input. -/
structure BlockCipher where
  encrypt : List UInt8 → List UInt8 → List UInt8
  decrypt : List UInt8 → List UInt8 → List UInt8
  cryptCtr : List UInt8 → ℕ → List UInt8 → List UInt8 → List UInt8 → List UInt8
  length_encrypt : ∀ key block, (encrypt key block).length = 16
  length_decrypt : ∀ key block, (decrypt key block).length = 16
  decrypt_encrypt : ∀ key block, block.length = 16 →
    decrypt key (encrypt key block) = block
  length_cryptCtr : ∀ key ncOff counter stream input,
    (cryptCtr key ncOff counter stream input).length = input.length
  cryptCtr_cryptCtr : ∀ key ncOff counter stream input,
    cryptCtr key ncOff counter stream (cryptCtr key ncOff counter stream input) = input

attribute [simp] BlockCipher.length_cryptCtr BlockCipher.cryptCtr_cryptCtr

/-- `for (i = 0; i < 16 * blocks; i += 16) mbedtls_aes_crypt_ecb(...)`. -/
def cryptEcb (crypt : List UInt8 → List UInt8) : ℕ → List UInt8 → List UInt8
  | 0, _ => []
  | blocks + 1, input =>
      crypt (input.take 16) ++ cryptEcb crypt blocks (input.drop 16)

theorem length_cryptEcb {crypt : List UInt8 → List UInt8}
    (hcrypt : ∀ block, (crypt block).length = 16) (blocks : ℕ)
    (input : List UInt8) : (cryptEcb crypt blocks input).length = 16 * blocks := by
  induction blocks generalizing input with
  | zero => rfl
  | succ blocks ih =>
      rw [cryptEcb, List.length_append, hcrypt, ih]
      omega

/-- Decrypting what was encrypted block by block gives it back. -/
theorem cryptEcb_decrypt_encrypt (aes : BlockCipher) (key : List UInt8)
    {blocks : ℕ} {input : List UInt8} (hlength : input.length = 16 * blocks) :
    cryptEcb (aes.decrypt key) blocks
      (cryptEcb (aes.encrypt key) blocks input) = input := by
  induction blocks generalizing input with
  | zero => exact (List.length_eq_zero_iff.mp (by omega)).symm
  | succ blocks ih =>
      have hblock := aes.length_encrypt key (input.take 16)
      have hfirst : (input.take 16).length = 16 := by
        rw [List.length_take]
        omega
      have hrest : (input.drop 16).length = 16 * blocks := by
        rw [List.length_drop]
        omega
      rw [cryptEcb, cryptEcb, List.take_left' hblock, List.drop_left' hblock,
        aes.decrypt_encrypt key _ hfirst, ih hrest, List.take_append_drop]

/-! ## A cipher to compute with -/

/-- Add one to a little-endian number of fixed width. -/
def incrementLE : List UInt8 → List UInt8
  | [] => []
  | byte :: rest =>
      if byte + 1 = 0 then 0 :: incrementLE rest else (byte + 1) :: rest

/-- The CTR counter block is a big-endian number. -/
def increment (counter : List UInt8) : List UInt8 :=
  (incrementLE counter.reverse).reverse

/-- Counter mode over an encryption of blocks: a fresh stream block whenever `ncOff` is 0. -/
def counterMode (encrypt : List UInt8 → List UInt8) :
    ℕ → List UInt8 → List UInt8 → List UInt8 → List UInt8
  | _, _, _, [] => []
  | ncOff, counter, stream, byte :: rest =>
      let stream' := if ncOff = 0 then encrypt counter else stream
      let counter' := if ncOff = 0 then increment counter else counter
      (byte ^^^ stream'.getD ncOff 0) ::
        counterMode encrypt ((ncOff + 1) % 16) counter' stream' rest

theorem length_counterMode (encrypt : List UInt8 → List UInt8) (ncOff : ℕ)
    (counter stream input : List UInt8) :
    (counterMode encrypt ncOff counter stream input).length = input.length := by
  induction input generalizing ncOff counter stream with
  | nil => rfl
  | cons byte rest ih => simp [counterMode, ih]

/-- The stream does not depend on the data, so encrypting twice is decrypting. -/
theorem counterMode_counterMode (encrypt : List UInt8 → List UInt8) (ncOff : ℕ)
    (counter stream input : List UInt8) :
    counterMode encrypt ncOff counter stream
      (counterMode encrypt ncOff counter stream input) = input := by
  induction input generalizing ncOff counter stream with
  | nil => rfl
  | cons byte rest ih =>
      simp only [counterMode, ih]
      rw [UInt8.xor_assoc, UInt8.xor_self, UInt8.xor_zero]

/-- A block, cut or filled up to sixteen bytes. -/
def identityBlock (block : List UInt8) : List UInt8 := (block ++ List.replicate 16 0).take 16

/-- The cipher that encrypts every block to itself. -/
def identityCipher : BlockCipher where
  encrypt _ block := identityBlock block
  decrypt _ block := identityBlock block
  cryptCtr _ := counterMode identityBlock
  length_encrypt _ block := by simp [identityBlock]
  length_decrypt _ block := by simp [identityBlock]
  decrypt_encrypt _ block hblock := by
    have htake : identityBlock block = block := by
      rw [identityBlock, ← hblock, List.take_left]
    rw [htake, htake]
  length_cryptCtr _ := length_counterMode identityBlock
  cryptCtr_cryptCtr _ := counterMode_counterMode identityBlock

end LoraBridge.Cipher
