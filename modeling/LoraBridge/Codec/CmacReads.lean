import LoraBridge.Codec.CmacConformance

/-!
# What the CMAC reads

`aesCmac` again, through its pointer and in the 32-bit `size_t` of the target.  A read
outside the message would be a fault; there is none, and the tag is that of RFC 4493.
-/

namespace LoraBridge.CmacReads

open LoraBridge.Memory LoraBridge.Cipher LoraBridge.LoRaWANCrypto

/-- `size_t`. -/
def sizeT (n : ℕ) : ℕ := n % 2 ^ 32

/-- A message in memory: no object of the target is larger than `PTRDIFF_MAX`. -/
structure Message where
  bytes : List UInt8
  fits : bytes.length < 2 ^ 31

/-- The number of blocks, of which an empty message has one. -/
def blockCount (len : ℕ) : ℕ := if len = 0 then 1 else sizeT (len + 15) / 16

/-- The last block under its subkey: a complete one, or the bytes that are left with
their padding. -/
def maskLast (lastBlock : Pointer) (len : ℕ) (k1 k2 : List UInt8) :
    Except Halt (List UInt8) :=
  if len ≠ 0 ∧ len % 16 = 0 then do
    let block ← readRange lastBlock 0 16
    pure (xorBytes block k1)
  else do
    let rem := if len = 0 then 0 else len % 16
    let part ← readRange lastBlock 0 rem
    pure (xorBytes (part ++ 0x80 :: List.replicate (15 - rem) 0) k2)

/-- One turn of the chaining loop. -/
def chainStep (aes : BlockCipher) (key : List UInt8) (msg : Pointer) (x : List UInt8)
    (i : ℕ) : Except Halt (List UInt8) := do
  let block ← readRange msg (sizeT (i * 16)) 16
  pure (aesEcb aes key (xorBytes x block))

def aesCmac (aes : BlockCipher) (key : List UInt8) (msg : Pointer) (len : ℕ) :
    Except Halt (List UInt8) := do
  let (k1, k2) := cmacSubkeys aes key
  let n := blockCount len
  let mLast ← maskLast (msg.advance (sizeT ((n - 1) * 16))) len k1 k2
  let x ← (List.range (n - 1)).foldlM (chainStep aes key msg) (List.replicate 16 0)
  pure (aesEcb aes key (xorBytes x mLast))

theorem sizeT_of_lt {n : ℕ} (hn : n < 2 ^ 32) : sizeT n = n := Nat.mod_eq_of_lt hn

/-- The loop and the last block share the message between them. -/
theorem blockCount_spec (msg : Message) :
    0 < blockCount msg.bytes.length ∧
      (blockCount msg.bytes.length - 1) * 16 ≤ msg.bytes.length ∧
      (msg.bytes.length ≠ 0 →
        msg.bytes.length ≤ blockCount msg.bytes.length * 16 ∧
          (blockCount msg.bytes.length - 1) * 16 < msg.bytes.length) := by
  have hfits := msg.fits
  have hsize : sizeT (msg.bytes.length + 15) = msg.bytes.length + 15 :=
    sizeT_of_lt (by omega)
  rw [blockCount, hsize]
  split <;> omega

/-- Where every step of a fold succeeds, so does the fold. -/
theorem foldlM_ok {State Input : Type} {step : State → Input → Except Halt State}
    {next : State → Input → State} {inputs : List Input}
    (hstep : ∀ state, ∀ input ∈ inputs, step state input = .ok (next state input))
    (state : State) : inputs.foldlM step state = .ok (inputs.foldl next state) := by
  induction inputs generalizing state with
  | nil => rfl
  | cons input inputs ih =>
      rw [List.foldlM_cons, hstep state input (List.mem_cons_self ..), List.foldl_cons]
      exact ih (fun later next hnext => hstep later next (List.mem_cons_of_mem _ hnext)) _

/-- Each block of the loop lies inside the message. -/
theorem chainStep_eq (aes : BlockCipher) (key : List UInt8) (msg : Message) (x : List UInt8)
    {i : ℕ} (hi : i < blockCount msg.bytes.length - 1) :
    chainStep aes key (.ofList msg.bytes) x i =
      .ok (aes.encrypt key (Rfc4493.xor x (Rfc4493.block msg.bytes i))) := by
  obtain ⟨-, hbefore, -⟩ := blockCount_spec msg
  have hfits := msg.fits
  have hinside : i * 16 + 16 ≤ msg.bytes.length := by omega
  rw [chainStep, sizeT_of_lt (by omega), readRange_ofList _ _ hinside, Nat.mul_comm]
  rfl

/-- The last block: all of it, or what there is of it. -/
theorem maskLast_eq (msg : Message) (k1 k2 : List UInt8) :
    let last := Rfc4493.block msg.bytes (blockCount msg.bytes.length - 1)
    maskLast ((Pointer.ofList msg.bytes).advance
        (sizeT ((blockCount msg.bytes.length - 1) * 16))) msg.bytes.length k1 k2 =
      .ok (if msg.bytes.length ≠ 0 ∧ msg.bytes.length % 16 = 0 then Rfc4493.xor last k1
        else Rfc4493.xor (Rfc4493.padding last) k2) := by
  intro last
  obtain ⟨hpos, hbefore, hcovered⟩ := blockCount_spec msg
  have hfits := msg.fits
  have hlast : last = (msg.bytes.drop ((blockCount msg.bytes.length - 1) * 16)).take 16 := by
    simp only [last, Rfc4493.block, Nat.mul_comm]
  rw [maskLast, sizeT_of_lt (by omega), ofList_advance]
  generalize hrest : msg.bytes.drop ((blockCount msg.bytes.length - 1) * 16) = rest at hlast ⊢
  have hlength : rest.length = msg.bytes.length - (blockCount msg.bytes.length - 1) * 16 := by
    rw [← hrest, List.length_drop]
  by_cases hcomplete : msg.bytes.length ≠ 0 ∧ msg.bytes.length % 16 = 0
  · have hfull : 16 ≤ rest.length := by omega
    rw [if_pos hcomplete, if_pos hcomplete, readRange_ofList _ _ (by omega), hlast]
    rfl
  · have hrem : (if msg.bytes.length = 0 then 0 else msg.bytes.length % 16) = rest.length := by
      split <;> omega
    have hshort : rest.length ≤ 16 := by omega
    simp only [if_neg hcomplete, hrem]
    rw [readRange_ofList _ _ (by omega), List.drop_zero, List.take_length, hlast,
      List.take_of_length_le hshort]
    rfl

/-- No read is a fault, and what comes out is what the bytes alone determine. -/
theorem aesCmac_ok (aes : BlockCipher) (key : List UInt8) (msg : Message) :
    aesCmac aes key (.ofList msg.bytes) msg.bytes.length =
      .ok (LoRaWANCrypto.aesCmac aes key msg.bytes) := by
  rw [aesCmac_eq]
  have hzero : (aesEcb aes key (List.replicate 16 0)).length = 16 := aes.length_encrypt key _
  have hk1 : (Rfc4493.double (aesEcb aes key (List.replicate 16 0))).length = 16 :=
    length_double hzero
  have hcount : blockCount msg.bytes.length =
      if msg.bytes.length = 0 then 1 else (msg.bytes.length + 15) / 16 := by
    have hfits := msg.fits
    rw [blockCount, sizeT_of_lt (by omega)]
  have hchain : (List.range (blockCount msg.bytes.length - 1)).foldlM
      (chainStep aes key (.ofList msg.bytes)) (List.replicate 16 0) =
        .ok ((List.range (blockCount msg.bytes.length - 1)).foldl
          (fun x i => aes.encrypt key (Rfc4493.xor x (Rfc4493.block msg.bytes i)))
          (List.replicate 16 0)) :=
    foldlM_ok (fun x i hi => chainStep_eq aes key msg x (List.mem_range.mp hi)) _
  simp only [aesCmac, cmacSubkeys, cmacSubkey_eq hzero, cmacSubkey_eq hk1, maskLast_eq, hchain,
    Rfc4493.cmac, ← hcount, bind, Except.bind, pure, Except.pure, xorBytes_comm _ (ite _ _ _)]
  rfl

/-- For every key and message the code reads inside the message and computes the tag of
RFC 4493. -/
theorem aesCmac_rfc4493 (aes : BlockCipher) (key : List UInt8) (msg : Message) :
    aesCmac aes key (.ofList msg.bytes) msg.bytes.length =
      .ok (Rfc4493.cmac (aes.encrypt key) msg.bytes) := by
  rw [aesCmac_ok, aesCmac_eq]

end LoraBridge.CmacReads
