import LoraBridge.Codec.Cipher

/-!
# LoRaWAN uplink crypto

The RFC 4493 CMAC, the FRMPayload keystream and the Data-Up frame, all over the
one AES block operation `aesEcb`.
-/

namespace LoraBridge.LoRaWANCrypto

open LoraBridge.Memory LoraBridge.Cipher

/-- Byte-wise exclusive or, as far as both operands go. -/
def xorBytes (left right : List UInt8) : List UInt8 :=
  List.zipWith (· ^^^ ·) left right

/-- AES-128 on one block. -/
def aesEcb (aes : BlockCipher) (key block : List UInt8) : List UInt8 :=
  aes.encrypt key block

/-- The shifted bytes and the carry out of the most significant one. -/
def shiftWithCarry : List UInt8 → List UInt8 × UInt8
  | [] => ([], 0)
  | b :: rest =>
      let (shifted, carry) := shiftWithCarry rest
      (((b <<< 1) ||| carry) :: shifted, if b &&& 0x80 ≠ 0 then 1 else 0)

def cmacShiftLeft (block : List UInt8) : List UInt8 := (shiftWithCarry block).1

/-- Shift, and fold the carry back into the last byte. -/
def cmacSubkey (block : List UInt8) : List UInt8 :=
  if block.getD 0 0 &&& 0x80 ≠ 0 then
    (cmacShiftLeft block).set 15 ((cmacShiftLeft block).getD 15 0 ^^^ 0x87)
  else cmacShiftLeft block

def cmacSubkeys (aes : BlockCipher) (key : List UInt8) : List UInt8 × List UInt8 :=
  let k1 := cmacSubkey (aesEcb aes key (List.replicate 16 0))
  (k1, cmacSubkey k1)

/-- The CBC chain over the blocks before the last, and the bytes left over. -/
def cmacChain (aes : BlockCipher) (key : List UInt8) :
    ℕ → List UInt8 → List UInt8 → List UInt8 × List UInt8
  | 0, x, msg => (x, msg)
  | blocks + 1, x, msg =>
      cmacChain aes key blocks (aesEcb aes key (xorBytes x (msg.take 16))) (msg.drop 16)

def aesCmac (aes : BlockCipher) (key msg : List UInt8) : List UInt8 :=
  let (k1, k2) := cmacSubkeys aes key
  let n := if msg.length = 0 then 1 else (msg.length + 15) / 16
  let lastComplete := msg.length ≠ 0 ∧ msg.length % 16 = 0
  let (x, lastBlock) := cmacChain aes key (n - 1) (List.replicate 16 0) msg
  let mLast :=
    if lastComplete then xorBytes lastBlock k1
    else xorBytes ((lastBlock ++ 0x80 :: List.replicate 16 0).take 16) k2
  aesEcb aes key (xorBytes x mLast)

/-- The counter block A_i. -/
def frmBlock (devAddr fcnt32 : UInt32) (i : UInt8) : List UInt8 :=
  [0x01, 0, 0, 0, 0, 0] ++ wordBytes devAddr ++ wordBytes fcnt32 ++ [0, i]

/-- Keystream blocks from index `i` on. -/
def cryptFrmBlocks (aes : BlockCipher) (key : List UInt8) (devAddr fcnt32 : UInt32) :
    ℕ → UInt8 → List UInt8 → List UInt8
  | 0, _, _ => []
  | blocks + 1, i, payload =>
      xorBytes (payload.take 16) (aesEcb aes key (frmBlock devAddr fcnt32 i)) ++
        cryptFrmBlocks aes key devAddr fcnt32 blocks (i + 1) (payload.drop 16)

def cryptFrmPayload (aes : BlockCipher) (key : List UInt8) (devAddr fcnt32 : UInt32)
    (payload : List UInt8) : List UInt8 :=
  cryptFrmBlocks aes key devAddr fcnt32 ((payload.length + 15) / 16) 1 payload

/-- The block B0 in front of the message under the MIC. -/
def micBlock (devAddr fcnt32 : UInt32) (length : ℕ) : List UInt8 :=
  [0x49, 0, 0, 0, 0, 0] ++ wordBytes devAddr ++ wordBytes fcnt32 ++
    [0, UInt8.ofNat length]

/-- A Data-Up frame without its MIC. -/
def uplinkMessage (aes : BlockCipher) (nwkSKey appSKey : List UInt8)
    (devAddr fcnt32 : UInt32) (fport : UInt8) (payload : List UInt8)
    (confirmed : Bool) : List UInt8 :=
  (if confirmed then 0x80 else 0x40) :: wordBytes devAddr ++
    [0x00, fcnt32.toUInt8, (fcnt32 >>> 8).toUInt8, fport] ++
    cryptFrmPayload aes (if fport = 0 then nwkSKey else appSKey) devAddr fcnt32 payload

/-- The whole frame, or nothing when it does not fit. -/
def encodeUplink (aes : BlockCipher) (devAddr : UInt32) (nwkSKey appSKey : List UInt8)
    (fcnt32 : UInt32) (fport : UInt8) (payload : List UInt8) (confirmed : Bool)
    (cap : ℕ) : Option (List UInt8) :=
  if 242 < payload.length then none
  else if cap < 1 + 4 + 1 + 2 + 1 + payload.length + 4 then none
  else
    let msg := uplinkMessage aes nwkSKey appSKey devAddr fcnt32 fport payload confirmed
    let fullMac := aesCmac aes nwkSKey (micBlock devAddr fcnt32 msg.length ++ msg)
    some (msg ++ fullMac.take 4)

@[simp]
theorem length_xorBytes (left right : List UInt8) :
    (xorBytes left right).length = min left.length right.length := by
  simp [xorBytes]

theorem xorBytes_xorBytes {text stream : List UInt8}
    (hlength : text.length ≤ stream.length) :
    xorBytes (xorBytes text stream) stream = text := by
  induction text generalizing stream with
  | nil => simp [xorBytes]
  | cons byte rest ih =>
      cases stream with
      | nil => simp at hlength
      | cons key keys =>
          have hrest := @ih keys (by simpa using hlength)
          simp only [xorBytes, List.zipWith_cons_cons] at hrest ⊢
          rw [UInt8.xor_assoc, UInt8.xor_self, UInt8.xor_zero, hrest]

theorem length_cryptFrmBlocks (aes : BlockCipher) (key : List UInt8)
    (devAddr fcnt32 : UInt32) {blocks : ℕ} {i : UInt8} {payload : List UInt8}
    (hlength : payload.length ≤ 16 * blocks) :
    (cryptFrmBlocks aes key devAddr fcnt32 blocks i payload).length =
      payload.length := by
  induction blocks generalizing i payload with
  | zero => simpa [cryptFrmBlocks, eq_comm] using hlength
  | succ blocks ih =>
      rw [cryptFrmBlocks, List.length_append, ih (by rw [List.length_drop]; omega),
        length_xorBytes, List.length_take, List.length_drop, aesEcb, aes.length_encrypt]
      omega

@[simp]
theorem length_cryptFrmPayload (aes : BlockCipher) (key : List UInt8)
    (devAddr fcnt32 : UInt32) (payload : List UInt8) :
    (cryptFrmPayload aes key devAddr fcnt32 payload).length = payload.length :=
  length_cryptFrmBlocks aes key devAddr fcnt32 (by omega)

theorem cryptFrmBlocks_cryptFrmBlocks (aes : BlockCipher) (key : List UInt8)
    (devAddr fcnt32 : UInt32) {blocks : ℕ} {i : UInt8} {payload : List UInt8}
    (hlength : payload.length ≤ 16 * blocks) :
    cryptFrmBlocks aes key devAddr fcnt32 blocks i
      (cryptFrmBlocks aes key devAddr fcnt32 blocks i payload) = payload := by
  induction blocks generalizing i payload with
  | zero =>
      have hnil : payload = [] := List.length_eq_zero_iff.mp (by omega)
      rw [hnil]
      rfl
  | succ blocks ih =>
      have hstream := aes.length_encrypt key (frmBlock devAddr fcnt32 i)
      have hrest : (payload.drop 16).length ≤ 16 * blocks := by
        rw [List.length_drop]
        omega
      have hlow : (payload.take 16).length ≤
          (aesEcb aes key (frmBlock devAddr fcnt32 i)).length := by
        rw [aesEcb, hstream, List.length_take]
        omega
      by_cases hfull : 16 ≤ payload.length
      · have hblock : (xorBytes (payload.take 16)
            (aesEcb aes key (frmBlock devAddr fcnt32 i))).length = 16 := by
          rw [length_xorBytes, List.length_take, aesEcb, hstream]
          omega
        rw [cryptFrmBlocks, cryptFrmBlocks, List.take_left' hblock,
          List.drop_left' hblock, xorBytes_xorBytes hlow, ih hrest,
          List.take_append_drop]
      · have hshort : payload.drop 16 = [] := List.drop_eq_nil_of_le (by omega)
        have hempty : cryptFrmBlocks aes key devAddr fcnt32 blocks (i + 1) [] = [] :=
          List.length_eq_zero_iff.mp
            (length_cryptFrmBlocks aes key devAddr fcnt32 (Nat.zero_le _))
        have htake : payload.take 16 = payload := List.take_of_length_le (by omega)
        have hblock : (xorBytes payload
            (aesEcb aes key (frmBlock devAddr fcnt32 i))).length ≤ 16 := by
          rw [length_xorBytes]
          omega
        rw [htake] at hlow
        rw [cryptFrmBlocks, cryptFrmBlocks, hshort, hempty, List.append_nil, htake,
          List.take_of_length_le hblock, List.drop_eq_nil_of_le hblock,
          xorBytes_xorBytes hlow, hempty, List.append_nil]

/-- The keystream mode is its own inverse. -/
@[simp]
theorem cryptFrmPayload_cryptFrmPayload (aes : BlockCipher) (key : List UInt8)
    (devAddr fcnt32 : UInt32) (payload : List UInt8) :
    cryptFrmPayload aes key devAddr fcnt32
      (cryptFrmPayload aes key devAddr fcnt32 payload) = payload := by
  unfold cryptFrmPayload
  rw [length_cryptFrmBlocks aes key devAddr fcnt32 (by omega),
    cryptFrmBlocks_cryptFrmBlocks aes key devAddr fcnt32 (by omega)]

@[simp]
theorem length_aesCmac (aes : BlockCipher) (key msg : List UInt8) :
    (aesCmac aes key msg).length = 16 :=
  aes.length_encrypt key _

end LoraBridge.LoRaWANCrypto
