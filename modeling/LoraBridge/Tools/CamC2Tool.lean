import LoraBridge.Control.CamC2Codec
import LoraBridge.Tools.PythonCrypto

/-!
# The C2 tool

`cam-c2.py` builds and verifies C2 frames off the device.  It has no upper bound on the
length of a frame; up to the firmware's bound the two agree.
-/

namespace LoraBridge.CamC2Tool

open LoraBridge.Cipher LoraBridge.PythonCrypto

def MAGIC : ℕ := 0xC2

def HDR : ℕ := 14

def TAG : ℕ := 8

/-- `TYPES.get(typ, "?")`. -/
def typeName (typ : ℕ) : String :=
  if typ = 1 then "CMD"
  else if typ = 2 then "ACK"
  else if typ = 3 then "EVT"
  else if typ = 4 then "BEACON"
  else "?"

def cryptFrm (aes : BlockCipher) (key : List UInt8) (devAddr fcnt32 : ℕ)
    (payload : List UInt8) : List UInt8 :=
  if payload = [] then payload else cryptFrmPayload aes key devAddr fcnt32 payload

/-- `(macKey, encKey)`. -/
def deriveKeys (aes : BlockCipher) (psk : List UInt8) : List UInt8 × List UInt8 :=
  (aesEcb aes psk (0x01 :: List.replicate 15 0), aesEcb aes psk (0x02 :: List.replicate 15 0))

/-- `build`; `bytes([MAGIC, typ])` raises on a type beyond eight bits. -/
def build (aes : BlockCipher) (psk : List UInt8) (typ sender recip seq : ℕ)
    (payload : List UInt8) : Option (List UInt8) :=
  let (macKey, encKey) := deriveKeys aes psk
  let ct := cryptFrm aes encKey sender seq payload
  if typ < 256 then
    let body := [byte MAGIC, byte typ] ++ le32 sender ++ le32 recip ++ le32 seq ++ ct
    some (body ++ (aesCmac aes macKey body).take TAG)
  else none

/-- The fields `verify` returns. -/
structure Info where
  type : ℕ
  typeName : String
  sender : ℕ
  recip : ℕ
  seq : ℕ
  payload : List UInt8
  deriving DecidableEq

/-- `verify`: the message of a refusal, or the fields. -/
def verify (aes : BlockCipher) (frame psk : List UInt8) : Except String Info :=
  if frame.length < HDR + TAG then .error "too short"
  else if (frame.getD 0 0).toNat ≠ MAGIC then .error "bad magic (not 0xC2)"
  else
    let (macKey, encKey) := deriveKeys aes psk
    let authlen := frame.length - TAG
    let calc_ := (aesCmac aes macKey (frame.take authlen)).take TAG
    if calc_ ≠ frame.drop authlen then .error "MIC FAIL (wrong key or forged/tampered)"
    else
      let typ := (frame.getD 1 0).toNat
      let sender := rd32 frame 2
      let recip := rd32 frame 6
      let seq := rd32 frame 10
      .ok ⟨typ, typeName typ, sender, recip, seq,
        cryptFrm aes encKey sender seq ((frame.take authlen).drop HDR)⟩

/-- A message of the firmware as the tool shows it. -/
def Info.ofFrame (frame : CamC2.Frame) : Info where
  type := frame.type.toNat
  typeName := CamC2Tool.typeName frame.type.toNat
  sender := frame.sender.toNat
  recip := frame.recip.toNat
  seq := frame.seq.toNat
  payload := frame.plain

/-! ## The firmware's functions -/

theorem rd32_eq (buf : List UInt8) (p : ℕ) : rd32 buf p = (CamC2.get32le buf p).toNat :=
  (Memory.toNat_word_eq_or _ _ _ _).symm

theorem cryptFrm_eq (aes : BlockCipher) (key : List UInt8) (devAddr fcnt32 : UInt32)
    (payload : List UInt8) :
    cryptFrm aes key devAddr.toNat fcnt32.toNat payload =
      LoRaWANCrypto.cryptFrmPayload aes key devAddr fcnt32 payload := by
  rw [cryptFrm]
  split
  · rename_i hempty
    subst hempty
    rfl
  · exact cryptFrmPayload_eq aes key devAddr fcnt32 payload

theorem build_eq (aes : BlockCipher) (psk : List UInt8) (frame : CamC2.Frame) :
    build aes psk frame.type.toNat frame.sender.toNat frame.recip.toNat frame.seq.toNat
      frame.plain = some (CamC2.encode aes psk frame) := by
  have htype : byte frame.type.toNat = frame.type := UInt8.ofNat_toNat
  rw [build]
  simp only [if_pos frame.type.toNat_lt, cryptFrm_eq, le32_toNat, aesCmac_eq, htype]
  rfl

/-- The tool accepts what the firmware accepts, up to the firmware's bound. -/
theorem verify_eq (aes : BlockCipher) (psk frame : List UInt8)
    (hlength : frame.length ≤ CamC2.MAX_FRAME) :
    (verify aes frame psk).toOption =
      (CamC2.verifyAndDecrypt aes frame psk).map Info.ofFrame := by
  have hmagic : (frame.getD 0 0).toNat = MAGIC ↔ frame.getD 0 0 = CamC2.MAGIC_VER := by
    rw [← UInt8.toNat_inj]
    rfl
  have hbytes : CamC2.Verifies aes psk frame ↔ HDR + TAG ≤ frame.length ∧
      (frame.getD 0 0).toNat = MAGIC ∧
      (aesCmac aes (deriveKeys aes psk).1 (frame.take (frame.length - TAG))).take TAG =
        frame.drop (frame.length - TAG) := by
    rw [hmagic, aesCmac_eq]
    exact ⟨fun ⟨hform, hver, htag⟩ => ⟨hform.1, hver, htag⟩,
      fun ⟨hform, hver, htag⟩ => ⟨⟨hform, hlength⟩, hver, htag⟩⟩
  by_cases hverifies : CamC2.Verifies aes psk frame
  · rw [CamC2.verifyAndDecrypt_eq_some_iff.mpr ⟨hverifies, rfl⟩]
    obtain ⟨hform, hver, htag⟩ := hbytes.mp hverifies
    simp only [verify, if_neg (Nat.not_lt.mpr hform), hver, htag, ne_eq, not_true_eq_false,
      if_false, rd32_eq, cryptFrm_eq]
    rfl
  · have hnone : CamC2.verifyAndDecrypt aes frame psk = none := by
      refine Option.eq_none_iff_forall_ne_some.mpr fun decoded hdecoded => ?_
      exact hverifies (CamC2.verifyAndDecrypt_eq_some_iff.mp hdecoded).1
    rw [hnone, verify]
    by_cases hshort : frame.length < HDR + TAG
    · rw [if_pos hshort]
      rfl
    · rw [if_neg hshort]
      by_cases hver : (frame.getD 0 0).toNat = MAGIC
      · rw [if_neg (not_not.mpr hver)]
        have htag : (aesCmac aes (deriveKeys aes psk).1
            (frame.take (frame.length - TAG))).take TAG ≠ frame.drop (frame.length - TAG) :=
          fun htag => hverifies (hbytes.mpr ⟨Nat.le_of_not_lt hshort, hver, htag⟩)
        simp only [if_pos htag]
        rfl
      · rw [if_pos hver]
        rfl

/-- The codec is exact: what is built decodes to what it was built from, what decodes was
built from what it decodes to, and the tool builds and accepts the same frames. -/
theorem codec_exact (aes : BlockCipher) (psk : List UInt8) :
    (∀ (type : UInt8) (sender recip seq : UInt32) (payload : List UInt8),
      payload.length ≤ CamC2.MAX_PAYLOAD →
      ∃ frame, CamC2.buildFrame aes type sender recip seq psk payload CamC2.MAX_FRAME =
          some frame ∧
        CamC2.verifyAndDecrypt aes frame psk = some ⟨type, sender, recip, seq, payload⟩ ∧
        build aes psk type.toNat sender.toNat recip.toNat seq.toNat payload = some frame) ∧
    (∀ buf frame, CamC2.verifyAndDecrypt aes buf psk = some frame →
      CamC2.buildFrame aes frame.type frame.sender frame.recip frame.seq psk frame.plain
        CamC2.MAX_FRAME = some buf) ∧
    ∀ buf : List UInt8, buf.length ≤ CamC2.MAX_FRAME →
      (verify aes buf psk).toOption =
        (CamC2.verifyAndDecrypt aes buf psk).map Info.ofFrame := by
  refine ⟨fun type sender recip seq payload hpayload => ?_, fun buf frame hverify => ?_,
    verify_eq aes psk⟩
  · exact ⟨_, CamC2.buildFrame_eq ⟨type, sender, recip, seq, payload⟩ hpayload le_rfl,
      CamC2.verify_encode _ hpayload, build_eq aes psk ⟨type, sender, recip, seq, payload⟩⟩
  · obtain ⟨hverifies, rfl⟩ := CamC2.verifyAndDecrypt_eq_some_iff.mp hverify
    obtain ⟨hpayload, hencode⟩ := CamC2.encode_decode hverifies
    rw [CamC2.buildFrame_eq _ hpayload le_rfl, hencode]

/-- A status command under an all-zero key. -/
theorem status_command_exact :
    ∃ frame, CamC2.buildFrame identityCipher CamC2.T_CMD 0xC0DE 0xCA00 1
        (List.replicate 16 0) [CamC2.CMD_GET_STATUS] CamC2.MAX_FRAME = some frame ∧
      CamC2.verifyAndDecrypt identityCipher frame (List.replicate 16 0) =
        some ⟨CamC2.T_CMD, 0xC0DE, 0xCA00, 1, [CamC2.CMD_GET_STATUS]⟩ ∧
      build identityCipher (List.replicate 16 0) CamC2.T_CMD.toNat 0xC0DE 0xCA00 1
        [CamC2.CMD_GET_STATUS] = some frame :=
  (codec_exact identityCipher (List.replicate 16 0)).1 CamC2.T_CMD 0xC0DE 0xCA00 1
    [CamC2.CMD_GET_STATUS] (by decide)

end LoraBridge.CamC2Tool
