import LoraBridge.Control.CamC2

/-!
# The C2 frame codec

A frame is its header, its ciphertext and its tag; what `verifyAndDecrypt` accepts is
exactly what `buildFrame` makes of the message it returns.
-/

namespace LoraBridge.CamC2

open LoraBridge.Cipher LoraBridge.LoRaWANCrypto LoraBridge.Memory

section Codec

variable {aes : BlockCipher} {psk : List UInt8}

/-- The bytes under the tag. -/
def frameBody (aes : BlockCipher) (psk : List UInt8) (frame : Frame) : List UInt8 :=
  header frame.type frame.sender frame.recip frame.seq ++
    cryptFrmPayload aes (deriveKeys aes psk).encKey frame.sender frame.seq frame.plain

/-- The frame of a message. -/
def encode (aes : BlockCipher) (psk : List UInt8) (frame : Frame) : List UInt8 :=
  frameBody aes psk frame ++
    (aesCmac aes (deriveKeys aes psk).macKey (frameBody aes psk frame)).take TAG_LEN

theorem length_frameBody (frame : Frame) :
    (frameBody aes psk frame).length = HDR_LEN + frame.plain.length := by
  simp only [frameBody, List.length_append, length_cryptFrmPayload]
  rfl

theorem length_encode (frame : Frame) :
    (encode aes psk frame).length = HDR_LEN + frame.plain.length + TAG_LEN := by
  rw [encode, List.length_append, length_frameBody, List.length_take, length_aesCmac]
  rfl

theorem buildFrame_eq (frame : Frame) {cap : ℕ} (hpayload : frame.plain.length ≤ MAX_PAYLOAD)
    (hcap : MAX_FRAME ≤ cap) :
    buildFrame aes frame.type frame.sender frame.recip frame.seq psk frame.plain cap =
      some (encode aes psk frame) := by
  have hfits : ¬ cap < HDR_LEN + frame.plain.length + TAG_LEN := by
    unfold MAX_FRAME at hcap
    omega
  rw [buildFrame, if_neg (by omega), if_neg hfits]
  rfl

theorem get32le_at (before : List UInt8) (w : UInt32) (after : List UInt8) :
    get32le (before ++ (wordBytes w ++ after)) before.length = w := by
  simp only [get32le, List.getD_eq_getElem?_getD, wordBytes,
    List.getElem?_append_right (Nat.le_refl _), List.getElem?_append_right (Nat.le_add_right _ _),
    Nat.sub_self, Nat.add_sub_cancel_left]
  exact word_of_bytes w

/-- The header fields are where `verifyAndDecrypt` reads them. -/
theorem header_fields (type : UInt8) (sender recip seq : UInt32) (rest : List UInt8) :
    let buf := header type sender recip seq ++ rest
    buf.getD 0 0 = MAGIC_VER ∧ buf.getD 1 0 = type ∧ get32le buf 2 = sender ∧
      get32le buf 6 = recip ∧ get32le buf 10 = seq := by
  have hsplit : header type sender recip seq ++ rest =
      [MAGIC_VER, type] ++ (wordBytes sender ++ (wordBytes recip ++ (wordBytes seq ++ rest))) := by
    simp [header]
  refine ⟨rfl, rfl, ?_, ?_, ?_⟩
  · rw [hsplit]
    exact get32le_at _ _ _
  · rw [hsplit, ← List.append_assoc]
    exact get32le_at ([MAGIC_VER, type] ++ wordBytes sender) _ _
  · rw [hsplit, ← List.append_assoc, ← List.append_assoc]
    exact get32le_at ([MAGIC_VER, type] ++ wordBytes sender ++ wordBytes recip) _ _

/-- The message in a byte string of the right form. -/
def decode (aes : BlockCipher) (psk buf : List UInt8) : Frame where
  type := buf.getD 1 0
  sender := get32le buf 2
  recip := get32le buf 6
  seq := get32le buf 10
  plain := cryptFrmPayload aes (deriveKeys aes psk).encKey (get32le buf 2) (get32le buf 10)
    ((buf.take (buf.length - TAG_LEN)).drop HDR_LEN)

/-- What `verifyAndDecrypt` checks. -/
structure Verifies (aes : BlockCipher) (psk buf : List UInt8) : Prop where
  length : MIN_FRAME ≤ buf.length ∧ buf.length ≤ MAX_FRAME
  magic : buf.getD 0 0 = MAGIC_VER
  tag : (aesCmac aes (deriveKeys aes psk).macKey (buf.take (buf.length - TAG_LEN))).take TAG_LEN =
    buf.drop (buf.length - TAG_LEN)

theorem verifyAndDecrypt_eq_some_iff {buf : List UInt8} {frame : Frame} :
    verifyAndDecrypt aes buf psk = some frame ↔
      Verifies aes psk buf ∧ decode aes psk buf = frame := by
  unfold verifyAndDecrypt
  by_cases hlength : buf.length < MIN_FRAME ∨ MAX_FRAME < buf.length
  · rw [if_pos hlength]
    refine iff_of_false (by simp) fun hboth => ?_
    have hform := hboth.1.length
    omega
  · rw [if_neg hlength]
    by_cases hmagic : buf.getD 0 0 = MAGIC_VER
    · have hpayload : ¬ MAX_PAYLOAD < buf.length - TAG_LEN - HDR_LEN := by
        simp only [MIN_FRAME, MAX_FRAME] at hlength
        omega
      simp only [hmagic, hpayload, ne_eq, not_true_eq_false, if_false]
      by_cases htag : (aesCmac aes (deriveKeys aes psk).macKey
          (buf.take (buf.length - TAG_LEN))).take TAG_LEN = buf.drop (buf.length - TAG_LEN)
      · rw [if_neg (not_not.mpr htag), Option.some.injEq]
        have hverifies : Verifies aes psk buf := ⟨by omega, hmagic, htag⟩
        simp only [hverifies, true_and]
        rfl
      · rw [if_pos htag]
        exact iff_of_false (by simp) fun hboth => htag hboth.1.tag
    · simp only [hmagic, ne_eq, not_false_eq_true, if_true]
      exact iff_of_false (by simp) fun hboth => hmagic hboth.1.magic

/-- What is built is accepted, with the fields and the payload it was built from. -/
theorem verify_encode (frame : Frame) (hpayload : frame.plain.length ≤ MAX_PAYLOAD) :
    verifyAndDecrypt aes (encode aes psk frame) psk = some frame := by
  have hlength : (encode aes psk frame).length = HDR_LEN + frame.plain.length + TAG_LEN :=
    length_encode frame
  have hauth : (encode aes psk frame).length - TAG_LEN = (frameBody aes psk frame).length := by
    rw [length_frameBody]
    omega
  have htake : (encode aes psk frame).take (frameBody aes psk frame).length =
      frameBody aes psk frame := List.take_left
  have hdrop : (encode aes psk frame).drop (frameBody aes psk frame).length =
      (aesCmac aes (deriveKeys aes psk).macKey (frameBody aes psk frame)).take TAG_LEN :=
    List.drop_left
  have hcipher : (frameBody aes psk frame).drop HDR_LEN =
      cryptFrmPayload aes (deriveKeys aes psk).encKey frame.sender frame.seq frame.plain :=
    List.drop_left' rfl
  have hsplit : encode aes psk frame = header frame.type frame.sender frame.recip frame.seq ++
      (cryptFrmPayload aes (deriveKeys aes psk).encKey frame.sender frame.seq frame.plain ++
        (aesCmac aes (deriveKeys aes psk).macKey (frameBody aes psk frame)).take TAG_LEN) :=
    List.append_assoc _ _ _
  obtain ⟨hmagic, htype, hsender, hrecip, hseq⟩ := header_fields frame.type frame.sender
    frame.recip frame.seq (cryptFrmPayload aes (deriveKeys aes psk).encKey frame.sender
      frame.seq frame.plain ++
        (aesCmac aes (deriveKeys aes psk).macKey (frameBody aes psk frame)).take TAG_LEN)
  rw [← hsplit] at hmagic htype hsender hrecip hseq
  refine verifyAndDecrypt_eq_some_iff.mpr ⟨⟨?_, hmagic, ?_⟩, ?_⟩
  · simp only [MIN_FRAME, MAX_FRAME]
    omega
  · rw [hauth, htake, hdrop]
  · rw [decode, htype, hsender, hrecip, hseq, hauth, htake, hcipher,
      cryptFrmPayload_cryptFrmPayload]

/-- A header is rebuilt from its fields. -/
theorem header_of_bytes {buf : List UInt8} (hlength : HDR_LEN ≤ buf.length)
    (hmagic : buf.getD 0 0 = MAGIC_VER) :
    header (buf.getD 1 0) (get32le buf 2) (get32le buf 6) (get32le buf 10) =
      buf.take HDR_LEN := by
  simp only [header, get32le, wordBytes_word]
  rw [← hmagic]
  refine List.ext_getElem? fun i => ?_
  by_cases hi : i < HDR_LEN
  · have hinside : i < buf.length := hi.trans_le hlength
    have hbyte : buf[i]? = some (buf.getD i 0) := by
      rw [List.getD_eq_getElem?_getD, List.getElem?_eq_getElem hinside, Option.getD_some]
    have hfourteen : i < 14 := hi
    rw [List.getElem?_take_of_lt hi, hbyte]
    interval_cases i <;> rfl
  · have hshort : (buf.take HDR_LEN).length ≤ i := by
      rw [List.length_take]
      omega
    have hfourteen : 14 ≤ i := Nat.le_of_not_lt hi
    rw [List.getElem?_eq_none hshort, List.getElem?_eq_none (by simpa using hfourteen)]

/-- What is accepted is what is built from the message it decodes to. -/
theorem encode_decode {buf : List UInt8} (hverifies : Verifies aes psk buf) :
    (decode aes psk buf).plain.length ≤ MAX_PAYLOAD ∧
      encode aes psk (decode aes psk buf) = buf := by
  obtain ⟨hmin, hmax⟩ := hverifies.length
  simp only [MIN_FRAME, MAX_FRAME] at hmin hmax
  have hbody : frameBody aes psk (decode aes psk buf) = buf.take (buf.length - TAG_LEN) := by
    have hheader := header_of_bytes (by omega) hverifies.magic
    have hprefix : (buf.take (buf.length - TAG_LEN)).take HDR_LEN = buf.take HDR_LEN := by
      rw [List.take_take]
      congr 1
      omega
    rw [frameBody, decode]
    simp only [cryptFrmPayload_cryptFrmPayload, hheader]
    rw [← hprefix, List.take_append_drop]
  constructor
  · simp only [decode, length_cryptFrmPayload, List.length_drop, List.length_take]
    omega
  · rw [encode, hbody, hverifies.tag, List.take_append_drop]

end Codec

end LoraBridge.CamC2
