import LoraBridge.Codec.DataMessages
import LoraBridge.Codec.GroupTexts

/-!
# The mesh encoders

`encodeMeshCoreGrpTxt`, `encodeMeshtasticText` and `encodeMeshtasticNodeInfo`.  A body is
a C string without its terminator.  What they build is opened by the extractors of the
channel.
-/

namespace LoraBridge.MeshEncoder

open LoraBridge.Cipher LoraBridge.DataMessages LoraBridge.FieldEncodings LoraBridge.GroupTexts
open LoraBridge.Memory LoraBridge.MeshtasticDecoder

/-- HMAC-SHA256 of mbedTLS: a key and a message to a digest. -/
abbrev Hmac := List UInt8 → List UInt8 → List.Vector UInt8 32

/-! ## MeshCore -/

/-- `[ts:4 LE][flags:1=0][body][null][zero-pad to 16]`. -/
def groupPlaintext (body : List UInt8) (ts : UInt32) : List UInt8 :=
  let ptCore := 4 + 1 + body.length + 1
  let ptLen := (ptCore + 15) / 16 * 16
  wordBytes ts ++ 0 :: body ++ List.replicate (ptLen - (5 + body.length)) 0

def encodeMeshCoreGrpTxt (aes : BlockCipher) (hmac : Hmac) (ch : RadioChannel)
    (body : List UInt8) (ts : UInt32) (outBufCap : ℕ) : Option (List UInt8) :=
  let pt := groupPlaintext body ts
  if 224 < pt.length then none
  else if outBufCap < 5 + pt.length then none
  else
    let ct := cryptEcb (aes.encrypt (channelKey ch)) (pt.length / 16) pt
    some ([0x15, 0, ch.channelHash] ++ (hmac (channelKey ch) ct).toList.take 2 ++ ct)

theorem length_groupPlaintext (body : List UInt8) (ts : UInt32) :
    (groupPlaintext body ts).length = (body.length + 21) / 16 * 16 := by
  simp only [groupPlaintext, List.length_append, List.length_cons, List.length_replicate,
    wordBytes, List.length_nil]
  omega

/-- The body ends at the first of the zeros behind it. -/
theorem takeWhile_groupPlaintext {body : List UInt8} (hbody : 0 ∉ body) (ts : UInt32) :
    ((groupPlaintext body ts).drop 5).takeWhile (· ≠ 0) = body := by
  have hdrop : (groupPlaintext body ts).drop 5 = body ++
      List.replicate ((4 + 1 + body.length + 1 + 15) / 16 * 16 - (5 + body.length)) 0 := by
    simp only [groupPlaintext, wordBytes, List.cons_append]
    rfl
  have hall : ∀ b ∈ body, decide (b ≠ 0) = true := by
    intro b hb
    simpa using fun hzero : b = 0 => hbody (hzero ▸ hb)
  rw [hdrop, List.takeWhile_append_of_pos hall]
  have hzeros : ∀ n, (List.replicate n (0 : UInt8)).takeWhile (· ≠ 0) = [] := by
    intro n
    cases n with
    | zero => rfl
    | succ n => rfl
  rw [hzeros, List.append_nil]

/-- What the encoder builds is a group text of the channel under its own MAC. -/
theorem encodeMeshCoreGrpTxt_eq_some {aes : BlockCipher} {hmac : Hmac} {ch : RadioChannel}
    {body : List UInt8} {ts : UInt32} {cap : ℕ} {frame : List UInt8}
    (hencode : encodeMeshCoreGrpTxt aes hmac ch body ts cap = some frame) :
    ∃ text : GroupText, text.frame = frame ∧ text.channelHash = ch.channelHash ∧
      text.mac.toList = (hmac (channelKey ch) text.ciphertext).toList.take 2 ∧
      text.ciphertext.length = (groupPlaintext body ts).length ∧
      (groupPlaintext body ts).length ≤ 224 ∧
      text.plaintext aes ch = groupPlaintext body ts := by
  rw [encodeMeshCoreGrpTxt] at hencode
  dsimp only at hencode
  split at hencode
  · cases hencode
  rename_i hfits
  split at hencode
  · cases hencode
  obtain rfl := Option.some.inj hencode
  have hblocks : (groupPlaintext body ts).length =
      16 * ((groupPlaintext body ts).length / 16) := by
    rw [length_groupPlaintext]
    omega
  have hlength : (cryptEcb (aes.encrypt (channelKey ch)) ((groupPlaintext body ts).length / 16)
      (groupPlaintext body ts)).length = (groupPlaintext body ts).length := by
    rw [length_cryptEcb (aes.length_encrypt _), ← hblocks]
  refine ⟨⟨0x15, [], [], ch.channelHash, ⟨_, List.length_take_of_le (by simp)⟩, _, rfl, rfl,
    rfl, Nat.zero_le _⟩, rfl, rfl, rfl, hlength, Nat.le_of_not_lt hfits, ?_⟩
  simp only [GroupText.plaintext, hlength]
  exact cryptEcb_decrypt_encrypt aes _ hblocks

/-! ## Meshtastic -/

/-- A length below 2^14 as a varint. -/
def lengthVarint (n : ℕ) : List UInt8 :=
  if n < 128 then [UInt8.ofNat n]
  else [UInt8.ofNat ((n &&& 0x7F) ||| 0x80), UInt8.ofNat (n >>> 7)]

/-- The Data message of a port. -/
def dataMessage (portnum : UInt8) (payload : List UInt8) : List UInt8 :=
  [0x08, portnum, 0x12] ++ lengthVarint payload.length ++ payload

/-- A broadcast under a fresh packet id: the header, and the encrypted Data message. -/
def broadcast (aes : BlockCipher) (ch : RadioChannel) (src pid : UInt32)
    (message : List UInt8) : List UInt8 :=
  transportHeader 0xFFFFFFFF src pid 0x63 ch.channelHash 0 0 ++
    cryptPacket aes ch pid src message

/-- `pid = esp_random(); if (pid == 0) pid = 1`. -/
def freshPid (random : UInt32) : UInt32 := if random = 0 then 1 else random

/-- The packet and the id it was stamped with. -/
def encodeMeshtasticText (aes : BlockCipher) (ch : RadioChannel) (srcNodeId : UInt32)
    (body : List UInt8) (outBufCap : ℕ) (random : UInt32) :
    Option (List UInt8 × UInt32) :=
  if 200 < body.length then none
  else if outBufCap < 16 + (dataMessage 1 body).length then none
  else
    let pid := freshPid random
    some (broadcast aes ch srcNodeId pid (dataMessage 1 body), pid)

/-- A string field of the User message. -/
def userField (tag : UInt8) (text : List UInt8) : List UInt8 :=
  tag :: UInt8.ofNat text.length :: text

def userMessage (id longName shortName : List UInt8) : List UInt8 :=
  userField 0x0A id ++ userField 0x12 longName ++ userField 0x1A shortName

def encodeMeshtasticNodeInfo (aes : BlockCipher) (ch : RadioChannel) (srcNodeId : UInt32)
    (id longName shortName : List UInt8) (outBufCap : ℕ) (random : UInt32) :
    Option (List UInt8) :=
  if 128 ≤ id.length ∨ 128 ≤ longName.length ∨ 128 ≤ shortName.length then none
  else
    let message := dataMessage 4 (userMessage id longName shortName)
    if outBufCap < 16 + message.length then none
    else some (broadcast aes ch srcNodeId (freshPid random) message)

/-! ## What the extractors read -/

/-- A length below 2^14 is written as a varint of it. -/
theorem exists_lengthVarint {n : ℕ} (hn : n < 16384) :
    ∃ varint : Varint, varint.bytes = lengthVarint n ∧ varint.value = n := by
  by_cases hsmall : n < 128
  · have hbyte := toNat_ofNat_of_lt (by omega : n < 256)
    obtain ⟨varint, hbytes, hvalue⟩ := exists_varint_one (hbyte.symm ▸ hsmall)
    exact ⟨varint, by rw [hbytes, lengthVarint, if_pos hsmall], hvalue.trans hbyte⟩
  · have hlow : n &&& 0x7F = n % 128 := Nat.and_two_pow_sub_one_eq_mod n 7
    have hhigh : n >>> 7 = n / 128 := Nat.shiftRight_eq_div_pow n 7
    obtain ⟨varint, hbytes, hvalue⟩ :=
      exists_varint_two (by omega : n % 128 < 128) (by omega : n / 128 < 128)
    refine ⟨varint, by rw [hbytes, lengthVarint, if_neg hsmall, hlow, hhigh], ?_⟩
    omega

/-- The Data message of a port is the encoding of its two fields. -/
theorem exists_fields {portnum : UInt8} (hportnum : portnum.toNat < 128) {payload : List UInt8}
    (hpayload : payload.length < 16384) :
    ∃ fields, messageBytes fields = dataMessage portnum payload ∧
      ∀ port, payloadOf port fields =
        if portnum.toNat = port ∧ payload ≠ [] then some payload else none := by
  obtain ⟨tag, htag, htagValue⟩ := exists_varint_one (by decide : (0x08 : UInt8).toNat < 128)
  obtain ⟨port, hport, hportValue⟩ := exists_varint_one hportnum
  obtain ⟨length, hlength, hcounts⟩ := exists_lengthVarint hpayload
  obtain ⟨second, hnumber, hsecond, hcontent⟩ :=
    exists_delimited (by decide : (0x12 : UInt8).toNat = 8 * 2 + 2) (by decide) hcounts
  let first : EncodedField := ⟨1, tag, .varint port, by decide, htagValue⟩
  refine ⟨[first, second], ?_, fun asked => ?_⟩
  · have hfirst : first.bytes = [0x08, portnum] := by
      rw [EncodedField.bytes, htag, Content.bytes, hport]
      rfl
    simp only [messageBytes, List.flatMap_cons, List.flatMap_nil, hfirst, hsecond, hlength]
    simp [dataMessage]
  · have hlastPort : lastPortnum [first, second] = some portnum.toNat := by
      simp [lastPortnum, portnum?, first, hnumber, hportValue,
        Nat.mod_eq_of_lt (by omega : portnum.toNat < 4294967296)]
    have hlastPayload : lastPayload [first, second] = some payload := by
      simp [lastPayload, payload?, first, hnumber, hcontent]
    rw [payloadOf, hlastPort, hlastPayload]
    by_cases hport : portnum.toNat = asked
    · by_cases hempty : payload = []
      · simp [hport, hempty, Option.filter]
      · simp [hport, hempty, Option.filter]
    · simp [hport]

theorem broadcast_eq (aes : BlockCipher) (ch : RadioChannel) (src pid : UInt32)
    (message : List UInt8) :
    broadcast aes ch src pid message = dataFrame aes ch 0xFFFFFFFF src pid 0x63 0 0 message :=
  rfl

theorem length_payload_le (portnum : UInt8) (payload : List UInt8) :
    payload.length ≤ (dataMessage portnum payload).length := by
  simp only [dataMessage, List.length_append]
  omega

/-- A broadcast is opened to the payload of its port, and by no other extractor. -/
theorem extractPayload_broadcast (aes : BlockCipher) (ch : RadioChannel) (src pid : UInt32)
    {portnum : UInt8} (hportnum : portnum.toNat < 128) {payload : List UInt8}
    (hlength : (dataMessage portnum payload).length ≤ 240) {Result : Type} {port : ℕ}
    (hport : port ≠ 0) (refused : Result)
    (use : UInt32 → List UInt8 → Protobuf.Slice → Except Halt Result) :
    let frame := broadcast aes ch src pid (dataMessage portnum payload)
    if portnum.toNat = port ∧ payload ≠ [] then
      ∃ slice, sliceBytes (dataMessage portnum payload) slice = payload ∧
        slice.offset + slice.length ≤ (dataMessage portnum payload).length ∧
        extractPayload aes ch (.ofList frame) frame.length port refused use =
          use src (dataMessage portnum payload) slice
    else extractPayload aes ch (.ofList frame) frame.length port refused use = .ok refused := by
  intro frame
  have hshort := length_payload_le portnum payload
  obtain ⟨fields, hbytes, hpayload⟩ :=
    exists_fields hportnum (by omega : payload.length < 16384)
  have hextract := extractPayload_dataFrame aes ch 0xFFFFFFFF src pid 0x63 0 0 (hbytes ▸ hlength)
    hport refused use
  rw [hbytes, hpayload] at hextract
  by_cases hasks : portnum.toNat = port ∧ payload ≠ []
  · rw [if_pos hasks] at hextract ⊢
    exact hextract
  · rw [if_neg hasks] at hextract ⊢
    exact hextract

/-- The text of a broadcast on port 1, cut to the caller's buffer. -/
theorem extractMeshtasticBody_broadcast (aes : BlockCipher) (ch : RadioChannel)
    (src pid : UInt32) {body : List UInt8} (hlength : (dataMessage 1 body).length ≤ 240)
    {cap : ℕ} (hcap : 2 ≤ cap) :
    extractMeshtasticBody aes ch (.ofList (broadcast aes ch src pid (dataMessage 1 body)))
        (broadcast aes ch src pid (dataMessage 1 body)).length cap =
      .ok (if body ≠ [] then some (body.take (cap - 1)) else none) := by
  have hshort := length_payload_le 1 body
  obtain ⟨fields, hbytes, hpayload⟩ :=
    exists_fields (by decide : (1 : UInt8).toNat < 128) (by omega : body.length < 16384)
  have hextract := extractMeshtasticBody_dataFrame aes ch 0xFFFFFFFF src pid 0x63 0 0
    (hbytes ▸ hlength) hcap
  rw [hbytes, hpayload, ← broadcast_eq] at hextract
  by_cases hempty : body = []
  · simpa [hempty] using hextract
  · simpa [hempty] using hextract

end LoraBridge.MeshEncoder
