import LoraBridge.Codec.MeshCoreDecoder
import LoraBridge.Counter.AbpUplinks
import LoraBridge.Tools.ChirpstackCodec
import LoraBridge.Tools.LwVerify

/-!
# An uplink from end to end

The firmware builds an uplink, and three readers take it apart: the verifier of the
tools, the MAC header reader of another bridge, and the codec of the network server.
-/

namespace LoraBridge.UplinkEndToEnd

open LoraBridge.AbpUplinks LoraBridge.ChirpstackCodec LoraBridge.Cipher LoraBridge.FormText
open LoraBridge.LoRaWANConfig LoraBridge.LoRaWANCrypto LoraBridge.LoRaWANDevices
open LoraBridge.Memory LoraBridge.MeshCoreDecoder LoraBridge.PythonCrypto

section Frame

variable (aes : BlockCipher) (nwk app : List UInt8) (devAddr fcnt : UInt32) (fport : UInt8)
  (payload : List UInt8)

/-- The frame of an unconfirmed uplink. -/
def uplinkFrame : List UInt8 :=
  uplinkMessage aes nwk app devAddr fcnt fport payload false ++
    (LoRaWANCrypto.aesCmac aes nwk
      (micBlock devAddr fcnt (9 + payload.length) ++
        uplinkMessage aes nwk app devAddr fcnt fport payload false)).take 4

/-- The encrypted payload in the frame. -/
def uplinkCipher : List UInt8 :=
  LoRaWANCrypto.cryptFrmPayload aes (if fport = 0 then nwk else app) devAddr fcnt payload

variable {aes nwk app devAddr fcnt fport payload}

theorem length_uplinkMessage :
    (uplinkMessage aes nwk app devAddr fcnt fport payload false).length =
      9 + payload.length := by
  simp [uplinkMessage, wordBytes]
  omega

theorem length_uplinkFrame :
    (uplinkFrame aes nwk app devAddr fcnt fport payload).length = 13 + payload.length := by
  rw [uplinkFrame, List.length_append, length_uplinkMessage, List.length_take, length_aesCmac]
  omega

theorem encodeUplink_eq_some_iff {frame : List UInt8} :
    encodeUplink aes devAddr nwk app fcnt fport payload false 256 = some frame ↔
      payload.length ≤ 242 ∧ uplinkFrame aes nwk app devAddr fcnt fport payload = frame := by
  rw [encodeUplink]
  by_cases hlength : payload.length ≤ 242
  · simp only [if_neg (Nat.not_lt.mpr hlength), if_neg (show ¬ 256 < 1 + 4 + 1 + 2 + 1 +
      payload.length + 4 by omega), length_uplinkMessage, Option.some.injEq, hlength, true_and]
    rfl
  · rw [if_pos (by omega)]
    exact iff_of_false (by simp) fun hboth => hlength hboth.1

end Frame

/-! ## The verifier -/

/-- The low half of the counter, from its two bytes. -/
theorem fcnt16_eq (fcnt : UInt32) :
    fcnt.toUInt8.toNat ||| ((fcnt >>> 8).toUInt8.toNat <<< 8) = fcnt.toNat % 65536 := by
  have hlow := fcnt.toUInt8.toNat_lt
  rw [Nat.or_comm, ← Nat.shiftLeft_add_eq_or_of_lt (by omega)]
  simp only [UInt32.toNat_toUInt8, UInt32.toNat_shiftRight, UInt32.reduceToNat, Nat.reduceMod,
    Nat.shiftRight_eq_div_pow, Nat.shiftLeft_eq]
  omega

/-- The counter from its halves. -/
theorem fcnt32_eq (fcnt : ℕ) : ((fcnt >>> 16) <<< 16) ||| (fcnt % 65536) = fcnt := by
  rw [← Nat.shiftLeft_add_eq_or_of_lt (by omega), Nat.shiftRight_eq_div_pow, Nat.shiftLeft_eq]
  omega

section Verifier

variable {aes : BlockCipher} {nwk app : List UInt8} {devAddr fcnt : UInt32} {fport : UInt8}
  {payload : List UInt8}

/-- The verifier accepts the MIC and decrypts what was built. -/
theorem main_uplinkFrame (hnwk : nwk.length = 16) (happ : app.length = 16) (tagged : Bool) :
    ∃ report, LwVerify.main aes (uplinkFrame aes nwk app devAddr fcnt fport payload) nwk app
        (fcnt.toNat >>> 16) tagged = .ok report ∧
      report.micOk = true ∧ report.decrypted.getD [] = payload := by
  have hlength : (uplinkFrame aes nwk app devAddr fcnt fport payload).length - 4 =
      9 + payload.length := by
    rw [length_uplinkFrame]
    omega
  have hmsg : (uplinkFrame aes nwk app devAddr fcnt fport payload).take (9 + payload.length) =
      uplinkMessage aes nwk app devAddr fcnt fport payload false :=
    List.take_left' length_uplinkMessage
  have hmic : (uplinkFrame aes nwk app devAddr fcnt fport payload).drop (9 + payload.length) =
      (LoRaWANCrypto.aesCmac aes nwk (micBlock devAddr fcnt (9 + payload.length) ++
        uplinkMessage aes nwk app devAddr fcnt fport payload false)).take 4 :=
    List.drop_left' length_uplinkMessage
  have hdevAddr : rd32 (uplinkFrame aes nwk app devAddr fcnt fport payload) 1 = devAddr.toNat := by
    rw [uplinkFrame, uplinkMessage]
    exact rd32_wordBytes [0x40] devAddr _
  have hkey : (if some fport.toNat = some 0 then nwk else app) =
      if fport = 0 then nwk else app := by
    refine if_congr ?_ rfl rfl
    rw [Option.some.injEq, ← UInt8.toNat_inj]
    rfl
  have hcipher : (uplinkMessage aes nwk app devAddr fcnt fport payload false).drop 9 =
      uplinkCipher aes nwk app devAddr fcnt fport payload := rfl
  have hfcnt : ((uplinkFrame aes nwk app devAddr fcnt fport payload).getD 6 0).toNat |||
      (((uplinkFrame aes nwk app devAddr fcnt fport payload).getD 7 0).toNat <<< 8) =
        fcnt.toNat % 65536 := fcnt16_eq fcnt
  have hfctrl : (uplinkFrame aes nwk app devAddr fcnt fport payload).getD 5 0 = 0 := rfl
  have hfport : (uplinkMessage aes nwk app devAddr fcnt fport payload false).getD 8 0 = fport :=
    rfl
  rw [LwVerify.main, if_neg (by simp [hnwk, happ]), if_neg (by rw [length_uplinkFrame]; omega)]
  refine ⟨_, rfl, ?_, ?_⟩
  · simp only [hlength, hmsg, hmic, hdevAddr, hfcnt, fcnt32_eq, length_uplinkMessage,
      le32_toNat, byte_and, PythonCrypto.aesCmac_eq, decide_eq_true_eq]
    rfl
  · have hindex : 8 + (UInt8.toNat 0 &&& 15) = 8 := rfl
    have hlong : 8 < 9 + payload.length := by omega
    simp only [hlength, hmsg, hdevAddr, hfcnt, fcnt32_eq, hfctrl, hindex, hlong,
      length_uplinkMessage, hfport, hcipher, hkey, if_true, true_and, cryptFrmPayload_eq]
    by_cases hempty : uplinkCipher aes nwk app devAddr fcnt fport payload = []
    · have hpayload := congrArg List.length hempty
      rw [uplinkCipher, length_cryptFrmPayload] at hpayload
      rw [if_neg (not_not.mpr hempty), List.length_eq_zero_iff.mp hpayload]
      rfl
    · rw [if_pos hempty, Option.getD_some, uplinkCipher, cryptFrmPayload_cryptFrmPayload]

end Verifier

/-! ## The MAC header reader -/

/-- The header another bridge reads off a frame. -/
def headerOf (devAddr fcnt : UInt32) (fport : UInt8) (length : ℕ) : LoRaWANMeta :=
  { LoRaWANMeta.ofMtype 2 with
    devAddr := devAddr
    fcnt := fcnt.toUInt16
    fport := some fport
    frmPayloadLen := length }

theorem toUInt16_of_bytes (w : UInt32) :
    w.toUInt8.toUInt16 ||| ((w >>> 8).toUInt8.toUInt16 <<< 8) = w.toUInt16 := by
  apply UInt16.toNat_inj.mp
  have hlow := fcnt16_eq w
  have hhigh := (w >>> 8).toUInt8.toNat_lt
  rw [UInt16.toNat_or, UInt16.toNat_shiftLeft, UInt8.toNat_toUInt16, UInt8.toNat_toUInt16,
    UInt32.toNat_toUInt16, ← hlow]
  congr 1
  refine Nat.mod_eq_of_lt ?_
  rw [Nat.shiftLeft_eq]
  simp only [UInt16.reduceToNat, Nat.reduceMod]
  omega

theorem extractLoRaWANMeta_uplinkFrame {aes : BlockCipher} {nwk app : List UInt8}
    {devAddr fcnt : UInt32} {fport : UInt8} {payload : List UInt8}
    (hlength : payload.length ≤ 242) :
    extractLoRaWANMeta (.ofList (uplinkFrame aes nwk app devAddr fcnt fport payload))
        (uplinkFrame aes nwk app devAddr fcnt fport payload).length =
      .ok (true, headerOf devAddr fcnt fport payload.length) := by
  have hdevAddr : word32 (.ofList (uplinkFrame aes nwk app devAddr fcnt fport payload)) 1 =
      .ok devAddr := by
    rw [uplinkFrame, uplinkMessage]
    exact word32_wordBytes [0x40] devAddr _
  have hread : ∀ i byte, (uplinkFrame aes nwk app devAddr fcnt fport payload)[i]? = some byte →
      Pointer.ofList (uplinkFrame aes nwk app devAddr fcnt fport payload) i = .ok byte := by
    intro i byte hbyte
    rw [Pointer.ofList, hbyte]
  have hmhdr := hread 0 0x40 rfl
  have hfctrl := hread 5 0 rfl
  have hfcnt0 := hread 6 fcnt.toUInt8 rfl
  have hfcnt1 := hread 7 (fcnt >>> 8).toUInt8 rfl
  have hfport := hread 8 fport rfl
  have hmtype : ((0x40 : UInt8) >>> 5) &&& 0x07 = 2 := rfl
  have hfopts : 8 + ((0 : UInt8) &&& 0x0F).toNat = 8 := rfl
  have hrest : 13 + payload.length - 4 - 8 = payload.length + 1 := by omega
  have hdata : (LoRaWANMeta.ofMtype 2).isData = true := rfl
  have hshort : ¬ 13 + payload.length < 12 := by omega
  rw [length_uplinkFrame, extractLoRaWANMeta, if_neg (by omega)]
  simp only [hmhdr, bind, Except.bind, hmtype, hdata, if_true, hshort, if_false, hdevAddr,
    hfctrl, hfcnt0, hfcnt1, hfopts, hrest, hfport, toUInt16_of_bytes,
    Nat.le_add_left, Nat.add_sub_cancel]
  rw [Nat.mod_eq_of_lt (by omega)]
  rfl

/-! ## The codec -/

/-- The codec names this source. -/
def NamesSource (data : Data) (srcSync : UInt8) (srcId : UInt32) : Prop :=
  ∃ source, data.source = some source ∧ source.protoId = protoOf srcSync ∧
    hexValue source.srcId 0 = srcId.toNat

/-- The codec shows this payload. -/
def ShowsPayload (output : Output) (payload : List UInt8) : Prop :=
  output.errors = [] ∧ output.data.rawHex.bind hexPairs = some payload

theorem srcIdOf_sourceTag (srcSync : UInt8) (srcId : UInt32) (payload : List UInt8) :
    srcIdOf (sourceTag srcSync srcId ++ payload) = srcId := word_of_bytes srcId

/-- What the codec is given: the payload as it was encrypted. -/
def codecInput (identity : Identity) (srcSync : UInt8) (srcId : UInt32) (payload : List UInt8)
    (vars : Variables) (decoder : List UInt8 → Text) : Input where
  bytes := identity.tag srcSync srcId ++ payload
  fPort := identity.fport
  vars := vars
  decoder := decoder

section Codec

variable {identity : Identity} {vars : Variables}

theorem decodeUplink_tagged (hidentity : identity.tagSrc = true) (hvars : hasTag vars = true)
    (srcSync : UInt8) (srcId : UInt32) (payload : List UInt8) (decoder : List UInt8 → Text) :
    NamesSource (decodeUplink (codecInput identity srcSync srcId payload vars decoder)).data
        srcSync srcId ∧
      ShowsPayload (decodeUplink (codecInput identity srcSync srcId payload vars decoder))
        payload := by
  have hbytes : (codecInput identity srcSync srcId payload vars decoder).bytes =
      sourceTag srcSync srcId ++ payload := by
    rw [codecInput, Identity.tag, if_pos hidentity]
  have hlong : ¬ (sourceTag srcSync srcId ++ payload).length < 5 := by
    simp [sourceTag, wordBytes]
  have hdrop : (sourceTag srcSync srcId ++ payload).drop 5 = payload := rfl
  have hproto : (sourceTag srcSync srcId ++ payload).getD 0 0 = protoOf srcSync := rfl
  have htagged : hasTag (codecInput identity srcSync srcId payload vars decoder).vars = true :=
    hvars
  rw [decodeUplink, if_pos htagged, hbytes, if_neg hlong]
  simp only [hdrop, hproto, srcIdOf_sourceTag]
  obtain ⟨hsource, hraw, herrors⟩ := decodePayload_spec
    (codecInput identity srcSync srcId payload vars decoder) true
    (some ⟨protoName (protoOf srcSync), protoOf srcSync, hex8 srcId⟩)
    (if protoOf srcSync < 1 ∨ 5 < protoOf srcSync then
      ["unrecognised source proto byte ".toList ++ (toString (protoOf srcSync).toNat).toList]
      else []) payload
  exact ⟨⟨_, hsource, rfl, hexValue_hex8 srcId⟩, herrors, by rw [hraw]; exact hexPairs_toHex _⟩

theorem decodeUplink_untagged (hidentity : identity.tagSrc = false) (hvars : hasTag vars = false)
    (srcSync : UInt8) (srcId : UInt32) (payload : List UInt8) (decoder : List UInt8 → Text) :
    (decodeUplink (codecInput identity srcSync srcId payload vars decoder)).data.source = none ∧
      ShowsPayload (decodeUplink (codecInput identity srcSync srcId payload vars decoder))
        payload := by
  have hbytes : (codecInput identity srcSync srcId payload vars decoder).bytes = payload := by
    rw [codecInput, Identity.tag, hidentity]
    rfl
  have huntagged : hasTag (codecInput identity srcSync srcId payload vars decoder).vars ≠ true :=
    Bool.eq_false_iff.mp hvars
  rw [decodeUplink, if_neg huntagged, hbytes]
  obtain ⟨hsource, hraw, herrors⟩ := decodePayload_spec
    (codecInput identity srcSync srcId payload vars decoder) false none [] payload
  exact ⟨hsource, herrors, by rw [hraw]; exact hexPairs_toHex _⟩

end Codec

/-! ## All three -/

/-- What the three readers make of an uplink. -/
structure Arrives (aes : BlockCipher) (identity : Identity) (srcSync : UInt8) (srcId : UInt32)
    (payload : List UInt8) (uplink : Uplink) : Prop where
  verified : ∀ tagged, ∃ report, LwVerify.main aes uplink.frame identity.nwkSKey.toList
      identity.appSKey.toList (uplink.issue.fcnt.toNat >>> 16) tagged = .ok report ∧
    report.micOk = true ∧
    report.decrypted.getD [] = identity.tag srcSync srcId ++ payload
  header : extractLoRaWANMeta (.ofList uplink.frame) uplink.frame.length =
    .ok (true, headerOf identity.devAddr uplink.issue.fcnt identity.fport
      (identity.tag srcSync srcId ++ payload).length)
  shown : ∀ vars decoder, hasTag vars = identity.tagSrc →
    ShowsPayload (decodeUplink (codecInput identity srcSync srcId payload vars decoder)) payload
  named : ∀ vars decoder, hasTag vars = identity.tagSrc → identity.tagSrc = true →
    NamesSource (decodeUplink (codecInput identity srcSync srcId payload vars decoder)).data
      srcSync srcId

theorem arrives_of_encode {identity : Identity} {encoder : Encoder} {srcSync : UInt8}
    {srcId : UInt32} {payload : List UInt8} {issued : List Issue} {uplink : Uplink}
    (hencode : identity.encode encoder srcSync srcId payload issued = .encoded uplink) :
    Arrives encoder.aes identity srcSync srcId payload uplink := by
  have hframe : (identity.tag srcSync srcId ++ payload).length ≤ 242 ∧
      uplinkFrame encoder.aes identity.nwkSKey.toList identity.appSKey.toList identity.devAddr
        uplink.issue.fcnt identity.fport (identity.tag srcSync srcId ++ payload) =
          uplink.frame := by
    unfold Identity.encode at hencode
    split at hencode
    · cases hencode
    · split at hencode
      · cases hencode
      · dsimp only at hencode
        split at hencode
        · cases hencode
        · split at hencode
          · rename_i frame hsome
            cases hencode
            exact encodeUplink_eq_some_iff.mp hsome
          · cases hencode
  obtain ⟨hlength, hframe⟩ := hframe
  constructor
  · intro tagged
    rw [← hframe]
    exact main_uplinkFrame (by simp) (by simp) tagged
  · rw [← hframe]
    exact extractLoRaWANMeta_uplinkFrame hlength
  · intro vars decoder hvars
    cases htag : identity.tagSrc with
    | true => exact (decodeUplink_tagged htag (hvars.trans htag) _ _ _ _).2
    | false => exact (decodeUplink_untagged htag (hvars.trans htag) _ _ _ _).2
  · intro vars decoder hvars htag
    exact (decodeUplink_tagged htag (hvars.trans htag) _ _ _ _).1

/-- Every uplink arrives whole, and a payload that does not fit is not sent. -/
theorem uplink_end_to_end (encoder : Encoder) (srcSync : UInt8) (srcId : UInt32)
    (payload : List UInt8) (write : ReserveAhead.Write) (state : State) :
    (∀ uplink, (encodeAbpUplink encoder srcSync srcId payload write state).2 = .encoded uplink →
      ∃ identity, encoder.identity state.ram srcSync srcId = some identity ∧
        Arrives encoder.aes identity srcSync srcId payload uplink) ∧
    ∀ identity, encoder.identity state.ram srcSync srcId = some identity →
      242 - (identity.tag srcSync srcId).length < payload.length →
      (encodeAbpUplink encoder srcSync srcId payload write state).2.uplinks = [] := by
  constructor
  · intro uplink hencoded
    unfold encodeAbpUplink at hencoded
    cases hidentity : encoder.identity state.ram srcSync srcId with
    | none => simp [hidentity] at hencoded
    | some identity =>
        rw [hidentity] at hencoded
        exact ⟨identity, rfl, arrives_of_encode hencoded⟩
  · intro identity hidentity hlong
    rw [encodeAbpUplink, hidentity]
    simp only [Identity.encode, if_pos hlong]
    split
    · rfl
    · split <;> rfl

/-- Slot 0 takes every source, under the address 7. -/
def catchAll (flags : UInt8) : State :=
  boot ⟨some fun _ => ⟨1, SRC_ANY, 13, flags, 0, 7, List.Vector.replicate 16 1,
    List.Vector.replicate 16 2⟩, fun _ => 0⟩

/-- Without fallback keys, on the identity cipher. -/
def slotEncoder : Encoder where
  aes := identityCipher
  creds := ⟨false, 0, 0, List.Vector.replicate 16 0, List.Vector.replicate 16 0⟩
  cryptoOk := true

/-- The identity of that slot. -/
def catchAllIdentity (tagSrc : Bool) : Identity :=
  ⟨7, List.Vector.replicate 16 1, List.Vector.replicate 16 2, 13, tagSrc, .slot ⟨0, by decide⟩⟩

/-- "hi" of a Meshtastic node, in the slot's first uplink. -/
def hiUplink (flags : UInt8) : Attempt :=
  (encodeAbpUplink slotEncoder 0x2B 0xb16b00b5 [0x68, 0x69] .confirmed (catchAll flags)).2

theorem tagged_uplink_arrives :
    hiUplink FLAG_TAG_SRC = .encoded ⟨⟨7, 0⟩, [0x40, 7, 0, 0, 0, 0, 0, 0, 13, 0, 181, 0, 107,
        177, 104, 110, 9, 7, 0, 0]⟩ ∧
      ∃ identity, slotEncoder.identity (catchAll FLAG_TAG_SRC).ram 0x2B 0xb16b00b5 = some identity ∧
        Arrives identityCipher identity 0x2B 0xb16b00b5 [0x68, 0x69]
          ⟨⟨7, 0⟩, [0x40, 7, 0, 0, 0, 0, 0, 0, 13, 0, 181, 0, 107, 177, 104, 110, 9, 7, 0, 0]⟩ :=
  have hencoded : hiUplink FLAG_TAG_SRC = .encoded ⟨⟨7, 0⟩, [0x40, 7, 0, 0, 0, 0, 0, 0, 13, 0,
      181, 0, 107, 177, 104, 110, 9, 7, 0, 0]⟩ := by decide
  ⟨hencoded, (uplink_end_to_end slotEncoder 0x2B 0xb16b00b5 [0x68, 0x69] .confirmed
    (catchAll FLAG_TAG_SRC)).1 _ hencoded⟩

/-- An untagged slot serves every source, and the codec cannot say which it was. -/
theorem untagged_uplink_unnamed :
    hiUplink 0 = .encoded ⟨⟨7, 0⟩, [0x40, 7, 0, 0, 0, 0, 0, 0, 13, 105, 105, 9, 7, 0, 0]⟩ ∧
      slotEncoder.identity (catchAll 0).ram 0x2B 0xb16b00b5 = some (catchAllIdentity false) ∧
      hasTag ⟨none, none⟩ = (catchAllIdentity false).tagSrc ∧
      ¬ NamesSource (decodeUplink (codecInput (catchAllIdentity false) 0x2B 0xb16b00b5
        [0x68, 0x69] ⟨none, none⟩ fun _ => [])).data 0x2B 0xb16b00b5 := by
  refine ⟨by decide, by rfl, rfl, ?_⟩
  rintro ⟨source, hsource, -⟩
  have hnone := (@decodeUplink_untagged (catchAllIdentity false) ⟨none, none⟩ rfl rfl 0x2B
    0xb16b00b5 [0x68, 0x69] fun _ => []).1
  rw [hnone] at hsource
  cases hsource

end LoraBridge.UplinkEndToEnd
