import LoraBridge.Codec.MeshtasticDecoder

/-!
# The MeshCore and LoRaWAN extractors

`extractMeshCoreBody` opens a GRP_TXT frame of the channel; `extractLoRaWANMeta`
reads the cleartext MAC header.  Neither walks a protobuf: every index is a
constant, a path length of at most 64, or an offset checked against the length.
-/

namespace LoraBridge.MeshCoreDecoder

open LoraBridge.Memory LoraBridge.Cipher LoraBridge.MeshtasticDecoder

/-- `while (len < max && b[start + len] != 0) len++`, with the bytes passed. -/
def scanString (b : Pointer) (start : ℕ) : ℕ → Except Halt (List UInt8)
  | 0 => .ok []
  | limit + 1 => do
      let byte ← b start
      if byte = 0 then .ok []
      else do
        let rest ← scanString b (start + 1) limit
        .ok (byte :: rest)

/-- The offset of the path length byte: behind the transport codes of the two
route types that carry them. -/
def pathOffset (routeType : UInt8) (len : ℕ) : Option ℕ :=
  if routeType = 0x00 ∨ routeType = 0x03 then
    if len < 1 + 4 then none else some (1 + 4)
  else some 1

/-- The offset behind the path, once the header names a GRP_TXT. -/
def payloadOffset (buf : Pointer) (len : ℕ) : Except Halt (Option ℕ) := do
  let header ← buf 0
  let version := (header >>> 6) &&& 0x03
  let payloadType := (header >>> 2) &&& 0x0F
  let routeType := header &&& 0x03
  if version ≠ 0 then .ok none
  else if payloadType ≠ 0x05 then .ok none
  else
    match pathOffset routeType len with
    | none => .ok none
    | some off =>
        if len < off + 1 then .ok none
        else do
          let pathLen ← buf off
          if 64 < pathLen.toNat ∨ len < off + 1 + pathLen.toNat then .ok none
          else .ok (some (off + 1 + pathLen.toNat))

/-- The body and the timestamp of a GRP_TXT frame on the channel. -/
def extractMeshCoreBody (aes : BlockCipher) (ch : RadioChannel) (buf : Pointer)
    (len bodyOutCap : ℕ) : Except Halt (Option (List UInt8 × UInt32)) :=
  if bodyOutCap < 2 then .ok none
  else if len < 6 then .ok none
  else do
    match ← payloadOffset buf len with
    | none => .ok none
    | some off =>
        if len < off + 3 then .ok none
        else do
          let channelHash ← buf off
          let ctLen := len - (off + 3)
          if channelHash ≠ ch.channelHash then .ok none
          else if ctLen = 0 ∨ ctLen % 16 ≠ 0 ∨ 224 < ctLen then .ok none
          else do
            let ct ← readRange buf (off + 3) ctLen
            let pt ← intoBuffer 224
              (cryptEcb (aes.decrypt (ch.key.toList.take 16)) (ctLen / 16) ct)
            if ctLen < 6 then .ok none
            else do
              let ts ← word32 (Pointer.ofList pt) 0
              let scanned ← scanString (Pointer.ofList pt) 5 (ctLen - 5)
              if scanned.length = 0 then .ok none
              else do
                let body ← intoCString bodyOutCap
                  (scanned.take (min scanned.length (bodyOutCap - 1)))
                .ok (some (body, ts))

/-- The cleartext header fields of a LoRaWAN frame. -/
structure LoRaWANMeta where
  mtype : UInt8
  isData : Bool
  isJoinReq : Bool
  devAddr : UInt32
  fctrl : UInt8
  fcnt : UInt16
  fport : Option UInt8
  frmPayloadLen : ℕ
  joinEui : UInt64
  devEui : UInt64
  deriving DecidableEq, Repr

/-- `out = {}`, then the three fields every frame has. -/
def LoRaWANMeta.ofMtype (mtype : UInt8) : LoRaWANMeta where
  mtype := mtype
  isData := decide (2 ≤ mtype ∧ mtype ≤ 5)
  isJoinReq := decide (mtype = 0)
  devAddr := 0
  fctrl := 0
  fcnt := 0
  fport := none
  frmPayloadLen := 0
  joinEui := 0
  devEui := 0

/-- `for (i = 0; i < count; i++) eui |= (uint64_t)buf[p + i] << (8 * i)`. -/
def readEui (buf : Pointer) (p : ℕ) : ℕ → Except Halt UInt64
  | 0 => .ok 0
  | count + 1 => do
      let low ← readEui buf p count
      let byte ← buf (p + count)
      .ok (low ||| (byte.toUInt64 <<< (8 * count).toUInt64))

def extractLoRaWANMeta (buf : Pointer) (len : ℕ) : Except Halt (Bool × LoRaWANMeta) :=
  if len < 1 then .ok (false, { LoRaWANMeta.ofMtype 0 with isJoinReq := false })
  else do
    let header ← buf 0
    let out := LoRaWANMeta.ofMtype ((header >>> 5) &&& 0x07)
    if out.isData then
      if len < 12 then .ok (false, out)
      else do
        let devAddr ← word32 buf 1
        let fctrl ← buf 5
        let fcnt0 ← buf 6
        let fcnt1 ← buf 7
        let out := { out with
          devAddr := devAddr
          fctrl := fctrl
          fcnt := fcnt0.toUInt16 ||| (fcnt1.toUInt16 <<< 8) }
        let fhdrEnd := 8 + (fctrl &&& 0x0F).toNat
        if len < fhdrEnd + 4 then .ok (false, out)
        else
          let afterFhdr := len - 4 - fhdrEnd
          if 1 ≤ afterFhdr then do
            let fport ← buf fhdrEnd
            .ok (true, { out with
              fport := some fport, frmPayloadLen := (afterFhdr - 1) % 2 ^ 16 })
          else .ok (true, out)
    else if out.isJoinReq then
      if len < 23 then .ok (false, out)
      else do
        let joinEui ← readEui buf 1 8
        let devEui ← readEui buf 9 8
        .ok (true, { out with joinEui := joinEui, devEui := devEui })
    else .ok (decide (5 ≤ len), out)

/-! ## Every access is inside the frame -/

theorem inside_scanString {b : Pointer} {size : ℕ} (hreadable : Readable b size)
    (limit : ℕ) {start : ℕ} (hle : start + limit ≤ size) :
    Inside (scanString b start limit) := by
  induction limit generalizing start with
  | zero => exact inside_ok _
  | succ limit ih =>
      refine inside_bind (hreadable.inside (by omega)) fun byte _ => ?_
      split
      · exact inside_ok _
      · exact inside_bind (ih (by omega)) fun _ _ => inside_ok _

theorem inside_readEui {b : Pointer} {size : ℕ} (hreadable : Readable b size)
    (count : ℕ) {p : ℕ} (hle : p + count ≤ size) : Inside (readEui b p count) := by
  induction count with
  | zero => exact inside_ok _
  | succ count ih =>
      refine inside_bind (ih (by omega)) fun _ _ => ?_
      exact inside_bind (hreadable.inside (by omega)) fun _ _ => inside_ok _

theorem inside_payloadOffset {buf : Pointer} {len : ℕ} (hreadable : Readable buf len)
    (hlen : 6 ≤ len) : Inside (payloadOffset buf len) := by
  refine inside_bind (hreadable.inside (by omega)) fun header _ => ?_
  refine inside_ite (fun _ => inside_ok _) fun _ => ?_
  refine inside_ite (fun _ => inside_ok _) fun _ => ?_
  cases pathOffset (header &&& 0x03) len with
  | none => exact inside_ok _
  | some off =>
      refine inside_ite (fun _ => inside_ok _) fun hoff => ?_
      refine inside_bind (hreadable.inside (by omega)) fun pathLen _ => ?_
      exact inside_ite (fun _ => inside_ok _) fun _ => inside_ok _

theorem inside_extractMeshCoreBody (aes : BlockCipher) (ch : RadioChannel)
    {buf : Pointer} {len : ℕ} (hreadable : Readable buf len) (bodyOutCap : ℕ) :
    Inside (extractMeshCoreBody aes ch buf len bodyOutCap) := by
  unfold extractMeshCoreBody
  refine inside_ite (fun _ => inside_ok _) fun hcap => ?_
  refine inside_ite (fun _ => inside_ok _) fun hshort => ?_
  refine inside_bind (inside_payloadOffset hreadable (by omega)) fun offset _ => ?_
  cases offset with
  | none => exact inside_ok _
  | some off =>
      refine inside_ite (fun _ => inside_ok _) fun hheader => ?_
      refine inside_bind (hreadable.inside (by omega)) fun channelHash _ => ?_
      refine inside_ite (fun _ => inside_ok _) fun _ => ?_
      refine inside_ite (fun _ => inside_ok _) fun hblocks => ?_
      refine inside_bind (hreadable.inside_readRange (by omega)) fun ct _ => ?_
      -- the plaintext has exactly the ciphertext's length
      have hlength := length_cryptEcb (aes.length_decrypt (ch.key.toList.take 16))
        ((len - (off + 3)) / 16) ct
      refine inside_bind (inside_intoBuffer (by omega)) fun pt hpt => ?_
      obtain rfl := eq_of_intoBuffer hpt
      have hplain := readable_ofList
        (cryptEcb (aes.decrypt (ch.key.toList.take 16)) ((len - (off + 3)) / 16) ct)
      refine inside_ite (fun _ => inside_ok _) fun htiny => ?_
      refine inside_bind (hplain.inside_word32 (by omega)) fun ts _ => ?_
      refine inside_bind (inside_scanString hplain _ (by omega)) fun scanned _ => ?_
      refine inside_ite (fun _ => inside_ok _) fun _ => ?_
      refine inside_bind (inside_intoCString ?_) fun body _ => inside_ok _
      rw [List.length_take]
      omega

theorem inside_extractLoRaWANMeta {buf : Pointer} {len : ℕ}
    (hreadable : Readable buf len) : Inside (extractLoRaWANMeta buf len) := by
  unfold extractLoRaWANMeta
  refine inside_ite (fun _ => inside_ok _) fun hempty => ?_
  refine inside_bind (hreadable.inside (by omega)) fun header _ => ?_
  refine inside_ite (fun _ => ?_) fun _ => ?_
  · refine inside_ite (fun _ => inside_ok _) fun hshort => ?_
    refine inside_bind (hreadable.inside_word32 (by omega)) fun devAddr _ => ?_
    refine inside_bind (hreadable.inside (by omega)) fun fctrl _ => ?_
    refine inside_bind (hreadable.inside (by omega)) fun fcnt0 _ => ?_
    refine inside_bind (hreadable.inside (by omega)) fun fcnt1 _ => ?_
    refine inside_ite (fun _ => inside_ok _) fun hfhdr => ?_
    refine inside_ite (fun hport => ?_) fun _ => inside_ok _
    exact inside_bind (hreadable.inside (by omega)) fun _ _ => inside_ok _
  · refine inside_ite (fun _ => ?_) fun _ => inside_ok _
    refine inside_ite (fun _ => inside_ok _) fun hshort => ?_
    refine inside_bind (inside_readEui hreadable 8 (by omega)) fun joinEui _ => ?_
    exact inside_bind (inside_readEui hreadable 8 (by omega)) fun _ _ => inside_ok _

end LoraBridge.MeshCoreDecoder
