import LoraBridge.Dispatch.Bridge
import LoraBridge.Dispatch.Fragments

/-!
# Queueing a packet for one destination

`enqueueReticulumForDest`, `enqueueVirtualNodeInfo`, `enqueueAbpUplink`,
`enqueueTextForDest`, `rawRepeatForDest` and `camC2Emit`: a body or a frame is encoded for
the radio it goes out on, its emission recorded, and the packet pushed onto the queue of
that radio.
-/

namespace LoraBridge.Enqueue

open LoraBridge.AbpUplinks LoraBridge.Bridge LoraBridge.BridgeConfig LoraBridge.ChannelKeys
open LoraBridge.Fragments LoraBridge.Memory LoraBridge.MeshEncoder LoraBridge.MeshtasticDecoder
open LoraBridge.NodeDB LoraBridge.Print LoraBridge.RouteQueue LoraBridge.VirtualNodeMap

def BRIDGE_MC_NAME_MAX : ℕ := 32

/-- A packet for a destination, with what is recorded for it. -/
structure Packet where
  frame : List UInt8
  content : Content

section Enqueue

variable (bridge : Config) (env : Env)

/-! ## The encoders with their stamps -/

/-- `encodeMeshtasticText` of a C string into `outPkt[256]`. -/
def meshtasticPacket (dest : Radio) (dstSrcId : UInt32) (outBody : List UInt8) :
    Dispatch (Option Packet) := do
  let random ← espRandom env
  let text := cString outBody
  pure ((encodeMeshtasticText bridge.aes (bridge.chan dest) dstSrcId text 256 random).map
    fun (outPkt, emitPid) => ⟨outPkt, text, dstSrcId, emitPid⟩)

/-- `encodeMeshCoreGrpTxt` of a C string into `outPkt[256]`. -/
def meshCorePacket (dest : Radio) (outBody : List UInt8) : Dispatch (Option Packet) := do
  let ts ← bridgeNowUnix env
  let text := cString outBody
  pure ((encodeMeshCoreGrpTxt bridge.aes bridge.hmac (bridge.chan dest) text ts 256).map
    fun outPkt => ⟨outPkt, text, 0, 0⟩)

/-! ## Reticulum -/

def fragmentPacket (dest : Radio) (body : List UInt8) : Dispatch (Option Packet) :=
  if (bridge.chan dest).protocol = SYNC_WORD_MESHTASTIC then
    meshtasticPacket bridge env dest bridge.mtNodeId body
  else meshCorePacket bridge env dest body

/-- One turn of the loop over the fragments, and whether it goes on. -/
def enqueueFragment (dest : Radio) (rawPerFrag : ℕ) (buf : List UInt8) (idx : ℕ) :
    Dispatch Bool := do
  let seq := (crc16_ccitt buf).toUInt8
  match bridge.base64.encode 200 (slice rawPerFrag idx buf) with
  | none => pure false
  | some b64chunk => do
      match ← fragmentPacket bridge env dest
          (marked seq idx (totalFrags rawPerFrag buf.length) b64chunk) with
      | none => pure false
      | some packet => do
          let _ ← recordAndPush env .fragment dest packet.frame packet.content
          pure true

def enqueueReticulumForDest (dest : Radio) (buf : List UInt8) : Dispatch Unit :=
  let protocol := (bridge.chan dest).protocol
  if protocol = SYNC_WORD_RETICULUM then pure ()
  else if buf.length = 0 then pure ()
  else if protocol ≠ SYNC_WORD_MESHTASTIC ∧ protocol ≠ SYNC_WORD_MESHCORE then pure ()
  else
    let rawPerFrag := if protocol = SYNC_WORD_MESHTASTIC then BRIDGE_RNS_RAW_PER_FRAG_MT
      else BRIDGE_RNS_RAW_PER_FRAG_MC
    if BRIDGE_RNS_MAX_FRAGS < totalFrags rawPerFrag buf.length then pure ()
    else Program.forEachWhile (List.range (totalFrags rawPerFrag buf.length))
      (enqueueFragment bridge env dest rawPerFrag buf)

/-! ## Virtual senders -/

/-- The loop of `parseMcSenderName`: the name and the text behind ": ". -/
def scanName (first : Bool) : ℕ → List UInt8 → Option (List UInt8 × List UInt8)
  | 0, _ | _, [] => none
  | limit + 1, c :: rest =>
      if c = 0 then none
      else if c = 0x3A ∧ rest.head? = some 0x20 then
        if first then none else some ([], rest.drop 1)
      else if first ∧ c = 0x20 then none
      else if c < 0x20 ∨ 0x7E < c then none
      else (scanName false limit rest).map fun (name, text) => (c :: name, text)

/-- `parseMcSenderName`, with `nameOut` of `cap` bytes. -/
def parseMcSenderName (body : List UInt8) (cap : ℕ) : Option (List UInt8 × List UInt8) :=
  scanName true (min (cap - 1) BRIDGE_MC_NAME_MAX) body

def enqueueVirtualNodeInfo (dest : Radio) (vid : UInt32) (name : List UInt8) :
    Dispatch Unit := do
  let idStr := snprintf 12 (ascii "!" ++ hex8 vid)
  let longName := snprintf (MAX_LONG_NAME + 1)
    (if bridge.build.tagOriginProto then name.take 32 ++ ascii " @MC" else name.take 39)
  let shortName := snprintf (MAX_SHORT_NAME + 1) (name.take 4)
  let random ← espRandom env
  match encodeMeshtasticNodeInfo bridge.aes (bridge.chan dest) vid idStr longName shortName 256
      random with
  | none => pure ()
  | some pkt => do
      let _ ← push env .nodeInfo dest pkt none
      pure ()

/-- `if (VirtualNodeMap::nodeInfoDue(vid)) enqueueVirtualNodeInfo(...)`. -/
def advertise (dest : Radio) (vid : UInt32) (label : List UInt8) : Dispatch Unit := do
  let now ← millis env
  let due ← Program.read fun state =>
    (nodeInfoDue vid (WrapClock.ticks now) state.virtualNodes).1
  Program.modify fun state => { state with
    virtualNodes := (nodeInfoDue vid (WrapClock.ticks now) state.virtualNodes).2 }
  if due then enqueueVirtualNodeInfo bridge env dest vid label else pure ()

/-- The virtual node of a label, advertised if that is due. -/
def virtualNode (dest : Radio) (label : List UInt8) : Dispatch UInt32 := do
  let (vid, _) ← Program.read fun state => idForLabel label bridge.mtNodeId state.virtualNodes
  Program.modify fun state => { state with
    virtualNodes := (idForLabel label bridge.mtNodeId state.virtualNodes).2 }
  advertise bridge env dest vid label
  pure vid

/-- `label[40]`: one catch-all node for each channel. -/
def channelLabel (src : Radio) : List UInt8 :=
  let name := (bridge.resolved src).name
  snprintf 40 (ascii "MC-" ++ if name ≠ [] then name else ascii "chan")

/-- The source id and the body that go out on Meshtastic. -/
def meshtasticSender (src dest : Radio) (body : List UInt8) :
    Dispatch (UInt32 × List UInt8) :=
  if bridge.build.identityPreserve ∧ (bridge.chan src).protocol = SYNC_WORD_MESHCORE then
    match parseMcSenderName body (MAX_LONG_NAME + 1) with
    | some (name, rest) => do
        let vid ← virtualNode bridge env dest name
        pure (vid, rest)
    | none =>
        if bridge.build.mcNonameVirtual then do
          let vid ← virtualNode bridge env dest (channelLabel bridge src)
          pure (vid, body)
        else pure (bridge.mtNodeId, body)
  else pure (bridge.mtNodeId, body)

/-- `who`: the short name of a node, or its id. -/
def senderName (srcId : UInt32) : Dispatch (List UInt8) := do
  let now ← millis env
  let name ← Program.read fun state =>
    (lookupShortName srcId (MAX_SHORT_NAME + 1) (WrapClock.ticks now) state.nodes).1
  Program.modify fun state => { state with
    nodes := (lookupShortName srcId (MAX_SHORT_NAME + 1) (WrapClock.ticks now) state.nodes).2 }
  pure (snprintf 24 (if name.getD [] ≠ [] then name.getD [] else ascii "!" ++ hex8 srcId))

/-- The body that goes out on MeshCore. -/
def meshCoreBody (src : Radio) (srcId : UInt32) (body : List UInt8) :
    Dispatch (List UInt8) :=
  if bridge.build.identityPreserve ∧ (bridge.chan src).protocol = SYNC_WORD_MESHTASTIC then do
    let who ← senderName env srcId
    pure (snprintf 256
      (who ++ (if bridge.build.tagOriginProto then ascii "@MT: " else ascii ": ") ++ body))
  else pure body

/-! ## LoRaWAN -/

/-- `enqueueAbpUplink`: whether an identity matched. -/
def enqueueAbpUplink (src : Radio) (srcId : UInt32) (dest : Radio) (payload : List UInt8) :
    Dispatch Bool := do
  let write ← nvsWrite env
  let (next, attempt) ← Program.read fun state => encodeAbpUplink bridge.encoder
    (bridge.chan src).protocol srcId payload write state.lorawan
  Program.modify fun state => { state with lorawan := next }
  match attempt with
  | .noIdentity => pure false
  | .encoded uplink => do
      let _ ← recordAndPush env .uplink dest uplink.frame
        ⟨uplink.frame, uplink.issue.devAddr, uplink.issue.fcnt⟩
      pure true
  | _ => pure true

/-! ## Texts, raw repeats and C2 frames -/

/-- The text of a mesh, encoded for a mesh. -/
def textPacket (src : Radio) (srcId : UInt32) (dest : Radio) (body : List UInt8) :
    Dispatch (Option Packet) :=
  if (bridge.chan dest).protocol = SYNC_WORD_MESHTASTIC then do
    let (dstSrcId, outBody) ← meshtasticSender bridge env src dest body
    meshtasticPacket bridge env dest dstSrcId outBody
  else if (bridge.chan dest).protocol = SYNC_WORD_MESHCORE then do
    let outBody ← meshCoreBody bridge env src srcId body
    meshCorePacket bridge env dest outBody
  else pure none

def enqueueTextForDest (src : Radio) (srcId : UInt32) (dest : Radio) (body : List UInt8) :
    Dispatch Unit :=
  if (bridge.chan dest).protocol = SYNC_WORD_RETICULUM then pure ()
  else if (bridge.chan dest).protocol = SYNC_WORD_LORAWAN then
    if bridge.build.lwEncode then do
      let _ ← enqueueAbpUplink bridge env src srcId dest body
      pure ()
    else pure ()
  else do
    match ← textPacket bridge env src srcId dest body with
    | none => pure ()
    | some packet => do
        let _ ← recordAndPush env .text dest packet.frame packet.content
        pure ()

/-- The relay fields of a Meshtastic frame: one hop less, and relayed by this node. -/
def repeated (frame : List UInt8) : List UInt8 :=
  let flags := frame.getD 12 0
  (frame.set 12 ((flags &&& ~~~0x07) ||| ((flags &&& 0x07) - 1))).set 15
    (bridge.mtNodeId &&& 0xFF).toUInt8

/-- A frame that cannot be repeated once more on Meshtastic. -/
def notRepeated (srcId : UInt32) (buf : List UInt8) : Prop :=
  buf.length < 16 ∨ srcId = bridge.mtNodeId ∨ buf.getD 12 0 &&& 0x07 = 0

instance (srcId : UInt32) (buf : List UInt8) : Decidable (notRepeated bridge srcId buf) :=
  inferInstanceAs (Decidable (_ ∨ _))

/-- The packet that goes out: the bytes of another protocol are unchanged. -/
def repeatFrame (dest : Radio) (buf : List UInt8) : List UInt8 :=
  if (bridge.chan dest).protocol = SYNC_WORD_MESHTASTIC then repeated bridge buf else buf

def rawRepeatForDest (dest : Radio) (srcId : UInt32) (buf : List UInt8) : Dispatch Unit :=
  if buf.length = 0 ∨ LORA_MAX_PACKET < buf.length then pure ()
  else if (bridge.chan dest).protocol = SYNC_WORD_MESHTASTIC ∧ notRepeated bridge srcId buf then
    pure ()
  else do
    let _ ← push env .rawRepeat dest (repeatFrame bridge dest buf) none
    pure ()

def camC2Emit (radioIdx : ℤ) (buf : List UInt8) : Dispatch Unit :=
  if h : 0 ≤ radioIdx ∧ radioIdx.toNat < NUM_RADIOS then do
    let _ ← recordAndPush env .c2 ⟨radioIdx.toNat, h.2⟩ buf (.raw buf)
    pure ()
  else pure ()

end Enqueue

end LoraBridge.Enqueue
