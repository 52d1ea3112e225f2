import LoraBridge.Codec.MeshCoreDecoder
import LoraBridge.Dispatch.Enqueue

/-!
# Received frames

`ingestAndFanout`: a received frame is decoded once, the dedup guard is asked, and the frame
or its body goes to the queues of the other radios.  A decoder that does not return ends the
call; nothing is queued from then on.  One that reads behind the plaintext goes on with what
lies there, which is not known here: whether it finds a body or a name in it, and which, is
for the environment to say, and what it finds is asked for, recorded and sent like any other.
-/

namespace LoraBridge.Ingest

open LoraBridge.Bridge LoraBridge.BridgeConfig LoraBridge.ChannelKeys LoraBridge.Enqueue
open LoraBridge.Memory LoraBridge.MeshCoreDecoder LoraBridge.MeshtasticDecoder LoraBridge.NodeDB
open LoraBridge.Print

/-! ## Lines for the other meshes -/

def loraWanMtypeName (mtype : UInt8) : List UInt8 :=
  if mtype = 0 then ascii "JoinRequest"
  else if mtype = 1 then ascii "JoinAccept"
  else if mtype = 2 then ascii "UnconfDataUp"
  else if mtype = 3 then ascii "UnconfDataDown"
  else if mtype = 4 then ascii "ConfDataUp"
  else if mtype = 5 then ascii "ConfDataDown"
  else if mtype = 6 then ascii "RejoinRequest"
  else if mtype = 7 then ascii "Proprietary"
  else ascii "?"

/-- `sum[160]`: the header of a LoRaWAN frame of `len` bytes. -/
def summary (lw : LoRaWANMeta) (len : ℕ) : List UInt8 :=
  let name := loraWanMtypeName lw.mtype
  snprintf 160 (
    if lw.isJoinReq then
      ascii "LoRaWAN JoinReq DevEUI " ++ hex8 (lw.devEui >>> 32).toUInt32 ++
        hex8 lw.devEui.toUInt32
    else if lw.isData then
      ascii "LoRaWAN " ++ name ++ ascii " DevAddr 0x" ++ hex8 lw.devAddr ++ ascii " FCnt " ++
        decimal lw.fcnt.toNat ++ ascii " FPort " ++
        signed (lw.fport.elim (-1) fun fport => (fport.toNat : ℤ)) ++ ascii " len " ++ decimal len
    else ascii "LoRaWAN " ++ name ++ ascii " len " ++ decimal len)

/-- A part of a line that is only there with its value. -/
def part (value : Option UInt32) (text : UInt32 → List UInt8) : List UInt8 := value.elim [] text

section Ingest

variable (bridge : Config) (env : Env)

def positionLine (pos : MeshtasticPositionInfo) : List UInt8 :=
  let place := match pos.latI, pos.lonI with
    | some lat, some lon =>
        ascii " " ++ bridge.floats.coordinate lat ++ ascii "," ++ bridge.floats.coordinate lon
    | _, _ => []
  snprintf 256 (ascii "pos" ++ place ++
    part pos.altM fun alt => ascii " alt " ++ signed alt.toInt32.toInt ++ ascii "m")

/-- The line of a device or an environment; the others go on to the text. -/
def telemetryLine (tel : MeshtasticTelemetryInfo) : Option (List UInt8) :=
  match tel.kind with
  | .device => some (snprintf 256 (ascii "bat" ++
      part tel.batteryPct (fun v => ascii " " ++ bridge.floats.float 0 v ++ ascii "%") ++
      part tel.voltage fun v => ascii " " ++ bridge.floats.float 2 v ++ ascii "V"))
  | .environment => some (snprintf 256 (ascii "env" ++
      part tel.tempC (fun v => ascii " " ++ bridge.floats.float 1 v ++ ascii "C") ++
      part tel.rhPct (fun v => ascii " RH " ++ bridge.floats.float 0 v ++ ascii "%") ++
      part tel.pressureHpa fun v => ascii " " ++ bridge.floats.float 0 v ++ ascii "hPa"))
  | _ => none

/-! ## Bodies -/

/-- What is decoded from a frame of a mesh, and the time it carries; `stray` if the decoder
has read bytes that are not the frame's. -/
inductive Decoded where
  | refused
  | stray
  | body (text : List UInt8) (time : Option UInt32)
  deriving DecidableEq

/-- A decoder that does not return decodes nothing. -/
def Decoded.ofHalt : Halt → Decoded
  | .outOfBounds => .stray
  | _ => .refused

theorem Decoded.ofHalt_ne_body (halt : Halt) (text : List UInt8) (time : Option UInt32) :
    Decoded.ofHalt halt ≠ .body text time := by
  cases halt <;> exact Decoded.noConfusion

def Decoded.ofText : Except Halt (Option (List UInt8)) → Decoded
  | .ok (some text) => .body (cString text) none
  | .ok none => .refused
  | .error halt => .ofHalt halt

/-- A Meshtastic frame as a position, then as telemetry, and last as a text. -/
def decodeMeshtastic (chan : RadioChannel) (buf : List UInt8) : Decoded :=
  let position := if bridge.positionEnabled then
    extractMeshtasticPosition bridge.aes chan (.ofList buf) buf.length
    else .ok (false, PositionState.start.out)
  let telemetry := if bridge.telemetryEnabled then
    extractMeshtasticTelemetry bridge.aes chan (.ofList buf) buf.length
    else .ok (false, .empty)
  match position with
  | .error halt => .ofHalt halt
  | .ok (true, pos) => .body (cString (positionLine bridge pos)) pos.timeUnix
  | .ok (false, _) =>
      match telemetry with
      | .error halt => .ofHalt halt
      | .ok (found, tel) =>
          match if found then telemetryLine bridge tel else none with
          | some line => .body (cString line) none
          | none => .ofText
              (extractMeshtasticBody bridge.aes chan (.ofList buf) buf.length 256)

def decodeMeshCore (chan : RadioChannel) (buf : List UInt8) : Decoded :=
  match extractMeshCoreBody bridge.aes chan (.ofList buf) buf.length 256 with
  | .ok (some (body, mcTs)) => .body (cString body) (some mcTs)
  | .ok none => .refused
  | .error halt => .ofHalt halt

/-- The source id and the packet id of a Meshtastic header, as far as it goes. -/
def headerWord (buf : List UInt8) (p : ℕ) : UInt32 :=
  if p + 4 ≤ buf.length then (word32 (.ofList buf) p).toOption.getD 0 else 0

/-! ## The branches -/

/-- The guard, and what is done with a packet it lets through. -/
def unlessSeen (content : Content) (fanout : Dispatch Unit) : Dispatch Unit := do
  if ← seenAndRecord env content then pure () else fanout

def ingestReticulum (src : Radio) (buf : List UInt8) : Dispatch Unit :=
  unlessSeen env (.raw buf) <| fanOut bridge src fun j =>
    if bridge.build.rnsInprotoRepeat ∧ (bridge.chan j).protocol = SYNC_WORD_RETICULUM then
      rawRepeatForDest bridge env j 0 buf
    else enqueueReticulumForDest bridge env j buf

def ingestLoRaWAN (src : Radio) (buf : List UInt8) : Dispatch Unit :=
  unlessSeen env (.raw buf) <|
    match extractLoRaWANMeta (.ofList buf) buf.length with
    | .error _ => pure ()
    | .ok (parsed, lw) => do
        if bridge.build.lwSummaryToMesh ∧ parsed then
          fanOut bridge src fun j =>
            if (bridge.chan j).protocol = SYNC_WORD_MESHTASTIC ∨
                (bridge.chan j).protocol = SYNC_WORD_MESHCORE then
              enqueueTextForDest bridge env src 0 j (summary lw buf.length)
            else pure ()
        if bridge.build.lwRelay then
          fanOut bridge src fun j =>
            if (bridge.chan j).protocol = SYNC_WORD_LORAWAN then
              rawRepeatForDest bridge env j 0 buf
            else pure ()

/-- A frame, with what the environment does while it is handled. -/
def inboundOf (src : Radio) (buf : List UInt8) : Dispatch CamC2.Inbound := do
  let asked ← ask
  let rxWrite ← nvsWrite env
  let txWrite ← nvsWrite env
  pure ⟨src.val, buf, env.camera asked, rxWrite, txWrite⟩

/-- `s_emit` is `camC2Emit`. -/
def deliver : CamC2.Output → Dispatch Unit
  | .emitted radioIdx frame => camC2Emit env radioIdx frame
  | _ => pure ()

/-- `CamC2::handleInbound`, which emits last. -/
def handleInbound (src : Radio) (buf : List UInt8) : Dispatch Bool := do
  let inbound ← inboundOf env src buf
  let handled ← Program.read fun state =>
    (CamC2.handleInbound bridge.device inbound).run state.c2
  Program.modify fun state => { state with c2 := handled.state }
  Program.forEach handled.outputs (deliver env)
  pure handled.result

/-- A Custom frame to the radios of its channel. -/
def repeatCustom (src : Radio) (buf : List UInt8) : Dispatch Unit :=
  unlessSeen env (.raw buf) <| fanOut bridge src fun j =>
    if sameChannel (bridge.chan src) (bridge.chan j) then rawRepeatForDest bridge env j 0 buf
    else pure ()

/-- A Custom frame to the LoRaWAN radios, under an ABP identity. -/
def uplinkCustom (src : Radio) (buf : List UInt8) : Dispatch Unit :=
  unlessSeen env (.raw buf) <| fanOut bridge src fun j =>
    if (bridge.chan j).protocol = SYNC_WORD_LORAWAN then do
      let _ ← enqueueAbpUplink bridge env src 0 j buf
      pure ()
    else pure ()

/-- A decoded body, raw to the radios of its channel and encoded anew for the others. -/
def fanOutBody (src : Radio) (srcId pid : UInt32) (buf body : List UInt8) : Dispatch Unit :=
  unlessSeen env ⟨body, srcId, pid⟩ <| fanOut bridge src fun j =>
    if bridge.build.identityPreserve ∧ sameChannel (bridge.chan src) (bridge.chan j) then
      rawRepeatForDest bridge env j srcId buf
    else enqueueTextForDest bridge env src srcId j body

/-- A decoded frame sets the clock before the guard is asked. -/
def ingestDecoded (src : Radio) (srcId pid : UInt32) (buf body : List UInt8)
    (time : Option UInt32) : Dispatch Unit := do
  time.elim (pure ()) (learnClock env)
  fanOutBody bridge env src srcId pid buf body

/-- `body[256]` with what lay behind the plaintext. -/
def strayText (found : List UInt8) : List UInt8 := cString (found.take 255)

def ingestBody (src : Radio) (srcId pid : UInt32) (buf : List UInt8) : Decoded → Dispatch Unit
  | .refused => pure ()
  | .stray => do
      let asked ← ask
      (env.strayBody asked).elim (pure ()) fun found =>
        ingestDecoded bridge env src srcId pid buf (strayText found.1) found.2
  | .body body time => ingestDecoded bridge env src srcId pid buf body time

/-- A NodeInfo is kept, and not bridged. -/
def keepNodeInfo (nodeId : UInt32) (shortName longName : List UInt8) : Dispatch Unit :=
  if nodeId = bridge.mtNodeId then pure ()
  else do
    let now ← millis env
    let write ← nvsWrite env
    Program.modify fun state => { state with
      nodes := (upsert nodeId shortName longName (WrapClock.ticks now) write state.nodes).2 }

def ingestMeshtastic (src : Radio) (buf : List UInt8) : Dispatch Unit :=
  let decoded := ingestBody bridge env src (headerWord buf 4) (headerWord buf 8) buf
    (decodeMeshtastic bridge (bridge.chan src) buf)
  match extractMeshtasticNodeInfo bridge.aes (bridge.chan src) (.ofList buf) buf.length
      (MAX_SHORT_NAME + 1) (MAX_LONG_NAME + 1) with
  | .error .outOfBounds => do
      let asked ← ask
      (env.strayNames asked).elim decoded fun names =>
        keepNodeInfo bridge env (headerWord buf 4) (cString (names.1.take MAX_SHORT_NAME))
          (cString (names.2.take MAX_LONG_NAME))
  | .error _ => pure ()
  | .ok (true, info) => keepNodeInfo bridge env info.outNodeId info.shortName info.longName
  | .ok (false, _) => decoded

def ingestMeshCore (src : Radio) (buf : List UInt8) : Dispatch Unit :=
  ingestBody bridge env src 0 0 buf (decodeMeshCore bridge (bridge.chan src) buf)

/-- What is left for a frame that is neither Reticulum nor LoRaWAN nor consumed by C2. -/
def ingestOther (src : Radio) (buf : List UInt8) : Dispatch Unit :=
  if bridge.build.customRepeat ∧ bridge.radioProtocol src = PROTO_CUSTOM then
    repeatCustom bridge env src buf
  else if bridge.build.lwEncode ∧ bridge.radioProtocol src = PROTO_CUSTOM then
    uplinkCustom bridge env src buf
  else if (bridge.chan src).protocol = SYNC_WORD_MESHTASTIC then
    ingestMeshtastic bridge env src buf
  else if (bridge.chan src).protocol = SYNC_WORD_MESHCORE then ingestMeshCore bridge env src buf
  else pure ()

def ingestAndFanout (src : Radio) (buf : List UInt8) : Dispatch Unit :=
  if (bridge.chan src).protocol = SYNC_WORD_RETICULUM then ingestReticulum bridge env src buf
  else if (bridge.chan src).protocol = SYNC_WORD_LORAWAN then ingestLoRaWAN bridge env src buf
  else if bridge.build.camC2 ∧ bridge.radioProtocol src = PROTO_CUSTOM then do
    if ← handleInbound bridge env src buf then pure () else ingestOther bridge env src buf
  else ingestOther bridge env src buf

end Ingest

end LoraBridge.Ingest
