import LoraBridge.Codec.LoRaWANCrypto
import LoraBridge.Control.CamC2Config
import LoraBridge.Core.CharArray

/-!
# The C2 codec

Frames of the command-and-control channel: a header, the encrypted payload, and a
truncated CMAC over both.  `handleInbound` authenticates a received frame, checks
its sequence number against the peer's floor, and only then acts on it.
-/

namespace LoraBridge.CamC2

open LoraBridge.Cipher LoraBridge.LoRaWANCrypto LoraBridge.Memory
open LoraBridge.ReserveAhead

def MAGIC_VER : UInt8 := 0xC2
def HDR_LEN : ℕ := 14
def TAG_LEN : ℕ := 8
def MAX_PAYLOAD : ℕ := 64
def MIN_FRAME : ℕ := HDR_LEN + TAG_LEN
def MAX_FRAME : ℕ := HDR_LEN + MAX_PAYLOAD + TAG_LEN

def T_CMD : UInt8 := 1
def T_ACK : UInt8 := 2
def T_BEACON : UInt8 := 4
def T_MSG : UInt8 := 5

def CMD_NONE : UInt8 := 0
def CMD_START_CAPTURE : UInt8 := 1
def CMD_RECORD : UInt8 := 2
def CMD_STOP : UInt8 := 3
def CMD_SET_QUALITY : UInt8 := 4
def CMD_SET_FRAMESIZE : UInt8 := 5
def CMD_GET_STATUS : UInt8 := 6

def RES_OK : UInt8 := 0
def RES_ERR : UInt8 := 1
def RES_BUSY : UInt8 := 2
def RES_BADARG : UInt8 := 3
def RES_NOCAM : UInt8 := 4

def MSG_TEXT_MAX : ℕ := 48
def MSG_RING : ℕ := 12

/-! ## Frames -/

/-- `get32le`, on a frame whose length has been checked. -/
def get32le (buf : List UInt8) (p : ℕ) : UInt32 :=
  (buf.getD p 0).toUInt32 ||| ((buf.getD (p + 1) 0).toUInt32 <<< 8) |||
    ((buf.getD (p + 2) 0).toUInt32 <<< 16) ||| ((buf.getD (p + 3) 0).toUInt32 <<< 24)

structure Keys where
  macKey : List UInt8
  encKey : List UInt8

/-- The block with one label byte. -/
def labelBlock (label : UInt8) : List UInt8 := label :: List.replicate 15 0

def deriveKeys (aes : BlockCipher) (psk : List UInt8) : Keys where
  macKey := aesEcb aes psk (labelBlock 0x01)
  encKey := aesEcb aes psk (labelBlock 0x02)

def header (type : UInt8) (senderId recipientId seq : UInt32) : List UInt8 :=
  [MAGIC_VER, type] ++ wordBytes senderId ++ wordBytes recipientId ++ wordBytes seq

/-- `buildFrame`: the payload is encrypted, and the tag covers header and
ciphertext. -/
def buildFrame (aes : BlockCipher) (type : UInt8) (senderId recipientId seq : UInt32)
    (psk payload : List UInt8) (cap : ℕ) : Option (List UInt8) :=
  if MAX_PAYLOAD < payload.length then none
  else if cap < HDR_LEN + payload.length + TAG_LEN then none
  else
    let keys := deriveKeys aes psk
    let body := header type senderId recipientId seq ++
      cryptFrmPayload aes keys.encKey senderId seq payload
    some (body ++ (aesCmac aes keys.macKey body).take TAG_LEN)

/-- The decoded fields of a frame whose tag verified. -/
structure Frame where
  type : UInt8
  sender : UInt32
  recip : UInt32
  seq : UInt32
  plain : List UInt8
  deriving DecidableEq

def verifyAndDecrypt (aes : BlockCipher) (buf psk : List UInt8) : Option Frame :=
  if buf.length < MIN_FRAME ∨ MAX_FRAME < buf.length then none
  else if buf.getD 0 0 ≠ MAGIC_VER then none
  else
    let authLen := buf.length - TAG_LEN
    let payloadLen := authLen - HDR_LEN
    if MAX_PAYLOAD < payloadLen then none
    else
      let keys := deriveKeys aes psk
      let full := aesCmac aes keys.macKey (buf.take authLen)
      if full.take TAG_LEN ≠ buf.drop authLen then none
      else
        let sender := get32le buf 2
        let seq := get32le buf 10
        some ⟨buf.getD 1 0, sender, get32le buf 6, seq,
          cryptFrmPayload aes keys.encKey sender seq ((buf.take authLen).drop HDR_LEN)⟩

/-- `camSelfTest`: a frame built and verified, and one with a flipped tag bit. -/
def camSelfTest (aes : BlockCipher) : Bool :=
  let psk := (List.range 16).map fun i => UInt8.ofNat (i + 1)
  let pt := [CMD_GET_STATUS, 0xAA, 0xBB]
  match buildFrame aes T_CMD 0x11223344 0x55667788 7 psk pt MAX_FRAME with
  | none => false
  | some frame =>
      let tampered := frame.set (frame.length - 1) (frame.getD (frame.length - 1) 0 ^^^ 0x01)
      verifyAndDecrypt aes frame psk = some ⟨T_CMD, 0x11223344, 0x55667788, 7, pt⟩ ∧
        verifyAndDecrypt aes tampered psk = none

/-! ## The device -/

/-- What is fixed over the life of a device: AES, the result of its known-answer
tests, its own C2 id, its role, whether `s_emit` is wired, and the peer of the
build flags. -/
structure Device where
  aes : BlockCipher
  kat : Bool
  myC2Id : UInt32
  camera : Bool
  emitWired : Bool
  seed : Option CamC2Config.Peer

/-- `s_ok`. -/
def Device.ready (device : Device) : Bool := device.kat && camSelfTest device.aes

/-- A received operator message. -/
structure Message where
  fromId : UInt32
  atSec : UInt32
  text : CharArray (MSG_TEXT_MAX + 1)

/-- `s_msgs`, `s_msgCount` and `s_msgHead`. -/
structure Ring where
  msgs : Fin MSG_RING → Message
  count : ℕ
  head : Fin MSG_RING

def Ring.empty : Ring where
  msgs _ := ⟨0, 0, CharArray.zeros _⟩
  count := 0
  head := ⟨0, Nat.zero_lt_succ 11⟩

/-- `s_lastCmd` and `s_lastRes`. -/
structure LastCommand where
  cmd : UInt8
  res : UInt8
  deriving DecidableEq

structure State where
  config : CamC2Config.State
  ring : Ring
  last : LastCommand

/-- `begin()`. -/
def boot (device : Device) (nvs : CamC2Config.Nvs) : State where
  config := CamC2Config.boot device.seed nvs
  ring := Ring.empty
  last := ⟨CMD_NONE, RES_OK⟩

/-- `memcpy(m.text, txt, k); m.text[k] = 0`: what lies behind stays. -/
def storeText (text : CharArray (MSG_TEXT_MAX + 1)) (txt : List UInt8) :
    CharArray (MSG_TEXT_MAX + 1) :=
  ⟨txt.take MSG_TEXT_MAX ++ 0 :: text.toList.drop ((txt.take MSG_TEXT_MAX).length + 1), by
    rw [List.length_append, List.length_cons, List.length_drop, List.Vector.toList_length]
    have hle := List.length_take_le MSG_TEXT_MAX txt
    omega⟩

def storeMessage (ring : Ring) (fromId atSec : UInt32) (txt : List UInt8) : Ring where
  msgs := Function.update ring.msgs ring.head
    ⟨fromId, atSec, storeText (ring.msgs ring.head).text txt⟩
  count := if ring.count < MSG_RING then ring.count + 1 else ring.count
  head := ⟨(ring.head + 1) % MSG_RING, Nat.mod_lt _ (Nat.zero_lt_succ 11)⟩

def messageCount (ring : Ring) : ℕ := ring.count

/-- The slot `message(i)` reads, counted in a 32-bit `size_t`. -/
def messageIndex (ring : Ring) (i : Int32) : ℕ :=
  ((UInt32.ofNat ring.head + UInt32.ofNat MSG_RING - 1 - i.toUInt32) %
    UInt32.ofNat MSG_RING).toNat

theorem messageIndex_lt (ring : Ring) (i : Int32) : messageIndex ring i < MSG_RING := by
  rw [messageIndex, UInt32.toNat_mod]
  exact Nat.mod_lt _ (Nat.zero_lt_succ 11)

/-- `message(i)`: 0 is the newest. -/
def message (ring : Ring) (i : Int32) : Message :=
  ring.msgs ⟨messageIndex ring i, messageIndex_lt ring i⟩

/-! ## Commands -/

/-- What the camera answers while a command runs: the file name of a picture or a
recording, or that it failed. -/
structure Camera where
  ready : Bool
  snap : Option (List UInt8)
  sdPresent : Bool
  recordActive : Bool
  recordStart : UInt16 → Option (List UInt8)
  sdFreePct : UInt8
  uptime : UInt32

def writeStatus (camera : Camera) (last : LastCommand) (cap : ℕ) : List UInt8 :=
  if cap < 8 then []
  else [100, camera.sdFreePct] ++ wordBytes camera.uptime ++ [last.cmd, last.res]

/-- A file name, where it fits behind the result. -/
def fileName (fn : List UInt8) (ackCap : ℕ) : List UInt8 :=
  if 1 + fn.length ≤ ackCap then fn else []

/-- "rec-stop" or "idle". -/
def stopText (was : Bool) : List UInt8 :=
  if was then [0x72, 0x65, 0x63, 0x2D, 0x73, 0x74, 0x6F, 0x70]
  else [0x69, 0x64, 0x6C, 0x65]

/-- The result of a command and the bytes behind it in the ACK. -/
def commandResult (camera : Camera) (cmd : UInt8) (args : List UInt8) (ackCap : ℕ)
    (last : LastCommand) : UInt8 × List UInt8 :=
  if cmd = CMD_GET_STATUS then (RES_OK, writeStatus camera last (ackCap - 1))
  else if cmd = CMD_START_CAPTURE then
    match if camera.ready then camera.snap else none with
    | none => (RES_NOCAM, [])
    | some fn => (RES_OK, fileName fn ackCap)
  else if cmd = CMD_RECORD then
    let dur : UInt16 := if 2 ≤ args.length then
      (args.getD 0 0).toUInt16 ||| ((args.getD 1 0).toUInt16 <<< 8) else 30
    if !camera.ready || !camera.sdPresent then (RES_NOCAM, [])
    else if camera.recordActive then (RES_BUSY, [])
    else
      match camera.recordStart dur with
      | none => (RES_ERR, [])
      | some fn => (RES_OK, fileName fn ackCap)
  else if cmd = CMD_STOP then (RES_OK, fileName (stopText camera.recordActive) ackCap)
  else if cmd = CMD_SET_QUALITY ∨ cmd = CMD_SET_FRAMESIZE then
    (if args.length < 1 then RES_BADARG else RES_OK, [])
  else (RES_BADARG, [])

/-- `executeCommand`: the result, the ACK payload and the new last command. -/
def executeCommand (camera : Camera) (cmd : UInt8) (args : List UInt8) (ackCap : ℕ)
    (last : LastCommand) : UInt8 × List UInt8 × LastCommand :=
  if ackCap < 1 then (RES_ERR, [], last)
  else
    let (res, extra) := commandResult camera cmd args ackCap last
    (res, res :: extra, ⟨cmd, res⟩)

/-! ## Received frames -/

/-- A frame from a radio, what the camera would answer, and what becomes of the two
NVS writes that handling it may make. -/
structure Inbound where
  radioIdx : ℤ
  buf : List UInt8
  camera : Camera
  rxWrite : Write
  txWrite : Write

/-- What leaves the module: a frame was accepted, `executeCommand` was reached, a
frame was handed to `s_emit`. -/
inductive Output where
  | accepted (sender seq : UInt32)
  | executed (sender seq : UInt32) (cmd : UInt8) (args : List UInt8)
  | emitted (radioIdx : ℤ) (frame : List UInt8)
  deriving DecidableEq

def State.setConfig (state : State) (config : CamC2Config.State) : State :=
  { state with config := config }

/-- The peer table and counters within the module's state. -/
def configPart : Program.Part State CamC2Config.State where
  view := State.config
  put := State.setConfig
  view_put _ _ := rfl
  put_put _ _ _ := rfl
  put_view _ := rfl

/-- The checks of `authInbound` in front of the floor: form, address, sender, tag. -/
def authenticate (device : Device) (buf : List UInt8)
    (peer : CamC2Config.Slot → CamC2Config.Peer) : Option (CamC2Config.Slot × Frame) :=
  if buf.length < MIN_FRAME ∨ MAX_FRAME < buf.length then none
  else if buf.getD 0 0 ≠ MAGIC_VER then none
  else
    let s := get32le buf 2
    let r := get32le buf 6
    if r ≠ 0 ∧ r ≠ device.myC2Id then none
    else do
      let idx ← CamC2Config.resolve peer s
      let frame ← verifyAndDecrypt device.aes buf (peer idx).psk.toList
      some (idx, frame)

/-- `authInbound`: the decoded frame, for a fully trusted one. -/
def authInbound (device : Device) (inbound : Inbound) :
    Program State Output (Option Frame) := do
  let peer ← Program.read fun state => state.config.ram.peer
  match authenticate device inbound.buf peer with
  | none => pure none
  | some (idx, frame) => do
      let fresh ← (CamC2Config.acceptInboundSeq idx frame.seq inbound.rxWrite
        fun peerId => Output.accepted peerId frame.seq).within configPart
      if fresh then pure (some frame) else pure none

/-- The ACK goes back to the commander under the same peer key. -/
def sendAck (device : Device) (inbound : Inbound) (sender : UInt32) (ack : List UInt8) :
    Program State Output Unit := do
  let peer ← Program.read fun state => state.config.ram.peer
  match CamC2Config.resolve peer sender with
  | none => pure ()
  | some idx =>
      if device.emitWired then do
        let txSeq ← (CamC2Config.nextTxSeq inbound.txWrite).within configPart
        match txSeq with
        | none => pure ()
        | some seq =>
            match buildFrame device.aes T_ACK device.myC2Id sender seq
              (peer idx).psk.toList ack MAX_FRAME with
            | none => pure ()
            | some frame => Program.emit (.emitted inbound.radioIdx frame)
      else pure ()

/-- What the camera does with a command. -/
def handleCommand (device : Device) (inbound : Inbound) (frame : Frame) :
    Program State Output Unit := do
  let cmd := frame.plain.getD 0 CMD_NONE
  let args := frame.plain.drop 1
  let last ← Program.read State.last
  let (_, ack, last') := executeCommand inbound.camera cmd args MAX_PAYLOAD last
  Program.modifyEmit (fun state => { state with last := last' })
    [.executed frame.sender frame.seq cmd args]
  sendAck device inbound frame.sender ack

/-- `handleInbound`: whether the frame was consumed as a C2 frame.  A commander only
logs what it receives. -/
def handleInbound (device : Device) (inbound : Inbound) : Program State Output Bool :=
  if !device.ready then pure false
  else do
    match ← authInbound device inbound with
    | none => pure false
    | some frame =>
        if device.camera ∧ frame.type = T_CMD then do
          handleCommand device inbound frame
          pure true
        else if device.camera ∧ frame.type = T_MSG then do
          Program.modify fun state => { state with
            ring := storeMessage state.ring frame.sender inbound.camera.uptime frame.plain }
          pure true
        else pure true

end LoraBridge.CamC2
