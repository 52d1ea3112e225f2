import LoraBridge.Codec.MeshEncoder
import LoraBridge.Config.BridgeConfig
import LoraBridge.Config.ChannelKeys
import LoraBridge.Control.CamC2
import LoraBridge.Core.Base64Coder
import LoraBridge.Counter.AbpUplinks
import LoraBridge.Dispatch.NodeDB
import LoraBridge.Dispatch.VirtualNodeMap
import LoraBridge.Radio.RouteQueue

/-!
# The bridge

The configuration of a bridge, what it keeps in memory, and the steps its dispatcher is
made of: asking the clock, the dedup guard, and pushing a packet onto a route queue.
-/

namespace LoraBridge.Bridge

open LoraBridge.Base64 LoraBridge.BridgeConfig LoraBridge.ChannelKeys LoraBridge.DedupCache
open LoraBridge.MeshEncoder LoraBridge.MeshtasticDecoder LoraBridge.ReserveAhead
open LoraBridge.WrapClock

def SYNC_WORD_MESHTASTIC : UInt8 := 0x2B

def SYNC_WORD_MESHCORE : UInt8 := 0x12

def SYNC_WORD_RETICULUM : UInt8 := 0x42

def SYNC_WORD_LORAWAN : UInt8 := 0x34

theorem ne_meshtastic_of_meshCore {protocol : UInt8} (hprotocol : protocol = SYNC_WORD_MESHCORE) :
    protocol ≠ SYNC_WORD_MESHTASTIC := by
  rw [hprotocol]
  decide

theorem ne_meshtastic_of_verbatim {protocol : UInt8}
    (hprotocol : protocol = SYNC_WORD_RETICULUM ∨ protocol = SYNC_WORD_LORAWAN) :
    protocol ≠ SYNC_WORD_MESHTASTIC := by
  rcases hprotocol with h | h
  · rw [h]; decide
  · rw [h]; decide

/-- The build flags; `camC2` is either of the two camera roles. -/
structure Build where
  lwEncode : Bool
  lwSummaryToMesh : Bool
  lwRelay : Bool
  rnsInprotoRepeat : Bool
  camC2 : Bool
  customRepeat : Bool
  identityPreserve : Bool
  tagOriginProto : Bool
  mcNonameVirtual : Bool

/-- How `printf` writes a coordinate in 1e-7 degrees to four places, and the float of a
word to so many. -/
structure Floats where
  coordinate : UInt32 → List UInt8
  float : ℕ → UInt32 → List UInt8

/-- What is set up before the radio tasks start; `present` is `g_radio[j] != nullptr`, and
`sha256` the first byte of the digest. -/
structure Config where
  build : Build
  floats : Floats
  encoder : AbpUplinks.Encoder
  hmac : Hmac
  sha256 : List UInt8 → UInt8
  base64 : Coder
  device : CamC2.Device
  radioProtocol : Radio → UInt8
  radioSyncWord : Radio → UInt8
  radioChannelName : Radio → List UInt8
  radioChannelKey : Radio → List UInt8
  radioEnabled : Radio → Bool
  present : Radio → Bool
  routeMask : Radio → UInt8
  mtNodeId : UInt32
  positionEnabled : Bool
  telemetryEnabled : Bool

def Config.aes (bridge : Config) : Cipher.BlockCipher := bridge.encoder.aes

/-- `g_chan[i]`: resolved for a radio with a protocol, all zeros for another. -/
def Config.resolved (bridge : Config) (i : Radio) : Resolved :=
  if bridge.radioProtocol i ≠ PROTO_NONE then
    resolveRadioChannel bridge.base64 bridge.sha256 (bridge.radioSyncWord i)
      (bridge.radioChannelName i) (bridge.radioChannelKey i)
  else ⟨⟨0, keyBuffer [], 0, 0⟩, []⟩

def Config.chan (bridge : Config) (i : Radio) : RadioChannel := (bridge.resolved i).channel

/-- The filter that each of the six fan-out loops of the dispatcher repeats: another radio,
enabled and there, with its bit in the mask of the source. -/
def Config.routes (bridge : Config) (src j : Radio) : Bool :=
  j ≠ src ∧ bridge.radioEnabled j ∧ bridge.present j ∧
    bridge.routeMask src &&& ((1 : UInt8) <<< UInt8.ofNat j) ≠ 0

/-- What a call gets from outside, by how often the bridge has asked: the clock, random
words, what becomes of writes to NVS, the camera, and what a decoder makes of the bytes behind
its plaintext: the names of a node, or a body and its time, if it finds any. -/
structure Env where
  millis : ℕ → ℕ
  random : ℕ → UInt32
  write : ℕ → Write
  camera : ℕ → CamC2.Camera
  strayNames : ℕ → Option (List UInt8 × List UInt8)
  strayBody : ℕ → Option (List UInt8 × Option UInt32)

/-- `g_clockUnix` and `g_clockMillis`. -/
structure Clock where
  unix : UInt32
  millis : UInt32

structure State where
  asked : ℕ
  dedup : DedupCache.Table
  nodes : NodeDB.State
  virtualNodes : VirtualNodeMap.Table
  clock : Clock
  lorawan : LoRaWANConfig.State
  c2 : CamC2.State
  queue : Radio → RouteQueue.Queue RouteQueue.BRIDGE_ROUTE_QUEUE_DEPTH

/-- What a dedup key is the hash of. -/
structure Content where
  bytes : List UInt8
  id1 : UInt32
  id2 : UInt32
  deriving DecidableEq

def Content.hash (content : Content) : UInt32 :=
  DedupCache.hash content.bytes content.id1 content.id2

/-- A frame as it is, without ids. -/
def Content.raw (frame : List UInt8) : Content := ⟨frame, 0, 0⟩

/-- What a packet is to the dispatcher. -/
inductive Kind where
  | text
  | fragment
  | nodeInfo
  | rawRepeat
  | uplink
  | c2
  deriving DecidableEq

/-- What can be seen of a call: the dedup guard was asked, and a packet was accepted by a
route queue.  A packet goes with what was hashed for it, if anything was. -/
inductive Event where
  | guarded (content : Content) (seen : Bool)
  | sent (kind : Kind) (dest : Radio) (frame : List UInt8) (content : Option Content)
  deriving DecidableEq

abbrev Dispatch := Program State Event

/-! ## The steps -/

/-- The number of the next question to the environment. -/
def ask : Dispatch ℕ := do
  let n ← Program.read State.asked
  Program.modify fun state => { state with asked := state.asked + 1 }
  pure n

/-- A reading of the clock, before it is cut to 32 bits. -/
def millis (env : Env) : Dispatch ℕ := do
  let n ← ask
  pure (env.millis n)

def espRandom (env : Env) : Dispatch UInt32 := do
  let n ← ask
  pure (env.random n)

def nvsWrite (env : Env) : Dispatch Write := do
  let n ← ask
  pure (env.write n)

def record (env : Env) (content : Content) : Dispatch Unit := do
  let now ← millis env
  Program.modify fun state => { state with
    dedup := state.dedup.record content.hash (ticks now) }

def seenAndRecord (env : Env) (content : Content) : Dispatch Bool := do
  let now ← millis env
  let seen ← Program.read fun state => state.dedup.isSeen content.hash (ticks now)
  Program.modifyEmit (fun state => { state with
    dedup := (state.dedup.seenAndRecord content.hash (ticks now)).2 }) [.guarded content seen]
  pure seen

/-- `g_routeQ[dest].push(frame)`, seen if the queue takes it. -/
def push (env : Env) (kind : Kind) (dest : Radio) (frame : List UInt8)
    (content : Option Content) : Dispatch Bool := do
  let now ← millis env
  let queue ← Program.read fun state => state.queue dest
  match RouteQueue.push frame now queue with
  | none => pure false
  | some next => do
      Program.modifyEmit (fun state => { state with
        queue := Function.update state.queue dest next }) [.sent kind dest frame content]
      pure true

/-- An emission is recorded before it is queued. -/
def recordAndPush (env : Env) (kind : Kind) (dest : Radio) (frame : List UInt8)
    (content : Content) : Dispatch Bool := do
  record env content
  push env kind dest frame (some content)

/-- A fan-out loop. -/
def fanOut (bridge : Config) (src : Radio) (send : Radio → Dispatch Unit) : Dispatch Unit :=
  Program.forEach (List.finRange NUM_RADIOS) fun j =>
    if bridge.routes src j then send j else pure ()

/-! ## The clock -/

/-- `learnClock`: timestamps before 2017 are not believed. -/
def learnClock (env : Env) (ts : UInt32) : Dispatch Unit :=
  if ts ≤ 1500000000 then pure ()
  else do
    let now ← millis env
    Program.modify fun state => { state with clock := ⟨ts, ticks now⟩ }

/-- `bridgeNowUnix`. -/
def bridgeNowUnix (env : Env) : Dispatch UInt32 := do
  let clock ← Program.read State.clock
  if clock.unix = 0 then pure 0
  else do
    let now ← millis env
    pure (clock.unix + (ticks now - clock.millis) / 1000)

/-! ## Power-up -/

/-- The bridge after `setup`, with what was in NVS, and the queues that found memory. -/
def boot (bridge : Config) (nodes : Option (List NodeDB.PersistedEntry))
    (lorawan : LoRaWANConfig.Nvs) (c2 : CamC2Config.Nvs) (allocated : Radio → Bool) : State where
  asked := 0
  dedup := .empty
  nodes := NodeDB.begin nodes
  virtualNodes := .empty
  clock := ⟨0, 0⟩
  lorawan := LoRaWANConfig.boot lorawan
  c2 := CamC2.boot bridge.device c2
  queue j := RouteQueue.begin ⟨0, RouteQueue.depth_pos⟩ RouteQueue.BRIDGE_ROUTE_MAX_AGE_MS
    (allocated j)

/-- A bridge on the identity cipher, every radio enabled and routed to every other. -/
def exampleBridge (build : Build) (radioProtocol radioSyncWord : Radio → UInt8) : Config where
  build := build
  floats := ⟨fun _ => [], fun _ _ => []⟩
  encoder := ⟨Cipher.identityCipher,
    ⟨false, 0, 1, List.Vector.replicate 16 0, List.Vector.replicate 16 0⟩, true⟩
  hmac _ _ := List.Vector.replicate 32 0
  sha256 _ := 0
  base64 := Base64Coder.coder
  device := ⟨Cipher.identityCipher, true, 9, false, true, none⟩
  radioProtocol := radioProtocol
  radioSyncWord := radioSyncWord
  radioChannelName _ := []
  radioChannelKey _ := []
  radioEnabled _ := true
  present _ := true
  routeMask _ := 0xFF
  mtNodeId := 1
  positionEnabled := false
  telemetryEnabled := false

/-- Nothing stored, every queue with its memory, and a clock that stands still. -/
def exampleState (bridge : Config) : State :=
  boot bridge none ⟨none, fun _ => 0⟩ ⟨none, fun _ => 0, 0⟩ fun _ => true

def exampleEnv : Env where
  millis _ := 1000
  random _ := 7
  write _ := .confirmed
  camera _ := ⟨false, none, false, false, fun _ => none, 0xFF, 0⟩
  strayNames _ := none
  strayBody _ := none

end LoraBridge.Bridge
