import LoraBridge.Codec.Memory
import LoraBridge.Link.ByteWire
import LoraBridge.Link.Coprocessor

/-!
# Remote radios over the UART

`UartLink` and `RemoteRadio` on the host, the co-processor, and the bytes between them in
both directions.  Each side reads its bytes when it comes to them, in whatever pieces, and
none is lost on the way or in the receive rings of 4096 bytes.
-/

namespace LoraBridge.RemoteLink

open LoraBridge.ByteWire LoraBridge.Coprocessor LoraBridge.LinkProtocol
open LoraBridge.FrameParser (coprocFeedByte uartLinkFeedByte)
open LoraBridge.Memory (wordBytes)

def LORA_MAX_PACKET : ℕ := 256

def RX_QUEUE_DEPTH : ℕ := 8

/-- A received packet; rssi and snr are the bits of floats. -/
structure RxPacket where
  data : List UInt8
  rssi : UInt32
  snr : UInt32
  deriving DecidableEq

/-! ## What goes over the link -/

/-- `CfgRadio` as it lies in memory. -/
def CfgRadio.bytes (cfg : CfgRadio) : List UInt8 :=
  cfg.enable :: (wordBytes cfg.frequency ++ wordBytes cfg.bandwidth ++
    [cfg.sf, cfg.cr, cfg.syncWord, cfg.txPower] ++ word16Bytes cfg.preambleLen)

/-- What `RemoteRadio::begin` sends of its settings. -/
def cfgOf (config : LoraConfig) : CfgRadio where
  enable := 1
  frequency := config.frequency
  bandwidth := config.bandwidth
  sf := config.spreadFactor
  cr := config.codingRate
  syncWord := config.syncWord
  txPower := config.txPower
  preambleLen := config.preambleLen

/-- A string that was printed into at most 112 bytes. -/
def LOG_MAX : ℕ := 111

/-- What the co-processor sends for an act; `render` is the text of its logs. -/
def message (render : Act → List UInt8) (act : Act) : Option Message :=
  match act with
  | .txDone i status _ => some ⟨MSG_TX_DONE, .ofNat i, word16Bytes (.ofInt status)⟩
  | .rx i rssi snr data => some ⟨MSG_RX, .ofNat i, wordBytes rssi ++ (wordBytes snr ++ data)⟩
  | .ready info => some ⟨MSG_READY, RADIO_NONE, info.take 2⟩
  | .pong up => some ⟨MSG_PONG, RADIO_NONE, wordBytes up⟩
  | .log _ | .logCfg _ _ | .logRead _ _ _ _ | .logIdle _ =>
      some ⟨MSG_LOG, RADIO_NONE, (render act).take LOG_MAX⟩
  | .startReceive _ | .startTransmit _ _ _ => none

/-- One message after the other. -/
def sendAll (messages : List Message) (wire : Wire) : Wire :=
  messages.foldl (fun wire message => wire.send message) wire

/-- A MSG_RX payload, if it is as long as its header. -/
def rxPacket : List UInt8 → Option RxPacket
  | r0 :: r1 :: r2 :: r3 :: s0 :: s1 :: s2 :: s3 :: data =>
      some ⟨data.take LORA_MAX_PACKET, word32 r0 r1 r2 r3, word32 s0 s1 s2 s3⟩
  | _ => none

/-! ## The host -/

/-- `UartLink` with the queues of the remote radios. -/
structure Host where
  rxQueue : LocalRadio → List RxPacket
  ready : Bool
  readyGen : UInt32
  lastPongMs : UInt32
  txDone : LocalRadio → Bool
  txStatus : LocalRadio → UInt16

/-- What is seen: a packet handed to the link, taken off it, answered at once or given to
the radio on one way, and a packet put on the link, taken off it and read on the other. -/
inductive Output where
  | handed (i : LocalRadio) (data : List UInt8)
  | taken (i : LocalRadio) (data : List UInt8)
  | rejected (i : LocalRadio)
  | onAir (i : LocalRadio) (data : List UInt8)
  | forwarded (i : LocalRadio) (packet : RxPacket)
  | arrived (i : LocalRadio) (packet : RxPacket) (kept : Bool)
  | read (i : LocalRadio) (packet : RxPacket)
  | fault
  deriving DecidableEq

/-- `handleFrame`; `registered` says which radios have a queue. -/
def handleFrame (registered : LocalRadio → Bool) (now : UInt32) (host : Host)
    (message : Message) : Host × List Output :=
  if message.type = MSG_RX then
    match localOf message.radio, rxPacket message.payload with
    | some i, some pkt =>
        if registered i ∧ (host.rxQueue i).length < RX_QUEUE_DEPTH then
          ({ host with rxQueue := Function.update host.rxQueue i (host.rxQueue i ++ [pkt]) },
            [.arrived i pkt true])
        else (host, [.arrived i pkt false])
    | _, _ => (host, [])
  else if message.type = MSG_READY then
    ({ host with ready := true, readyGen := host.readyGen + 1 }, [])
  else if message.type = MSG_PONG then ({ host with lastPongMs := now }, [])
  else if message.type = MSG_TX_DONE then
    match localOf message.radio with
    | none => (host, [])
    | some i =>
        ({ host with
            txStatus := match message.payload with
              | lo :: hi :: _ => Function.update host.txStatus i (FrameParser.word16 lo hi)
              | _ => host.txStatus
            txDone := Function.update host.txDone i true }, [])
  else (host, [])

/-- `RemoteRadio::read` into a buffer of `len` bytes. -/
def read (i : LocalRadio) (len : ℕ) (host : Host) : Host × Option RxPacket :=
  match host.rxQueue i with
  | [] => (host, none)
  | pkt :: rest =>
      ({ host with rxQueue := Function.update host.rxQueue i rest },
        some { pkt with data := pkt.data.take len })

/-! ## Both boards -/

structure System where
  host : Host
  radios : Radios
  down : Wire
  up : Wire

/-- One step of a board; the host's link task and the co-processor read a byte at a time.
`RemoteRadio::begin` is two steps, its settings and a `startReceive`: each frame is put on the
link under a lock of its own. -/
inductive Event where
  | begin (i : LocalRadio) (config : LoraConfig)
  | startReceive (i : LocalRadio)
  | transmit (i : LocalRadio) (data : List UInt8)
  | read (i : LocalRadio)
  | hostFeeds (now : UInt32)
  | coprocFeeds (begun : LocalRadio → Bool) (up : UInt32)
  | pass (turns : LocalRadio → Turn)

/-- `read(data, len)` has room for a packet of the largest size. -/
def clip (turn : Turn) : Turn :=
  { turn with available := turn.available.map fun packet =>
      { packet with data := packet.data.take LORA_MAX } }

/-- A MSG_TX for a radio of the co-processor. -/
def takenBy (message : Message) : List Output :=
  if message.type = MSG_TX then (localOf message.radio).toList.map fun i => .taken i message.payload
  else []

/-- What is seen of the co-processor's acts on a frame, and in a pass. -/
def ofHandle : Act → Option Output
  | .txDone i _ _ => some (.rejected i)
  | _ => none

def ofPass : Act → Option Output
  | .rx i rssi snr data => some (.forwarded i ⟨data, rssi, snr⟩)
  | .startTransmit i _ data => some (.onAir i data)
  | _ => none

/-- A frame on the co-processor, with what it answers. -/
def coprocHandles (render : Act → List UInt8) (begun : LocalRadio → Bool) (up : UInt32)
    (board : Radios × Wire) (hostFrame : Message) : (Radios × Wire) × List Output :=
  let next := handleHostFrame hostFrame 0 begun up board.1
  ((next.1, sendAll (next.2.filterMap (message render)) board.2),
    takenBy hostFrame ++ next.2.filterMap ofHandle)

def step (registered : LocalRadio → Bool) (render : Act → List UInt8) (s : System) :
    Event → System × List Output
  | .begin i config =>
      ({ s with down := s.down.send ⟨ MSG_CFG_RADIO, .ofNat i, CfgRadio.bytes (cfgOf config)⟩ },
        [])
  | .startReceive i => ({ s with down := s.down.send ⟨MSG_START_RX, .ofNat i, []⟩ }, [])
  | .transmit i data =>
      -- without a MSG_READY, or with more than fits, nothing is sent
      if s.host.ready then
        let s := { s with host := { s.host with txDone := Function.update s.host.txDone i false } }
        if data.length ≤ MAX_PAYLOAD then
          ({ s with down := s.down.send ⟨MSG_TX, .ofNat i, data⟩ }, [.handed i data])
        else (s, [])
      else (s, [])
  | .read i =>
      let (host, packet) := RemoteLink.read i LORA_MAX_PACKET s.host
      ({ s with host := host }, packet.toList.map (.read i))
  | .hostFeeds now =>
      match s.up.feed uartLinkFeedByte with
      | none => (s, [.fault])
      | some (up, messages) =>
          let (host, outputs) := Machine.run (handleFrame registered now) s.host messages
          ({ s with host := host, up := up }, outputs)
  | .coprocFeeds begun uptime =>
      match s.down.feed coprocFeedByte with
      | none => (s, [.fault])
      | some (down, messages) =>
          let (board, outputs) :=
            Machine.run (coprocHandles render begun uptime) (s.radios, s.up) messages
          ({ s with radios := board.1, up := board.2, down := down }, outputs)
  | .pass turns =>
      let next := Coprocessor.pass (fun i => clip (turns i)) s.radios
      ({ s with
          radios := next.1
          up := sendAll (next.2.filterMap (message render)) s.up }, next.2.filterMap ofPass)

/-- Both boards after power-up, with the co-processor's MSG_READY on its way. -/
def boot (render : Act → List UInt8) (begun : LocalRadio → Bool) : System where
  host := ⟨fun _ => [], false, 0, 0, fun _ => true, fun _ => 0⟩
  radios := (setup begun).1
  down := .idle
  up := sendAll ((setup begun).2.filterMap (message render)) .idle

/-- As long as the co-processor does not restart. -/
def life (registered : LocalRadio → Bool) (render : Act → List UInt8)
    (begun : LocalRadio → Bool) (events : List Event) : System × List Output :=
  Machine.run (step registered render) (boot render begun) events

end LoraBridge.RemoteLink
