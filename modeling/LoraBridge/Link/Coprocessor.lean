import LoraBridge.Core.Machine
import LoraBridge.Core.Ring
import LoraBridge.Link.LinkProtocol

/-!
# The radio co-processor

`coproc_main.cpp`: two radios, each with a queue of transmit jobs and at most one
transmission in flight.  The host's frames and the passes of `loop()` come in any
order; what the radios do and what the clock reads is part of each event.
-/

namespace LoraBridge.Coprocessor

open LoraBridge.LinkProtocol

def LORA_MAX : ℕ := 256

def TX_DONE_TIMEOUT_MS : UInt32 := 8000

def TX_Q_DEPTH : ℕ := 4

def LORA_PREAMBLE_LEN : UInt16 := 8

def RADIOLIB_ERR_NONE : ℤ := 0

def RADIOLIB_ERR_TX_TIMEOUT : ℤ := -5

def RADIOLIB_ERR_WRONG_MODEM : ℤ := -20

def RADIOLIB_LORA_DETECTED : ℤ := -702

/-- Index 0 is the host's R3, index 1 its R4. -/
abbrev LocalRadio := Fin 2

scoped instance localRadiosNeZero : NeZero 2 := ⟨by decide⟩

/-- `radio < 2`. -/
def localOf (radio : UInt8) : Option LocalRadio :=
  if h : radio.toNat < 2 then some ⟨radio.toNat, h⟩ else none

/-- A radio's settings; floats are their bits. -/
structure LoraConfig where
  frequency : UInt32
  bandwidth : UInt32
  spreadFactor : UInt8
  codingRate : UInt8
  syncWord : UInt8
  txPower : UInt8
  preambleLen : UInt16
  tcxoVoltage : UInt32
  deriving DecidableEq

def LORA_TCXO_VOLTAGE : UInt32 := 0x3FE66666

/-- `defaultConfig()`: 906.875 MHz, 250 kHz, the placeholder until CFG_RADIO. -/
def defaultConfig : LoraConfig where
  frequency := 0x4462B800
  bandwidth := 0x437A0000
  spreadFactor := 11
  codingRate := 5
  syncWord := 0x2B
  txPower := 20
  preambleLen := LORA_PREAMBLE_LEN
  tcxoVoltage := LORA_TCXO_VOLTAGE

/-- The packed payload of CFG_RADIO. -/
structure CfgRadio where
  enable : UInt8
  frequency : UInt32
  bandwidth : UInt32
  sf : UInt8
  cr : UInt8
  syncWord : UInt8
  txPower : UInt8
  preambleLen : UInt16

def word32 (b0 b1 b2 b3 : UInt8) : UInt32 :=
  b0.toUInt32 ||| (b1.toUInt32 <<< 8) ||| (b2.toUInt32 <<< 16) ||| (b3.toUInt32 <<< 24)

/-- `memcpy` of a payload of at least `sizeof(CfgRadio)` bytes. -/
def CfgRadio.read : List UInt8 → Option CfgRadio
  | enable :: f0 :: f1 :: f2 :: f3 :: w0 :: w1 :: w2 :: w3 :: sf :: cr :: sync :: power ::
      p0 :: p1 :: _ =>
      some ⟨enable, word32 f0 f1 f2 f3, word32 w0 w1 w2 w3, sf, cr, sync, power,
        p0.toUInt16 ||| (p1.toUInt16 <<< 8)⟩
  | _ => none

def CfgRadio.config (c : CfgRadio) : LoraConfig where
  frequency := c.frequency
  bandwidth := c.bandwidth
  spreadFactor := c.sf
  codingRate := c.cr
  syncWord := c.syncWord
  txPower := c.txPower
  preambleLen := if c.preambleLen ≠ 0 then c.preambleLen else LORA_PREAMBLE_LEN
  tcxoVoltage := LORA_TCXO_VOLTAGE

/-- A queued packet.  The serial says which MSG_TX it came with; the code has no such
number, and nothing it does depends on it. -/
structure TxJob where
  data : List UInt8
  serial : ℕ

/-- A `startTransmit()` that is outstanding. -/
structure Flight where
  serial : ℕ
  startMs : UInt32

structure Radio where
  cfg : LoraConfig
  enabled : Bool
  txActive : Option Flight
  txq : Ring TxJob TX_Q_DEPTH

abbrev Radios := LocalRadio → Radio

/-- What the co-processor sends to the host and asks of its radios. -/
inductive Act where
  | txDone (radio : LocalRadio) (status : ℤ) (serial : ℕ)
  | rx (radio : LocalRadio) (rssi snr : UInt32) (data : List UInt8)
  | ready (info : List UInt8)
  | pong (up : UInt32)
  | log (text : String)
  | logCfg (radio : LocalRadio) (c : LoraConfig)
  | logRead (radio : LocalRadio) (status : ℤ) (rssi snr : UInt32)
  | logIdle (up : LocalRadio → Bool)
  | startReceive (radio : LocalRadio)
  | startTransmit (radio : LocalRadio) (config : LoraConfig) (data : List UInt8)

/-! ## The queue -/

/-- `txqPush`: false if the queue is full. -/
def txqPush (txq : Ring TxJob TX_Q_DEPTH) (d : List UInt8) (serial : ℕ) :
    Option (Ring TxJob TX_Q_DEPTH) :=
  if hroom : txq.count < TX_Q_DEPTH then
    some (txq.append ⟨d.take LORA_MAX, serial⟩ hroom)
  else none

def txqPeek (txq : Ring TxJob TX_Q_DEPTH) : Option TxJob :=
  if txq.count ≠ 0 then some (txq.cell txq.head) else none

def txqPop (txq : Ring TxJob TX_Q_DEPTH) : Ring TxJob TX_Q_DEPTH :=
  if hcount : 0 < txq.count then txq.dropOldest hcount else txq

/-! ## The host's frames -/

/-- `applyCfg`; `begun` is what the radio's `begin()` returns. -/
def applyCfg (i : LocalRadio) (c : CfgRadio) (begun : Bool) (radios : Radios) :
    Radios × List Act :=
  let r := { radios i with cfg := c.config, txActive := none }
  if begun then
    (Function.update radios i { r with enabled := true },
      [.startReceive i, .logCfg i c.config])
  else
    (Function.update radios i { r with enabled := false },
      [.log "radio begin() failed during CFG"])

def setup (begun : LocalRadio → Bool) : Radios × List Act :=
  (fun i => ⟨defaultConfig, begun i, none, .empty (fun _ => ⟨[], 0⟩) ⟨0, by decide⟩⟩,
    [if begun 0 then .startReceive 0 else .log "R3 (B2B) begin() failed at boot",
      if begun 1 then .startReceive 1
      else .log "R4 (edge) begin() failed at boot — check module revision/wiring",
      .ready [1, 2], .logIdle begun])

/-- `handleHostFrame`; `begun` is what a `begin()` returns, `up` the uptime. -/
def handleHostFrame (message : Message) (serial : ℕ) (begun : LocalRadio → Bool)
    (up : UInt32) (radios : Radios) : Radios × List Act :=
  if message.type = MSG_CFG_RADIO then
    match localOf message.radio, CfgRadio.read message.payload with
    | some i, some c =>
        if c.enable ≠ 0 then applyCfg i c (begun i) radios
        else
          (Function.update radios i { radios i with enabled := false, txActive := none },
            [.startReceive i])
    | _, _ => (radios, [])
  else if message.type = MSG_TX then
    match localOf message.radio with
    | none => (radios, [])
    | some i =>
        if (radios i).enabled then
          match txqPush (radios i).txq message.payload serial with
          | some txq => (Function.update radios i { radios i with txq := txq }, [])
          | none =>
              (radios, [.log "TX queue full — frame dropped",
                .txDone i RADIOLIB_ERR_TX_TIMEOUT serial])
        else
          (radios, [.log "MSG_TX for a radio that is not enabled — rejected",
            .txDone i RADIOLIB_ERR_WRONG_MODEM serial])
  else if message.type = MSG_START_RX then
    match localOf message.radio with
    | none => (radios, [])
    | some i =>
        (radios, if (radios i).enabled ∧ (radios i).txActive.isNone then [.startReceive i]
          else [])
  else if message.type = MSG_PING then (radios, [.pong up])
  else if message.type = MSG_RESET then setup begun
  else (radios, [])

/-! ## The loop -/

/-- A packet as `read` gives it. -/
structure Received where
  status : ℤ
  data : List UInt8
  rssi : UInt32
  snr : UInt32

/-- What a pass finds at one radio: `txDone()`, the clock, a packet if there is one,
the channel, and what `startTransmit()` returns. -/
structure Turn where
  done : Bool
  now : UInt32
  available : Option Received
  cad : ℤ
  txStatus : ℤ
  startedAt : UInt32

/-- The transmission in flight, if it is settled. -/
def serviceFlight (i : LocalRadio) (turn : Turn) (radio : Radio) (flight : Flight) :
    Radio × List Act :=
  let timedOut := TX_DONE_TIMEOUT_MS < turn.now - flight.startMs
  if turn.done ∨ timedOut then
    ({ radio with txActive := none },
      [.txDone i (if timedOut ∧ ¬ turn.done then RADIOLIB_ERR_TX_TIMEOUT
        else RADIOLIB_ERR_NONE) flight.serial])
  else (radio, [])

/-- A received packet goes to the host. -/
def forward (i : LocalRadio) (packet : Received) : List Act :=
  (if packet.status = RADIOLIB_ERR_NONE ∧ packet.data ≠ [] then
      [.rx i packet.rssi packet.snr packet.data]
    else if packet.status ≠ RADIOLIB_ERR_NONE then
      [.logRead i packet.status packet.rssi packet.snr]
    else []) ++ [.startReceive i]

/-- The oldest job is sent, if the channel is free. -/
def dispatch (i : LocalRadio) (turn : Turn) (radio : Radio) (job : TxJob) :
    Radio × List Act :=
  if turn.cad = RADIOLIB_LORA_DETECTED then (radio, [.startReceive i])
  else if turn.txStatus = RADIOLIB_ERR_NONE then
    ({ radio with txActive := some ⟨job.serial, turn.startedAt⟩, txq := txqPop radio.txq },
      [.startTransmit i radio.cfg job.data])
  else
    ({ radio with txq := txqPop radio.txq },
      [.startTransmit i radio.cfg job.data, .startReceive i,
        .txDone i turn.txStatus job.serial])

/-- One radio's part of a pass of `loop()`. -/
def serviceRadio (i : LocalRadio) (turn : Turn) (radio : Radio) : Radio × List Act :=
  match radio.txActive with
  | some flight => serviceFlight i turn radio flight
  | none =>
      if radio.enabled then
        match turn.available with
        | some packet => (radio, forward i packet)
        | none =>
            match txqPeek radio.txq with
            | some job => dispatch i turn radio job
            | none => (radio, [])
      else (radio, [])

/-- The radios of a pass, one after the other. -/
def pass (turns : LocalRadio → Turn) (radios : Radios) : Radios × List Act :=
  (fun i => (serviceRadio i (turns i) (radios i)).1,
    (List.finRange 2).flatMap fun i => (serviceRadio i (turns i) (radios i)).2)

inductive Event where
  | frame (message : Message) (serial : ℕ) (begun : LocalRadio → Bool) (up : UInt32)
  | pass (turns : LocalRadio → Turn)

def step (radios : Radios) : Event → Radios × List Act
  | .frame message serial begun up => handleHostFrame message serial begun up radios
  | .pass turns => Coprocessor.pass turns radios

end LoraBridge.Coprocessor
