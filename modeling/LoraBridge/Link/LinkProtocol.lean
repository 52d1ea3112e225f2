import Mathlib.Tactic

/-!
# The link protocol

`LinkProtocol.h`: the frames the host and the co-processor exchange over the UART.
-/

namespace LoraBridge.LinkProtocol

def PRE0 : UInt8 := 0xAA

def PRE1 : UInt8 := 0x55

def HEADER_LEN : ℕ := 6

def CRC_LEN : ℕ := 2

def MAX_PAYLOAD : ℕ := 300

def MAX_FRAME : ℕ := HEADER_LEN + MAX_PAYLOAD + CRC_LEN

def RADIO_NONE : UInt8 := 0xFF

def MSG_CFG_RADIO : UInt8 := 0x01

def MSG_TX : UInt8 := 0x02

def MSG_START_RX : UInt8 := 0x03

def MSG_PING : UInt8 := 0x04

def MSG_RESET : UInt8 := 0x05

def MSG_RX : UInt8 := 0x81

def MSG_TX_DONE : UInt8 := 0x82

def MSG_READY : UInt8 := 0x83

def MSG_LOG : UInt8 := 0x84

def MSG_PONG : UInt8 := 0x85

/-- What a frame carries. -/
structure Message where
  type : UInt8
  radio : UInt8
  payload : List UInt8
  deriving DecidableEq, Repr

/-- One bit of the CRC, polynomial 0x1021. -/
def crcBit (crc : UInt16) : UInt16 :=
  if crc &&& 0x8000 ≠ 0 then (crc <<< 1) ^^^ 0x1021 else crc <<< 1

def crcByte (crc : UInt16) (d : UInt8) : UInt16 :=
  crcBit^[8] (crc ^^^ (d.toUInt16 <<< 8))

/-- CRC-16/CCITT from 0xFFFF. -/
def crc16 (d : List UInt8) : UInt16 := d.foldl crcByte 0xFFFF

/-- The low byte, then the high one. -/
def word16Bytes (word : UInt16) : List UInt8 := [word.toUInt8, (word >>> 8).toUInt8]

/-- `len_lo`, `len_hi`. -/
def lengthBytes (len : ℕ) : List UInt8 :=
  [UInt8.ofNat (len % 256), UInt8.ofNat (len / 256 % 256)]

/-- `buildFrame` into a buffer of `outCap` bytes: nothing if the payload is too large
or the buffer too small. -/
def buildFrame (outCap : ℕ) (type radio : UInt8) (payload : List UInt8) :
    Option (List UInt8) :=
  if MAX_PAYLOAD < payload.length then none
  else if outCap < HEADER_LEN + payload.length + CRC_LEN then none
  else
    let checked := [type, radio] ++ lengthBytes payload.length ++ payload
    some ([PRE0, PRE1] ++ checked ++ word16Bytes (crc16 checked))

end LoraBridge.LinkProtocol
