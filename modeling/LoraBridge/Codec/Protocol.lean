/-!
# Protocols

`BridgeConfig::Protocol`, and the protocol a radio's LoRa sync word stands for.
-/

namespace LoraBridge

def PROTO_NONE : UInt8 := 0

def PROTO_MT : UInt8 := 1

def PROTO_MC : UInt8 := 2

def PROTO_RNS : UInt8 := 3

def PROTO_CUSTOM : UInt8 := 4

def PROTO_LORAWAN : UInt8 := 5

/-- `LoRaWANConfig::protoOf`. -/
def protoOf (sync : UInt8) : UInt8 :=
  if sync = 0x2B then PROTO_MT
  else if sync = 0x12 then PROTO_MC
  else if sync = 0x42 then PROTO_RNS
  else if sync = 0x34 then PROTO_LORAWAN
  else PROTO_CUSTOM

end LoraBridge
