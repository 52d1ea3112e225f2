import LoraBridge.Core.Print

/-!
# Reticulum fragments

A Reticulum frame goes over another mesh as lines of text.  Each line carries the low byte
of the frame's CRC, its place among the lines, and a slice of the frame in base64.
-/

namespace LoraBridge.Fragments

open LoraBridge.Print

def BRIDGE_RNS_MAX_FRAGS : ℕ := 8

def BRIDGE_RNS_RAW_PER_FRAG_MC : ℕ := 117

def BRIDGE_RNS_RAW_PER_FRAG_MT : ℕ := 123

def crcBit (crc : UInt16) : UInt16 :=
  if crc &&& 0x8000 ≠ 0 then (crc <<< 1) ^^^ 0x1021 else crc <<< 1

def crcByte (crc : UInt16) (b : UInt8) : UInt16 :=
  Nat.iterate crcBit 8 (crc ^^^ (b.toUInt16 <<< (8 : UInt16)))

def crc16_ccitt (data : List UInt8) : UInt16 := data.foldl crcByte 0xFFFF

/-! ## The slices -/

/-- `totalFrags`. -/
def totalFrags (rawPerFrag len : ℕ) : ℕ := (len + rawPerFrag - 1) / rawPerFrag

/-- The `rawLen` bytes from `rawStart` on. -/
def slice (rawPerFrag idx : ℕ) (buf : List UInt8) : List UInt8 :=
  (buf.drop (idx * rawPerFrag)).take rawPerFrag

/-- `marked[240]`. -/
def marked (seq : UInt8) (idx total : ℕ) (b64chunk : List UInt8) : List UInt8 :=
  snprintf 240 (ascii "[rns " ++ hexUpper2 seq ++ ascii " " ++ decimal (idx + 1) ++
    ascii "/" ++ decimal total ++ ascii "] " ++ b64chunk)

end LoraBridge.Fragments
