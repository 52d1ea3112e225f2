import LoraBridge.Codec.MeshtasticDecoder
import LoraBridge.Core.Base64
import LoraBridge.Core.CharArray
import LoraBridge.Portal.FormText

/-!
# Channels from their names and keys

`MeshtasticConfig::resolve`, `MeshCoreConfig::resolve` and `resolveRadioChannel`: the channel
of a radio from the strings of its configuration.  A key that cannot be used falls back to a
public one.
-/

namespace LoraBridge.ChannelKeys

open LoraBridge.Base64 LoraBridge.CharArray LoraBridge.FormText LoraBridge.Memory
open LoraBridge.MeshtasticDecoder

/-- A channel with its display name. -/
structure Resolved where
  channel : RadioChannel
  name : List UInt8

/-- `strncpy(out.name, name, sizeof(out.name) - 1)` into `char name[24]`. -/
def nameOf (name : List UInt8) : List UInt8 := (cString name).take 23

/-- A key in front of zeros. -/
def keyBuffer (key : List UInt8) : List.Vector UInt8 32 :=
  ⟨key.takeD 32 0, List.takeD_length 32 key 0⟩

/-! ## Meshtastic -/

def DEFAULT_PSK : List UInt8 :=
  [0xd4, 0xf1, 0xbb, 0x3a, 0x20, 0x29, 0x07, 0x59, 0xf0, 0xbc, 0xff, 0xab, 0xcf, 0x4e, 0x69, 0x01]

def xorFold (data : List UInt8) : UInt8 := data.foldl (· ^^^ ·) 0

/-- `raw`: the bytes of the key string, none if it is empty or malformed. -/
def rawPsk (base64 : Coder) (pskB64 : List UInt8) : List UInt8 :=
  if pskB64 = [] then [] else (base64.decode 32 pskB64).getD []

/-- The default key with another last byte. -/
def shortKey (idx : UInt8) : List UInt8 := DEFAULT_PSK.set 15 (0x01 + idx - 1)

/-- The key of 16 or 32 bytes that `raw` stands for. -/
def expandKey (raw : List UInt8) : List UInt8 :=
  match raw with
  | [] => DEFAULT_PSK
  | [idx] => if idx = 0 then DEFAULT_PSK else shortKey idx
  | _ => if raw.length = 16 ∨ raw.length = 32 then raw else DEFAULT_PSK

/-- The bytes do not stand for a key of their own. -/
def usesDefault (raw : List UInt8) : Bool :=
  match raw with
  | [] => true
  | [idx] => idx = 0
  | _ => ¬ (raw.length = 16 ∨ raw.length = 32)

/-- `MeshtasticConfig::resolve`. -/
def resolveMeshtastic (base64 : Coder) (pskB64 name : List UInt8) : Resolved :=
  let key := expandKey (rawPsk base64 pskB64)
  { channel :=
      { protocol := 0x2B
        key := keyBuffer key
        keyLen := UInt8.ofNat key.length
        channelHash := xorFold (nameOf name) ^^^ xorFold key }
    name := nameOf name }

/-! ## MeshCore -/

def FALLBACK_PUBLIC_KEY : List UInt8 :=
  [0x8b, 0x33, 0x87, 0xe9, 0xc5, 0xcd, 0xea, 0x6a, 0xc9, 0xe5, 0xed, 0xba, 0xa1, 0x15, 0xcd, 0x72]

/-- Exactly 32 hexadecimal characters. -/
def parseKeyHex (hex : List UInt8) : Option (List UInt8) :=
  if hex.length = 32 then hexPairs (hex.map fun b => Char.ofNat b.toNat) else none

/-- `MeshCoreConfig::resolve`, with the first byte of SHA-256. -/
def resolveMeshCore (sha256 : List UInt8 → UInt8) (keyHex name : List UInt8) : Resolved :=
  let key := (parseKeyHex keyHex).getD FALLBACK_PUBLIC_KEY
  { channel :=
      { protocol := 0x12
        key := keyBuffer key
        keyLen := 16
        channelHash := sha256 key }
    name := nameOf name }

/-- `resolveRadioChannel`. -/
def resolveRadioChannel (base64 : Coder) (sha256 : List UInt8 → UInt8) (syncWord : UInt8)
    (chName chKey : List UInt8) : Resolved :=
  if syncWord = 0x2B then resolveMeshtastic base64 chKey chName
  else if syncWord = 0x12 then resolveMeshCore sha256 chKey chName
  else
    { channel :=
        { protocol := syncWord
          key := keyBuffer []
          keyLen := 0
          channelHash := 0 }
      name := nameOf chName }

/-- Two radios carry the same channel: `memcmp` over `a.keyLen` bytes. -/
def sameChannel (a b : RadioChannel) : Bool :=
  a.protocol = b.protocol ∧ a.channelHash = b.channelHash ∧ a.keyLen = b.keyLen ∧
    a.key.toList.take a.keyLen.toNat = b.key.toList.take a.keyLen.toNat

/-! ## Expanded keys -/

theorem expandKey_of_usesDefault {raw : List UInt8} (hdefault : usesDefault raw = true) :
    expandKey raw = DEFAULT_PSK := by
  unfold usesDefault at hdefault
  unfold expandKey
  split
  · rfl
  · exact if_pos (by simpa using hdefault)
  · exact if_neg (by simpa using hdefault)

theorem usesDefault_of_length {raw : List UInt8}
    (hlength : raw.length ≠ 1 ∧ raw.length ≠ 16 ∧ raw.length ≠ 32) : usesDefault raw = true := by
  unfold usesDefault
  split
  · rfl
  · exact absurd rfl hlength.1
  · simp [hlength.2.1, hlength.2.2]

theorem length_expandKey (raw : List UInt8) :
    (expandKey raw).length = 16 ∨ (expandKey raw).length = 32 := by
  unfold expandKey
  split
  · exact .inl rfl
  · split <;> exact .inl rfl
  · split
    · exact ‹_›
    · exact .inl rfl

/-- The key that a buffer of 32 bytes holds. -/
theorem take_keyBuffer {key : List UInt8} (hlength : key.length ≤ 32) :
    (keyBuffer key).toList.take key.length = key :=
  take_takeD hlength

end LoraBridge.ChannelKeys
