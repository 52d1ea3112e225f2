import LoraBridge.Codec.GroupTexts

/-!
# Meshtastic frames on their way

Every node that relays a Meshtastic frame may rewrite its flags, the next hop and the relay
node.  No extractor reads those bytes.
-/

namespace LoraBridge.Relay

open LoraBridge.Cipher LoraBridge.Memory LoraBridge.MeshtasticDecoder

/-- The same frame but for its flags (12), next hop (14) and relay node (15). -/
structure Relayed (frame heard : List UInt8) : Prop where
  length : heard.length = frame.length
  byte : ∀ i, i ≠ 12 → i ≠ 14 → i ≠ 15 → heard[i]? = frame[i]?

/-- Two channels that open the same frames to the same plaintexts. -/
structure OpensAlike (ch ch' : RadioChannel) : Prop where
  channelHash : ch.channelHash = ch'.channelHash
  aesKey : ch.aesKey = ch'.aesKey

@[refl]
theorem OpensAlike.refl (ch : RadioChannel) : OpensAlike ch ch := ⟨rfl, rfl⟩

@[refl]
theorem Relayed.refl (frame : List UInt8) : Relayed frame frame := ⟨rfl, fun _ _ _ _ => rfl⟩

@[symm]
theorem Relayed.symm {frame heard : List UInt8} (hrelayed : Relayed frame heard) :
    Relayed heard frame :=
  ⟨hrelayed.length.symm, fun i h12 h14 h15 => (hrelayed.byte i h12 h14 h15).symm⟩

@[trans]
theorem Relayed.trans {frame middle heard : List UInt8} (hfirst : Relayed frame middle)
    (hsecond : Relayed middle heard) : Relayed frame heard :=
  ⟨hsecond.length.trans hfirst.length, fun i h12 h14 h15 =>
    (hsecond.byte i h12 h14 h15).trans (hfirst.byte i h12 h14 h15)⟩

section Relayed

variable {frame heard : List UInt8} {ch ch' : RadioChannel}

theorem Relayed.read (hrelayed : Relayed frame heard) {i : ℕ} (h12 : i ≠ 12) (h14 : i ≠ 14)
    (h15 : i ≠ 15) : Pointer.ofList heard i = Pointer.ofList frame i := by
  rw [Pointer.ofList, Pointer.ofList, hrelayed.byte i h12 h14 h15]

theorem Relayed.word (hrelayed : Relayed frame heard) {p : ℕ} (hp : p + 3 < 12) :
    word32 (.ofList heard) p = word32 (.ofList frame) p := by
  have hread : ∀ i, i < 12 → Pointer.ofList heard i = Pointer.ofList frame i :=
    fun i hi => hrelayed.read (by omega) (by omega) (by omega)
  rw [word32, word32, hread p (by omega), hread (p + 1) (by omega), hread (p + 2) (by omega),
    hread (p + 3) (by omega)]

theorem Relayed.range (hrelayed : Relayed frame heard) {start : ℕ} (hstart : 16 ≤ start)
    (count : ℕ) :
    readRange (.ofList heard) start count = readRange (.ofList frame) start count := by
  induction count generalizing start with
  | zero => rfl
  | succ count ih =>
      rw [readRange, readRange, hrelayed.read (by omega) (by omega) (by omega),
        ih (by omega : 16 ≤ start + 1)]

/-- A relayed frame is opened like the original, on every radio of the channel. -/
theorem decryptData_relayed (aes : BlockCipher) (halike : OpensAlike ch ch')
    (hrelayed : Relayed frame heard) :
    decryptData aes ch' (.ofList heard) heard.length =
      decryptData aes ch (.ofList frame) frame.length := by
  have hcrypt : ∀ pid src text,
      cryptPacket aes ch' pid src text = cryptPacket aes ch pid src text :=
    fun pid src text => by rw [cryptPacket, cryptPacket, halike.aesKey]
  rw [decryptData, decryptData, hrelayed.length, ← halike.channelHash,
    hrelayed.read (by decide) (by decide) (by decide), hrelayed.word (by decide),
    hrelayed.word (by decide)]
  simp only [hcrypt, hrelayed.range (Nat.le_refl 16)]

theorem extractPayload_relayed (aes : BlockCipher) (halike : OpensAlike ch ch')
    (hrelayed : Relayed frame heard) {Result : Type} (port : ℕ) (refused : Result)
    (use : UInt32 → List UInt8 → Protobuf.Slice → Except Halt Result) :
    extractPayload aes ch' (.ofList heard) heard.length port refused use =
      extractPayload aes ch (.ofList frame) frame.length port refused use := by
  rw [extractPayload, extractPayload, decryptData_relayed aes halike hrelayed]

theorem extractMeshtasticBody_relayed (aes : BlockCipher) (halike : OpensAlike ch ch')
    (hrelayed : Relayed frame heard) (cap : ℕ) :
    extractMeshtasticBody aes ch' (.ofList heard) heard.length cap =
      extractMeshtasticBody aes ch (.ofList frame) frame.length cap := by
  rw [extractMeshtasticBody, extractMeshtasticBody,
    extractPayload_relayed aes halike hrelayed]

theorem extractMeshtasticNodeInfo_relayed (aes : BlockCipher) (halike : OpensAlike ch ch')
    (hrelayed : Relayed frame heard) (shortCap longCap : ℕ) :
    extractMeshtasticNodeInfo aes ch' (.ofList heard) heard.length shortCap longCap =
      extractMeshtasticNodeInfo aes ch (.ofList frame) frame.length shortCap longCap :=
  extractPayload_relayed aes halike hrelayed _ _ _

theorem extractMeshtasticPosition_relayed (aes : BlockCipher) (halike : OpensAlike ch ch')
    (hrelayed : Relayed frame heard) :
    extractMeshtasticPosition aes ch' (.ofList heard) heard.length =
      extractMeshtasticPosition aes ch (.ofList frame) frame.length :=
  extractPayload_relayed aes halike hrelayed _ _ _

theorem extractMeshtasticTelemetry_relayed (aes : BlockCipher) (halike : OpensAlike ch ch')
    (hrelayed : Relayed frame heard) :
    extractMeshtasticTelemetry aes ch' (.ofList heard) heard.length =
      extractMeshtasticTelemetry aes ch (.ofList frame) frame.length :=
  extractPayload_relayed aes halike hrelayed _ _ _

end Relayed

end LoraBridge.Relay
