import LoraBridge.Codec.RoundTrips
import LoraBridge.Dispatch.Sends

/-!
# Encoded texts

A text is encoded for a mesh if it is no longer than the encoder of that mesh allows.  The
packet then decodes to the text, and the queue of its radio takes it if that queue has a ring.
-/

namespace LoraBridge.EncodedTexts

open LoraBridge.Bridge LoraBridge.BridgeConfig LoraBridge.Enqueue LoraBridge.GroupTexts
open LoraBridge.Memory LoraBridge.MeshCoreDecoder LoraBridge.MeshEncoder LoraBridge.Program
open LoraBridge.RoundTrips LoraBridge.Sends
open LoraBridge.RouteQueue (LORA_MAX_PACKET)
open LoraBridge.MeshtasticDecoder hiding Kind

/-- The channel is one of a mesh that carries texts. -/
def Mesh (chan : RadioChannel) : Prop :=
  chan.protocol = SYNC_WORD_MESHTASTIC ∨ chan.protocol = SYNC_WORD_MESHCORE

/-- The longest text that goes into a packet. -/
def textLimit (chan : RadioChannel) : ℕ :=
  if chan.protocol = SYNC_WORD_MESHTASTIC then 200 else 218

/-- The extractor of the channel returns the text for a buffer as the dispatcher's. -/
inductive DecodesTo (bridge : Config) (chan : RadioChannel) (frame text : List UInt8) : Prop
  | meshtastic (hprotocol : chan.protocol = SYNC_WORD_MESHTASTIC)
      (hextract : extractMeshtasticBody bridge.aes chan (.ofList frame) frame.length 256 =
        .ok (some text)) : DecodesTo bridge chan frame text
  | meshCore (hprotocol : chan.protocol = SYNC_WORD_MESHCORE) {ts : UInt32}
      (hextract : extractMeshCoreBody bridge.aes chan (.ofList frame) frame.length 256 =
        .ok (some (text, ts))) : DecodesTo bridge chan frame text

theorem DecodesTo.unique {bridge : Config} {chan : RadioChannel} {frame text other : List UInt8}
    (htext : DecodesTo bridge chan frame text) (hother : DecodesTo bridge chan frame other) :
    text = other := by
  cases htext with
  | meshtastic hprotocol hextract =>
      cases hother with
      | meshtastic _ hextract' =>
          exact Option.some.inj (Except.ok.inj (hextract.symm.trans hextract'))
      | meshCore hprotocol' _ => exact absurd (hprotocol.symm.trans hprotocol') (by decide)
  | meshCore hprotocol hextract =>
      cases hother with
      | meshtastic hprotocol' _ => exact absurd (hprotocol.symm.trans hprotocol') (by decide)
      | meshCore _ hextract' =>
          exact congrArg Prod.fst (Option.some.inj (Except.ok.inj (hextract.symm.trans hextract')))

/-- The packet has a size that queues take, and decodes to its text. -/
structure Carries (bridge : Config) (dest : Radio) (text : List UInt8) (packet : Packet) :
    Prop where
  pos : packet.frame.length ≠ 0
  le : packet.frame.length ≤ LORA_MAX_PACKET
  decodes : text ≠ [] → DecodesTo bridge (bridge.chan dest) packet.frame text

/-- What the program comes to is a packet for the text, if the text is short enough. -/
def Packs (bridge : Config) (dest : Radio) (text : List UInt8) (result : Option Packet) : Prop :=
  if text.length ≤ textLimit (bridge.chan dest) then
    ∃ packet, result = some packet ∧ Carries bridge dest text packet
  else result = none

/-! ## The encoders -/

section Encoders

variable {bridge : Config} {env : Env} {dest : Radio}

theorem length_broadcast (aes : Cipher.BlockCipher) (chan : RadioChannel) (src pid : UInt32)
    (message : List UInt8) :
    (broadcast aes chan src pid message).length = 16 + message.length := by
  rw [broadcast_eq, DataMessages.length_dataFrame]

theorem length_encodeMeshCoreGrpTxt {aes : Cipher.BlockCipher} {hmac : Hmac}
    {chan : RadioChannel} {body : List UInt8} {ts : UInt32} {cap : ℕ} {frame : List UInt8}
    (hencode : encodeMeshCoreGrpTxt aes hmac chan body ts cap = some frame) :
    frame.length = 5 + (groupPlaintext body ts).length := by
  have hplain := length_groupPlaintext body ts
  rw [encodeMeshCoreGrpTxt] at hencode
  dsimp only at hencode
  split at hencode
  · cases hencode
  split at hencode
  · cases hencode
  obtain rfl := Option.some.inj hencode
  rw [List.length_append, Cipher.length_cryptEcb (aes.length_encrypt _), List.length_append,
    List.length_take, List.Vector.toList_length]
  simp only [List.length_cons, List.length_nil]
  omega

theorem packs_meshtasticPacket
    (hprotocol : (bridge.chan dest).protocol = SYNC_WORD_MESHTASTIC) (dstSrcId : UInt32)
    (outBody : List UInt8) (state : State) :
    Packs bridge dest (cString outBody)
      ((meshtasticPacket bridge env dest dstSrcId outBody).run state).result := by
  rw [meshtasticPacket, run_bind]
  dsimp only [run_pure]
  generalize ((espRandom env).run state).result = random
  by_cases hlength : (cString outBody).length ≤ 200
  · have hmessage := length_dataMessage 1 (cString outBody)
    have hshort : (dataMessage 1 (cString outBody)).length ≤ 240 := by
      rw [hmessage]
      split <;> omega
    rw [Packs, textLimit, if_pos hprotocol, if_pos hlength, encodeMeshtasticText_eq _ _ _ hlength]
    refine ⟨_, rfl, ?_, ?_, fun hnonempty => .meshtastic hprotocol ?_⟩
    · rw [length_broadcast]
      omega
    · rw [length_broadcast, LORA_MAX_PACKET]
      omega
    · rw [extractMeshtasticBody_broadcast _ _ _ _ hshort (by decide), if_pos hnonempty,
        List.take_of_length_le (by omega)]
  · rw [Packs, textLimit, if_pos hprotocol, if_neg hlength, encodeMeshtasticText,
      if_pos (Nat.lt_of_not_le hlength)]
    rfl

theorem packs_meshCorePacket (hprotocol : (bridge.chan dest).protocol = SYNC_WORD_MESHCORE)
    (outBody : List UInt8) (state : State) :
    Packs bridge dest (cString outBody)
      ((meshCorePacket bridge env dest outBody).run state).result := by
  have hother : (bridge.chan dest).protocol ≠ SYNC_WORD_MESHTASTIC :=
    ne_meshtastic_of_meshCore hprotocol
  rw [meshCorePacket, run_bind]
  dsimp only [run_pure]
  generalize ((bridgeNowUnix env).run state).result = ts
  have hbody := CharArray.notMem_cString outBody
  generalize cString outBody = text at hbody ⊢
  have hplain := length_groupPlaintext text ts
  by_cases hlength : text.length ≤ 218
  · rw [Packs, textLimit, if_neg hother, if_pos hlength]
    obtain ⟨frame, hencode⟩ :=
      encodeMeshCoreGrpTxt_isSome bridge.aes bridge.hmac (bridge.chan dest) hlength ts
    have hframe := length_encodeMeshCoreGrpTxt hencode
    rw [hencode]
    refine ⟨_, rfl, ?_, ?_, fun hnonempty => ?_⟩
    · dsimp only
      omega
    · dsimp only [LORA_MAX_PACKET]
      omega
    · obtain ⟨group, hgroup, hopens, -, htext, -⟩ :=
        opens_encodeMeshCoreGrpTxt hbody hnonempty hencode
      obtain ⟨ts', -, hextract⟩ := extractMeshCoreBody_frame group (by decide : 2 ≤ 256) hopens
      rw [hgroup, htext, List.take_of_length_le (by omega)] at hextract
      exact .meshCore hprotocol hextract
  · rw [Packs, textLimit, if_neg hother, if_neg hlength, encodeMeshCoreGrpTxt]
    dsimp only
    rw [if_pos (by omega)]
    rfl

/-- Every text that fits can be received. -/
theorem exists_decodesTo (env : Env) (state : State)
    (hprotocol : (bridge.chan dest).protocol = SYNC_WORD_MESHCORE) {text : List UInt8}
    (htext : 0 ∉ text) (hnonempty : text ≠ []) (hlength : text.length ≤ 218) :
    ∃ frame, DecodesTo bridge (bridge.chan dest) frame text := by
  have hpacks := @packs_meshCorePacket bridge env dest hprotocol text state
  have hother : (bridge.chan dest).protocol ≠ SYNC_WORD_MESHTASTIC :=
    ne_meshtastic_of_meshCore hprotocol
  rw [CharArray.cString_of_notMem htext, Packs, textLimit, if_neg hother, if_pos hlength] at hpacks
  obtain ⟨packet, -, hcarries⟩ := hpacks
  exact ⟨packet.frame, hcarries.decodes hnonempty⟩

end Encoders

/-! ## The queues -/

/-- The queue of the radio found memory for its ring. -/
def allocated (state : State) (j : Radio) : Bool := (state.queue j).ring.isSome

/-- A queue has a ring afterwards if it had one before. -/
def keepsRings : Contract State Event where
  holds first _ last := ∀ j, allocated last j = allocated first j
  nil _ _ := rfl
  append hbefore hafter j := (hafter j).trans (hbefore j)

section Queues

variable {Result : Type} {env : Env} {dest : Radio} {kind : Kind} {frame : List UInt8}

theorem rings_of_still {program : Dispatch Result} (hstill : program.Respects still) :
    program.Respects keepsRings := by
  intro state j
  rw [allocated, allocated, (hstill state).2.1]

theorem rings_push (content : Option Content) :
    (Bridge.push env kind dest frame content).Respects keepsRings := by
  refine respects_bind (rings_of_still still_millis) fun now => ?_
  intro state j
  rw [run_bind, run_read]
  cases hpush : RouteQueue.push frame now (state.queue dest) with
  | none => simp only [hpush, run_pure]
  | some next =>
      simp only [hpush, run_bind, run_modifyEmit, run_pure]
      by_cases hj : j = dest
      · obtain ⟨hbefore, hafter⟩ := RouteQueue.ring_push hpush
        rw [hj, allocated, allocated]
        dsimp only
        rw [Function.update_self, hbefore, hafter]
      · simp only [allocated, Function.update_of_ne hj]

/-- A queue with a ring takes a packet of a size that fits. -/
theorem outputs_push (hpos : frame.length ≠ 0) (hle : frame.length ≤ LORA_MAX_PACKET)
    (content : Option Content) (state : State) :
    ((Bridge.push env kind dest frame content).run state).outputs =
      if allocated state dest then [.sent kind dest frame content] else [] := by
  obtain ⟨hsilent, hqueue, -, -⟩ := @still_millis env state
  rw [Bridge.push, run_bind]
  generalize (millis env).run state = clock at hsilent hqueue ⊢
  have hpush := RouteQueue.isSome_push hpos hle clock.result (state.queue dest)
  rw [allocated, ← hpush]
  simp only [run_bind, run_read, hsilent, hqueue, List.nil_append]
  cases RouteQueue.push frame clock.result (state.queue dest) with
  | none => rfl
  | some next => rfl

theorem still_record (env : Env) (content : Content) (state : State) :
    ((record env content).run state).outputs = [] ∧
      ((record env content).run state).state.queue = state.queue := by
  obtain ⟨hsilent, hqueue, -, -⟩ := @still_millis env state
  simp only [record, run_bind, run_modify, hsilent, hqueue, List.append_nil, and_self]

theorem outputs_recordAndPush (hpos : frame.length ≠ 0) (hle : frame.length ≤ LORA_MAX_PACKET)
    (content : Content) (state : State) :
    ((recordAndPush env kind dest frame content).run state).outputs =
      if allocated state dest then [.sent kind dest frame (some content)] else [] := by
  obtain ⟨hsilent, hqueue⟩ := still_record env content state
  rw [recordAndPush, run_bind]
  dsimp only
  rw [hsilent, List.nil_append, outputs_push hpos hle, allocated, allocated, hqueue]

theorem rings_recordAndPush (content : Content) :
    (recordAndPush env kind dest frame content).Respects keepsRings := by
  refine respects_bind (fun state j => ?_) fun _ => rings_push _
  rw [allocated, allocated, (still_record env content state).2]

end Queues

/-- MeshCore on the first radio, Meshtastic on the others. -/
def meshBridge : Config :=
  exampleBridge ⟨false, false, false, false, false, false, false, false, false⟩
    (fun i => if i = 0 then PROTO_MC else PROTO_MT) fun i => if i = 0 then 0x12 else 0x2B

theorem protocol_zero : (meshBridge.chan 0).protocol = SYNC_WORD_MESHCORE := rfl

theorem protocol_one : (meshBridge.chan 1).protocol = SYNC_WORD_MESHTASTIC := rfl

end LoraBridge.EncodedTexts
