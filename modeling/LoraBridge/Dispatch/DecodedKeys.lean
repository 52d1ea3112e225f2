import LoraBridge.Codec.Relay
import LoraBridge.Dispatch.Branches

/-!
# Keys of decoded texts

A text that is decoded from a frame never has the key that the frame has by its bytes.  On
Meshtastic such a key has zeros for the ids, so the frame has zeros in its header, and no text
holds one; on MeshCore a text is shorter than its frame.
-/

namespace LoraBridge.DecodedKeys

open LoraBridge.Branches LoraBridge.Bridge LoraBridge.CharArray LoraBridge.GroupTexts
open LoraBridge.Ingest LoraBridge.Memory LoraBridge.MeshCoreDecoder LoraBridge.Relay
open LoraBridge.MeshtasticDecoder hiding Kind

variable {bridge : Config} {ch : RadioChannel} {frame heard text : List UInt8}
  {time : Option UInt32}

theorem headerWord_relayed (hrelayed : Relayed frame heard) {p : ℕ} (hp : p + 3 < 12) :
    headerWord heard p = headerWord frame p := by
  rw [headerWord, headerWord, hrelayed.length, hrelayed.word hp]

/-- A source id of zero is four zeros of the header. -/
theorem zero_mem_of_headerWord (hlength : 8 ≤ frame.length) (hword : headerWord frame 4 = 0) :
    0 ∈ frame := by
  have h4 : 4 < frame.length := by omega
  have h5 : 4 + 1 < frame.length := by omega
  have h6 : 4 + 2 < frame.length := by omega
  have h7 : 4 + 3 < frame.length := by omega
  rw [headerWord, if_pos hlength] at hword
  simp only [word32, ofList_eq_ok h4, ofList_eq_ok h5, ofList_eq_ok h6, ofList_eq_ok h7,
    bind, Except.bind, Except.toOption, Option.getD_some] at hword
  have hbytes := congrArg wordBytes hword
  rw [wordBytes_word] at hbytes
  have hfirst : frame[4] = 0 := (List.cons.inj hbytes).1
  rw [← hfirst]
  exact List.getElem_mem h4

/-- A frame without a payload is refused. -/
theorem decodeMeshtastic_of_short (bridge : Config) (ch : RadioChannel)
    (hshort : frame.length < 17) : decodeMeshtastic bridge ch frame = .refused := by
  have hclosed : decryptData bridge.aes ch (.ofList frame) frame.length = .ok none :=
    if_pos hshort
  have hposition : extractMeshtasticPosition bridge.aes ch (.ofList frame) frame.length =
      .ok (false, PositionState.start.out) := by
    rw [extractMeshtasticPosition, extractPayload, hclosed]
    rfl
  have htelemetry : extractMeshtasticTelemetry bridge.aes ch (.ofList frame) frame.length =
      .ok (false, .empty) := by
    rw [extractMeshtasticTelemetry, extractPayload, hclosed]
    rfl
  have hbody : extractMeshtasticBody bridge.aes ch (.ofList frame) frame.length 256 =
      .ok none := by
    rw [extractMeshtasticBody, if_neg (by decide), extractPayload, hclosed]
    rfl
  simp only [decodeMeshtastic, hposition, htelemetry, hbody, ite_self]
  rfl

/-- A decoded text is a C string. -/
theorem notMem_of_decodeMeshtastic (hdecode : decodeMeshtastic bridge ch frame = .body text time) :
    0 ∉ text := by
  unfold decodeMeshtastic at hdecode
  dsimp only at hdecode
  split at hdecode
  · exact absurd hdecode (Decoded.ofHalt_ne_body _ _ _)
  · obtain ⟨rfl, -⟩ := Decoded.body.inj hdecode
    exact notMem_cString _
  · split at hdecode
    · exact absurd hdecode (Decoded.ofHalt_ne_body _ _ _)
    · split at hdecode
      · obtain ⟨rfl, -⟩ := Decoded.body.inj hdecode
        exact notMem_cString _
      · unfold Decoded.ofText at hdecode
        split at hdecode
        · obtain ⟨rfl, -⟩ := Decoded.body.inj hdecode
          exact notMem_cString _
        · cases hdecode
        · exact absurd hdecode (Decoded.ofHalt_ne_body _ _ _)

/-- The text is part of the plaintext, and the frame has a header too. -/
theorem length_of_decodeMeshCore (hdecode : decodeMeshCore bridge ch frame = .body text time) :
    text.length < frame.length := by
  unfold decodeMeshCore at hdecode
  split at hdecode
  · rename_i body mcTs hextract
    obtain ⟨rfl, -⟩ := Decoded.body.inj hdecode
    obtain ⟨-, group, rfl, -⟩ := opens_of_extractMeshCoreBody hextract
    obtain ⟨-, hbody, -⟩ := extractMeshCoreBody_frame_eq_some hextract
    dsimp only at hbody
    have hplain : (group.plaintext bridge.aes ch).length ≤ group.ciphertext.length := by
      rw [GroupText.plaintext, Cipher.length_cryptEcb (bridge.aes.length_decrypt _)]
      exact Nat.mul_div_le _ _
    calc (cString body).length
        ≤ body.length := (List.takeWhile_sublist _).length_le
      _ ≤ (group.body bridge.aes ch).length := by
          rw [hbody]
          exact (List.take_sublist _ _).length_le
      _ ≤ ((group.plaintext bridge.aes ch).drop 5).length := (List.takeWhile_sublist _).length_le
      _ ≤ (group.plaintext bridge.aes ch).length := (List.drop_sublist _ _).length_le
      _ ≤ group.ciphertext.length := hplain
      _ < group.frame.length := by
          rw [GroupText.length_frame]
          omega
  · cases hdecode
  · exact absurd hdecode (Decoded.ofHalt_ne_body _ _ _)

/-- The text of a Meshtastic frame with a source id of zero is not the frame. -/
theorem text_ne_of_headerWord (hlong : 8 ≤ frame.length) (hrelayed : Relayed frame heard)
    (hclean : 0 ∉ text) (hword : headerWord frame 4 = 0) : text ≠ heard := by
  rintro rfl
  rw [← headerWord_relayed hrelayed (by decide)] at hword
  rw [← hrelayed.length] at hlong
  exact hclean (zero_mem_of_headerWord hlong hword)

/-- A decoded text is not keyed like the bytes of its frame, relayed or not. -/
theorem content_ne_raw {content : Content} (hdecodes : Decodes bridge ch frame content)
    (hrelayed : Relayed frame heard) : content ≠ .raw heard := by
  intro hraw
  have hlong : decodeMeshtastic bridge ch frame ≠ .refused → 8 ≤ frame.length := by
    intro hdecoded
    by_contra hshort
    exact hdecoded (decodeMeshtastic_of_short bridge ch (by omega))
  cases hdecodes with
  | meshtastic hprotocol hinfo hdecode =>
      obtain ⟨htext, hword, -⟩ := Content.mk.inj hraw
      refine text_ne_of_headerWord (hlong ?_) hrelayed
        (notMem_of_decodeMeshtastic hdecode) hword htext
      rw [hdecode]
      exact Decoded.noConfusion
  | stray hprotocol hinfo hdecode found =>
      obtain ⟨htext, hword, -⟩ := Content.mk.inj hraw
      refine text_ne_of_headerWord (hlong ?_) hrelayed
        (notMem_cString _) hword htext
      rw [hdecode]
      exact Decoded.noConfusion
  | meshCore hprotocol hdecode =>
      obtain ⟨rfl, -, -⟩ := Content.mk.inj hraw
      have hshorter := length_of_decodeMeshCore hdecode
      rw [hrelayed.length] at hshorter
      exact absurd hshorter (lt_irrefl _)

end LoraBridge.DecodedKeys
