import LoraBridge.Codec.Relay
import LoraBridge.Dispatch.DecodedKeys
import LoraBridge.Dispatch.EncodedTexts
import LoraBridge.Dispatch.RawRepeats

/-!
# The packets of the bridge

What the bridge sends, with the content that was recorded for it when it was queued, or when
the frame it repeats was heard, and what is decoded from it when it comes back.
-/

namespace LoraBridge.Emissions

open LoraBridge.Branches LoraBridge.Bridge LoraBridge.BridgeConfig LoraBridge.ChannelKeys
open LoraBridge.DecodedKeys LoraBridge.EncodedTexts LoraBridge.Enqueue LoraBridge.GroupTexts
open LoraBridge.Ingest LoraBridge.Memory LoraBridge.MeshCoreDecoder LoraBridge.MeshEncoder
open LoraBridge.Program LoraBridge.Relay LoraBridge.RoundTrips LoraBridge.Sends
open LoraBridge.MeshtasticDecoder hiding Kind

/-! ## What is heard -/

/-- The frame as it comes back; other nodes may have relayed it on Meshtastic. -/
def Echo (chan : RadioChannel) (frame heard : List UInt8) : Prop :=
  heard = frame ∨ chan.protocol = SYNC_WORD_MESHTASTIC ∧ Relayed frame heard

theorem Echo.relayed {chan : RadioChannel} {frame heard : List UInt8}
    (hecho : Echo chan frame heard) : Relayed frame heard := by
  rcases hecho with rfl | ⟨-, hrelayed⟩
  · rfl
  · exact hrelayed

theorem Echo.verbatim {chan : RadioChannel} {frame heard : List UInt8}
    (hecho : Echo chan frame heard) (hother : chan.protocol ≠ SYNC_WORD_MESHTASTIC) :
    heard = frame :=
  hecho.resolve_right fun hmeshtastic => hother hmeshtastic.1

section SameChannel

variable {bridge : Config} {ch ch' ch'' : RadioChannel}

theorem sameChannel_iff : sameChannel ch ch' = true ↔
    ch.protocol = ch'.protocol ∧ ch.channelHash = ch'.channelHash ∧ ch.keyLen = ch'.keyLen ∧
      ch.key.toList.take ch.keyLen.toNat = ch'.key.toList.take ch.keyLen.toNat :=
  decide_eq_true_iff

theorem opensAlike_of_sameChannel (hsame : sameChannel ch ch' = true) : OpensAlike ch ch' := by
  obtain ⟨-, hhash, hlength, hkey⟩ := sameChannel_iff.mp hsame
  refine ⟨hhash, ?_⟩
  rw [RadioChannel.aesKey, RadioChannel.aesKey, hkey, hlength]

/-- The keys of MeshCore have 16 bytes. -/
theorem keyLen_of_meshCore {i : Radio}
    (hprotocol : (bridge.chan i).protocol = SYNC_WORD_MESHCORE) :
    (bridge.chan i).keyLen = 16 := by
  rw [Config.chan, Config.resolved] at hprotocol ⊢
  split at hprotocol
  · rw [resolveRadioChannel] at hprotocol ⊢
    split at hprotocol
    · exact absurd hprotocol (show (0x2B : UInt8) ≠ SYNC_WORD_MESHCORE by decide)
    split at hprotocol
    · rename_i hmeshtastic hmeshCore
      rw [if_pos ‹_›, if_neg hmeshtastic, if_pos hmeshCore]
      rfl
    · rename_i hmeshCore
      exact absurd hprotocol hmeshCore
  · exact absurd hprotocol (by decide)

theorem channelKey_of_sameChannel {i j : Radio}
    (hprotocol : (bridge.chan i).protocol = SYNC_WORD_MESHCORE)
    (hsame : sameChannel (bridge.chan i) (bridge.chan j) = true) :
    channelKey (bridge.chan i) = channelKey (bridge.chan j) := by
  obtain ⟨-, -, -, hkey⟩ := sameChannel_iff.mp hsame
  rw [keyLen_of_meshCore hprotocol] at hkey
  exact hkey

theorem relayed_repeatFrame (bridge : Config) (dest : Radio) (buf : List UInt8) :
    Relayed buf (repeatFrame bridge dest buf) := by
  rw [repeatFrame]
  split
  · refine ⟨?_, fun i h12 h14 h15 => ?_⟩
    · rw [repeated, List.length_set, List.length_set]
    · rw [repeated, List.getElem?_set_ne (Ne.symm h15), List.getElem?_set_ne (Ne.symm h12)]
  · rfl

/-- A raw repeat is an echo of what it repeats. -/
theorem echo_repeatFrame {src dest : Radio}
    (hsame : sameChannel (bridge.chan src) (bridge.chan dest) = true) (buf : List UInt8) :
    Echo (bridge.chan src) buf (repeatFrame bridge dest buf) := by
  by_cases hmeshtastic : (bridge.chan dest).protocol = SYNC_WORD_MESHTASTIC
  · have hprotocol := (sameChannel_iff.mp hsame).1
    exact .inr ⟨hprotocol.trans hmeshtastic, relayed_repeatFrame bridge dest buf⟩
  · exact .inl (if_neg hmeshtastic)

end SameChannel

/-! ## What is decoded from an echo -/

section Decodes

variable {bridge : Config} {ch ch' : RadioChannel} {frame heard : List UInt8}

theorem decodeMeshtastic_relayed (halike : OpensAlike ch ch') (hrelayed : Relayed frame heard) :
    decodeMeshtastic bridge ch' heard = decodeMeshtastic bridge ch frame := by
  rw [decodeMeshtastic, decodeMeshtastic,
    extractMeshtasticPosition_relayed bridge.aes halike hrelayed,
    extractMeshtasticTelemetry_relayed bridge.aes halike hrelayed,
    extractMeshtasticBody_relayed bridge.aes halike hrelayed]

theorem passesNodeInfo_relayed (halike : OpensAlike ch ch') (hrelayed : Relayed frame heard) :
    PassesNodeInfo bridge ch' heard ↔ PassesNodeInfo bridge ch frame := by
  rw [PassesNodeInfo, PassesNodeInfo,
    extractMeshtasticNodeInfo_relayed bridge.aes halike hrelayed]

theorem decodeMeshCore_alike (hhash : ch.channelHash = ch'.channelHash)
    (hkey : channelKey ch = channelKey ch') :
    decodeMeshCore bridge ch' frame = decodeMeshCore bridge ch frame := by
  rw [channelKey, channelKey] at hkey
  rw [decodeMeshCore, decodeMeshCore, extractMeshCoreBody, extractMeshCoreBody, hkey, hhash]

/-- What a radio of Meshtastic makes of the frame goes by bytes that are not the frame's. -/
def Strays (bridge : Config) (chan : RadioChannel) (buf : List UInt8) : Prop :=
  chan.protocol = SYNC_WORD_MESHTASTIC ∧ PassesNodeInfo bridge chan buf ∧
    decodeMeshtastic bridge chan buf = .stray

/-- A frame that is decoded by its own bytes decodes to one content. -/
theorem decodes_unique (hown : ¬ Strays bridge ch frame) {content other : Content}
    (hdecodes : Decodes bridge ch frame content) (hother : Decodes bridge ch frame other) :
    content = other := by
  cases hdecodes with
  | meshtastic hprotocol hinfo hdecode =>
      cases hother with
      | meshtastic hprotocol' hinfo' hdecode' =>
          obtain ⟨rfl, -⟩ := Decoded.body.inj (hdecode.symm.trans hdecode')
          rfl
      | stray hprotocol' hinfo' hdecode' => exact absurd ⟨hprotocol', hinfo', hdecode'⟩ hown
      | meshCore hprotocol' hdecode' =>
          exact absurd (hprotocol.symm.trans hprotocol') (by decide)
  | stray hprotocol hinfo hdecode => exact absurd ⟨hprotocol, hinfo, hdecode⟩ hown
  | meshCore hprotocol hdecode =>
      cases hother with
      | meshtastic hprotocol' hinfo' hdecode' =>
          exact absurd (hprotocol.symm.trans hprotocol') (by decide)
      | stray hprotocol' hinfo' hdecode' =>
          exact absurd (hprotocol.symm.trans hprotocol') (by decide)
      | meshCore hprotocol' hdecode' =>
          obtain ⟨rfl, -⟩ := Decoded.body.inj (hdecode.symm.trans hdecode')
          rfl

theorem mesh_of_decodes {content : Content} (hdecodes : Decodes bridge ch frame content) :
    Mesh ch := by
  cases hdecodes with
  | meshtastic hprotocol hinfo hdecode => exact .inl hprotocol
  | stray hprotocol hinfo hdecode => exact .inl hprotocol
  | meshCore hprotocol hdecode => exact .inr hprotocol

/-- An echo decodes like the frame, on every radio of the channel. -/
theorem decodes_of_echo {i j : Radio} (hsame : sameChannel (bridge.chan i) (bridge.chan j) = true)
    (hecho : Echo (bridge.chan i) frame heard) {content : Content}
    (hdecodes : Decodes bridge (bridge.chan j) heard content) :
    Decodes bridge (bridge.chan i) frame content := by
  obtain ⟨hprotocol, hhash, -, -⟩ := sameChannel_iff.mp hsame
  have halike := opensAlike_of_sameChannel hsame
  have hrelayed := hecho.relayed
  cases hdecodes with
  | meshtastic hmeshtastic hinfo hdecode =>
      rw [passesNodeInfo_relayed halike hrelayed] at hinfo
      rw [decodeMeshtastic_relayed halike hrelayed] at hdecode
      rw [headerWord_relayed hrelayed (by decide), headerWord_relayed hrelayed (by decide)]
      exact .meshtastic (hprotocol.trans hmeshtastic) hinfo hdecode
  | stray hmeshtastic hinfo hdecode found =>
      rw [passesNodeInfo_relayed halike hrelayed] at hinfo
      rw [decodeMeshtastic_relayed halike hrelayed] at hdecode
      rw [headerWord_relayed hrelayed (by decide), headerWord_relayed hrelayed (by decide)]
      exact .stray (hprotocol.trans hmeshtastic) hinfo hdecode found
  | meshCore hmeshCore hdecode =>
      have hsource := hprotocol.trans hmeshCore
      have hverbatim := hecho.verbatim (by rw [hsource]; decide)
      rw [hverbatim, decodeMeshCore_alike hhash (channelKey_of_sameChannel hsource hsame)]
        at hdecode
      exact .meshCore hsource hdecode

/-- An echo strays on every radio of the channel or on none. -/
theorem strays_of_echo {i j : Radio} (hsame : sameChannel (bridge.chan i) (bridge.chan j) = true)
    (hecho : Echo (bridge.chan i) frame heard) :
    Strays bridge (bridge.chan i) frame ↔ Strays bridge (bridge.chan j) heard := by
  have halike := opensAlike_of_sameChannel hsame
  rw [Strays, Strays, passesNodeInfo_relayed halike hecho.relayed,
    decodeMeshtastic_relayed halike hecho.relayed, (sameChannel_iff.mp hsame).1]

theorem asks_unique {src : Radio}
    (hown : ByBytes bridge src ∨ ¬ Strays bridge (bridge.chan src) frame)
    {content other : Content} (hasks : Asks bridge src frame content)
    (hother : Asks bridge src frame other) :
    content = other := by
  cases hasks with
  | raw hraw =>
      cases hother with
      | raw => rfl
      | decoded hdecoded => exact absurd hraw hdecoded
  | decoded hdecoded hdecodes =>
      cases hother with
      | raw hraw => exact absurd hraw hdecoded
      | decoded _ hdecodes' =>
          exact decodes_unique (hown.resolve_left hdecoded) hdecodes hdecodes'

/-! ## What was recorded -/

theorem decodeMeshtastic_broadcast (bridge : Config) (ch : RadioChannel) (src pid : UInt32)
    {body : List UInt8} (hlength : (dataMessage 1 body).length ≤ 240) :
    decodeMeshtastic bridge ch (broadcast bridge.aes ch src pid (dataMessage 1 body)) =
      .ofText (.ok (if body ≠ [] then some (body.take 255) else none)) := by
  have hothers := othersRefuse_broadcast bridge.aes ch src pid
    (by decide : (1 : UInt8).toNat < 128) hlength
  have hposition := hothers.position (by decide)
  have htelemetry := hothers.telemetry (by decide)
  simp only [decodeMeshtastic, hposition, htelemetry, ite_self]
  rw [extractMeshtasticBody_broadcast bridge.aes ch src pid hlength (by decide)]
  rfl

theorem headerWord_broadcast (aes : Cipher.BlockCipher) (ch : RadioChannel) (src pid : UInt32)
    (message : List UInt8) :
    headerWord (broadcast aes ch src pid message) 4 = src ∧
      headerWord (broadcast aes ch src pid message) 8 = pid := by
  obtain ⟨hsrc, hpid⟩ := header_broadcast aes ch src pid message
  have hlength := length_broadcast aes ch src pid message
  rw [headerWord, headerWord, if_pos (by omega), if_pos (by omega), hsrc, hpid]
  exact ⟨rfl, rfl⟩

/-- A text that was encoded for a mesh decodes to what was recorded for it. -/
theorem content_of_packed {dest : Radio} {kind : Kind} {content other : Content}
    (hpacked : Packed bridge dest kind frame (some content))
    (hdecodes : Decodes bridge (bridge.chan dest) frame other) : other = content := by
  cases hpacked with
  | meshtastic hkind hprotocol hbody hencode =>
      rename_i body srcId random pid
      cases hdecodes with
      | meshtastic _ hinfo hdecode =>
          rw [encodeMeshtasticText] at hencode
          split at hencode
          · cases hencode
          split at hencode
          · cases hencode
          rename_i hlength hroom
          obtain ⟨rfl, rfl⟩ := Prod.mk.inj (Option.some.inj hencode)
          rw [decodeMeshtastic_broadcast bridge _ _ _ (by omega)] at hdecode
          obtain ⟨hsrc, hpid⟩ := headerWord_broadcast bridge.aes (bridge.chan dest) srcId
            (freshPid random) (dataMessage 1 body)
          rw [hsrc, hpid]
          by_cases hempty : body = []
          · rw [if_neg (not_not.mpr hempty)] at hdecode
            cases hdecode
          · rw [if_pos hempty, List.take_of_length_le (by omega)] at hdecode
            obtain ⟨rfl, -⟩ := Decoded.body.inj hdecode
            rw [CharArray.cString_of_notMem hbody]
      | stray _ hinfo hdecode =>
          rw [encodeMeshtasticText] at hencode
          split at hencode
          · cases hencode
          split at hencode
          · cases hencode
          obtain ⟨rfl, rfl⟩ := Prod.mk.inj (Option.some.inj hencode)
          rw [decodeMeshtastic_broadcast bridge _ _ _ (by omega)] at hdecode
          by_cases hempty : body = []
          · rw [if_neg (not_not.mpr hempty)] at hdecode
            cases hdecode
          · rw [if_pos hempty] at hdecode
            cases hdecode
      | meshCore hprotocol' _ => exact absurd (hprotocol.symm.trans hprotocol') (by decide)
  | meshCore hkind hprotocol hbody hencode =>
      rename_i body ts
      cases hdecodes with
      | meshtastic hprotocol' _ _ => exact absurd (hprotocol.symm.trans hprotocol') (by decide)
      | stray hprotocol' _ _ => exact absurd (hprotocol.symm.trans hprotocol') (by decide)
      | meshCore _ hdecode =>
          obtain ⟨group, rfl, -, -, -, hfits, hplain⟩ := encodeMeshCoreGrpTxt_eq_some hencode
          have hlength := length_groupPlaintext body ts
          rw [decodeMeshCore] at hdecode
          split at hdecode
          · rename_i text mcTs hextract
            obtain ⟨-, htext, -⟩ := extractMeshCoreBody_frame_eq_some hextract
            obtain ⟨rfl, -⟩ := Decoded.body.inj hdecode
            dsimp only at htext
            rw [htext, GroupText.body, hplain, takeWhile_groupPlaintext hbody,
              List.take_of_length_le (by omega), CharArray.cString_of_notMem hbody]
          · cases hdecode
          · exact absurd hdecode (Decoded.ofHalt_ne_body _ _ _)
  | uplink hprotocol =>
      have hmesh := mesh_of_decodes hdecodes
      rw [Mesh, hprotocol] at hmesh
      exact absurd hmesh (by decide)

end Decodes

/-! ## Packets of the bridge -/

/-- A packet, the radio it goes out on, and the content that was recorded for it; `src` is the
radio whose frame made the bridge send it, or its own. -/
structure Emission where
  kind : Kind
  src : Radio
  dest : Radio
  frame : List UInt8
  recorded : Content

/-- A frame that C2 sends unasked: a message, the beacon of a camera, or a command of a
commander. -/
inductive Unasked (device : CamC2.Device) (frame : List UInt8) : Prop
  | built {type : UInt8} {recipientId seq : UInt32} {psk payload : List UInt8}
      (htype : type = CamC2.T_MSG ∨ device.camera = true ∧ type = CamC2.T_BEACON ∨
        device.camera = false ∧ type = CamC2.T_CMD)
      (hbuild : CamC2.buildFrame device.aes type device.myC2Id recipientId seq psk payload
        CamC2.MAX_FRAME = some frame) : Unasked device frame

/-- The packets the bridge sends: for a received frame, with a content of its own or the one the
guard was asked about, or for C2. -/
inductive Emits (bridge : Config) : Emission → Prop
  | recorded {env : Env} {src : Radio} {buf : List UInt8} {state : State} {kind : Kind}
      {dest : Radio} {frame : List UInt8} {content : Content}
      (hsent : .sent kind dest frame (some content) ∈
        ((ingestAndFanout bridge env src buf).run state).outputs) :
      Emits bridge ⟨kind, src, dest, frame, content⟩
  | repeated {env : Env} {src : Radio} {buf : List UInt8} {state : State} {dest : Radio}
      {frame : List UInt8} {asked : Content}
      (hsent : .sent .rawRepeat dest frame none ∈
        ((ingestAndFanout bridge env src buf).run state).outputs)
      (hasked : .guarded asked false ∈
        ((ingestAndFanout bridge env src buf).run state).outputs) :
      Emits bridge ⟨.rawRepeat, src, dest, frame, asked⟩
  | unasked {env : Env} {state : State} {dest : Radio} {frame : List UInt8} {content : Content}
      (hframe : Unasked bridge.device frame)
      (hsent : .sent .c2 dest frame (some content) ∈
        ((camC2Emit env dest.val frame).run state).outputs) :
      Emits bridge ⟨.c2, dest, dest, frame, content⟩

/-- The packet was recorded by its bytes. -/
def Emission.ByBytes (bridge : Config) (e : Emission) : Prop :=
  e.kind = .c2 ∨ e.kind = .rawRepeat ∧ Branches.ByBytes bridge e.src

/-- The forms of a packet with its record. -/
inductive Form (bridge : Config) (e : Emission) : Prop
  | packed (hpacked : Packed bridge e.dest e.kind e.frame (some e.recorded))
  | c2 (hkind : e.kind = .c2) (hrecorded : e.recorded = .raw e.frame)
      (hmagic : e.frame.getD 0 0 = CamC2.MAGIC_VER)
      (htype : bridge.device.camera = true → e.frame.getD 1 0 ≠ CamC2.T_CMD)
  | bytes {buf : List UInt8} (hkind : e.kind = .rawRepeat) (hrecorded : e.recorded = .raw buf)
      (hframe : e.frame = repeatFrame bridge e.dest buf)
      (hbytes : Mesh (bridge.chan e.dest) → Branches.ByBytes bridge e.src)
  | decoded {buf : List UInt8} (hkind : e.kind = .rawRepeat)
      (hsame : sameChannel (bridge.chan e.src) (bridge.chan e.dest) = true)
      (hdecoded : ¬ Branches.ByBytes bridge e.src)
      (hdecodes : Decodes bridge (bridge.chan e.src) buf e.recorded)
      (hframe : e.frame = repeatFrame bridge e.dest buf)

section Form

variable {bridge : Config}

theorem magic_of_unasked {device : CamC2.Device} {frame : List UInt8}
    (hframe : Unasked device frame) : frame.getD 0 0 = CamC2.MAGIC_VER := by
  obtain ⟨-, hbuild⟩ := hframe
  exact (Acknowledgements.head_buildFrame hbuild).1

theorem camera_of_unasked {device : CamC2.Device} {frame : List UInt8}
    (hframe : Unasked device frame) (hcamera : device.camera = true) :
    frame.getD 1 0 ≠ CamC2.T_CMD := by
  obtain ⟨htype, hbuild⟩ := hframe
  rw [(Acknowledgements.head_buildFrame hbuild).2]
  rcases htype with rfl | ⟨-, rfl⟩ | ⟨hcommander, -⟩
  · decide
  · decide
  · exact absurd (hcamera.symm.trans hcommander) (by decide)

/-- An uplink goes out on LoRaWAN. -/
theorem lorawan_of_uplink {e : Emission} (hform : Form bridge e) (hkind : e.kind = .uplink) :
    (bridge.chan e.dest).protocol = SYNC_WORD_LORAWAN := by
  cases hform with
  | packed hpacked =>
      rw [hkind] at hpacked
      generalize some e.recorded = recorded at hpacked
      cases hpacked with
      | meshtastic htext => exact absurd htext (by decide)
      | meshCore htext => exact absurd htext (by decide)
      | uplink hprotocol => exact hprotocol
  | c2 hc2 => exact absurd (hkind.symm.trans hc2) (by decide)
  | bytes hrepeat => exact absurd (hkind.symm.trans hrepeat) (by decide)
  | decoded hrepeat => exact absurd (hkind.symm.trans hrepeat) (by decide)

/-- The form of a raw repeat. -/
theorem form_of_repeated {src dest : Radio} {buf frame : List UInt8} {asked : Content}
    (hasks : Asks bridge src buf asked)
    (hexplained : Explained bridge src buf asked dest .rawRepeat frame none) :
    Form bridge ⟨.rawRepeat, src, dest, frame, asked⟩ := by
  cases hexplained with
  | packed hpacked => cases hpacked
  | verbatim hprotocol hasked =>
      refine .bytes rfl hasked ?_ fun hmesh => ?_
      · have hother : (bridge.chan dest).protocol ≠ SYNC_WORD_MESHTASTIC :=
          ne_meshtastic_of_verbatim hprotocol
        exact (if_neg hother).symm
      · dsimp only [Mesh] at hmesh
        rcases hprotocol with h | h
        · rw [h] at hmesh
          exact absurd hmesh (by decide)
        · rw [h] at hmesh
          exact absurd hmesh (by decide)
  | custom hcustom hrepeat hsame hasked hrepeated =>
      exact .bytes rfl hasked rfl fun _ => .inr (.inr ⟨hcustom, .inl hrepeat⟩)
  | decoded hsame hdecodes hrepeated =>
      cases hasks with
      | raw hraw => exact .bytes rfl rfl rfl fun _ => hraw
      | decoded hdecoded hdecodes' => exact .decoded rfl hsame hdecoded hdecodes' rfl

/-- Every packet has one of the forms. -/
theorem form_of_emits {e : Emission} (hemits : Emits bridge e) : Form bridge e := by
  cases hemits with
  | recorded hsent =>
      rcases sent_of_ingestAndFanout hsent with ⟨-, hkind, -, hcontent, hmagic, htype⟩ |
        ⟨asked, -, -, hexplained⟩
      · refine .c2 hkind (Option.some.inj hcontent) hmagic fun _ => ?_
        dsimp only
        rw [htype]
        decide
      · cases hexplained with
        | packed hpacked => exact .packed hpacked
  | repeated hsent hasked =>
      rcases sent_of_ingestAndFanout hsent with ⟨-, hack⟩ | ⟨other, hother, -, hexplained⟩
      · exact absurd hack.1 (by decide)
      · obtain ⟨hasks, -⟩ := guarded_of_ingestAndFanout hasked
        rw [guarded_once_of_ingestAndFanout hother hasked] at hexplained
        exact form_of_repeated hasks hexplained
  | unasked hframe hsent =>
      rename_i env state dest frame content
      have hsends : (camC2Emit env dest.val frame).Respects
          (sendsOnly fun _ _ frame content => content = some (.raw frame)) := sends_camC2Emit rfl
      obtain ⟨kind', dest', frame', content', heq, hcontent⟩ := (hsends state).1 _ hsent
      cases heq
      exact .c2 rfl (Option.some.inj hcontent) (magic_of_unasked hframe)
        (camera_of_unasked hframe)

variable {e : Emission} {heard : List UInt8}

/-- A packet with a text is recorded by the text. -/
theorem not_byBytes_of_text (htext : e.kind = .text ∨ e.kind = .fragment) :
    ¬ e.ByBytes bridge := by
  rintro (hc2 | ⟨hraw, -⟩)
  · rw [hc2] at htext
    exact absurd htext (by decide)
  · rw [hraw] at htext
    exact absurd htext (by decide)

/-- A text that is packed for a mesh is not keyed like the bytes of its packet. -/
theorem packed_ne_raw {dest : Radio} {kind : Kind} {frame : List UInt8} {content : Content}
    (hpacked : Packed bridge dest kind frame (some content)) (hmesh : Mesh (bridge.chan dest))
    (hrelayed : Relayed frame heard) : content ≠ .raw heard := by
  intro hraw
  cases hpacked with
  | meshtastic hkind hprotocol hbody hencode =>
      rename_i body srcId random pid
      obtain ⟨htext, hword, -⟩ := Content.mk.inj hraw
      rw [encodeMeshtasticText] at hencode
      split at hencode
      · cases hencode
      split at hencode
      · cases hencode
      obtain ⟨rfl, rfl⟩ := Prod.mk.inj (Option.some.inj hencode)
      have hlength := length_broadcast bridge.aes (bridge.chan dest) srcId (freshPid random)
        (dataMessage 1 body)
      obtain ⟨hsrc, -⟩ := headerWord_broadcast bridge.aes (bridge.chan dest) srcId
        (freshPid random) (dataMessage 1 body)
      exact text_ne_of_headerWord (by omega) hrelayed hbody (hsrc.trans hword) htext
  | meshCore hkind hprotocol hbody hencode =>
      obtain ⟨rfl, -, -⟩ := Content.mk.inj hraw
      have hlength := length_encodeMeshCoreGrpTxt hencode
      rw [length_groupPlaintext, ← hrelayed.length] at hlength
      omega
  | uplink hprotocol =>
      rw [Mesh, hprotocol] at hmesh
      exact absurd hmesh (by decide)

/-- What is recorded by bytes are the bytes that are sent, but for what a repeat changes. -/
theorem recorded_of_byBytes (hform : Form bridge e) (hbytes : e.ByBytes bridge) :
    ∃ sent, e.recorded = .raw sent ∧ Relayed sent e.frame := by
  cases hform with
  | packed hpacked =>
      generalize hkind : e.kind = kind at hpacked
      generalize hcontent : some e.recorded = recorded at hpacked
      cases hpacked with
      | meshtastic htext => exact absurd hbytes (not_byBytes_of_text (hkind ▸ htext))
      | meshCore htext => exact absurd hbytes (not_byBytes_of_text (hkind ▸ htext))
      | nodeInfo => cases hcontent
      | uplink =>
          rw [Emission.ByBytes, hkind] at hbytes
          exact absurd hbytes (by simp)
  | c2 hkind hrecorded => exact ⟨e.frame, hrecorded, .refl _⟩
  | bytes hkind hrecorded hframe hsource =>
      rename_i buf
      exact ⟨buf, hrecorded, hframe ▸ relayed_repeatFrame bridge e.dest buf⟩
  | decoded hkind hsameSrc hdecoded =>
      rcases hbytes with hc2 | ⟨-, hsource⟩
      · exact absurd (hkind.symm.trans hc2) (by decide)
      · exact absurd hsource hdecoded

/-- A key of bytes was made from bytes. -/
theorem byBytes_of_recorded (hform : Form bridge e) (hmesh : Mesh (bridge.chan e.dest))
    (hrelayed : Relayed e.frame heard) (hrecorded : e.recorded = .raw heard) :
    e.ByBytes bridge := by
  cases hform with
  | packed hpacked => exact absurd hrecorded (packed_ne_raw hpacked hmesh hrelayed)
  | c2 hkind => exact .inl hkind
  | bytes hkind _ _ hsource => exact .inr ⟨hkind, hsource hmesh⟩
  | decoded hkind hsameSrc hdecoded hdecodes hframe =>
      rename_i buf
      have hback : Relayed buf heard :=
        (hframe ▸ relayed_repeatFrame bridge e.dest buf : Relayed buf e.frame).trans hrelayed
      exact absurd hrecorded (content_ne_raw hdecodes hback)

end Form

end LoraBridge.Emissions
