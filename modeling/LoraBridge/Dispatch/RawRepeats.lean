import LoraBridge.Codec.Relay
import LoraBridge.Codec.RoundTrips
import LoraBridge.Dispatch.Branches

/-!
# Chains of raw repeats

A Meshtastic frame that is repeated loses one hop and names the bridge as its relay node; the
frames of the other protocols go out as they came.  A build that repeats the frames of Custom
radios goes by the sync word too, and rewrites them where that is the one of Meshtastic.
-/

namespace LoraBridge.RawRepeats

open LoraBridge.Branches LoraBridge.Bridge LoraBridge.BridgeConfig LoraBridge.ChannelKeys
open LoraBridge.Cipher LoraBridge.Enqueue LoraBridge.Ingest LoraBridge.Memory
open LoraBridge.MeshEncoder LoraBridge.Program LoraBridge.Relay LoraBridge.RoundTrips
open LoraBridge.Sends
open LoraBridge.MeshtasticDecoder hiding Kind

/-! ## What a repeat may change -/

/-- `flags[2:0]`. -/
def hopLimit (frame : List UInt8) : ℕ := (frame.getD 12 0 &&& 0x07).toNat

/-- The same frame but for its hop limit and its relay node. -/
structure Kept (frame heard : List UInt8) : Prop where
  length : heard.length = frame.length
  byte : ∀ i, i ≠ 12 → i ≠ 15 → heard[i]? = frame[i]?
  flags : heard.getD 12 0 &&& ~~~0x07 = frame.getD 12 0 &&& ~~~0x07

@[refl]
theorem Kept.refl (frame : List UInt8) : Kept frame frame := ⟨rfl, fun _ _ _ => rfl, rfl⟩

@[trans]
theorem Kept.trans {frame middle heard : List UInt8} (hfirst : Kept frame middle)
    (hsecond : Kept middle heard) : Kept frame heard :=
  ⟨hsecond.length.trans hfirst.length, fun i h12 h15 =>
    (hsecond.byte i h12 h15).trans (hfirst.byte i h12 h15), hsecond.flags.trans hfirst.flags⟩

theorem Kept.relayed {frame heard : List UInt8} (hkept : Kept frame heard) :
    Relayed frame heard :=
  ⟨hkept.length, fun i h12 _ h15 => hkept.byte i h12 h15⟩

section Receiver

-- A node that hears the frames, on its channel.
variable (aes : BlockCipher) (ch : RadioChannel)

/-- The four extractors of Meshtastic come to a result on the frame: none of them leaves its
buffers, where the result would be that of other bytes. -/
structure Extracts (frame : List UInt8) : Prop where
  body : ∀ cap, ∃ result,
    extractMeshtasticBody aes ch (.ofList frame) frame.length cap = .ok result
  nodeInfo : ∀ shortCap longCap, ∃ result,
    extractMeshtasticNodeInfo aes ch (.ofList frame) frame.length shortCap longCap = .ok result
  position : ∃ result,
    extractMeshtasticPosition aes ch (.ofList frame) frame.length = .ok result
  telemetry : ∃ result,
    extractMeshtasticTelemetry aes ch (.ofList frame) frame.length = .ok result

/-- They come to results, and to the same on both frames. -/
structure ExtractedAlike (frame heard : List UInt8) : Prop where
  extracts : Extracts aes ch frame
  body : ∀ cap, extractMeshtasticBody aes ch (.ofList heard) heard.length cap =
    extractMeshtasticBody aes ch (.ofList frame) frame.length cap
  nodeInfo : ∀ shortCap longCap,
    extractMeshtasticNodeInfo aes ch (.ofList heard) heard.length shortCap longCap =
      extractMeshtasticNodeInfo aes ch (.ofList frame) frame.length shortCap longCap
  position : extractMeshtasticPosition aes ch (.ofList heard) heard.length =
    extractMeshtasticPosition aes ch (.ofList frame) frame.length
  telemetry : extractMeshtasticTelemetry aes ch (.ofList heard) heard.length =
    extractMeshtasticTelemetry aes ch (.ofList frame) frame.length

variable {aes ch}

theorem Kept.extractedAlike {frame heard : List UInt8} (hkept : Kept frame heard)
    (hextracts : Extracts aes ch frame) : ExtractedAlike aes ch frame heard where
  extracts := hextracts
  body cap := extractMeshtasticBody_relayed aes (.refl ch) hkept.relayed cap
  nodeInfo shortCap longCap :=
    extractMeshtasticNodeInfo_relayed aes (.refl ch) hkept.relayed shortCap longCap
  position := extractMeshtasticPosition_relayed aes (.refl ch) hkept.relayed
  telemetry := extractMeshtasticTelemetry_relayed aes (.refl ch) hkept.relayed

/-- Every text message is one on which they come to results. -/
theorem extracts_broadcast (src pid : UInt32) {body : List UInt8}
    (hlength : (dataMessage 1 body).length ≤ 240) :
    Extracts aes ch (broadcast aes ch src pid (dataMessage 1 body)) := by
  have hothers := othersRefuse_broadcast aes ch src pid (by decide : (1 : UInt8).toNat < 128)
    hlength
  constructor
  · intro cap
    by_cases hcap : cap < 2
    · exact ⟨none, by rw [extractMeshtasticBody, if_pos hcap]⟩
    · exact ⟨_, extractMeshtasticBody_broadcast aes ch src pid hlength (Nat.le_of_not_lt hcap)⟩
  · exact fun shortCap longCap => ⟨_, hothers.nodeInfo (by decide) shortCap longCap⟩
  · exact ⟨_, hothers.position (by decide)⟩
  · exact ⟨_, hothers.telemetry (by decide)⟩

end Receiver

/-- One hop less in the low bits, the others as they are. -/
theorem flags_repeated {flags : UInt8} (hflags : flags &&& 0x07 ≠ 0) :
    (((flags &&& ~~~0x07) ||| ((flags &&& 0x07) - 1)) &&& 0x07).toNat + 1 =
        (flags &&& 0x07).toNat ∧
      ((flags &&& ~~~0x07) ||| ((flags &&& 0x07) - 1)) &&& ~~~0x07 = flags &&& ~~~0x07 := by
  have hall : ∀ n < 256, UInt8.ofNat n &&& 0x07 ≠ 0 →
      (((UInt8.ofNat n &&& ~~~0x07) ||| ((UInt8.ofNat n &&& 0x07) - 1)) &&& 0x07).toNat + 1 =
          (UInt8.ofNat n &&& 0x07).toNat ∧
        ((UInt8.ofNat n &&& ~~~0x07) ||| ((UInt8.ofNat n &&& 0x07) - 1)) &&& ~~~0x07 =
          UInt8.ofNat n &&& ~~~0x07 := by
    decide +kernel
  have hbyte := hall flags.toNat flags.toNat_lt
  rw [UInt8.ofNat_toNat] at hbyte
  exact hbyte hflags

/-- A repeated frame keeps all but a hop. -/
theorem repeated_spec (bridge : Config) {srcId : UInt32} {buf : List UInt8}
    (hrepeated : ¬ notRepeated bridge srcId buf) :
    Kept buf (repeated bridge buf) ∧ hopLimit (repeated bridge buf) + 1 = hopLimit buf := by
  obtain ⟨hlength, -, hhops⟩ := not_or.mp hrepeated |>.imp_right not_or.mp
  have hflags := flags_repeated hhops
  have hlong : 16 ≤ buf.length := Nat.le_of_not_lt hlength
  have htwelve : (repeated bridge buf).getD 12 0 =
      (buf.getD 12 0 &&& ~~~0x07) ||| ((buf.getD 12 0 &&& 0x07) - 1) := by
    have hset : 12 < (buf.set 12 ((buf.getD 12 0 &&& ~~~0x07) |||
        ((buf.getD 12 0 &&& 0x07) - 1))).length := by
      rw [List.length_set]
      omega
    rw [List.getD_eq_getElem?_getD, repeated, List.getElem?_set_ne (by decide),
      List.getElem?_eq_getElem hset, List.getElem_set_self, Option.getD_some]
  refine ⟨⟨?_, fun i h12 h15 => ?_, ?_⟩, ?_⟩
  · rw [repeated, List.length_set, List.length_set]
  · rw [repeated, List.getElem?_set_ne (Ne.symm h15), List.getElem?_set_ne (Ne.symm h12)]
  · rw [htwelve]
    exact hflags.2
  · rw [hopLimit, htwelve]
    exact hflags.1

/-! ## Chains -/

/-- A bridge that queues a raw repeat: the radio it hears a frame on, the one it repeats it on,
and what goes out. -/
structure Repeat where
  bridge : Config
  env : Env
  state : State
  src : Radio
  dest : Radio
  frame : List UInt8

section Repeat

variable (hop : Repeat)

/-- It does so for the frame it heard. -/
def Repeat.Of (heard : List UInt8) : Prop :=
  .sent .rawRepeat hop.dest hop.frame none ∈
    ((ingestAndFanout hop.bridge hop.env hop.src heard).run hop.state).outputs

/-- The frame is repeated as one of a Custom radio. -/
def Repeat.Custom : Prop :=
  hop.bridge.build.customRepeat = true ∧ hop.bridge.radioProtocol hop.src = PROTO_CUSTOM

/-- It goes out under the sync word of Meshtastic. -/
def Repeat.MeshtasticSync : Prop :=
  (hop.bridge.chan hop.dest).protocol = SYNC_WORD_MESHTASTIC

/-- The repeat of a Meshtastic frame is one hop less of a frame with hops left that the bridge
has not sent itself; every other repeat is verbatim. -/
structure Repeat.Transparent (heard : List UInt8) : Prop where
  meshtastic : ¬ hop.Custom → hop.MeshtasticSync →
    Kept heard hop.frame ∧ hopLimit hop.frame + 1 = hopLimit heard ∧
      headerWord heard 4 ≠ hop.bridge.mtNodeId
  verbatim : hop.Custom ∨ ¬ hop.MeshtasticSync → hop.frame = heard

instance : Decidable hop.Custom := inferInstanceAs (Decidable (_ ∧ _))

instance : Decidable hop.MeshtasticSync := inferInstanceAs (Decidable (_ = _))

/-- What a repeat does to the bytes goes by the sync word alone. -/
theorem Repeat.Of.frame_eq {hop : Repeat} {heard : List UInt8} (hof : hop.Of heard) :
    ∃ srcId, ¬ (hop.MeshtasticSync ∧ notRepeated hop.bridge srcId heard) ∧
      hop.frame = repeatFrame hop.bridge hop.dest heard ∧
        (¬ hop.Custom → hop.MeshtasticSync → srcId = headerWord heard 4) := by
  rcases sent_of_ingestAndFanout hof with ⟨-, hack⟩ | ⟨asked, -, -, hexplained⟩
  · exact absurd hack.1 (by decide)
  generalize hframe : hop.frame = frame at hexplained
  cases hexplained with
  | packed hpacked =>
      cases hpacked
  | verbatim hprotocol hasked =>
      have hother : ¬ hop.MeshtasticSync := by
        intro hsync
        rw [Repeat.MeshtasticSync] at hsync
        rw [hsync] at hprotocol
        exact absurd hprotocol (by decide)
      exact ⟨0, fun h => hother h.1, (if_neg hother).symm, fun _ hsync => absurd hsync hother⟩
  | custom hcustom hrepeat hsame hasked hrepeated =>
      exact ⟨asked.id1, hrepeated, rfl, fun hnot => absurd ⟨hrepeat, hcustom⟩ hnot⟩
  | decoded hsame hdecodes hrepeated =>
      refine ⟨asked.id1, hrepeated, rfl, fun _ hsync => ?_⟩
      cases hdecodes with
      | meshtastic hprotocol hinfo hdecode => rfl
      | stray hprotocol hinfo hdecode found => rfl
      | meshCore hprotocol hdecode =>
          have hsource := (of_decide_eq_true hsame).1.trans hsync
          exact absurd (hprotocol.symm.trans hsource) (by decide)

/-- A repeat is transparent unless it is one of a Custom radio under the sync word of
Meshtastic. -/
theorem Repeat.Of.transparent_iff {hop : Repeat} {heard : List UInt8} (hof : hop.Of heard) :
    hop.Transparent heard ↔ ¬ (hop.Custom ∧ hop.MeshtasticSync) := by
  obtain ⟨srcId, hrepeated, hframe, hsource⟩ := hof.frame_eq
  rw [repeatFrame] at hframe
  by_cases hsync : hop.MeshtasticSync
  · have hmay : ¬ notRepeated hop.bridge srcId heard := fun hnot => hrepeated ⟨hsync, hnot⟩
    obtain ⟨hkept, hhops⟩ := repeated_spec hop.bridge hmay
    rw [← hframe.trans (if_pos hsync)] at hkept hhops
    constructor
    · rintro htransparent ⟨hcustom, -⟩
      rw [htransparent.verbatim (.inl hcustom)] at hhops
      omega
    · intro hallowed
      refine ⟨fun hcustom _ => ⟨hkept, hhops, ?_⟩, fun hverbatim => ?_⟩
      · rw [← hsource hcustom hsync]
        exact (not_or.mp (not_or.mp hmay).2).1
      · exact absurd hsync (hverbatim.resolve_left fun hcustom => hallowed ⟨hcustom, hsync⟩)
  · have hverbatim := hframe.trans (if_neg hsync)
    exact iff_of_true ⟨fun _ h => absurd h hsync, fun _ => hverbatim⟩ fun h => hsync h.2

end Repeat

/-- Each bridge repeats what the one before it has sent. -/
def Chain : List UInt8 → List Repeat → Prop
  | _, [] => True
  | heard, hop :: rest => hop.Of heard ∧ Chain hop.frame rest

/-- Each repeat of the chain is transparent. -/
def Transparent : List UInt8 → List Repeat → Prop
  | _, [] => True
  | heard, hop :: rest => hop.Transparent heard ∧ Transparent hop.frame rest

/-- The repeats of Meshtastic frames in a chain. -/
def meshtasticHops (repeats : List Repeat) : ℕ :=
  repeats.countP fun hop => ¬ hop.Custom ∧ hop.MeshtasticSync

/-- What a chain does to its frame, for a node that hears it. -/
structure TransparentChain (aes : BlockCipher) (ch : RadioChannel) (frame : List UInt8)
    (repeats : List Repeat) : Prop where
  each : Transparent frame repeats
  kept : ∀ hop ∈ repeats, Kept frame hop.frame
  extracted : ∀ hop ∈ repeats, ExtractedAlike aes ch frame hop.frame
  hops : meshtasticHops repeats ≤ hopLimit frame

/-- A transparent repeat uses up a hop if it is one of a Meshtastic frame. -/
theorem Repeat.Transparent.spec {hop : Repeat} {heard : List UInt8}
    (htransparent : hop.Transparent heard) :
    Kept heard hop.frame ∧ hopLimit hop.frame + meshtasticHops [hop] = hopLimit heard := by
  by_cases hmeshtastic : ¬ hop.Custom ∧ hop.MeshtasticSync
  · obtain ⟨hkept, hhops, -⟩ := htransparent.meshtastic hmeshtastic.1 hmeshtastic.2
    refine ⟨hkept, ?_⟩
    rw [meshtasticHops, List.countP_singleton, if_pos (by simpa using hmeshtastic)]
    exact hhops
  · have hverbatim : hop.frame = heard := by
      refine htransparent.verbatim ?_
      rwa [not_and_or, not_not] at hmeshtastic
    rw [hverbatim, meshtasticHops, List.countP_singleton, if_neg (by simpa using hmeshtastic)]
    exact ⟨.refl heard, rfl⟩

/-- Along a chain what was kept by each repeat is kept by all. -/
theorem kept_of_transparent {frame : List UInt8} {repeats : List Repeat}
    (htransparent : Transparent frame repeats) :
    (∀ hop ∈ repeats, Kept frame hop.frame) ∧ meshtasticHops repeats ≤ hopLimit frame := by
  induction repeats generalizing frame with
  | nil => exact ⟨fun _ hmem => absurd hmem List.not_mem_nil, Nat.zero_le _⟩
  | cons hop rest ih =>
      obtain ⟨hkept, hhops⟩ := htransparent.1.spec
      obtain ⟨hrest, hlimit⟩ := ih htransparent.2
      refine ⟨?_, ?_⟩
      · intro other hmem
        rcases List.mem_cons.mp hmem with rfl | hmem
        · exact hkept
        · exact hkept.trans (hrest other hmem)
      · have hcount : meshtasticHops (hop :: rest) =
            meshtasticHops [hop] + meshtasticHops rest := by
          rw [← List.singleton_append, meshtasticHops, List.countP_append]
          rfl
        omega

theorem transparent_iff (frame : List UInt8) (repeats : List Repeat)
    (hchain : Chain frame repeats) :
    Transparent frame repeats ↔ ∀ hop ∈ repeats, ¬ (hop.Custom ∧ hop.MeshtasticSync) := by
  induction repeats generalizing frame with
  | nil => simp [Transparent]
  | cons hop rest ih =>
      rw [Transparent, hchain.1.transparent_iff, ih _ hchain.2, List.forall_mem_cons]

/-- Four radios on one channel of Meshtastic. -/
def floodBridge (customRepeat : Bool) (radioProtocol : UInt8) : Config :=
  exampleBridge ⟨false, false, false, false, false, customRepeat, true, false, false⟩
    (fun _ => radioProtocol) fun _ => 0x2B

/-- "hi" with three hops left. -/
def hiFrame : List UInt8 :=
  broadcast Cipher.identityCipher ((floodBridge false PROTO_MT).chan 0) 5 9
    (dataMessage 1 [0x68, 0x69])

def floodRepeat (customRepeat : Bool) (radioProtocol : UInt8) (heard : List UInt8) : Repeat where
  bridge := floodBridge customRepeat radioProtocol
  env := exampleEnv
  state := exampleState (floodBridge customRepeat radioProtocol)
  src := 0
  dest := 1
  frame := repeated (floodBridge customRepeat radioProtocol) heard

/-- "hi" over two bridges. -/
def hiRepeats : List Repeat :=
  [floodRepeat false PROTO_MT hiFrame,
    floodRepeat false PROTO_MT (repeated (floodBridge false PROTO_MT) hiFrame)]

theorem chain_hiRepeats : Chain hiFrame hiRepeats := by
  have hfirst : (floodRepeat false PROTO_MT hiFrame).Of hiFrame := by
    unfold Repeat.Of
    decide +kernel
  have hsecond : (floodRepeat false PROTO_MT (repeated (floodBridge false PROTO_MT) hiFrame)).Of
      (repeated (floodBridge false PROTO_MT) hiFrame) := by
    unfold Repeat.Of
    decide +kernel
  exact ⟨hfirst, hsecond, trivial⟩

end LoraBridge.RawRepeats
