import LoraBridge.Codec.MeshEncoder

/-!
# The MAC of a group text

`printMeshCore` computes the MAC of a frame and prints whether it is right.
`extractMeshCoreBody`, whose result is bridged, opens the same frames and skips the two MAC
bytes.
-/

namespace LoraBridge.MacChecks

open LoraBridge.Cipher LoraBridge.GroupTexts LoraBridge.Memory LoraBridge.MeshCoreDecoder
open LoraBridge.MeshEncoder LoraBridge.MeshtasticDecoder

/-- What `printMeshCore` prints of a group text. -/
structure Report where
  macValid : Bool
  ts : UInt32
  flags : UInt8
  body : List UInt8

/-- `printMeshCore`, with what it prints; `none` is `return false`. -/
def printMeshCore (aes : BlockCipher) (hmac : Hmac) (ch : RadioChannel) (buf : Pointer)
    (len : ℕ) : Except Halt (Option Report) :=
  if len < 6 then .ok none
  else do
    match ← payloadOffset buf len with
    | none => .ok none
    | some off =>
        if len < off + 3 then .ok none
        else do
          let channelHash ← buf off
          let ctLen := len - (off + 3)
          if channelHash ≠ ch.channelHash then .ok none
          else if ctLen = 0 ∨ ctLen % 16 ≠ 0 ∨ 224 < ctLen then .ok none
          else do
            let mac ← readRange buf (off + 1) 2
            let ct ← readRange buf (off + 3) ctLen
            let hmacOut := hmac (channelKey ch) ct
            let pt ← intoBuffer 224 (cryptEcb (aes.decrypt (channelKey ch)) (ctLen / 16) ct)
            if ctLen < 5 then .ok none
            else do
              let ts ← word32 (Pointer.ofList pt) 0
              let flags ← Pointer.ofList pt 4
              let body ← scanString (Pointer.ofList pt) 5 (ctLen - 5)
              .ok (some ⟨mac = hmacOut.toList.take 2, ts, flags, body⟩)

/-- `hmacOut[0] == mac[0] && hmacOut[1] == mac[1]`. -/
def MacValid (hmac : Hmac) (ch : RadioChannel) (text : GroupText) : Prop :=
  text.mac.toList = (hmac (channelKey ch) text.ciphertext).toList.take 2

instance (hmac : Hmac) (ch : RadioChannel) (text : GroupText) :
    Decidable (MacValid hmac ch text) :=
  inferInstanceAs (Decidable (_ = _))

/-- A frame is opened only if its MAC is that of the channel. -/
def Authentic (aes : BlockCipher) (hmac : Hmac) (ch : RadioChannel) (frame : List UInt8)
    (cap : ℕ) : Prop :=
  ∀ result, extractMeshCoreBody aes ch (.ofList frame) frame.length cap = .ok (some result) →
    ∃ text : GroupText, text.frame = frame ∧ MacValid hmac ch text

/-- A group text of the channel under another MAC. -/
def Forged (aes : BlockCipher) (hmac : Hmac) (ch : RadioChannel) (frame : List UInt8) : Prop :=
  ∃ text : GroupText, text.frame = frame ∧ text.Opens aes ch ∧ ¬ MacValid hmac ch text

/-- What is printed of a group text of the channel. -/
theorem printMeshCore_frame {aes : BlockCipher} {ch : RadioChannel} (hmac : Hmac)
    (text : GroupText) (hopens : text.Opens aes ch) :
    ∃ report, printMeshCore aes hmac ch (.ofList text.frame) text.frame.length =
        .ok (some report) ∧
      (report.macValid = true ↔ MacValid hmac ch text) ∧
      word32 (.ofList (text.plaintext aes ch)) 0 = .ok report.ts ∧
      report.body = text.body aes ch := by
  have hlength := text.length_frame
  have hblocks := hopens.some_block
  have hwhole := hopens.whole_blocks
  have hfits := hopens.fits
  have hct : text.frame.length - (text.route.length + 3) = text.ciphertext.length := by omega
  have hhash : Pointer.ofList text.frame text.route.length = .ok ch.channelHash := by
    rw [← hopens.channel]
    exact ofList_append_cons _ _ _
  have hread := text.readRange_frame
  have hmacBytes : readRange (.ofList text.frame) (text.route.length + 1) 2 =
      .ok text.mac.toList := by
    rw [readRange_ofList _ _ (by omega), GroupText.frame, ← List.drop_drop, List.drop_left,
      List.drop_succ_cons, List.drop_zero, List.take_left' text.mac.toList_length]
  have hplain := @GroupText.length_plaintext aes ch text hwhole
  have hbuffer : intoBuffer 224 (text.plaintext aes ch) = .ok (text.plaintext aes ch) :=
    if_pos (by omega)
  have hreadable := readable_ofList (text.plaintext aes ch)
  obtain ⟨ts, hts⟩ := word32_of_readable hreadable (show 0 + 4 ≤ _ by omega)
  obtain ⟨flags, hflags⟩ := hreadable 4 (by omega)
  have hscan : scanString (.ofList (text.plaintext aes ch)) 5 (text.ciphertext.length - 5) =
      .ok (text.body aes ch) := scanString_eq _ _ (by omega)
  refine ⟨⟨text.mac.toList = (hmac (channelKey ch) text.ciphertext).toList.take 2, ts, flags,
    text.body aes ch⟩, ?_, by rw [decide_eq_true_eq, MacValid], hts, rfl⟩
  have hpt : cryptEcb (aes.decrypt (channelKey ch)) (text.ciphertext.length / 16)
      text.ciphertext = text.plaintext aes ch := rfl
  rw [printMeshCore, if_neg (by omega), text.payloadOffset_frame]
  simp only [bind, Except.bind]
  rw [if_neg (by omega), hhash]
  simp only [hct, ne_eq, not_true_eq_false, if_false, hmacBytes] at hread ⊢
  rw [if_neg (by omega), hread]
  simp only [hpt, hbuffer, hts, hflags, hscan]
  rw [if_neg (by omega)]

section Authentic

variable {aes : BlockCipher} {hmac : Hmac} {ch : RadioChannel} {frame : List UInt8} {cap : ℕ}

/-- A frame has one MAC to be right or wrong. -/
theorem macValid_congr {text other : GroupText} (hframe : text.frame = other.frame) :
    MacValid hmac ch text ↔ MacValid hmac ch other := by
  obtain ⟨-, hmacBytes, hciphertext⟩ := GroupText.parts_of_frame hframe
  rw [MacValid, MacValid, hmacBytes, hciphertext]

/-- The forged frames are opened too. -/
theorem not_authentic_of_forged (hcap : 2 ≤ cap) (hforged : Forged aes hmac ch frame) :
    ¬ Authentic aes hmac ch frame cap := by
  obtain ⟨text, rfl, hopens, hwrong⟩ := hforged
  intro hauthentic
  obtain ⟨ts, -, hextract⟩ := extractMeshCoreBody_frame text hcap hopens
  obtain ⟨other, hframe, hvalid⟩ := hauthentic _ hextract
  exact hwrong ((macValid_congr hframe).mp hvalid)

theorem authentic_of_not_forged (hgenuine : ¬ Forged aes hmac ch frame) :
    Authentic aes hmac ch frame cap := by
  intro result hextract
  obtain ⟨-, text, hframe, hopens⟩ := opens_of_extractMeshCoreBody hextract
  refine ⟨text, hframe, ?_⟩
  by_contra hwrong
  exact hgenuine ⟨text, hframe, hopens, hwrong⟩

end Authentic

/-- The extractor answers for a MAC exactly where there is none to check: the frame is not a
text of the channel, or the MAC is right, or the caller has no room for a text. -/
theorem authentic_iff (aes : BlockCipher) (hmac : Hmac) (ch : RadioChannel)
    (frame : List UInt8) (cap : ℕ) :
    Authentic aes hmac ch frame cap ↔ cap < 2 ∨ ¬ Forged aes hmac ch frame := by
  constructor
  · intro hauthentic
    by_cases hcap : cap < 2
    · exact .inl hcap
    · exact .inr fun hforged =>
        not_authentic_of_forged (Nat.le_of_not_lt hcap) hforged hauthentic
  · rintro (hcap | hgenuine)
    · intro result hextract
      obtain ⟨hroom, -⟩ := opens_of_extractMeshCoreBody hextract
      omega
    · exact authentic_of_not_forged hgenuine

/-! ## A frame under a made-up MAC -/

def exampleChannel : RadioChannel := ⟨0x12, List.Vector.replicate 32 0, 16, 0x11⟩

/-- "hi", under the MAC 01 02. -/
def exampleText : GroupText where
  header := 0x15
  codes := []
  path := []
  channelHash := 0x11
  mac := ⟨[1, 2], rfl⟩
  ciphertext := [0, 0, 0, 0, 0, 0x68, 0x69, 0, 0, 0, 0, 0, 0, 0, 0, 0]
  version_zero := by decide
  group_text := by decide
  codes_length := by decide
  path_length := by decide

theorem exampleText_opens : exampleText.Opens identityCipher exampleChannel where
  channel := rfl
  some_block := by decide
  whole_blocks := by decide
  fits := by decide
  body_ne_nil := by decide

/-- The text is opened, though its digest begins with two zeros. -/
theorem forged_text_opened :
    ¬ Authentic identityCipher (fun _ _ => List.Vector.replicate 32 0) exampleChannel
      exampleText.frame 256 := by
  refine not_authentic_of_forged (by decide) ⟨exampleText, rfl, exampleText_opens, ?_⟩
  unfold MacValid
  decide

end LoraBridge.MacChecks
