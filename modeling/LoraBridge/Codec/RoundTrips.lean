import LoraBridge.Codec.MacChecks

/-!
# Round trips of the mesh encoders

What the encoders build for the buffers of their callers is read back by the extractor of
its kind, for every length up to the caps, and refused by the others.
-/

namespace LoraBridge.RoundTrips

open LoraBridge.Cipher LoraBridge.DataMessages LoraBridge.FieldEncodings LoraBridge.FieldWalk
open LoraBridge.GroupTexts LoraBridge.MacChecks LoraBridge.Memory LoraBridge.MeshCoreDecoder
open LoraBridge.MeshEncoder LoraBridge.MeshtasticDecoder

/-! ## Meshtastic frames -/

theorem length_dataMessage (portnum : UInt8) (payload : List UInt8) :
    (dataMessage portnum payload).length =
      3 + (if payload.length < 128 then 1 else 2) + payload.length := by
  simp only [dataMessage, lengthVarint, List.length_append, List.length_cons, List.length_nil]
  split <;> rfl

section Broadcast

variable (aes : BlockCipher) (ch : RadioChannel) (src pid : UInt32)

/-- The header carries the sender and the packet id. -/
theorem header_broadcast (message : List UInt8) :
    word32 (.ofList (broadcast aes ch src pid message)) 4 = .ok src ∧
      word32 (.ofList (broadcast aes ch src pid message)) 8 = .ok pid := by
  have hsrc := word32_wordBytes (wordBytes 0xFFFFFFFF) src
    (wordBytes pid ++ [0x63, ch.channelHash, 0, 0] ++ cryptPacket aes ch pid src message)
  have hpid := word32_wordBytes (wordBytes 0xFFFFFFFF ++ wordBytes src) pid
    ([0x63, ch.channelHash, 0, 0] ++ cryptPacket aes ch pid src message)
  simp only [broadcast, transportHeader, List.append_assoc] at hsrc hpid ⊢
  exact ⟨hsrc, hpid⟩

/-- The extractors of the other ports return false. -/
structure OthersRefuse (port : ℕ) (frame : List UInt8) : Prop where
  body : port ≠ 1 → ∀ cap,
    extractMeshtasticBody aes ch (.ofList frame) frame.length cap = .ok none
  nodeInfo : port ≠ 4 → ∀ shortCap longCap,
    extractMeshtasticNodeInfo aes ch (.ofList frame) frame.length shortCap longCap =
      .ok (false, ⟨0, [], []⟩)
  position : port ≠ 3 →
    extractMeshtasticPosition aes ch (.ofList frame) frame.length =
      .ok (false, PositionState.start.out)
  telemetry : port ≠ 67 →
    extractMeshtasticTelemetry aes ch (.ofList frame) frame.length = .ok (false, .empty)

theorem othersRefuse_broadcast {portnum : UInt8} (hportnum : portnum.toNat < 128)
    {payload : List UInt8} (hlength : (dataMessage portnum payload).length ≤ 240) :
    OthersRefuse aes ch portnum.toNat (broadcast aes ch src pid (dataMessage portnum payload)) := by
  have hrefuses : ∀ {Result : Type} (port : ℕ) (refused : Result)
      (use : UInt32 → List UInt8 → Protobuf.Slice → Except Halt Result), port ≠ 0 →
      portnum.toNat ≠ port →
        extractPayload aes ch (.ofList (broadcast aes ch src pid (dataMessage portnum payload)))
          (broadcast aes ch src pid (dataMessage portnum payload)).length port refused use =
            .ok refused := by
    intro Result port refused use hport hother
    have hextract := extractPayload_broadcast aes ch src pid hportnum hlength hport refused use
    rwa [if_neg fun hasked => hother hasked.1] at hextract
  constructor
  · intro hother cap
    rw [extractMeshtasticBody]
    split
    · rfl
    · exact hrefuses 1 _ _ (by decide) hother
  · exact fun hother shortCap longCap => hrefuses 4 _ _ (by decide) hother
  · exact hrefuses 3 _ _ (by decide)
  · exact hrefuses 67 _ _ (by decide)

end Broadcast

/-! ## Texts -/

theorem encodeMeshtasticText_eq (aes : BlockCipher) (ch : RadioChannel) (src : UInt32)
    {body : List UInt8} (hlength : body.length ≤ 200) (random : UInt32) :
    encodeMeshtasticText aes ch src body 256 random =
      some (broadcast aes ch src (freshPid random) (dataMessage 1 body), freshPid random) := by
  have hmessage := length_dataMessage 1 body
  rw [encodeMeshtasticText, if_neg (by omega), if_neg (by split at hmessage <;> omega)]

theorem encodeMeshCoreGrpTxt_isSome (aes : BlockCipher) (hmac : Hmac) (ch : RadioChannel)
    {body : List UInt8} (hlength : body.length ≤ 218) (ts : UInt32) :
    ∃ frame, encodeMeshCoreGrpTxt aes hmac ch body ts 256 = some frame := by
  have hplain := length_groupPlaintext body ts
  rw [encodeMeshCoreGrpTxt]
  dsimp only
  rw [if_neg (by omega), if_neg (by omega)]
  exact ⟨_, rfl⟩

/-- The text of a group text that the encoder built. -/
theorem opens_encodeMeshCoreGrpTxt {aes : BlockCipher} {hmac : Hmac} {ch : RadioChannel}
    {body : List UInt8} (hbody : 0 ∉ body) (hnonempty : body ≠ []) {ts : UInt32} {cap : ℕ}
    {frame : List UInt8} (hencode : encodeMeshCoreGrpTxt aes hmac ch body ts cap = some frame) :
    ∃ text : GroupText, text.frame = frame ∧ text.Opens aes ch ∧ MacValid hmac ch text ∧
      text.body aes ch = body ∧ word32 (.ofList (text.plaintext aes ch)) 0 = .ok ts := by
  obtain ⟨text, hframe, hchannel, hmacBytes, hlength, hfits, hplain⟩ :=
    encodeMeshCoreGrpTxt_eq_some hencode
  have hplainLength := length_groupPlaintext body ts
  have htext : text.body aes ch = body := by
    rw [GroupText.body, hplain]
    exact takeWhile_groupPlaintext hbody ts
  refine ⟨text, hframe, ⟨hchannel, by omega, by omega, by omega, htext ▸ hnonempty⟩, hmacBytes,
    htext, ?_⟩
  rw [hplain]
  exact word32_wordBytes [] ts _

/-- Every text of up to 200 bytes goes through Meshtastic: the encoder accepts it for the
callers' buffer, the header carries the sender and the packet id that the caller is told,
the text extractor returns the text and the others return false.  Every text of up to 218
bytes goes through MeshCore with its timestamp, under a MAC that `printMeshCore` finds
right. -/
theorem text_round_trips (aes : BlockCipher) (hmac : Hmac) (ch : RadioChannel)
    (body : List UInt8) (hbody : 0 ∉ body) (hnonempty : body ≠ []) :
    (body.length ≤ 200 → ∀ src random : UInt32, ∃ frame,
      encodeMeshtasticText aes ch src body 256 random = some (frame, freshPid random) ∧
        (∀ cap, 201 ≤ cap →
          extractMeshtasticBody aes ch (.ofList frame) frame.length cap = .ok (some body)) ∧
        word32 (.ofList frame) 4 = .ok src ∧ word32 (.ofList frame) 8 = .ok (freshPid random) ∧
        OthersRefuse aes ch 1 frame) ∧
      (body.length ≤ 218 → ∀ ts : UInt32, ∃ frame,
        encodeMeshCoreGrpTxt aes hmac ch body ts 256 = some frame ∧
          (∀ cap, 219 ≤ cap →
            extractMeshCoreBody aes ch (.ofList frame) frame.length cap = .ok (some (body, ts))) ∧
          ∃ report, printMeshCore aes hmac ch (.ofList frame) frame.length = .ok (some report) ∧
            report.macValid = true ∧ report.ts = ts ∧ report.body = body) := by
  constructor
  · intro hlength src random
    have hmessage : (dataMessage 1 body).length ≤ 240 := by
      rw [length_dataMessage]
      split <;> omega
    obtain ⟨hsrc, hpid⟩ := header_broadcast aes ch src (freshPid random) (dataMessage 1 body)
    refine ⟨_, encodeMeshtasticText_eq aes ch src hlength random, fun cap hcap => ?_, hsrc, hpid,
      othersRefuse_broadcast aes ch src (freshPid random) (by decide) hmessage⟩
    rw [extractMeshtasticBody_broadcast aes ch src (freshPid random) hmessage (by omega),
      if_pos hnonempty, List.take_of_length_le (by omega)]
  · intro hlength ts
    obtain ⟨frame, hencode⟩ := encodeMeshCoreGrpTxt_isSome aes hmac ch hlength ts
    obtain ⟨text, rfl, hopens, hmac', htext, hts⟩ :=
      opens_encodeMeshCoreGrpTxt hbody hnonempty hencode
    obtain ⟨report, hprint, hvalid, hreportTs, hreportBody⟩ :=
      printMeshCore_frame hmac text hopens
    refine ⟨_, hencode, fun cap hcap => ?_, report, hprint, hvalid.mpr hmac',
      Except.ok.inj (hreportTs.symm.trans hts), hreportBody.trans htext⟩
    obtain ⟨ts', hts', hextract⟩ := extractMeshCoreBody_frame text (by omega : 2 ≤ cap) hopens
    obtain rfl := Except.ok.inj (hts.symm.trans hts')
    rw [hextract, htext, List.take_of_length_le (by omega)]

def hi : List UInt8 := [0x68, 0x69]

/-- "hi" through Meshtastic. -/
theorem hi_round_trips : ∃ frame,
    encodeMeshtasticText identityCipher exampleChannel 7 hi 256 9 = some (frame, 9) ∧
      extractMeshtasticBody identityCipher exampleChannel (.ofList frame) frame.length 256 =
        .ok (some hi) := by
  have htrips := text_round_trips identityCipher (fun _ _ => List.Vector.replicate 32 0)
    exampleChannel hi (by decide) (by decide)
  obtain ⟨frame, hencode, hextract, -⟩ := htrips.1 (by decide) 7 9
  exact ⟨frame, hencode, hextract 256 (by decide)⟩

/-! ## NodeInfo -/

/-- A string field of the User message, as the walker reads it. -/
theorem exists_userField {tag : UInt8} {number : ℕ} (htag : tag.toNat = 8 * number + 2)
    (hsmall : tag.toNat < 128) {text : List UInt8} (htext : text.length < 128) :
    ∃ field : EncodedField, field.bytes = userField tag text ∧ ∀ start, field.parsed start =
      ⟨number, 2, text.length, start + 2, start + 2 + text.length⟩ := by
  have hbyte := toNat_ofNat_of_lt (by omega : text.length < 256)
  obtain ⟨length, hlength, hvalue⟩ := exists_varint_one (hbyte.symm ▸ htext)
  obtain ⟨tagVarint, htagBytes, htagValue⟩ := exists_varint_one hsmall
  let field : EncodedField := ⟨number, tagVarint,
    .delimited length text (hvalue.trans hbyte), by omega, htagValue.trans htag⟩
  refine ⟨field, ?_, fun start => ?_⟩
  · rw [EncodedField.bytes, htagBytes, Content.bytes, hlength]
    rfl
  · have htotal : field.bytes.length = 2 + text.length := by
      simp [EncodedField.bytes, field, htagBytes, Content.bytes, hlength]
      omega
    simp only [EncodedField.parsed, htotal, field, Content.wireType, Content.value,
      Content.offset, hlength, htagBytes, List.length_singleton, Nat.add_assoc]

/-- The name of a field, cut to the caller's array. -/
theorem copyName_eq {bytes : List UInt8} {start : ℕ} {text : List UInt8} {cap : ℕ}
    (htext : (bytes.drop start).take text.length = text)
    (hinside : start + text.length ≤ bytes.length) (hcap : 1 < cap) :
    copyName (.ofList bytes) start text.length cap = .ok (text.take (cap - 1)) := by
  have hread : readRange (.ofList bytes) start (min text.length (cap - 1)) =
      .ok (text.take (cap - 1)) := by
    rw [readRange_ofList _ _ (by omega), Nat.min_comm, ← List.take_take, htext]
  have hstring : intoCString cap (text.take (cap - 1)) = .ok (text.take (cap - 1)) :=
    if_pos (by rw [List.length_take]; omega)
  rw [copyName, hread]
  exact hstring

section User

variable {bytes text : List UInt8} {start next : ℕ} {shortCap longCap : ℕ} {state : UserState}

theorem read_longName (htext : (bytes.drop start).take text.length = text)
    (hinside : start + text.length ≤ bytes.length) (hempty : state.longName = []) :
    state.read longCap shortCap (.ofList bytes) ⟨2, 2, text.length, start, next⟩ =
      .ok { state with up := next, longName := text.take (longCap - 1) } := by
  by_cases hcap : 1 < longCap
  · simp only [UserState.read, hcap, and_self, if_true, copyName_eq htext hinside hcap]
    rfl
  · have hnone : text.take (longCap - 1) = state.longName := by
      rw [hempty, show longCap - 1 = 0 by omega, List.take_zero]
    simp [UserState.read, hcap, hnone]

theorem read_shortName (htext : (bytes.drop start).take text.length = text)
    (hinside : start + text.length ≤ bytes.length) (hempty : state.shortName = []) :
    state.read longCap shortCap (.ofList bytes) ⟨3, 2, text.length, start, next⟩ =
      .ok { state with up := next, shortName := text.take (shortCap - 1) } := by
  by_cases hcap : 1 < shortCap
  · simp only [UserState.read, hcap, and_self, if_true, copyName_eq htext hinside hcap]
    rfl
  · have hnone : text.take (shortCap - 1) = state.shortName := by
      rw [hempty, show shortCap - 1 = 0 by omega, List.take_zero]
    simp [UserState.read, hcap, hnone]

end User

theorem length_userField (tag : UInt8) (text : List UInt8) :
    (userField tag text).length = 2 + text.length := by
  rw [userField, List.length_cons, List.length_cons]
  omega

theorem length_userMessage (id longName shortName : List UInt8) :
    (userMessage id longName shortName).length =
      6 + id.length + longName.length + shortName.length := by
  simp only [userMessage, List.length_append, length_userField]
  omega

/-- The text of a field stands two bytes behind its start. -/
theorem take_userField (before : List UInt8) (tag : UInt8) (text rest : List UInt8) :
    ((before ++ (userField tag text ++ rest)).drop (before.length + 2)).take text.length =
      text := by
  have hsplit : before ++ (userField tag text ++ rest) =
      (before ++ [tag, UInt8.ofNat text.length]) ++ (text ++ rest) := by
    simp [userField]
  rw [hsplit, List.drop_left' (by simp), List.take_left]

/-- The three fields of a User message. -/
theorem exists_userFields {id longName shortName : List UInt8} (hid : id.length < 128)
    (hlong : longName.length < 128) (hshort : shortName.length < 128) :
    ∃ fields : List EncodedField, messageBytes fields = userMessage id longName shortName ∧
      parsedFrom 0 fields =
        [⟨1, 2, id.length, 2, 2 + id.length⟩,
          ⟨2, 2, longName.length, 2 + id.length + 2, 2 + id.length + 2 + longName.length⟩,
          ⟨3, 2, shortName.length, 2 + id.length + (2 + longName.length) + 2,
            2 + id.length + (2 + longName.length) + 2 + shortName.length⟩] := by
  obtain ⟨idField, hidBytes, hidParsed⟩ :=
    exists_userField (by decide : (0x0A : UInt8).toNat = 8 * 1 + 2) (by decide) hid
  obtain ⟨longField, hlongBytes, hlongParsed⟩ :=
    exists_userField (by decide : (0x12 : UInt8).toNat = 8 * 2 + 2) (by decide) hlong
  obtain ⟨shortField, hshortBytes, hshortParsed⟩ :=
    exists_userField (by decide : (0x1A : UInt8).toNat = 8 * 3 + 2) (by decide) hshort
  refine ⟨[idField, longField, shortField], ?_, ?_⟩
  · simp [messageBytes, hidBytes, hlongBytes, hshortBytes, userMessage]
  · simp [parsedFrom, hidParsed, hlongParsed, hshortParsed, hidBytes, hlongBytes,
      length_userField]

/-- The walk over a User message reads both names. -/
theorem loop_userMessage {id longName shortName : List UInt8} (hid : id.length < 128)
    (hlong : longName.length < 128) (hshort : shortName.length < 128) (after : List UInt8)
    (longCap shortCap : ℕ) :
    loop (userWalk longCap shortCap (.ofList (userMessage id longName shortName ++ after))
        (userMessage id longName shortName).length) .start =
      .finished ⟨(userMessage id longName shortName).length, longName.take (longCap - 1),
        shortName.take (shortCap - 1)⟩ := by
  obtain ⟨fields, hbytes, hfields⟩ := exists_userFields hid hlong hshort
  have htotal := length_userMessage id longName shortName
  have hlongText : ((userMessage id longName shortName ++ after).drop (2 + id.length + 2)).take
      longName.length = longName := by
    have htake := take_userField (userField 0x0A id) 0x12 longName
      (userField 0x1A shortName ++ after)
    rw [length_userField] at htake
    simpa [userMessage] using htake
  have hshortText : ((userMessage id longName shortName ++ after).drop
      (2 + id.length + (2 + longName.length) + 2)).take shortName.length = shortName := by
    have htake := take_userField (userField 0x0A id ++ userField 0x12 longName) 0x1A shortName
      after
    rw [List.length_append, length_userField, length_userField] at htake
    simpa [userMessage] using htake
  refine loop_messageBytes _ fields after (by rw [hbytes]) (by rw [hbytes]) (by omega) rfl ?_
  have hroom : (userMessage id longName shortName ++ after).length =
      6 + id.length + longName.length + shortName.length + after.length := by
    rw [List.length_append, htotal]
  let pointer := Pointer.ofList (userMessage id longName shortName ++ after)
  have hfirst : UserState.start.read longCap shortCap pointer
      ⟨1, 2, id.length, 2, 2 + id.length⟩ = .ok ⟨2 + id.length, [], []⟩ := by
    simp [UserState.read, UserState.start]
  have hsecond : UserState.read longCap shortCap pointer ⟨2 + id.length, [], []⟩
      ⟨2, 2, longName.length, 2 + id.length + 2, 2 + id.length + 2 + longName.length⟩ =
        .ok ⟨2 + id.length + 2 + longName.length, longName.take (longCap - 1), []⟩ :=
    read_longName hlongText (by omega) rfl
  have hthird : UserState.read longCap shortCap pointer
      ⟨2 + id.length + 2 + longName.length, longName.take (longCap - 1), []⟩
      ⟨3, 2, shortName.length, 2 + id.length + (2 + longName.length) + 2,
        2 + id.length + (2 + longName.length) + 2 + shortName.length⟩ =
        .ok ⟨2 + id.length + (2 + longName.length) + 2 + shortName.length,
          longName.take (longCap - 1), shortName.take (shortCap - 1)⟩ :=
    read_shortName hshortText (by omega) rfl
  have hend : (userMessage id longName shortName).length =
      2 + id.length + (2 + longName.length) + 2 + shortName.length := by omega
  rw [hfields, hend]
  exact foldlM_cons_eq_ok.mpr ⟨_, hfirst, foldlM_cons_eq_ok.mpr ⟨_, hsecond,
    foldlM_cons_eq_ok.mpr ⟨_, hthird, rfl⟩⟩⟩

/-- A NodeInfo broadcast is read back. -/
theorem extractMeshtasticNodeInfo_broadcast (aes : BlockCipher) (ch : RadioChannel)
    (src pid : UInt32) {id longName shortName : List UInt8} (hid : id.length < 128)
    (hlong : longName.length < 128) (hshort : shortName.length < 128)
    (hlength : (dataMessage 4 (userMessage id longName shortName)).length ≤ 240)
    (shortCap longCap : ℕ) :
    let frame := broadcast aes ch src pid (dataMessage 4 (userMessage id longName shortName))
    extractMeshtasticNodeInfo aes ch (.ofList frame) frame.length shortCap longCap =
      .ok (true, ⟨src, shortName.take (shortCap - 1), longName.take (longCap - 1)⟩) := by
  intro frame
  have hasked : (4 : UInt8).toNat = 4 ∧ userMessage id longName shortName ≠ [] :=
    ⟨rfl, by simp [userMessage, userField]⟩
  have hextract : ∀ {Result : Type} (refused : Result)
      (use : UInt32 → List UInt8 → Protobuf.Slice → Except Halt Result), ∃ slice,
      sliceBytes (dataMessage 4 (userMessage id longName shortName)) slice =
          userMessage id longName shortName ∧
        slice.offset + slice.length ≤
          (dataMessage 4 (userMessage id longName shortName)).length ∧
        extractPayload aes ch (.ofList frame) frame.length 4 refused use =
          use src (dataMessage 4 (userMessage id longName shortName)) slice := by
    intro Result refused use
    have hbroadcast := extractPayload_broadcast aes ch src pid (by decide) hlength
      (by decide : 4 ≠ 0) refused use
    rwa [if_pos hasked] at hbroadcast
  rw [extractMeshtasticNodeInfo]
  refine Exists.elim (hextract _ _) fun slice hslice => hslice.2.2.trans ?_
  have hcount : slice.length = (userMessage id longName shortName).length := by
    have hinside := hslice.2.1
    rw [← hslice.1, sliceBytes, List.length_take, List.length_drop]
    omega
  obtain ⟨after, hpointer⟩ := pointer_of_sliceBytes hslice.1
  dsimp only
  rw [hpointer, hcount, loop_userMessage hid hlong hshort after longCap shortCap]
  rfl

theorem encodeMeshtasticNodeInfo_cases (aes : BlockCipher) (ch : RadioChannel) (src : UInt32)
    (id longName shortName : List UInt8) (random : UInt32) :
    encodeMeshtasticNodeInfo aes ch src id longName shortName 256 random =
      if id.length < 128 ∧ longName.length < 128 ∧ shortName.length < 128 ∧
          16 + (dataMessage 4 (userMessage id longName shortName)).length ≤ 256 then
        some (broadcast aes ch src (freshPid random)
          (dataMessage 4 (userMessage id longName shortName)))
      else none := by
  rw [encodeMeshtasticNodeInfo]
  dsimp only
  by_cases hstrings : 128 ≤ id.length ∨ 128 ≤ longName.length ∨ 128 ≤ shortName.length
  · rw [if_pos hstrings, if_neg (by omega)]
  · rw [if_neg hstrings]
    by_cases hroom : 256 < 16 + (dataMessage 4 (userMessage id longName shortName)).length
    · rw [if_pos hroom, if_neg (by omega)]
    · rw [if_neg hroom, if_pos (by omega)]

/-- A NodeInfo is built for the callers' buffer exactly when each string is shorter than 128
bytes and the packet fits, and then the NodeInfo extractor returns its sender and both
names, cut to the caller's arrays, and the other extractors return false. -/
theorem nodeInfo_round_trips (aes : BlockCipher) (ch : RadioChannel) (src : UInt32)
    (id longName shortName : List UInt8) (random : UInt32) :
    let encoded := encodeMeshtasticNodeInfo aes ch src id longName shortName 256 random
    (encoded.isSome = true ↔
      id.length < 128 ∧ longName.length < 128 ∧ shortName.length < 128 ∧
        16 + (dataMessage 4 (userMessage id longName shortName)).length ≤ 256) ∧
      ∀ frame, encoded = some frame →
        (∀ shortCap longCap,
          extractMeshtasticNodeInfo aes ch (.ofList frame) frame.length shortCap longCap =
            .ok (true, ⟨src, shortName.take (shortCap - 1), longName.take (longCap - 1)⟩)) ∧
          OthersRefuse aes ch 4 frame := by
  intro encoded
  have hcases := encodeMeshtasticNodeInfo_cases aes ch src id longName shortName random
  constructor
  · simp only [encoded, hcases, Option.isSome_ite]
  · intro frame hframe
    simp only [encoded, hcases] at hframe
    split at hframe
    · rename_i hfits
      obtain rfl := Option.some.inj hframe
      obtain ⟨hid, hlong, hshort, hroom⟩ := hfits
      have hlength : (dataMessage 4 (userMessage id longName shortName)).length ≤ 240 := by omega
      exact ⟨extractMeshtasticNodeInfo_broadcast aes ch src (freshPid random) hid hlong hshort
          hlength,
        othersRefuse_broadcast aes ch src (freshPid random) (by decide : (4 : UInt8).toNat < 128)
          hlength⟩
    · cases hframe

end LoraBridge.RoundTrips
