import LoraBridge.Codec.FieldEncodings
import LoraBridge.Codec.MeshtasticDecoder

/-!
# The grammar of the Data message

On every well-formed encoding of a Data message the walk of the extractors keeps the last
port number and the last payload, whatever else the message holds and however its varints
are written, and each extractor answers for its own port only.
-/

namespace LoraBridge.DataMessages

open LoraBridge.Cipher LoraBridge.FieldEncodings LoraBridge.Memory LoraBridge.MeshtasticDecoder
  LoraBridge.Protobuf

/-- The port number a field gives, as a 32-bit value. -/
def portnum? (field : EncodedField) : Option ℕ :=
  match field.number, field.content with
  | 1, .varint value => some (value.value % 2 ^ 32)
  | _, _ => none

/-- The payload a field gives. -/
def payload? (field : EncodedField) : Option (List UInt8) :=
  match field.number, field.content with
  | 2, .delimited _ payload _ => some payload
  | _, _ => none

def lastPortnum (fields : List EncodedField) : Option ℕ := (fields.filterMap portnum?).getLast?

def lastPayload (fields : List EncodedField) : Option (List UInt8) :=
  (fields.filterMap payload?).getLast?

/-- What the walk over Data holds after the fields. -/
def walked (fields : List EncodedField) : DataState :=
  (parsedFrom 0 fields).foldl DataState.read .start

/-- The bytes a slice stands for. -/
def sliceBytes (pt : List UInt8) (slice : Slice) : List UInt8 :=
  (pt.drop slice.offset).take slice.length

/-- The bytes of a slice at its pointer. -/
theorem pointer_of_sliceBytes {pt payload : List UInt8} {slice : Slice}
    (hslice : sliceBytes pt slice = payload) :
    ∃ after, slice.pointer (.ofList pt) = .ofList (payload ++ after) := by
  subst hslice
  refine ⟨(pt.drop slice.offset).drop slice.length, ?_⟩
  rw [Slice.pointer, ofList_advance, sliceBytes, List.take_append_drop]

theorem parsedFrom_append (start : ℕ) (fields : List EncodedField) (field : EncodedField) :
    parsedFrom start (fields ++ [field]) =
      parsedFrom start fields ++ [field.parsed (start + (messageBytes fields).length)] := by
  induction fields generalizing start with
  | nil => simp [parsedFrom, messageBytes]
  | cons first rest ih =>
      rw [List.cons_append, parsedFrom, parsedFrom, ih]
      simp [messageBytes, Nat.add_assoc]

theorem walked_append (fields : List EncodedField) (field : EncodedField) :
    walked (fields ++ [field]) =
      (walked fields).read (field.parsed (messageBytes fields).length) := by
  rw [walked, parsedFrom_append, List.foldl_append, Nat.zero_add]
  rfl

/-- The last one of a kind. -/
theorem getLast?_filterMap_append {Value : Type} (read : EncodedField → Option Value)
    (fields : List EncodedField) (field : EncodedField) :
    ((fields ++ [field]).filterMap read).getLast? =
      (read field).or (fields.filterMap read).getLast? := by
  rw [List.filterMap_append]
  cases hread : read field with
  | none => simp [hread]
  | some value => simp [hread]

theorem walked_portnum (fields : List EncodedField) :
    (walked fields).portnum = (lastPortnum fields).getD 0 := by
  induction fields using List.reverseRecOn with
  | nil => rfl
  | append_singleton earlier field ih =>
      rw [walked_append, lastPortnum, getLast?_filterMap_append, ← lastPortnum]
      simp only [DataState.read, EncodedField.parsed, ih, portnum?]
      by_cases hnumber : field.number = 1
      · cases hcontent : field.content <;> simp [hnumber, Content.wireType, Content.value]
      · simp [hnumber]

theorem content_of_payload {field : EncodedField} {payload : List UInt8}
    (hsome : payload? field = some payload) :
    field.number = 2 ∧ ∃ length counts, field.content = .delimited length payload counts := by
  unfold payload? at hsome
  split at hsome
  · rename_i length found counts hnumber hcontent
    obtain rfl := Option.some.inj hsome
    exact ⟨hnumber, length, counts, hcontent⟩
  · cases hsome

/-- A field that gives no payload leaves the one before. -/
theorem read_of_no_payload {field : EncodedField} (hnone : payload? field = none)
    (state : DataState) (start : ℕ) :
    (state.read (field.parsed start)).payload = state.payload := by
  have hother : ¬ (field.number = 2 ∧ field.content.wireType = 2) := by
    rintro ⟨hnumber, hwire⟩
    cases hcontent : field.content with
    | delimited length payload counts => simp [payload?, hnumber, hcontent] at hnone
    | varint value => simp [hcontent, Content.wireType] at hwire
    | fixed64 bytes => simp [hcontent, Content.wireType] at hwire
    | fixed32 bytes => simp [hcontent, Content.wireType] at hwire
  exact if_neg hother

/-- The slice of a payload field. -/
theorem read_of_payload {field : EncodedField} {payload : List UInt8}
    (hsome : payload? field = some payload) (hshort : payload.length < 2 ^ 32)
    (state : DataState) (before after : List UInt8) :
    ∃ slice, (state.read (field.parsed before.length)).payload = some slice ∧
      sliceBytes (before ++ (field.bytes ++ after)) slice = payload ∧
      slice.offset + slice.length = before.length + field.bytes.length := by
  obtain ⟨hnumber, length, counts, hcontent⟩ := content_of_payload hsome
  have hbytes : field.bytes = field.tag.bytes ++ (length.bytes ++ payload) := by
    rw [EncodedField.bytes, hcontent, Content.bytes]
  refine ⟨⟨before.length + field.tag.bytes.length + length.bytes.length, payload.length⟩,
    ?_, ?_, ?_⟩
  · have hmod := Nat.mod_eq_of_lt hshort
    simp only [DataState.read, EncodedField.parsed, hnumber, hcontent, Content.wireType,
      Content.value, Content.offset, Field.slice, hmod, and_self, if_true]
  · rw [sliceBytes, hbytes, List.append_assoc, List.append_assoc, Nat.add_assoc,
      ← List.drop_drop, List.drop_left, ← List.drop_drop, List.drop_left, List.drop_left,
      List.take_left]
  · simp only [hbytes, List.length_append, Nat.add_assoc]

/-- The slice the walk holds is that of the last payload. -/
theorem walked_payload (fields : List EncodedField) (after : List UInt8)
    (hsmall : (messageBytes fields).length < 2 ^ 31) :
    (walked fields).payload.map (sliceBytes (messageBytes fields ++ after)) =
        lastPayload fields ∧
      ∀ slice ∈ (walked fields).payload,
        slice.offset + slice.length ≤ (messageBytes fields).length := by
  induction fields using List.reverseRecOn generalizing after with
  | nil => exact ⟨rfl, by simp [walked, parsedFrom, DataState.start]⟩
  | append_singleton earlier field ih =>
      have hbytes : messageBytes (earlier ++ [field]) = messageBytes earlier ++ field.bytes := by
        simp [messageBytes]
      rw [hbytes, List.length_append] at hsmall
      rw [hbytes, List.append_assoc, List.length_append, walked_append, lastPayload,
        getLast?_filterMap_append, ← lastPayload]
      cases hpayload : payload? field with
      | none =>
          obtain ⟨hkept, hinside⟩ := ih (field.bytes ++ after) (by omega)
          rw [read_of_no_payload hpayload, Option.none_or]
          exact ⟨hkept, fun slice hmem => Nat.le_add_right_of_le (hinside slice hmem)⟩
      | some payload =>
          have hshort : payload.length < 2 ^ 32 := by
            obtain ⟨-, length, counts, hcontent⟩ := content_of_payload hpayload
            rw [EncodedField.bytes, hcontent, Content.bytes, List.length_append,
              List.length_append] at hsmall
            omega
          obtain ⟨slice, hread, hslice, hend⟩ :=
            read_of_payload hpayload hshort (walked earlier) (messageBytes earlier) after
          rw [hread, Option.map_some, hslice]
          refine ⟨rfl, fun other hmem => ?_⟩
          obtain rfl := Option.some.inj hmem
          exact Nat.le_of_eq hend

/-! ## The extractors -/

theorem dataLoop_messageBytes (fields : List EncodedField)
    (hsmall : (messageBytes fields).length < 2 ^ 31) :
    dataLoop (.ofList (messageBytes fields)) (messageBytes fields).length =
      .ok (walked fields) := by
  have hmessage := message_bytes [] fields [] (Nat.zero_add _).symm (by simpa using hsmall)
  rw [List.nil_append, List.append_nil, List.length_nil] at hmessage
  exact dataLoop_eq_ok.mpr ⟨_, hmessage, rfl⟩

/-- The payload an extractor of this port is given. -/
def payloadOf (port : ℕ) (fields : List EncodedField) : Option (List UInt8) :=
  if lastPortnum fields = some port then (lastPayload fields).filter fun payload => payload ≠ []
  else none

/-- The walk hands on the slice of the payload. -/
theorem payloadFor_walked (fields : List EncodedField)
    (hsmall : (messageBytes fields).length < 2 ^ 31) {port : ℕ} (hport : port ≠ 0) :
    (payloadFor port (walked fields).portnum (walked fields).payload).map
        (sliceBytes (messageBytes fields)) = payloadOf port fields ∧
      ∀ slice ∈ payloadFor port (walked fields).portnum (walked fields).payload,
        slice.offset + slice.length ≤ (messageBytes fields).length := by
  obtain ⟨hpayload, hinside⟩ := walked_payload fields [] hsmall
  rw [List.append_nil] at hpayload
  have hnumber : (walked fields).portnum = port ↔ lastPortnum fields = some port := by
    rw [walked_portnum]
    cases lastPortnum fields with
    | none => simp [hport.symm]
    | some number => simp
  by_cases hasks : (walked fields).portnum = port
  · rw [payloadOf, if_pos (hnumber.mp hasks), payloadFor, if_neg (not_not.mpr hasks)]
    cases hslice : (walked fields).payload with
    | none =>
        rw [hslice] at hpayload
        rw [← hpayload]
        exact ⟨rfl, by simp⟩
    | some slice =>
        rw [hslice] at hpayload hinside
        have hend := hinside slice rfl
        have hlength : (sliceBytes (messageBytes fields) slice).length = slice.length := by
          rw [sliceBytes, List.length_take, List.length_drop]
          omega
        have hempty : sliceBytes (messageBytes fields) slice = [] ↔ slice.length = 0 := by
          rw [← List.length_eq_zero_iff, hlength]
        rw [← hpayload]
        by_cases hzero : slice.length = 0
        · simp [Option.filter, hzero, hempty.mpr hzero]
        · simp [Option.filter, hzero, hempty, hend]
  · rw [payloadOf, if_neg (fun hlast => hasks (hnumber.mpr hlast)), payloadFor, if_pos hasks]
    exact ⟨rfl, by simp⟩

/-- A frame of the channel whose plaintext is this message. -/
def dataFrame (aes : BlockCipher) (ch : RadioChannel) (dest src pid : UInt32)
    (flags nextHop relayNode : UInt8) (message : List UInt8) : List UInt8 :=
  transportHeader dest src pid flags ch.channelHash nextHop relayNode ++
    cryptPacket aes ch pid src message

theorem messageBytes_eq_nil {fields : List EncodedField} (hempty : messageBytes fields = []) :
    fields = [] := by
  cases fields with
  | nil => rfl
  | cons field rest =>
      have hpos := length_pos field
      simp only [messageBytes, List.flatMap_cons, List.append_eq_nil_iff] at hempty
      rw [hempty.1] at hpos
      exact absurd hpos (Nat.lt_irrefl 0)

section Extractors

variable (aes : BlockCipher) (ch : RadioChannel) (dest src pid : UInt32)
  (flags nextHop relayNode : UInt8) {fields : List EncodedField}

theorem length_dataFrame (message : List UInt8) :
    (dataFrame aes ch dest src pid flags nextHop relayNode message).length =
      16 + message.length := by
  have hheader : (transportHeader dest src pid flags ch.channelHash nextHop relayNode).length =
      16 := rfl
  rw [dataFrame, List.length_append, hheader]
  simp [cryptPacket]

/-- The plaintext of a frame of the channel. -/
theorem decryptData_dataFrame (hlength : (messageBytes fields).length ≤ 240) :
    decryptData aes ch
        (.ofList (dataFrame aes ch dest src pid flags nextHop relayNode (messageBytes fields)))
        (dataFrame aes ch dest src pid flags nextHop relayNode (messageBytes fields)).length =
      .ok (if fields = [] then none else some (src, messageBytes fields)) := by
  by_cases hempty : fields = []
  · subst hempty
    rw [decryptData, length_dataFrame]
    rfl
  · have hsame : (cryptPacket aes ch pid src (messageBytes fields)).length =
        (messageBytes fields).length := by simp [cryptPacket]
    have hshort : cryptPacket aes ch pid src (messageBytes fields) ≠ [] := by
      intro hnil
      rw [hnil] at hsame
      exact hempty (messageBytes_eq_nil (List.length_eq_zero_iff.mp hsame.symm))
    have hplain : cryptPacket aes ch pid src (cryptPacket aes ch pid src (messageBytes fields)) =
        messageBytes fields := aes.cryptCtr_cryptCtr _ _ _ _ _
    have hframe : dataFrame aes ch dest src pid flags nextHop relayNode (messageBytes fields) =
        transportHeader dest src pid flags ch.channelHash nextHop relayNode ++
          cryptPacket aes ch pid src (messageBytes fields) := rfl
    have hopen := decryptData_transportHeader aes ch dest src pid flags nextHop relayNode _ hshort
      (hsame ▸ hlength) hframe
    rw [hplain] at hopen
    rw [hopen, if_neg hempty]

/-- What an extractor makes of a message is decided by the last port number and the last
payload. -/
theorem extractPayload_dataFrame (hlength : (messageBytes fields).length ≤ 240)
    {Result : Type} {port : ℕ} (hport : port ≠ 0) (refused : Result)
    (use : UInt32 → List UInt8 → Slice → Except Halt Result) :
    let frame := dataFrame aes ch dest src pid flags nextHop relayNode (messageBytes fields)
    match payloadOf port fields with
    | none => extractPayload aes ch (.ofList frame) frame.length port refused use = .ok refused
    | some payload => ∃ slice, sliceBytes (messageBytes fields) slice = payload ∧
        slice.offset + slice.length ≤ (messageBytes fields).length ∧
        extractPayload aes ch (.ofList frame) frame.length port refused use =
          use src (messageBytes fields) slice := by
  intro frame
  have hopen := decryptData_dataFrame aes ch dest src pid flags nextHop relayNode hlength
  obtain ⟨hpayload, hinside⟩ := payloadFor_walked fields (by omega) hport
  by_cases hempty : fields = []
  · subst hempty
    simp only [payloadOf, lastPortnum, List.filterMap_nil, List.getLast?_nil, reduceCtorEq,
      if_false]
    rw [extractPayload, hopen]
    rfl
  · rw [if_neg hempty] at hopen
    have hwalk := dataLoop_messageBytes fields (by omega)
    cases hslice : payloadFor port (walked fields).portnum (walked fields).payload with
    | none =>
        rw [hslice, Option.map_none] at hpayload
        rw [← hpayload]
        rw [extractPayload, hopen]
        simp only [bind, Except.bind, hwalk, hslice]
    | some slice =>
        rw [hslice, Option.map_some] at hpayload
        rw [← hpayload]
        refine ⟨slice, rfl, hinside slice hslice, ?_⟩
        rw [extractPayload, hopen]
        simp only [bind, Except.bind, hwalk, hslice]

/-- The text is the payload, cut to the caller's buffer. -/
theorem extractMeshtasticBody_dataFrame (hlength : (messageBytes fields).length ≤ 240)
    {cap : ℕ} (hcap : 2 ≤ cap) :
    let frame := dataFrame aes ch dest src pid flags nextHop relayNode (messageBytes fields)
    extractMeshtasticBody aes ch (.ofList frame) frame.length cap =
      .ok ((payloadOf 1 fields).map fun payload => payload.take (cap - 1)) := by
  intro frame
  have hextract := extractPayload_dataFrame aes ch dest src pid flags nextHop relayNode hlength
    (by decide : 1 ≠ 0) none fun _ pt payload => do
      let body ← copyBody cap pt payload
      .ok (some body)
  rw [extractMeshtasticBody, if_neg (by omega)]
  cases hpayload : payloadOf 1 fields with
  | none =>
      rw [hpayload] at hextract
      exact hextract
  | some payload =>
      rw [hpayload] at hextract
      obtain ⟨slice, rfl, hend, heq⟩ := hextract
      have hread : readRange (.ofList (messageBytes fields)) slice.offset
          (min slice.length (cap - 1)) =
            .ok ((sliceBytes (messageBytes fields) slice).take (cap - 1)) := by
        rw [readRange_ofList _ _ (by omega), sliceBytes, List.take_take, Nat.min_comm]
      have hstring : intoCString cap ((sliceBytes (messageBytes fields) slice).take (cap - 1)) =
          .ok ((sliceBytes (messageBytes fields) slice).take (cap - 1)) :=
        if_pos (by rw [List.length_take]; omega)
      rw [heq, copyBody]
      simp only [bind, Except.bind, hread, hstring, Option.map_some]

end Extractors

/-- On every well-formed encoding of a Data message of at most 240 bytes in a frame of the
channel, `extractMeshtasticBody` returns the last payload, cut to the caller's buffer, if
the last port number is 1 and the payload is there and not empty, and nothing otherwise;
and an extractor of another port than the last one returns false. -/
theorem data_message_grammar (aes : BlockCipher) (ch : RadioChannel) (dest src pid : UInt32)
    (flags nextHop relayNode : UInt8) (fields : List EncodedField)
    (hlength : (messageBytes fields).length ≤ 240) :
    let frame := dataFrame aes ch dest src pid flags nextHop relayNode (messageBytes fields)
    (∀ cap, 2 ≤ cap →
      extractMeshtasticBody aes ch (.ofList frame) frame.length cap =
        .ok (if lastPortnum fields = some 1 then
          ((lastPayload fields).filter fun payload => payload ≠ []).map
            fun payload => payload.take (cap - 1)
        else none)) ∧
      (lastPortnum fields ≠ some 4 → ∀ shortCap longCap,
        extractMeshtasticNodeInfo aes ch (.ofList frame) frame.length shortCap longCap =
          .ok (false, ⟨0, [], []⟩)) ∧
      (lastPortnum fields ≠ some 3 →
        extractMeshtasticPosition aes ch (.ofList frame) frame.length =
          .ok (false, PositionState.start.out)) ∧
      (lastPortnum fields ≠ some 67 →
        extractMeshtasticTelemetry aes ch (.ofList frame) frame.length = .ok (false, .empty)) := by
  intro frame
  have hrefuses : ∀ {Result : Type} (port : ℕ) (refused : Result)
      (use : UInt32 → List UInt8 → Slice → Except Halt Result), port ≠ 0 →
      lastPortnum fields ≠ some port →
        extractPayload aes ch (.ofList frame) frame.length port refused use = .ok refused := by
    intro Result port refused use hport hother
    have hextract := extractPayload_dataFrame aes ch dest src pid flags nextHop relayNode hlength
      hport refused use
    rwa [payloadOf, if_neg hother] at hextract
  refine ⟨fun cap hcap => ?_, fun hother shortCap longCap => hrefuses 4 _ _ (by decide) hother,
    hrefuses 3 _ _ (by decide), hrefuses 67 _ _ (by decide)⟩
  have hbody := extractMeshtasticBody_dataFrame aes ch dest src pid flags nextHop relayNode
    hlength hcap
  rw [hbody, payloadOf]
  split
  · rfl
  · rfl

/-! ## A message out of order -/

/-- A varint of one byte. -/
def shortVarint (b : UInt8) (hb : b &&& 0x80 = 0) : Varint := ⟨[], b, by simp, hb, by decide⟩

def longFastChannel : RadioChannel := ⟨0x2B, List.Vector.replicate 32 0, 16, 0x08⟩

theorem continuation_bits : ∀ b ∈ [(0x81 : UInt8), 0x80], b &&& 0x80 ≠ 0 := by
  rw [List.forall_mem_cons, List.forall_mem_singleton]
  decide

/-- A payload "hi", a fixed32 field 9, a port number 1 in three bytes, and a payload "yo". -/
def exampleFields : List EncodedField :=
  [⟨2, shortVarint 0x12 rfl, .delimited (shortVarint 2 rfl) [0x68, 0x69] rfl, by decide, rfl⟩,
    ⟨9, shortVarint 0x4D rfl, .fixed32 ⟨[1, 2, 3, 4], rfl⟩, by decide, rfl⟩,
    ⟨1, shortVarint 0x08 rfl, .varint ⟨[0x81, 0x80], 0, continuation_bits, rfl, by decide⟩,
      by decide, rfl⟩,
    ⟨2, shortVarint 0x12 rfl, .delimited (shortVarint 2 rfl) [0x79, 0x6F] rfl, by decide, rfl⟩]

theorem exampleFields_text :
    let frame := dataFrame identityCipher longFastChannel 0xFFFFFFFF 7 9 0x63 0 0
      (messageBytes exampleFields)
    extractMeshtasticBody identityCipher longFastChannel (.ofList frame) frame.length 256 =
      .ok (some [0x79, 0x6F]) :=
  (data_message_grammar identityCipher longFastChannel 0xFFFFFFFF 7 9 0x63 0 0 exampleFields
    (by decide)).1 256 (by decide)

end LoraBridge.DataMessages
