import LoraBridge.Codec.DecoderBounds

/-!
# When the extractors stay inside their buffers

The frame, the plaintext and the caller's arrays are checked objects, and every
slice kept by a walk has to lie in the plaintext.  Each length was checked by a
64-bit sum, so an extractor stays inside unless a walk comes to one that wraps it.
-/

namespace LoraBridge.ExtractorBounds

open LoraBridge.Memory LoraBridge.Protobuf LoraBridge.Cipher LoraBridge.WhileLoop
open LoraBridge.FieldWalk LoraBridge.MeshtasticDecoder LoraBridge.MeshCoreDecoder
open LoraBridge.DecoderBounds

/-! ## Telemetry submessages -/

def isSubmessageTag (number wireType : ℕ) : Prop :=
  (submessage number wireType).isSome

/-- The cursors the walk over Telemetry comes to: it goes on behind a metrics
submessage only when that submessage has an end. -/
inductive TelemetryStart (b : Pointer) (n : ℕ) : ℕ → Prop
  | first : TelemetryStart b n 0
  | next {p : ℕ} {field : Field} : TelemetryStart b n p → p < n →
      parseField b n p = .ok field →
      (isSubmessageTag field.number field.wireType →
        ∃ fields, Message (field.slice.pointer b) field.slice.length 0 fields) →
      TelemetryStart b n field.next

section Telemetry

variable {pt : List UInt8} {payload : Slice}

/-- The bytes of a metrics submessage that lies in the plaintext. -/
theorem readable_submessage {slice : Slice}
    (hinside : payload.offset + slice.offset + slice.length ≤ pt.length) :
    Readable (slice.pointer (payload.pointer (Pointer.ofList pt))) slice.length := by
  rw [pointer_eq_ofList]
  refine readable_pointer (readable_ofList (pt.drop payload.offset)) ?_
  rw [List.length_drop]
  omega

theorem checked_submessage (slice : Slice) :
    Checked (slice.pointer (payload.pointer (Pointer.ofList pt))) :=
  ((checked_ofList pt).advance payload.offset).advance slice.offset

/-- An iteration on a field whose submessage, if it is one, lies in the
plaintext continues exactly when the submessage has an end. -/
theorem telemetryRead_ok_iff (hlength : pt.length ≤ 240) (state : TelemetryState)
    {field : Field} (hinside : isSubmessageTag field.number field.wireType →
      payload.offset + field.slice.offset + field.slice.length ≤ pt.length) :
    (∃ next, TelemetryState.read (payload.pointer (Pointer.ofList pt)) state field =
        .ok next) ↔
      (isSubmessageTag field.number field.wireType → ∃ fields,
        Message (field.slice.pointer (payload.pointer (Pointer.ofList pt)))
          field.slice.length 0 fields) := by
  unfold TelemetryState.read
  unfold isSubmessageTag at hinside ⊢
  cases htarget : submessage field.number field.wireType with
  | none => simp
  | some target =>
      have hinside := hinside (by simp [htarget])
      rw [← metricsLoop_ok_iff (readable_submessage hinside)
        (checked_submessage field.slice) (by omega) target.2
        { state.out with kind := target.1 }]
      constructor
      · rintro ⟨next, hnext⟩ -
        obtain ⟨out, hout, -⟩ := bind_eq_ok.mp hnext
        exact ⟨out, hout⟩
      · intro hends
        obtain ⟨out, hout⟩ := hends rfl
        exact ⟨_, bind_eq_ok.mpr ⟨out, hout, rfl⟩⟩

theorem inside_telemetryRead (hlength : pt.length ≤ 240) (state : TelemetryState)
    {field : Field} (hinside : isSubmessageTag field.number field.wireType →
      payload.offset + field.slice.offset + field.slice.length ≤ pt.length) :
    Inside (TelemetryState.read (payload.pointer (Pointer.ofList pt)) state field) := by
  unfold TelemetryState.read
  unfold isSubmessageTag at hinside
  cases htarget : submessage field.number field.wireType with
  | none => exact inside_ok _
  | some target =>
      have hinside := hinside (by simp [htarget])
      exact inside_bind (inside_metricsLoop (readable_submessage hinside) (by omega) _ _)
        fun _ _ => inside_ok _

/-- The submessages of a Telemetry payload declare lengths that fit. -/
def SubmessagesInside (pt : List UInt8) (payload : Slice) : Prop :=
  LengthsInside (payload.pointer (Pointer.ofList pt)) payload.length
    (TelemetryStart (payload.pointer (Pointer.ofList pt)) payload.length)
    isSubmessageTag payload.offset pt.length

theorem submessage_slice_inside {State : Type} {b : Pointer} {n base limit : ℕ}
    {walk : FieldWalk b n State} {start state : State} {field : Field}
    (hslices : SlicesInside walk start isSubmessageTag base limit)
    (hheads : Heads walk start state) (hlt : walk.cursor state < n)
    (hparse : parseField b n (walk.cursor state) = .ok field)
    (htag : isSubmessageTag field.number field.wireType) :
    base + field.slice.offset + field.slice.length ≤ limit := by
  obtain ⟨target, htarget⟩ := Option.isSome_iff_exists.mp htag
  have hwire := submessage_wireType htarget
  obtain ⟨q, hread, -⟩ := parseField_cases hparse
  rw [hwire] at hread htag
  exact hslices state field.number 2 q field.slice field.next hheads hlt hread htag
    ((takeSlice_eq_ok_iff hread).mpr ⟨field, hparse, rfl, rfl⟩)

theorem telemetryWalk_slicesInside_iff (hlength : pt.length ≤ 240)
    (hpayload : payload.offset + payload.length ≤ pt.length) :
    SlicesInside (telemetryWalk (payload.pointer (Pointer.ofList pt)) payload.length)
        .start isSubmessageTag payload.offset pt.length ↔
      SubmessagesInside pt payload := by
  refine slicesInside_iff _ (fun _ _ htag => ?_) hpayload (by omega) ?_ ?_
  · obtain ⟨target, htarget⟩ := Option.isSome_iff_exists.mp htag
    exact submessage_wireType htarget
  · intro hlengths state hheads
    induction hheads with
    | refl => exact .first
    | tail hheads hstep ih =>
        obtain ⟨hlt, field, hparse, happly⟩ := (continues_iff _).mp hstep
        rw [FieldWalk.cursor_apply _ happly]
        refine ih.next hlt hparse ((telemetryRead_ok_iff hlength _ fun htag => ?_).mp
          ⟨_, happly⟩)
        obtain ⟨target, htarget⟩ := Option.isSome_iff_exists.mp htag
        exact (slice_inside_iff hpayload (by omega) hparse
          (submessage_wireType htarget)).mpr (hlengths _ field ih hlt hparse htag)
  · intro hslices p hstart
    induction hstart with
    | first => exact ⟨_, Relation.ReflTransGen.refl, rfl⟩
    | next hstart hlt hparse hends ih =>
        obtain ⟨state, hheads, rfl⟩ := ih
        obtain ⟨next, happly⟩ := (telemetryRead_ok_iff hlength state fun htag =>
          submessage_slice_inside hslices hheads hlt hparse htag).mpr hends
        exact ⟨next,
          hheads.tail ((continues_iff _).mpr ⟨hlt, _, hparse, happly⟩),
          FieldWalk.cursor_apply _ happly⟩

theorem inside_telemetryWalk (hlength : pt.length ≤ 240)
    (hpayload : payload.offset + payload.length ≤ pt.length)
    (hslices : SlicesInside
      (telemetryWalk (payload.pointer (Pointer.ofList pt)) payload.length)
      .start isSubmessageTag payload.offset pt.length) :
    Inside (returned (loop
      (telemetryWalk (payload.pointer (Pointer.ofList pt)) payload.length) .start)) := by
  refine inside_returned.mpr (loop_inside
    (readable_pointer (readable_ofList pt) hpayload) ?_)
  intro state field hheads hlt hparse
  exact inside_telemetryRead hlength state fun htag =>
    submessage_slice_inside hslices hheads hlt hparse htag

end Telemetry

/-! ## Names of a User payload -/

section User

variable {pt : List UInt8} {payload : Slice} {longCap shortCap : ℕ}

/-- What is copied of a long or short name lies in the plaintext. -/
def NameFits (pt : List UInt8) (payload : Slice) (longCap shortCap : ℕ)
    (field : Field) : Prop :=
  (field.wireType = 2 ∧ field.number = 2 ∧ 1 < longCap →
      payload.offset + field.content + min field.value (longCap - 1) ≤ pt.length) ∧
    (field.wireType = 2 ∧ field.number = 3 ∧ 1 < shortCap →
      payload.offset + field.content + min field.value (shortCap - 1) ≤ pt.length)

/-- Every name field of the payload fits. -/
def NamesInside (pt : List UInt8) (payload : Slice) (longCap shortCap : ℕ) : Prop :=
  ∀ p field, FieldStart (payload.pointer (Pointer.ofList pt)) payload.length p →
    p < payload.length →
    parseField (payload.pointer (Pointer.ofList pt)) payload.length p = .ok field →
      NameFits pt payload longCap shortCap field

/-- A name whose length wraps is copied as far as its array goes. -/
def NameLeaves (pt : List UInt8) (payload : Slice) (cap : ℕ) (field : Field) : Prop :=
  field.Wraps ∧ pt.length < payload.offset + field.content + (cap - 1)

/-- No name of the payload has a length that wraps and an array that is longer than the
rest of the plaintext. -/
def NamesUnwrapped (pt : List UInt8) (payload : Slice) (longCap shortCap : ℕ) : Prop :=
  ∀ p field, FieldStart (payload.pointer (Pointer.ofList pt)) payload.length p →
    p < payload.length →
    parseField (payload.pointer (Pointer.ofList pt)) payload.length p = .ok field →
      (field.wireType = 2 ∧ field.number = 2 ∧ 1 < longCap →
          ¬ NameLeaves pt payload longCap field) ∧
        (field.wireType = 2 ∧ field.number = 3 ∧ 1 < shortCap →
          ¬ NameLeaves pt payload shortCap field)

/-- A copied name ends inside the plaintext unless it leaves it by a wrapped length. -/
theorem copy_inside_iff (hlength : pt.length ≤ 240)
    (hpayload : payload.offset + payload.length ≤ pt.length) {p : ℕ} {field : Field}
    (hparse : parseField (payload.pointer (Pointer.ofList pt)) payload.length p = .ok field)
    (hwire : field.wireType = 2) (cap : ℕ) :
    payload.offset + field.content + min field.value (cap - 1) ≤ pt.length ↔
      ¬ NameLeaves pt payload cap field := by
  have hcontent := parseField_content hparse
  have hfits := inside_iff_not_wraps hpayload (by omega) hparse hwire
  rw [NameLeaves, not_and, not_lt]
  by_cases hwraps : field.Wraps
  · have hlong : 2 ^ 64 ≤ field.content + field.value := hwraps
    simp only [hwraps, forall_const]
    omega
  · have hinside := hfits.mpr hwraps
    simp only [hwraps, IsEmpty.forall_iff, iff_true]
    omega

theorem namesInside_iff_unwrapped (hlength : pt.length ≤ 240)
    (hpayload : payload.offset + payload.length ≤ pt.length) :
    NamesInside pt payload longCap shortCap ↔ NamesUnwrapped pt payload longCap shortCap := by
  refine forall_congr' fun p => forall_congr' fun field => forall_congr' fun _ =>
    forall_congr' fun _ => forall_congr' fun hparse => ?_
  refine and_congr (forall_congr' fun hname => ?_) (forall_congr' fun hname => ?_)
  · exact copy_inside_iff hlength hpayload hparse hname.1 longCap
  · exact copy_inside_iff hlength hpayload hparse hname.1 shortCap

theorem copyName_ok {up slen cap : ℕ} (hcap : 1 < cap)
    (hfits : payload.offset + up + min slen (cap - 1) ≤ pt.length) :
    ∃ name, copyName (payload.pointer (Pointer.ofList pt)) up slen cap = .ok name := by
  rw [pointer_eq_ofList]
  obtain ⟨name, hname, hlength⟩ := readRange_of_readable
    (readable_ofList (pt.drop payload.offset)) (min slen (cap - 1)) up
    (by rw [List.length_drop]; omega)
  exact ⟨name, bind_eq_ok.mpr ⟨name, hname, if_pos (by omega)⟩⟩

theorem copyName_fault {up slen cap : ℕ}
    (hup : payload.offset + up ≤ pt.length)
    (hfits : ¬ payload.offset + up + min slen (cap - 1) ≤ pt.length) :
    copyName (payload.pointer (Pointer.ofList pt)) up slen cap =
      .error .outOfBounds := by
  rw [pointer_eq_ofList]
  refine bind_eq_error.mpr (.inl (readRange_ofList_eq_error _ _ ?_ (by omega)))
  rw [List.length_drop]
  omega

theorem userRead_ok (state : UserState) {field : Field}
    (hfits : NameFits pt payload longCap shortCap field) :
    ∃ next, UserState.read longCap shortCap (payload.pointer (Pointer.ofList pt))
      state field = .ok next := by
  unfold UserState.read
  split_ifs with hlong hshort
  · obtain ⟨name, hname⟩ := copyName_ok hlong.2.2 (hfits.1 hlong)
    exact ⟨_, bind_eq_ok.mpr ⟨name, hname, rfl⟩⟩
  · obtain ⟨name, hname⟩ := copyName_ok hshort.2.2 (hfits.2 hshort)
    exact ⟨_, bind_eq_ok.mpr ⟨name, hname, rfl⟩⟩
  · exact ⟨_, rfl⟩

theorem userRead_fault (state : UserState) {field : Field}
    (hcontent : payload.offset + field.content ≤ pt.length)
    (hfits : ¬ NameFits pt payload longCap shortCap field) :
    UserState.read longCap shortCap (payload.pointer (Pointer.ofList pt)) state field =
      .error .outOfBounds := by
  unfold UserState.read
  split_ifs with hlong hshort
  · have hother : ¬ (field.wireType = 2 ∧ field.number = 3 ∧ 1 < shortCap) := by omega
    have hname : ¬ payload.offset + field.content +
        min field.value (longCap - 1) ≤ pt.length := fun hfit =>
      hfits ⟨fun _ => hfit, fun hshort => absurd hshort hother⟩
    exact bind_eq_error.mpr (.inl (copyName_fault hcontent hname))
  · have hname : ¬ payload.offset + field.content +
        min field.value (shortCap - 1) ≤ pt.length := fun hfit =>
      hfits ⟨fun hlong' => absurd hlong' hlong, fun _ => hfit⟩
    exact bind_eq_error.mpr (.inl (copyName_fault hcontent hname))
  · exact absurd ⟨fun hlong' => absurd hlong' hlong,
      fun hshort' => absurd hshort' hshort⟩ hfits

theorem userWalk_uniform (b : Pointer) (n : ℕ) :
    Uniform (userWalk longCap shortCap b n) := by
  intro left right field next hread
  change ∃ next', UserState.read longCap shortCap b right field = .ok next'
  change UserState.read longCap shortCap b left field = .ok next at hread
  unfold UserState.read at hread ⊢
  split_ifs at hread ⊢
  · obtain ⟨name, hname, -⟩ := bind_eq_ok.mp hread
    exact ⟨_, bind_eq_ok.mpr ⟨name, hname, rfl⟩⟩
  · obtain ⟨name, hname, -⟩ := bind_eq_ok.mp hread
    exact ⟨_, bind_eq_ok.mpr ⟨name, hname, rfl⟩⟩
  · exact ⟨_, rfl⟩

/-- The loop over User stays in the plaintext exactly when its names do. -/
theorem inside_userWalk_iff (hpayload : payload.offset + payload.length ≤ pt.length) :
    Inside (returned (loop (userWalk longCap shortCap
        (payload.pointer (Pointer.ofList pt)) payload.length) .start)) ↔
      NamesInside pt payload longCap shortCap := by
  rw [inside_returned]
  constructor
  · intro hinside
    have hfits : ∀ state field, Heads (userWalk longCap shortCap
        (payload.pointer (Pointer.ofList pt)) payload.length) .start state →
        state.up < payload.length →
        parseField (payload.pointer (Pointer.ofList pt)) payload.length state.up =
          .ok field → NameFits pt payload longCap shortCap field := by
      intro state field hheads hlt hparse
      by_contra hnot
      have hcontent := parseField_content hparse
      refine hinside state ((userWalk_uniform _ _).loop_eq_stopped hheads hlt ?_)
      rw [body_of_parse _ hparse]
      exact userRead_fault state (by omega) hnot
    intro p field hfield hlt hparse
    obtain ⟨state, hheads, rfl⟩ := heads_of_fieldStart _ rfl
      (fun state field hheads hlt hparse =>
        userRead_ok state (hfits state field hheads hlt hparse)) hfield
    exact hfits state field hheads hlt hparse
  · intro hnames
    refine loop_inside (readable_pointer (readable_ofList pt) hpayload) ?_
    intro state field hheads hlt hparse
    obtain ⟨next, hnext⟩ := userRead_ok state
      (hnames _ field (fieldStart_of_heads _ rfl hheads) hlt hparse)
    exact inside_of_ok hnext

end User

/-! ## The extractors -/

/-- The extractors of the decoder header that the bridge calls on a frame. -/
inductive Decoder where
  | meshtastic (extractor : Extractor)
  | meshCoreBody (bodyOutCap : ℕ)
  | loRaWANMeta
  deriving DecidableEq, Repr

section Decoder

variable (aes : BlockCipher) (ch : RadioChannel) (frame : List UInt8)

/-- Every access of the call is inside the frame, the plaintext or the caller's
array. -/
def AccessesInside : Decoder → Prop
  | .meshtastic (.body bodyOutCap) => Inside
      (extractMeshtasticBody aes ch (Pointer.ofList frame) frame.length bodyOutCap)
  | .meshtastic (.nodeInfo shortCap longCap) => Inside
      (extractMeshtasticNodeInfo aes ch (Pointer.ofList frame) frame.length
        shortCap longCap)
  | .meshtastic .position => Inside
      (extractMeshtasticPosition aes ch (Pointer.ofList frame) frame.length)
  | .meshtastic .telemetry => Inside
      (extractMeshtasticTelemetry aes ch (Pointer.ofList frame) frame.length)
  | .meshCoreBody bodyOutCap => Inside
      (extractMeshCoreBody aes ch (Pointer.ofList frame) frame.length bodyOutCap)
  | .loRaWANMeta => Inside (extractLoRaWANMeta (Pointer.ofList frame) frame.length)

/-- An extractor given no room for a body returns before it opens the frame. -/
def Opens : Extractor → Prop
  | .body bodyOutCap => 2 ≤ bodyOutCap
  | _ => True

/-- Every payload and submessage slice the call records lies in the plaintext. -/
def RecordedInside : Decoder → Prop
  | .meshtastic extractor => Opens extractor → ∀ src pt, DecryptsTo aes ch frame src pt →
      SlicesInside (dataWalk (Pointer.ofList pt) pt.length) .start isPayloadTag 0
          pt.length ∧
        (extractor = .telemetry → ∀ state payload,
          dataLoop (Pointer.ofList pt) pt.length = .ok state →
          payloadFor extractor.port state.portnum state.payload = some payload →
            SlicesInside
              (telemetryWalk (payload.pointer (Pointer.ofList pt)) payload.length)
              .start isSubmessageTag payload.offset pt.length)
  | .meshCoreBody _ => True
  | .loRaWANMeta => True

/-- The call stays inside its buffers. -/
def StaysInside (decoder : Decoder) : Prop :=
  RecordedInside aes ch frame decoder ∧ AccessesInside aes ch frame decoder

/-- The lengths inside the payload fit, as far as the extractor relies on them. -/
def PayloadFits (pt : List UInt8) (payload : Slice) : Extractor → Prop
  | .body _ => True
  | .nodeInfo shortCap longCap => NamesInside pt payload longCap shortCap
  | .position => True
  | .telemetry => SubmessagesInside pt payload

/-- The lengths the plaintext declares fit, as far as the extractor relies on
them. -/
def LengthsFit : Decoder → Prop
  | .meshtastic extractor => Opens extractor → ∀ src pt, DecryptsTo aes ch frame src pt →
      PayloadsInside pt ∧ ∀ fields payload,
        Message (Pointer.ofList pt) pt.length 0 fields →
        payloadFor extractor.port (declaredPortnum fields) (declaredPayload fields) =
          some payload → PayloadFits pt payload extractor
  | .meshCoreBody _ => True
  | .loRaWANMeta => True

/-- No length inside the payload wraps, as far as the extractor relies on them. -/
def PayloadUnwrapped (pt : List UInt8) (payload : Slice) : Extractor → Prop
  | .body _ => True
  | .nodeInfo shortCap longCap => NamesUnwrapped pt payload longCap shortCap
  | .position => True
  | .telemetry => LengthsUnwrapped (payload.pointer (Pointer.ofList pt)) payload.length
      (TelemetryStart (payload.pointer (Pointer.ofList pt)) payload.length) isSubmessageTag

/-- No declared length that a walk comes to, and that the extractor relies on, makes the
64-bit sum of the cursor and the length wrap. -/
def NoLengthWraps : Decoder → Prop
  | .meshtastic extractor => Opens extractor → ∀ src pt, DecryptsTo aes ch frame src pt →
      LengthsUnwrapped (Pointer.ofList pt) pt.length
          (FieldStart (Pointer.ofList pt) pt.length) isPayloadTag ∧
        ∀ fields payload, Message (Pointer.ofList pt) pt.length 0 fields →
          payloadFor extractor.port (declaredPortnum fields) (declaredPayload fields) =
            some payload → PayloadUnwrapped pt payload extractor
  | .meshCoreBody _ => True
  | .loRaWANMeta => True

variable {aes ch frame}

theorem payloadFits_iff_unwrapped {pt : List UInt8} {payload : Slice} (hlength : pt.length ≤ 240)
    (hpayload : payload.offset + payload.length ≤ pt.length) (extractor : Extractor) :
    PayloadFits pt payload extractor ↔ PayloadUnwrapped pt payload extractor := by
  cases extractor with
  | body bodyOutCap => exact Iff.rfl
  | nodeInfo shortCap longCap => exact namesInside_iff_unwrapped hlength hpayload
  | position => exact Iff.rfl
  | telemetry =>
      refine lengthsInside_iff_unwrapped (fun _ _ htag => ?_) hpayload (by omega)
      obtain ⟨target, htarget⟩ := Option.isSome_iff_exists.mp htag
      exact submessage_wireType htarget

/-- The lengths fit exactly when none of them wraps. -/
theorem lengthsFit_iff_noLengthWraps (extractor : Extractor) :
    LengthsFit aes ch frame (.meshtastic extractor) ↔
      NoLengthWraps aes ch frame (.meshtastic extractor) := by
  refine forall_congr' fun _ => forall_congr' fun src => forall_congr' fun pt =>
    forall_congr' fun hpt => ?_
  have hlength := hpt.length_le
  have hdata : PayloadsInside pt ↔ LengthsUnwrapped (Pointer.ofList pt) pt.length
      (FieldStart (Pointer.ofList pt) pt.length) isPayloadTag :=
    lengthsInside_iff_unwrapped (fun _ _ htag => htag.2) (by omega) (by omega)
  rw [← hdata]
  refine and_congr_right fun hpayloads => forall_congr' fun fields => forall_congr' fun payload =>
    forall_congr' fun hmessage => forall_congr' fun hdeclared => ?_
  exact payloadFits_iff_unwrapped hlength (declared_inside hpayloads hmessage hdeclared) extractor

theorem inside_copyBody {pt : List UInt8} {payload : Slice} {bodyOutCap : ℕ}
    (hcap : 2 ≤ bodyOutCap) (hpayload : payload.offset + payload.length ≤ pt.length) :
    Inside (copyBody bodyOutCap pt payload) := by
  obtain ⟨bytes, hbytes, hlength⟩ := readRange_of_readable (readable_ofList pt)
    (min payload.length (bodyOutCap - 1)) payload.offset (by omega)
  refine inside_bind (inside_of_ok hbytes) fun bytes' hbytes' => ?_
  obtain rfl : bytes = bytes' := Except.ok.inj (hbytes.symm.trans hbytes')
  exact inside_intoCString (by omega)

/-- What an extractor does with the payload stays inside. -/
def PayloadInside (pt : List UInt8) (payload : Slice) : Extractor → Prop
  | .body bodyOutCap => Inside (copyBody bodyOutCap pt payload)
  | .nodeInfo shortCap longCap => Inside (returned (loop
      (userWalk longCap shortCap (payload.pointer (Pointer.ofList pt)) payload.length)
      .start))
  | .position => Inside (returned (loop
      (positionWalk (payload.pointer (Pointer.ofList pt)) payload.length) .start))
  | .telemetry => Inside (returned (loop
      (telemetryWalk (payload.pointer (Pointer.ofList pt)) payload.length) .start))

theorem accessesInside_iff (extractor : Extractor) :
    AccessesInside aes ch frame (.meshtastic extractor) ↔
      (Opens extractor → ∀ src pt, DecryptsTo aes ch frame src pt →
        ∀ fields payload, Message (Pointer.ofList pt) pt.length 0 fields →
          payloadFor extractor.port (declaredPortnum fields) (declaredPayload fields) =
            some payload → PayloadInside pt payload extractor) := by
  cases extractor with
  | body bodyOutCap =>
      by_cases hcap : bodyOutCap < 2
      · have hopens : ¬ Opens (.body bodyOutCap) := by
          simpa [Opens] using hcap
        simp [AccessesInside, extractMeshtasticBody, hcap, hopens, inside_ok]
      · have hopens : Opens (.body bodyOutCap) := Nat.le_of_not_lt hcap
        simp only [AccessesInside, extractMeshtasticBody, hcap, if_false, hopens,
          inside_extractPayload_iff, inside_bind_ok_iff, PayloadInside, forall_const]
        rfl
  | nodeInfo shortCap longCap =>
      simp only [AccessesInside, extractMeshtasticNodeInfo, Opens,
        inside_extractPayload_iff, inside_bind_ok_iff, PayloadInside, forall_const]
      rfl
  | position =>
      simp only [AccessesInside, extractMeshtasticPosition, Opens,
        inside_extractPayload_iff, inside_bind_ok_iff, PayloadInside, forall_const]
      rfl
  | telemetry =>
      simp only [AccessesInside, extractMeshtasticTelemetry, Opens,
        inside_extractPayload_iff, inside_bind_ok_iff, PayloadInside, forall_const]
      rfl

/-- Over a plaintext whose payload lies inside it, an extractor other than
Telemetry stays inside exactly when the lengths in the payload fit. -/
theorem payloadInside_iff {pt : List UInt8} {payload : Slice} {extractor : Extractor}
    (hopens : Opens extractor) (hlength : pt.length ≤ 240)
    (hpayload : payload.offset + payload.length ≤ pt.length)
    (hother : extractor ≠ .telemetry) :
    PayloadInside pt payload extractor ↔ PayloadFits pt payload extractor := by
  cases extractor with
  | body bodyOutCap =>
      exact ⟨fun _ => trivial, fun _ => inside_copyBody hopens hpayload⟩
  | nodeInfo shortCap longCap => exact inside_userWalk_iff hpayload
  | position =>
      exact ⟨fun _ => trivial, fun _ => positionWalk_inside
        (readable_pointer (readable_ofList pt) hpayload) (by omega)⟩
  | telemetry => exact absurd rfl hother

theorem meshtastic_staysInside_iff (extractor : Extractor) :
    StaysInside aes ch frame (.meshtastic extractor) ↔
      LengthsFit aes ch frame (.meshtastic extractor) := by
  rw [StaysInside, accessesInside_iff]
  constructor
  · rintro ⟨hrecorded, haccesses⟩ hopens src pt hpt
    have hlength := hpt.length_le
    obtain ⟨hdata, htelemetry⟩ := hrecorded hopens src pt hpt
    have hpayloads := (dataWalk_slicesInside_iff hlength).mp hdata
    refine ⟨hpayloads, fun fields payload hmessage hdeclared => ?_⟩
    have hpayload := declared_inside hpayloads hmessage hdeclared
    by_cases hother : extractor = .telemetry
    · have hread := read_portnum_payload fields
      have hslices := htelemetry hother _ payload
        (dataLoop_eq_ok.mpr ⟨fields, hmessage, rfl⟩)
        (by rw [hread.1, hread.2, hdeclared])
      subst hother
      exact (telemetryWalk_slicesInside_iff hlength hpayload).mp hslices
    · exact (payloadInside_iff hopens hlength hpayload hother).mp
        (haccesses hopens src pt hpt fields payload hmessage hdeclared)
  · intro hfits
    refine ⟨fun hopens src pt hpt => ?_,
      fun hopens src pt hpt fields payload hmessage hdeclared => ?_⟩
    · have hlength := hpt.length_le
      obtain ⟨hpayloads, hnested⟩ := hfits hopens src pt hpt
      refine ⟨(dataWalk_slicesInside_iff hlength).mpr hpayloads, ?_⟩
      rintro rfl state payload hstate hselected
      obtain ⟨fields, hmessage, rfl⟩ := dataLoop_eq_ok.mp hstate
      have hread := read_portnum_payload fields
      rw [hread.1, hread.2] at hselected
      exact (telemetryWalk_slicesInside_iff hlength
        (declared_inside hpayloads hmessage hselected)).mpr
          (hnested fields payload hmessage hselected)
    · have hlength := hpt.length_le
      obtain ⟨hpayloads, hnested⟩ := hfits hopens src pt hpt
      have hpayload := declared_inside hpayloads hmessage hdeclared
      have hnested := hnested fields payload hmessage hdeclared
      by_cases hother : extractor = .telemetry
      · subst hother
        exact inside_telemetryWalk hlength hpayload
          ((telemetryWalk_slicesInside_iff hlength hpayload).mpr hnested)
      · exact (payloadInside_iff hopens hlength hpayload hother).mpr hnested

end Decoder

/-- For every frame, channel and capacity, an extractor stays inside the frame,
the plaintext and the caller's array, slices included, exactly when no length
that a walk comes to wraps the sum it is checked by.  The MeshCore and LoRaWAN
extractors always do. -/
theorem staysInside_iff (aes : BlockCipher) (ch : RadioChannel) (frame : List UInt8)
    (decoder : Decoder) :
    StaysInside aes ch frame decoder ↔ NoLengthWraps aes ch frame decoder := by
  cases decoder with
  | meshtastic extractor =>
      exact (meshtastic_staysInside_iff extractor).trans (lengthsFit_iff_noLengthWraps extractor)
  | meshCoreBody bodyOutCap =>
      exact ⟨fun _ => trivial, fun _ => ⟨trivial,
        inside_extractMeshCoreBody aes ch (readable_ofList frame) bodyOutCap⟩⟩
  | loRaWANMeta =>
      exact ⟨fun _ => trivial, fun _ => ⟨trivial,
        inside_extractLoRaWANMeta (readable_ofList frame)⟩⟩

/-! ## A frame that makes the body extractor read past the plaintext -/

/-- `portnum = 1`, then a payload field of declared length 2^64 - 1: the cursor
lands on the last byte of the length itself, which is not a field, and the walk
ends with the payload recorded. -/
def hostilePlaintext : List UInt8 :=
  [0x08, 0x01, 0x12, 0xFF, 0xFF, 0xFF, 0xFF, 0xFF, 0xFF, 0xFF, 0xFF, 0xFF, 0x01]

def hostileChannel : RadioChannel where
  protocol := 0x2B
  key := List.Vector.replicate 32 0
  keyLen := 16
  channelHash := 8

/-- The frame a sender who knows the channel key builds around a plaintext. -/
def frameOf (aes : BlockCipher) (ch : RadioChannel) (pt : List UInt8) : List UInt8 :=
  transportHeader 0xFFFFFFFF 1 1 0x63 ch.channelHash 0 0 ++ cryptPacket aes ch 1 1 pt

theorem frameOf_decryptsTo (aes : BlockCipher) (ch : RadioChannel) (pt : List UInt8)
    (hpt : pt ≠ []) (hlength : pt.length ≤ 240) :
    DecryptsTo aes ch (frameOf aes ch pt) 1 pt := by
  have hopen := decryptData_transportHeader aes ch 0xFFFFFFFF 1 1 0x63 0 0
    (cryptPacket aes ch 1 1 pt)
    (by simpa [cryptPacket, ← List.length_eq_zero_iff] using hpt)
    (by simpa [cryptPacket] using hlength) rfl
  rwa [cryptPacket, cryptPacket, aes.cryptCtr_cryptCtr] at hopen

/-- With the 256-byte body array of the bridge, whatever the cipher. -/
theorem hostilePlaintext_leaves :
    ¬ ∃ aes : BlockCipher, StaysInside aes hostileChannel
      (frameOf aes hostileChannel hostilePlaintext) (.meshtastic (.body 256)) := by
  rintro ⟨aes, -, haccesses⟩
  have hpt := frameOf_decryptsTo aes hostileChannel hostilePlaintext
    (by decide) (by decide)
  have hloop : dataLoop (Pointer.ofList hostilePlaintext) hostilePlaintext.length =
      .ok ⟨12, 1, some ⟨13, 2 ^ 32 - 1⟩⟩ := by decide
  obtain ⟨fields, hmessage, hfields⟩ := dataLoop_eq_ok.mp hloop
  have hread := read_portnum_payload fields
  rw [hfields] at hread
  have hinside := (accessesInside_iff (.body 256)).mp haccesses (show 2 ≤ 256 by norm_num) 1
    hostilePlaintext hpt fields ⟨13, 2 ^ 32 - 1⟩ hmessage
    (by rw [← hread.1, ← hread.2]; decide)
  -- 255 bytes are copied from behind the 13 bytes of the plaintext
  exact hinside (bind_eq_error.mpr (.inl (readRange_ofList_eq_error _ _
    (by decide) (by decide))))

end LoraBridge.ExtractorBounds
