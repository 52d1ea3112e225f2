import LoraBridge.Codec.MeshCoreDecoder

/-!
# Bounds of the extractors

The extractors are run over checked bytes, where an access outside the frame,
the plaintext or the caller's array is a fault.  What they rely on is that a
length which passed its check is a length: a declared length that wrapped the
64-bit sum is recorded as a slice far larger than the plaintext.
-/

namespace LoraBridge.DecoderBounds

open LoraBridge.Memory LoraBridge.Protobuf LoraBridge.Cipher LoraBridge.WhileLoop
open LoraBridge.FieldWalk LoraBridge.MeshtasticDecoder LoraBridge.MeshCoreDecoder

/-! ## Slices recorded by a walk -/

/-- Every slice the walk records, for the tags it descends into, ends at most
at `limit`, counted from `base` bytes before the walked bytes. -/
def SlicesInside {b : Pointer} {n : ℕ} {State : Type} (walk : FieldWalk b n State)
    (start : State) (descends : ℕ → ℕ → Prop) (base limit : ℕ) : Prop :=
  ∀ state number wireType q slice next, Heads walk start state →
    walk.cursor state < n →
    pbTag b n (walk.cursor state) = .ok (number, wireType, q) →
    descends number wireType → takeSlice b n q = .ok (slice, next) →
      base + slice.offset + slice.length ≤ limit

/-- The same for the lengths the sender declared, at the given field starts. -/
def LengthsInside (b : Pointer) (n : ℕ) (starts : ℕ → Prop)
    (descends : ℕ → ℕ → Prop) (base limit : ℕ) : Prop :=
  ∀ p field, starts p → p < n → parseField b n p = .ok field →
    descends field.number field.wireType →
      base + field.content + field.value ≤ limit

/-- No length declared at the given field starts wraps the 64-bit sum it is checked by. -/
def LengthsUnwrapped (b : Pointer) (n : ℕ) (starts : ℕ → Prop)
    (descends : ℕ → ℕ → Prop) : Prop :=
  ∀ p field, starts p → p < n → parseField b n p = .ok field →
    descends field.number field.wireType → ¬ field.Wraps

theorem lengthsInside_iff_unwrapped {b : Pointer} {n base limit : ℕ} {starts : ℕ → Prop}
    {descends : ℕ → ℕ → Prop}
    (hdescends : ∀ number wireType, descends number wireType → wireType = 2)
    (hlimit : base + n ≤ limit) (hsmall : limit < 2 ^ 32) :
    LengthsInside b n starts descends base limit ↔ LengthsUnwrapped b n starts descends := by
  refine forall_congr' fun p => forall_congr' fun field => forall_congr' fun _ =>
    forall_congr' fun _ => forall_congr' fun hparse => forall_congr' fun hdescend => ?_
  exact inside_iff_not_wraps hlimit hsmall hparse (hdescends _ _ hdescend)

/-- The slices and the lengths agree as soon as the loop heads are the given field starts; each
direction may assume its own side for that. -/
theorem slicesInside_iff {b : Pointer} {n : ℕ} {State : Type}
    (walk : FieldWalk b n State) {start : State} {descends : ℕ → ℕ → Prop}
    {base limit : ℕ} {starts : ℕ → Prop}
    (hdescends : ∀ number wireType, descends number wireType → wireType = 2)
    (hlimit : base + n ≤ limit) (hsmall : limit < 2 ^ 32)
    (hstarts : LengthsInside b n starts descends base limit → ∀ state,
      Heads walk start state → starts (walk.cursor state))
    (hheads : SlicesInside walk start descends base limit → ∀ p, starts p →
      ∃ state, Heads walk start state ∧ walk.cursor state = p) :
    SlicesInside walk start descends base limit ↔
      LengthsInside b n starts descends base limit := by
  constructor
  · intro hslices p field hstart hlt hparse hdescend
    obtain ⟨state, hhead, rfl⟩ := hheads hslices p hstart
    have hwire := hdescends _ _ hdescend
    obtain ⟨q, htag, -⟩ := parseField_cases hparse
    rw [hwire] at htag hdescend
    exact (slice_inside_iff hlimit hsmall hparse hwire).mp
      (hslices state field.number 2 q field.slice field.next hhead hlt htag hdescend
        ((takeSlice_eq_ok_iff htag).mpr ⟨field, hparse, rfl, rfl⟩))
  · intro hlengths state number wireType q slice next hhead hlt htag hdescend hslice
    obtain rfl := hdescends _ _ hdescend
    obtain ⟨field, hparse, rfl, -⟩ := (takeSlice_eq_ok_iff htag).mp hslice
    obtain ⟨q', htag', -⟩ := parseField_cases hparse
    rw [htag] at htag'
    simp only [Except.ok.injEq, Prod.mk.injEq] at htag'
    obtain ⟨rfl, hwire, -⟩ := htag'
    exact (slice_inside_iff hlimit hsmall hparse hwire.symm).mpr
      (hlengths _ field (hstarts hlengths state hhead) hlt hparse (hwire ▸ hdescend))

/-! ## The Data walk -/

def isPayloadTag (number wireType : ℕ) : Prop := number = 2 ∧ wireType = 2

/-- Every payload field of the message declares a length that fits. -/
def PayloadsInside (pt : List UInt8) : Prop :=
  LengthsInside (Pointer.ofList pt) pt.length
    (FieldStart (Pointer.ofList pt) pt.length) isPayloadTag 0 pt.length

theorem dataWalk_slicesInside_iff {pt : List UInt8} (hlength : pt.length ≤ 240) :
    SlicesInside (dataWalk (Pointer.ofList pt) pt.length) .start isPayloadTag 0
        pt.length ↔ PayloadsInside pt :=
  slicesInside_iff _ (fun _ _ hdescend => hdescend.2) (by omega) (by omega)
    (fun _ _ => fieldStart_of_heads _ rfl)
    (fun _ _ => heads_of_fieldStart _ rfl fun state field _ _ _ =>
      ⟨state.read field, rfl⟩)

/-- The recorded payload of a message with fitting lengths is part of it. -/
theorem declared_inside {pt : List UInt8} (hpayloads : PayloadsInside pt)
    {fields : List Field} {port : ℕ} {payload : Slice}
    (hmessage : Message (Pointer.ofList pt) pt.length 0 fields)
    (hdeclared : payloadFor port (declaredPortnum fields) (declaredPayload fields) =
      some payload) :
    payload.offset + payload.length ≤ pt.length := by
  unfold payloadFor declaredPayload at hdeclared
  split at hdeclared
  · cases hdeclared
  · rw [Option.filter_eq_some_iff, Option.map_eq_some_iff] at hdeclared
    obtain ⟨⟨field, hfind, rfl⟩, -⟩ := hdeclared
    have htag : isPayloadTag field.number field.wireType := by
      simpa [isPayload, isPayloadTag] using List.find?_some hfind
    have hmem : field ∈ fields := List.mem_reverse.mp (List.mem_of_find?_eq_some hfind)
    obtain ⟨p, hfield, hlt, hparse⟩ := hmessage.exists_start .first hmem
    have hfits := hpayloads p field hfield hlt hparse htag
    have hmod := Nat.mod_le field.value (2 ^ 32)
    simp only [Field.slice]
    omega

/-- The payload as bytes of its own. -/
theorem pointer_eq_ofList (payload : Slice) (pt : List UInt8) :
    payload.pointer (Pointer.ofList pt) =
      Pointer.ofList (pt.drop payload.offset) :=
  ofList_advance pt payload.offset

theorem readable_pointer {b : Pointer} {size : ℕ} (hreadable : Readable b size)
    {slice : Slice} (hinside : slice.offset + slice.length ≤ size) :
    Readable (slice.pointer b) slice.length :=
  hreadable.advance hinside

/-! ## Loops over readable bytes -/

/-- A walk that handles what it reads without leaving its bytes stays inside
them to its end. -/
theorem loop_inside {b : Pointer} {n : ℕ} {State : Type} {walk : FieldWalk b n State}
    {start : State} (hreadable : Readable b n)
    (happly : ∀ state field, Heads walk start state → walk.cursor state < n →
      parseField b n (walk.cursor state) = .ok field →
        Inside (walk.apply state field)) :
    ∀ state, loop walk start ≠ .stopped .outOfBounds state := by
  intro state hloop
  obtain ⟨hheads, hlt, hparse | ⟨field, hparse, hfail⟩⟩ := loop_stopped hloop
  · cases parseField_error hreadable hparse
  · exact happly state field hheads hlt hparse hfail

theorem inside_resumed {State : Type} {outcome : Outcome State Halt} :
    Inside (resumed outcome) ↔ ∀ state, outcome ≠ .stopped .outOfBounds state := by
  rcases outcome with _ | ⟨_ | _ | _, _⟩ | _ <;> simp [resumed, Inside]

theorem inside_returned {State : Type} {outcome : Outcome State Halt} :
    Inside (returned outcome) ↔ ∀ state, outcome ≠ .stopped .outOfBounds state := by
  rcases outcome with _ | ⟨_ | _ | _, _⟩ | _ <;> simp [returned, Inside]

theorem inside_dataLoop (pt : List UInt8) :
    Inside (dataLoop (Pointer.ofList pt) pt.length) :=
  inside_resumed.mpr (loop_inside (readable_ofList pt) fun _ _ _ _ _ => inside_ok _)

/-! ## Opening the frame -/

theorem inside_decryptData (aes : BlockCipher) (ch : RadioChannel)
    (frame : List UInt8) :
    Inside (decryptData aes ch (Pointer.ofList frame) frame.length) := by
  have hreadable := readable_ofList frame
  unfold decryptData
  refine inside_ite (fun _ => inside_ok _) fun hshort => ?_
  refine inside_bind (hreadable.inside (by omega)) fun channelHash _ => ?_
  refine inside_ite (fun _ => inside_ok _) fun _ => ?_
  refine inside_bind (hreadable.inside_word32 (by omega)) fun src _ => ?_
  refine inside_bind (hreadable.inside_word32 (by omega)) fun pid _ => ?_
  refine inside_ite (fun _ => inside_ok _) fun hlong => ?_
  obtain ⟨ct, hct, hlength⟩ := readRange_of_readable hreadable (frame.length - 16)
    16 (by omega)
  refine inside_bind (inside_of_ok hct) fun ct' hct' => ?_
  obtain rfl : ct = ct' := Except.ok.inj (hct.symm.trans hct')
  refine inside_bind (inside_intoBuffer ?_) fun pt _ => inside_ok _
  rw [cryptPacket, aes.length_cryptCtr]
  omega

/-- The frame is accepted as one of the channel's and decrypts to `pt`. -/
def DecryptsTo (aes : BlockCipher) (ch : RadioChannel) (frame : List UInt8)
    (src : UInt32) (pt : List UInt8) : Prop :=
  decryptData aes ch (Pointer.ofList frame) frame.length = .ok (some (src, pt))

/-- The plaintext buffer holds 240 bytes. -/
theorem DecryptsTo.length_le {aes : BlockCipher} {ch : RadioChannel}
    {frame pt : List UInt8} {src : UInt32} (hpt : DecryptsTo aes ch frame src pt) :
    pt.length ≤ 240 := by
  unfold DecryptsTo decryptData at hpt
  split at hpt
  · cases hpt
  obtain ⟨channelHash, -, hpt⟩ := bind_eq_ok.mp hpt
  split at hpt
  · cases hpt
  obtain ⟨src, -, hpt⟩ := bind_eq_ok.mp hpt
  obtain ⟨pid, -, hpt⟩ := bind_eq_ok.mp hpt
  dsimp only at hpt
  split at hpt
  · cases hpt
  obtain ⟨ct, -, hpt⟩ := bind_eq_ok.mp hpt
  obtain ⟨stored, hstored, hpt⟩ := bind_eq_ok.mp hpt
  cases hpt
  exact length_le_of_intoBuffer hstored

/-- An extractor stays inside when what it does with the payload does. -/
theorem inside_extractPayload_iff {aes : BlockCipher} {ch : RadioChannel}
    {frame : List UInt8} {Result : Type} {port : ℕ} {refused : Result}
    {use : UInt32 → List UInt8 → Slice → Except Halt Result} :
    Inside (extractPayload aes ch (Pointer.ofList frame) frame.length port refused use) ↔
      ∀ src pt, DecryptsTo aes ch frame src pt → ∀ fields payload,
        Message (Pointer.ofList pt) pt.length 0 fields →
        payloadFor port (declaredPortnum fields) (declaredPayload fields) = some payload →
          Inside (use src pt payload) := by
  unfold extractPayload
  rw [inside_bind_iff (inside_decryptData aes ch frame)]
  constructor
  · intro hinside src pt hpt fields payload hmessage hdeclared
    have hrest := hinside _ hpt
    dsimp only at hrest
    rw [inside_bind_iff (inside_dataLoop pt)] at hrest
    have huse := hrest _ (dataLoop_eq_ok.mpr ⟨fields, hmessage, rfl⟩)
    have hread := read_portnum_payload fields
    rwa [hread.1, hread.2, hdeclared] at huse
  · intro huse opened hopened
    rcases opened with _ | ⟨src, pt⟩
    · exact inside_ok _
    refine inside_bind (inside_dataLoop pt) fun state hstate => ?_
    obtain ⟨fields, hmessage, rfl⟩ := dataLoop_eq_ok.mp hstate
    have hread := read_portnum_payload fields
    cases hselected : payloadFor port (fields.foldl DataState.read .start).portnum
        (fields.foldl DataState.read .start).payload with
    | none => exact inside_ok _
    | some payload =>
        rw [hread.1, hread.2] at hselected
        exact huse src pt hopened fields payload hmessage hselected

/-! ## The payload loops -/

section Payload

variable {b : Pointer} {n : ℕ}

theorem positionWalk_inside (hreadable : Readable b n) (hn : n + 4 < 2 ^ 32) :
    Inside (returned (loop (positionWalk b n) .start)) := by
  refine inside_returned.mpr (loop_inside hreadable ?_)
  intro state field _ _ hparse
  change Inside (PositionState.read b state field)
  have hword : field.wireType = 5 → Inside (word32 b field.content) := fun hwire =>
    let ⟨_, hword⟩ := word32_of_parse hreadable hn hparse hwire
    inside_of_ok hword
  unfold PositionState.read
  refine inside_ite (fun h => inside_bind (hword h.2) fun _ _ => inside_ok _) fun _ => ?_
  refine inside_ite (fun h => inside_bind (hword h.2) fun _ _ => inside_ok _) fun _ => ?_
  refine inside_ite (fun _ => inside_ok _) fun _ => ?_
  refine inside_ite (fun h => inside_bind (hword h.2) fun _ _ => inside_ok _) fun _ => ?_
  refine inside_ite (fun h => inside_bind (hword h.2.1) fun _ _ => inside_ok _) fun _ => ?_
  exact inside_ok _

/-! ### Metrics -/

theorem select_wireType {store : Store} {number wireType : ℕ}
    {set : UInt32 → MeshtasticTelemetryInfo → MeshtasticTelemetryInfo}
    (hselect : store.select number wireType = some set) : wireType = 5 := by
  by_contra hwire
  simp [Store.select, hwire] at hselect

theorem metricsWalk_total (hreadable : Readable b n) (hn : n + 4 < 2 ^ 32)
    (store : Store) (state : MetricsState) {field : Field} {p : ℕ}
    (hparse : parseField b n p = .ok field) :
    ∃ next, (metricsWalk store b n).apply state field = .ok next := by
  change ∃ next, MetricsState.read store b state field = .ok next
  unfold MetricsState.read
  cases hselect : store.select field.number field.wireType with
  | none => exact ⟨_, rfl⟩
  | some set =>
      obtain ⟨v, hv⟩ := word32_of_parse hreadable hn hparse (select_wireType hselect)
      exact ⟨_, bind_eq_ok.mpr ⟨v, hv, rfl⟩⟩

theorem metricsWalk_uniform (store : Store) : Uniform (metricsWalk store b n) := by
  intro left right field next hread
  change ∃ next', MetricsState.read store b right field = .ok next'
  change MetricsState.read store b left field = .ok next at hread
  unfold MetricsState.read at hread ⊢
  split at hread
  · obtain ⟨v, hv, -⟩ := bind_eq_ok.mp hread
    exact ⟨_, bind_eq_ok.mpr ⟨v, hv, rfl⟩⟩
  · exact ⟨_, rfl⟩

theorem metricsWalk_handled (hchecked : Checked b) (store : Store)
    (state : MetricsState) (field : Field) :
    (metricsWalk store b n).apply state field ≠ .error .malformed := by
  change MetricsState.read store b state field ≠ _
  unfold MetricsState.read
  intro hfail
  split at hfail
  · rcases bind_eq_error.mp hfail with hword | ⟨_, -, hfail⟩
    · cases hchecked.word32_error hword
    · cases hfail
  · cases hfail

/-- A metrics loop over readable bytes comes back to Telemetry exactly when the
submessage has an end. -/
theorem metricsLoop_ok_iff (hreadable : Readable b n) (hchecked : Checked b)
    (hn : n + 4 < 2 ^ 32) (store : Store) (out : MeshtasticTelemetryInfo) :
    (∃ out', metricsLoop store b n out = .ok out') ↔
      ∃ fields, Message b n 0 fields := by
  have hloop := @resumed_loop_eq_ok b n MetricsState (metricsWalk store b n) ⟨0, out⟩
  constructor
  · rintro ⟨out', hout⟩
    obtain ⟨last, hlast, -⟩ := bind_eq_ok.mp hout
    obtain ⟨fields, hmessage, -⟩ := (hloop (metricsWalk_uniform store)
      (metricsWalk_handled hchecked store)).mp hlast
    exact ⟨fields, hmessage⟩
  · rintro ⟨fields, hmessage⟩
    obtain ⟨last, hlast⟩ := foldlM_of_message (metricsWalk store b n) hmessage
      (fun state field p _ hparse => metricsWalk_total hreadable hn store state hparse)
      ⟨0, out⟩
    exact ⟨last.out, bind_eq_ok.mpr ⟨last, (hloop (metricsWalk_uniform store)
      (metricsWalk_handled hchecked store)).mpr ⟨fields, hmessage, hlast⟩, rfl⟩⟩

theorem inside_metricsLoop (hreadable : Readable b n) (hn : n + 4 < 2 ^ 32)
    (store : Store) (out : MeshtasticTelemetryInfo) :
    Inside (metricsLoop store b n out) := by
  refine inside_bind (inside_resumed.mpr (loop_inside hreadable ?_))
    fun _ _ => inside_ok _
  intro state field _ _ hparse
  obtain ⟨next, hnext⟩ := metricsWalk_total hreadable hn store state hparse
  exact inside_of_ok hnext

end Payload

end LoraBridge.DecoderBounds
