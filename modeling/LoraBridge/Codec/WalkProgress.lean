import LoraBridge.Codec.MeshtasticDecoder

/-!
# Progress of the protobuf walks

A sender chooses the plaintext, so every loop is run over arbitrary memory.  A
walk ends, with its cursor moving forward on every iteration, exactly when no
field declares a length that brings the 64-bit sum `cursor + length` round to
the start of the field or before it.
-/

namespace LoraBridge.WalkProgress

open LoraBridge.Memory LoraBridge.Protobuf LoraBridge.WhileLoop
open LoraBridge.FieldWalk LoraBridge.MeshtasticDecoder

/-! ## The loops over a payload -/

/-- Every loop the extractor runs over the payload makes progress. -/
def PayloadProgress : Extractor → Pointer → ℕ → Prop
  | .body _, _, _ => True
  | .nodeInfo shortCap longCap, payload, payloadLen =>
      Progress (userWalk longCap shortCap payload payloadLen) .start
  | .position, payload, payloadLen =>
      Progress (positionWalk payload payloadLen) .start
  | .telemetry, payload, payloadLen =>
      Progress (telemetryWalk payload payloadLen) .start ∧
        ∀ state field kind store,
          Heads (telemetryWalk payload payloadLen) .start state →
          state.p < payloadLen → parseField payload payloadLen state.p = .ok field →
          submessage field.number field.wireType = some (kind, store) →
            Progress (metricsWalk store (field.slice.pointer payload)
              field.slice.length) ⟨0, { state.out with kind := kind }⟩

/-- No field of the payload, nor of a metrics submessage in it, sends its
cursor back. -/
def PayloadNeverRegresses : Extractor → Pointer → ℕ → Prop
  | .body _, _, _ => True
  | .nodeInfo _ _, payload, payloadLen => NeverRegresses payload payloadLen
  | .position, payload, payloadLen => NeverRegresses payload payloadLen
  | .telemetry, payload, payloadLen =>
      NeverRegresses payload payloadLen ∧
        ∀ p field, FieldStart payload payloadLen p → p < payloadLen →
          parseField payload payloadLen p = .ok field →
          (submessage field.number field.wireType).isSome →
            NeverRegresses (field.slice.pointer payload) field.slice.length

section Payload

variable (memory : ℕ → UInt8) {payloadLen : ℕ}

theorem copyName_ofMemory (up slen : ℕ) {cap : ℕ} (hcap : 1 < cap) :
    ∃ name, copyName (Pointer.ofMemory memory) up slen cap = .ok name := by
  obtain ⟨name, hname, hlength⟩ := readRange_of_readable
    (readable_ofMemory memory (up + min slen (cap - 1))) (min slen (cap - 1)) up le_rfl
  refine ⟨name, bind_eq_ok.mpr ⟨name, hname, ?_⟩⟩
  exact if_pos (by omega)

theorem userWalk_total (longCap shortCap : ℕ) (state : UserState) (field : Field) :
    ∃ next, (userWalk longCap shortCap (Pointer.ofMemory memory) payloadLen).apply
      state field = .ok next := by
  change ∃ next, UserState.read longCap shortCap _ state field = .ok next
  unfold UserState.read
  split_ifs with hlong hshort
  · obtain ⟨name, hname⟩ :=
      copyName_ofMemory memory field.content field.value hlong.2.2
    exact ⟨_, bind_eq_ok.mpr ⟨name, hname, rfl⟩⟩
  · obtain ⟨name, hname⟩ :=
      copyName_ofMemory memory field.content field.value hshort.2.2
    exact ⟨_, bind_eq_ok.mpr ⟨name, hname, rfl⟩⟩
  · exact ⟨_, rfl⟩

theorem positionWalk_total (state : PositionState) (field : Field) :
    ∃ next, (positionWalk (Pointer.ofMemory memory) payloadLen).apply
      state field = .ok next := by
  change ∃ next, PositionState.read _ state field = .ok next
  unfold PositionState.read
  split_ifs <;> exact ⟨_, rfl⟩

theorem metricsWalk_total (store : Store) (state : MetricsState) (field : Field) :
    ∃ next, (metricsWalk store (Pointer.ofMemory memory) payloadLen).apply
      state field = .ok next := by
  change ∃ next, MetricsState.read store _ state field = .ok next
  unfold MetricsState.read
  split <;> exact ⟨_, rfl⟩

theorem metricsWalk_progress_iff (store : Store) (hlength : payloadLen < 2 ^ 32)
    (out : MeshtasticTelemetryInfo) :
    Progress (metricsWalk store (Pointer.ofMemory memory) payloadLen) ⟨0, out⟩ ↔
      NeverRegresses (Pointer.ofMemory memory) payloadLen :=
  progress_iff _ hlength rfl fun state field _ _ _ =>
    metricsWalk_total memory store state field

/-- A metrics loop that makes progress hands its result back to Telemetry. -/
theorem metricsLoop_of_progress (store : Store) {out : MeshtasticTelemetryInfo}
    (hprogress : Progress
      (metricsWalk store (Pointer.ofMemory memory) payloadLen) ⟨0, out⟩) :
    ∃ out', metricsLoop store (Pointer.ofMemory memory) payloadLen out = .ok out' := by
  cases hloop : loop (metricsWalk store (Pointer.ofMemory memory) payloadLen)
      ⟨0, out⟩ with
  | finished last =>
      exact ⟨last.out, by simp [metricsLoop, hloop, resumed]; rfl⟩
  | stopped halt last =>
      obtain rfl := halt_eq_malformed (readable_ofMemory memory payloadLen)
        (fun state field _ _ _ => metricsWalk_total memory store state field) hloop
      exact ⟨last.out, by simp [metricsLoop, hloop, resumed]; rfl⟩
  | running last => exact absurd hloop (hprogress.loop_ne_running last)

theorem telemetryWalk_progress_iff (hlength : payloadLen < 2 ^ 32) :
    PayloadProgress .telemetry (Pointer.ofMemory memory) payloadLen ↔
      PayloadNeverRegresses .telemetry (Pointer.ofMemory memory) payloadLen := by
  have hnested : ∀ (field : Field) (store : Store) (out : MeshtasticTelemetryInfo),
      Progress (metricsWalk store (field.slice.pointer (Pointer.ofMemory memory))
          field.slice.length) ⟨0, out⟩ ↔
        NeverRegresses (field.slice.pointer (Pointer.ofMemory memory))
          field.slice.length := fun field store out =>
    metricsWalk_progress_iff _ store (Nat.mod_lt _ (by norm_num)) out
  -- an iteration continues once its metrics loop, if it has one, is known to end
  have htotal : ∀ (state : TelemetryState) (field : Field),
      (∀ kind store, submessage field.number field.wireType = some (kind, store) →
        Progress (metricsWalk store (field.slice.pointer (Pointer.ofMemory memory))
          field.slice.length) ⟨0, { state.out with kind := kind }⟩) →
      ∃ next, (telemetryWalk (Pointer.ofMemory memory) payloadLen).apply
        state field = .ok next := by
    intro state field hends
    change ∃ next, TelemetryState.read _ state field = .ok next
    unfold TelemetryState.read
    split
    · rename_i kind store htarget
      obtain ⟨out, hout⟩ := metricsLoop_of_progress _ store (hends kind store htarget)
      exact ⟨_, bind_eq_ok.mpr ⟨out, hout, rfl⟩⟩
    · exact ⟨_, rfl⟩
  constructor
  · rintro ⟨hprogress, hmetrics⟩
    have htotal' := fun state field hheads hlt hparse =>
      htotal state field fun kind store htarget =>
        hmetrics state field kind store hheads hlt hparse htarget
    refine ⟨(progress_iff _ hlength rfl htotal').mp hprogress, ?_⟩
    intro p field hfield hlt hparse hsome
    obtain ⟨state, hheads, rfl⟩ := heads_of_fieldStart _ rfl htotal' hfield
    obtain ⟨⟨kind, store⟩, htarget⟩ := Option.isSome_iff_exists.mp hsome
    exact (hnested field store _).mp
      (hmetrics state field kind store hheads hlt hparse htarget)
  · rintro ⟨hnever, hnevers⟩
    have hmetrics : ∀ state field kind store,
        Heads (telemetryWalk (Pointer.ofMemory memory) payloadLen) .start state →
        state.p < payloadLen →
        parseField (Pointer.ofMemory memory) payloadLen state.p = .ok field →
        submessage field.number field.wireType = some (kind, store) →
          Progress (metricsWalk store (field.slice.pointer (Pointer.ofMemory memory))
            field.slice.length) ⟨0, { state.out with kind := kind }⟩ :=
      fun state field kind store hheads hlt hparse htarget =>
        (hnested field store _).mpr (hnevers state.p field
          (fieldStart_of_heads _ rfl hheads) hlt hparse (by simp [htarget]))
    refine ⟨(progress_iff _ hlength rfl ?_).mpr hnever, hmetrics⟩
    exact fun state field hheads hlt hparse =>
      htotal state field fun kind store htarget =>
        hmetrics state field kind store hheads hlt hparse htarget

theorem payloadProgress_iff (extractor : Extractor) (hlength : payloadLen < 2 ^ 32) :
    PayloadProgress extractor (Pointer.ofMemory memory) payloadLen ↔
      PayloadNeverRegresses extractor (Pointer.ofMemory memory) payloadLen := by
  cases extractor with
  | body bodyOutCap => exact Iff.rfl
  | nodeInfo shortCap longCap =>
      exact progress_iff _ hlength rfl fun state field _ _ _ =>
        userWalk_total memory longCap shortCap state field
  | position =>
      exact progress_iff _ hlength rfl fun state field _ _ _ =>
        positionWalk_total memory state field
  | telemetry => exact telemetryWalk_progress_iff memory hlength

end Payload

/-! ## The walks of one extractor -/

/-- Every loop the extractor runs over a plaintext of `n` bytes makes progress. -/
def WalksProgress (extractor : Extractor) (pt : Pointer) (n : ℕ) : Prop :=
  Progress (dataWalk pt n) .start ∧
    ∀ state payload, dataLoop pt n = .ok state →
      payloadFor extractor.port state.portnum state.payload = some payload →
        PayloadProgress extractor (payload.pointer pt) payload.length

/-- No field that the extractor comes to sends its cursor back. -/
def LengthsProgress (extractor : Extractor) (pt : Pointer) (n : ℕ) : Prop :=
  NeverRegresses pt n ∧
    ∀ fields payload, Message pt n 0 fields →
      payloadFor extractor.port (declaredPortnum fields) (declaredPayload fields) =
          some payload →
        PayloadNeverRegresses extractor (payload.pointer pt) payload.length

theorem length_of_declared {port : ℕ} {fields : List Field} {payload : Slice}
    (hpayload : payloadFor port (declaredPortnum fields) (declaredPayload fields) =
      some payload) : payload.length < 2 ^ 32 := by
  unfold payloadFor declaredPayload at hpayload
  split at hpayload
  · cases hpayload
  · rw [Option.filter_eq_some_iff, Option.map_eq_some_iff] at hpayload
    obtain ⟨⟨field, -, rfl⟩, -⟩ := hpayload
    exact Nat.mod_lt _ (by norm_num)

/-- All protobuf walks over a plaintext terminate with a cursor that moves
strictly forward and stays inside the message, exactly when the plaintext
holds no length that wraps round to the start of its own field. -/
theorem walksProgress_iff (extractor : Extractor) (memory : ℕ → UInt8) (n : ℕ)
    (hn : n ≤ 240) :
    WalksProgress extractor (Pointer.ofMemory memory) n ↔
      LengthsProgress extractor (Pointer.ofMemory memory) n := by
  have hdata : Progress (dataWalk (Pointer.ofMemory memory) n) .start ↔
      NeverRegresses (Pointer.ofMemory memory) n :=
    progress_iff _ (by omega) rfl fun state field _ _ _ => ⟨state.read field, rfl⟩
  have hpayload : ∀ fields payload,
      payloadFor extractor.port (declaredPortnum fields) (declaredPayload fields) =
        some payload →
      (PayloadProgress extractor (payload.pointer (Pointer.ofMemory memory))
          payload.length ↔
        PayloadNeverRegresses extractor (payload.pointer (Pointer.ofMemory memory))
          payload.length) := fun fields payload hdeclared =>
    payloadProgress_iff _ extractor (length_of_declared hdeclared)
  refine and_congr hdata ⟨?_, ?_⟩
  · intro hwalks fields payload hmessage hdeclared
    have hread := read_portnum_payload fields
    refine (hpayload fields payload hdeclared).mp
      (hwalks _ payload (dataLoop_eq_ok.mpr ⟨fields, hmessage, rfl⟩) ?_)
    rw [hread.1, hread.2, hdeclared]
  · intro hlengths state payload hstate hselected
    obtain ⟨fields, hmessage, rfl⟩ := dataLoop_eq_ok.mp hstate
    have hread := read_portnum_payload fields
    rw [hread.1, hread.2] at hselected
    exact (hpayload fields payload hselected).mpr
      (hlengths fields payload hmessage hselected)

/-- `portnum = 1` and the payload "hi". -/
def textPlaintext : List UInt8 := [0x08, 0x01, 0x12, 0x02, 0x68, 0x69]

/-- A plain text message is walked to its end. -/
theorem textPlaintext_progress :
    WalksProgress (.body 256)
      (Pointer.ofMemory fun offset => textPlaintext.getD offset 0) 6 := by
  refine (walksProgress_iff (.body 256) _ 6 (by norm_num)).mpr
    ⟨?_, fun _ _ _ _ => trivial⟩
  have hfields : ∀ p : Fin 6, (parseField
      (Pointer.ofMemory fun offset => textPlaintext.getD offset 0) 6 p).toOption.all
        (fun field => !decide (field.Regresses p)) = true := by decide
  intro p field _ hlt hparse
  have hfield := hfields ⟨p, hlt⟩
  rw [hparse] at hfield
  simpa [Except.toOption] using hfield

/-- A Data message of eleven bytes: field 2 with the declared length 2^64 - 11. -/
def hostilePlaintext : List UInt8 :=
  [0x12, 0xF5, 0xFF, 0xFF, 0xFF, 0xFF, 0xFF, 0xFF, 0xFF, 0xFF, 0x01]

/-- On these bytes the cursor is sent from 11 back to 0, and the loop over the
Data message never ends. -/
theorem hostilePlaintext_spins :
    ¬ WalksProgress (.body 256)
      (Pointer.ofMemory fun offset => hostilePlaintext.getD offset 0) 11 := by
  rintro ⟨⟨hterminates, -⟩, -⟩
  have hloop : loop (dataWalk
      (Pointer.ofMemory fun offset => hostilePlaintext.getD offset 0) 11) .start =
        .running ⟨0, 0, some ⟨11, 2 ^ 32 - 11⟩⟩ := by decide
  exact (dataWalk_uniform _ 11).not_terminates hloop hterminates

end LoraBridge.WalkProgress
