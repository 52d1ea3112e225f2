import LoraBridge.Dispatch.EncodedTexts

/-!
# Reticulum over a mesh

A frame of up to eight slices goes out as as many fragments.  Each fits the buffers it goes
through, decodes to its text, and the slices in base64 make up the frame again.
-/

namespace LoraBridge.FragmentDelivery

open LoraBridge.Base64 LoraBridge.Bridge LoraBridge.BridgeConfig
open LoraBridge.CharArray LoraBridge.EncodedTexts LoraBridge.Enqueue LoraBridge.Fragments
open LoraBridge.Memory LoraBridge.Print LoraBridge.Program LoraBridge.Sends
open LoraBridge.MeshtasticDecoder (RadioChannel)

/-! ## Slices -/

/-- The slices up to one of them are the bytes up to its end. -/
theorem flatten_slices (rawPerFrag : ℕ) (buf : List UInt8) (n : ℕ) :
    ((List.range n).map fun idx => slice rawPerFrag idx buf).flatten =
      buf.take (n * rawPerFrag) := by
  induction n with
  | zero => simp
  | succ n ih =>
      rw [List.range_succ, List.map_append, List.flatten_append, ih, Nat.succ_mul, List.take_add]
      simp [slice]

theorem le_totalFrags {rawPerFrag : ℕ} (hpos : 0 < rawPerFrag) (len : ℕ) :
    len ≤ totalFrags rawPerFrag len * rawPerFrag := by
  have hdiv := Nat.div_add_mod (len + rawPerFrag - 1) rawPerFrag
  have hmod := Nat.mod_lt (len + rawPerFrag - 1) hpos
  rw [totalFrags, Nat.mul_comm]
  omega

/-- The count is bounded exactly by the length it is counted from. -/
theorem totalFrags_le_iff {rawPerFrag : ℕ} (hpos : 0 < rawPerFrag) (len n : ℕ) :
    totalFrags rawPerFrag len ≤ n ↔ len ≤ n * rawPerFrag := by
  rw [totalFrags, ← Nat.lt_succ_iff, Nat.div_lt_iff_lt_mul hpos, Nat.succ_mul]
  omega

/-! ## Fragments -/

/-- The bytes of a frame that go into one fragment. -/
def rawPerFrag (chan : RadioChannel) : ℕ :=
  if chan.protocol = SYNC_WORD_MESHTASTIC then BRIDGE_RNS_RAW_PER_FRAG_MT
  else BRIDGE_RNS_RAW_PER_FRAG_MC

/-- The text of a fragment, not cut to any buffer. -/
def fragmentText (seq : UInt8) (idx total : ℕ) (chunk : List UInt8) : List UInt8 :=
  ascii "[rns " ++ hexUpper2 seq ++ ascii " " ++ decimal (idx + 1) ++ ascii "/" ++
    decimal total ++ ascii "] " ++ chunk

/-- A packet with the base64 it carries and the bytes that stands for. -/
structure Piece where
  packet : Packet
  chunk : List UInt8
  raw : List UInt8

/-- The fragment with number `idx + 1` of `total`: its packet decodes to the text, whose base64
decodes to the bytes, and both fit the arrays they are written to. -/
structure IsFragment (bridge : Config) (dest : Radio) (seq : UInt8) (total idx : ℕ)
    (piece : Piece) : Prop where
  decodes : DecodesTo bridge (bridge.chan dest) piece.packet.frame
    (fragmentText seq idx total piece.chunk)
  decoded : bridge.base64.decode 200 piece.chunk = some piece.raw
  chunk_fits : piece.chunk.length + 1 ≤ 200
  text_fits : (fragmentText seq idx total piece.chunk).length + 1 ≤ 240

/-- A number of one digit. -/
theorem decimal_digit {n : ℕ} (hn : n ≤ 8) : (decimal n).length = 1 ∧ 0 ∉ decimal n := by
  revert n
  decide

theorem length_fragmentText (seq : UInt8) {idx total : ℕ} (hidx : idx < total) (htotal : total ≤ 8)
    (chunk : List UInt8) : (fragmentText seq idx total chunk).length = 13 + chunk.length := by
  have hnumber := (decimal_digit (by omega : idx + 1 ≤ 8)).1
  simp only [fragmentText, List.length_append, hexUpper2, length_hexDigits, hnumber,
    (decimal_digit htotal).1]
  rfl

theorem notMem_fragmentText (seq : UInt8) {idx total : ℕ} (hidx : idx < total)
    (htotal : total ≤ 8) {chunk : List UInt8} (hchunk : 0 ∉ chunk) :
    0 ∉ fragmentText seq idx total chunk := by
  have hnumber := (decimal_digit (by omega : idx + 1 ≤ 8)).2
  have hascii : 0 ∉ ascii "[rns " ∧ 0 ∉ ascii " " ∧ 0 ∉ ascii "/" ∧ 0 ∉ ascii "] " := by decide
  simp only [fragmentText, List.mem_append, not_or]
  exact ⟨⟨⟨⟨⟨⟨⟨hascii.1, notMem_hexUpper2 seq⟩, hascii.2.1⟩, hnumber⟩, hascii.2.2.1⟩,
    (decimal_digit htotal).2⟩, hascii.2.2.2⟩, hchunk⟩

/-- The text is not cut to `marked[240]`. -/
theorem cString_marked (seq : UInt8) {idx total : ℕ} (hidx : idx < total) (htotal : total ≤ 8)
    {chunk : List UInt8} (hlength : chunk.length ≤ 164) (hchunk : 0 ∉ chunk) :
    cString (marked seq idx total chunk) = fragmentText seq idx total chunk := by
  have hfits : (fragmentText seq idx total chunk).length ≤ 239 := by
    rw [length_fragmentText seq hidx htotal]
    omega
  have hcut : marked seq idx total chunk = fragmentText seq idx total chunk :=
    List.take_of_length_le hfits
  rw [hcut]
  exact cString_of_notMem (notMem_fragmentText seq hidx htotal hchunk)

/-! ## One turn of the loop -/

section Turn

variable (bridge : Config) (env : Env) (dest : Radio)

theorem packs_fragmentPacket (hmesh : Mesh (bridge.chan dest)) (body : List UInt8)
    (state : State) :
    Packs bridge dest (cString body) ((fragmentPacket bridge env dest body).run state).result := by
  rw [fragmentPacket]
  split
  · exact packs_meshtasticPacket ‹_› _ _ _
  · exact packs_meshCorePacket (hmesh.resolve_left ‹_›) _ _

/-- The bytes of a fragment have a text in base64 that is, with its mark, short enough for
every buffer, and that is decoded to the bytes. -/
theorem encode_of_slice {chan : RadioChannel} {raw : List UInt8}
    (hraw : raw.length ≤ rawPerFrag chan) :
    ∃ chunk, bridge.base64.encode 200 raw = some chunk ∧
      bridge.base64.decode 200 chunk = some raw ∧ 0 ∉ chunk ∧ chunk.length ≤ 164 ∧
      13 + chunk.length ≤ textLimit chan := by
  have hbound : 4 * ((raw.length + 2) / 3) ≤ 164 ∧
      13 + 4 * ((raw.length + 2) / 3) ≤ textLimit chan := by
    rw [textLimit]
    rw [rawPerFrag] at hraw
    by_cases hprotocol : chan.protocol = SYNC_WORD_MESHTASTIC
    · rw [if_pos hprotocol, BRIDGE_RNS_RAW_PER_FRAG_MT] at hraw
      rw [if_pos hprotocol]
      omega
    · rw [if_neg hprotocol, BRIDGE_RNS_RAW_PER_FRAG_MC] at hraw
      rw [if_neg hprotocol]
      omega
  have hfits : 4 * ((raw.length + 2) / 3) + 1 ≤ 200 := by omega
  obtain ⟨chunk, hencode, hlength⟩ := bridge.base64.encode_fits hfits
  rw [← hlength] at hbound
  exact ⟨chunk, hencode, bridge.base64.decode_encode hencode (by omega),
    bridge.base64.zero_notMem_encode hencode, hbound⟩

/-- The packets that go out for the pieces, if the queue has a ring. -/
def sentOf (ring : Bool) (piece : Piece) : List Event :=
  if ring then [.sent .fragment dest piece.packet.frame (some piece.packet.content)] else []

/-- Every turn sends its fragment and goes on. -/
theorem run_enqueueFragment (hmesh : Mesh (bridge.chan dest)) (buf : List UInt8) {idx : ℕ}
    (hidx : idx < totalFrags (rawPerFrag (bridge.chan dest)) buf.length)
    (htotal : totalFrags (rawPerFrag (bridge.chan dest)) buf.length ≤ 8) (state : State) :
    let turn := (enqueueFragment bridge env dest (rawPerFrag (bridge.chan dest)) buf idx).run state
    turn.result = true ∧ allocated turn.state dest = allocated state dest ∧
      ∃ piece : Piece, piece.raw = slice (rawPerFrag (bridge.chan dest)) idx buf ∧
        IsFragment bridge dest (crc16_ccitt buf).toUInt8
          (totalFrags (rawPerFrag (bridge.chan dest)) buf.length) idx piece ∧
        turn.outputs = sentOf dest (allocated state dest) piece := by
  intro turn
  generalize htotalFrags : totalFrags (rawPerFrag (bridge.chan dest)) buf.length = total
    at hidx htotal ⊢
  have hraw : (slice (rawPerFrag (bridge.chan dest)) idx buf).length ≤
      rawPerFrag (bridge.chan dest) := List.length_take_le _ _
  have hturn : turn = (enqueueFragment bridge env dest (rawPerFrag (bridge.chan dest)) buf
    idx).run state := rfl
  rw [enqueueFragment, htotalFrags] at hturn
  generalize slice (rawPerFrag (bridge.chan dest)) idx buf = raw at hraw hturn ⊢
  generalize (crc16_ccitt buf).toUInt8 = seq at hturn ⊢
  obtain ⟨chunk, hencode, hdecode, hclean, hchunk, hlimit⟩ := encode_of_slice bridge hraw
  have hlength := length_fragmentText seq hidx htotal chunk
  have hpacks := packs_fragmentPacket bridge env dest hmesh (marked seq idx total chunk) state
  rw [cString_marked seq hidx htotal hchunk hclean, Packs,
    if_pos (hlength.trans_le hlimit)] at hpacks
  obtain ⟨packet, hresult, hcarries⟩ := hpacks
  obtain ⟨hsilent, hqueue, -, -⟩ := @still_fragmentPacket bridge env dest
    (marked seq idx total chunk) state
  simp only [hencode, run_bind, hresult, hsilent, run_pure, List.nil_append,
    List.append_nil] at hturn
  rw [hturn]
  generalize ((fragmentPacket bridge env dest (marked seq idx total chunk)).run
    state).state = encoded at hqueue
  have hring : allocated encoded dest = allocated state dest := by
    rw [allocated, allocated, hqueue]
  have hkept := @rings_recordAndPush env dest .fragment packet.frame packet.content encoded dest
  refine ⟨rfl, hkept.trans hring, ⟨packet, chunk, raw⟩, rfl,
    ⟨hcarries.decodes ?_, hdecode, ?_, ?_⟩, ?_⟩
  · exact List.ne_nil_of_length_pos (by omega)
  · dsimp only
    omega
  · dsimp only
    omega
  · dsimp only
    rw [outputs_recordAndPush hcarries.pos hcarries.le, hring, sentOf]

/-- What is done of a frame for a mesh. -/
theorem enqueueReticulumForDest_eq (hmesh : Mesh (bridge.chan dest)) {buf : List UInt8}
    (hbuf : buf ≠ []) :
    enqueueReticulumForDest bridge env dest buf =
      if BRIDGE_RNS_MAX_FRAGS < totalFrags (rawPerFrag (bridge.chan dest)) buf.length then pure ()
      else forEachWhile
        (List.range (totalFrags (rawPerFrag (bridge.chan dest)) buf.length))
        (enqueueFragment bridge env dest (rawPerFrag (bridge.chan dest)) buf) := by
  have hreticulum : (bridge.chan dest).protocol ≠ SYNC_WORD_RETICULUM := by
    rcases hmesh with h | h <;> rw [h] <;> decide
  have hother : ¬ ((bridge.chan dest).protocol ≠ SYNC_WORD_MESHTASTIC ∧
      (bridge.chan dest).protocol ≠ SYNC_WORD_MESHCORE) := by
    rw [← not_or, not_not]
    exact hmesh
  have hempty : buf.length ≠ 0 := mt List.length_eq_zero_iff.mp hbuf
  rw [enqueueReticulumForDest]
  dsimp only
  rw [if_neg hreticulum, if_neg hempty, if_neg hother]
  rfl

end Turn

/-- Every frame of up to eight times the bytes of a fragment goes out as fragments 1 to y of y
in order, under one sequence byte; what their base64 decodes to makes up the frame.  Of a
longer frame nothing goes out. -/
theorem reticulum_fragments (bridge : Config) (env : Env) (dest : Radio) (buf : List UInt8)
    (state : State) (hmesh : Mesh (bridge.chan dest)) :
    let run := (enqueueReticulumForDest bridge env dest buf).run state
    (buf ≠ [] → buf.length ≤ BRIDGE_RNS_MAX_FRAGS * rawPerFrag (bridge.chan dest) →
        ∃ pieces : List Piece,
          pieces.length = totalFrags (rawPerFrag (bridge.chan dest)) buf.length ∧
          List.Forall₂ (IsFragment bridge dest (crc16_ccitt buf).toUInt8 pieces.length)
            (List.range pieces.length) pieces ∧
          (pieces.map Piece.raw).flatten = buf ∧
          run.outputs = pieces.flatMap (sentOf dest (allocated state dest))) ∧
      (BRIDGE_RNS_MAX_FRAGS * rawPerFrag (bridge.chan dest) < buf.length →
        run.outputs = [] ∧ run.state = state) := by
  intro run
  have hpos : 0 < rawPerFrag (bridge.chan dest) := by
    rw [rawPerFrag]
    split <;> decide
  have hbound := totalFrags_le_iff hpos buf.length BRIDGE_RNS_MAX_FRAGS
  constructor
  · intro hbuf hlength
    have htotal := hbound.mpr hlength
    have hrun : run = (enqueueReticulumForDest bridge env dest buf).run state := rfl
    rw [enqueueReticulumForDest_eq bridge env dest hmesh hbuf, if_neg (Nat.not_lt.mpr htotal)]
      at hrun
    obtain ⟨pieces, hpieces, houtputs⟩ := run_forEachWhile
      (fun idx hidx state' (hring : allocated state' dest = allocated state dest) => by
        obtain ⟨hresult, hkept, piece, hraw, hfragment, hsent⟩ := run_enqueueFragment bridge env
          dest hmesh buf (List.mem_range.mp hidx) htotal state'
        exact ⟨hresult, hkept.trans hring, piece, And.intro hraw hfragment, hring ▸ hsent⟩) rfl
    have hcount := hpieces.length_eq
    rw [List.length_range] at hcount
    have hslices : List.Forall₂ (· = ·)
        ((List.range (totalFrags (rawPerFrag (bridge.chan dest)) buf.length)).map fun idx =>
          slice (rawPerFrag (bridge.chan dest)) idx buf) (pieces.map Piece.raw) := by
      rw [List.forall₂_map_left_iff, List.forall₂_map_right_iff]
      exact hpieces.imp fun _ _ hpiece => hpiece.1.symm
    rw [List.forall₂_eq_eq_eq] at hslices
    refine ⟨pieces, hcount.symm, ?_, ?_, by rw [hrun, houtputs]⟩
    · rw [← hcount]
      exact hpieces.imp fun _ _ hpiece => hpiece.2
    · rw [← hslices, flatten_slices]
      exact List.take_of_length_le (le_totalFrags hpos buf.length)
  · intro hlong
    have hbuf : buf ≠ [] := by
      rintro rfl
      exact absurd hlong (Nat.not_lt_zero _)
    have hmany := Nat.lt_of_not_le (mt hbound.mp (Nat.not_le.mpr hlong))
    have hrun : run = (enqueueReticulumForDest bridge env dest buf).run state := rfl
    rw [enqueueReticulumForDest_eq bridge env dest hmesh hbuf, if_pos hmany] at hrun
    rw [hrun]
    exact ⟨rfl, rfl⟩

/-- One byte more than fits a fragment takes two. -/
theorem two_fragments : ∃ pieces : List Piece, pieces.length = 2 ∧
    (pieces.map Piece.raw).flatten = List.replicate 124 1 ∧
      ((enqueueReticulumForDest meshBridge exampleEnv 1 (List.replicate 124 1)).run
        (exampleState meshBridge)).outputs = pieces.flatMap (sentOf 1 true) := by
  have hfragments := reticulum_fragments meshBridge exampleEnv 1 (List.replicate 124 1)
    (exampleState meshBridge) (.inl protocol_one)
  have hlength : (List.replicate 124 (1 : UInt8)).length = 124 := List.length_replicate
  have hbuf : List.replicate 124 (1 : UInt8) ≠ [] := List.cons_ne_nil _ _
  rw [hlength] at hfragments
  obtain ⟨pieces, hcount, -, hraw, houtputs⟩ := hfragments.1 hbuf (by decide)
  exact ⟨pieces, hcount.trans (by decide), hraw, houtputs⟩

end LoraBridge.FragmentDelivery
