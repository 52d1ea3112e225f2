import LoraBridge.Camera.AviHeader

/-!
# Recordings as AVI files

A player reads a recording as nested RIFF chunks.  Whatever frames the camera gave, the file
parses: every length is exact, the frames come back, and the index finds each of them.
-/

namespace LoraBridge.AviFile

open LoraBridge.AviHeader LoraBridge.CameraNode LoraBridge.Memory LoraBridge.Riff

/-! ## What a player reads -/

/-- The parts of an AVI file: the data of its two headers and of the stream format, the
data of the `movi` list and its chunks, and the index. -/
structure Avi where
  avih : List UInt8
  strh : List UInt8
  strf : List UInt8
  movi : List UInt8
  frames : List Chunk
  index : List UInt8

/-- A file of one RIFF chunk, with nothing behind it and nothing else in it. -/
def parseAvi (file : List UInt8) : Option Avi := do
  let [riff] ← parse file | none
  let [hdrl, movi, idx1] ← parseList RIFF AVI riff | none
  let [avih, strl] ← parseList LIST HDRL hdrl | none
  let [strh, strf] ← parseList LIST STRL strl | none
  let frames ← parseList LIST MOVI movi
  if avih.id = AVIH ∧ strh.id = STRH ∧ strf.id = STRF ∧ idx1.id = IDX1 then
    some ⟨avih.data, strh.data, strf.data, movi.data, frames, idx1.data⟩
  else none

/-- The k-th entry of the index leads to the chunk of this frame: the offset counts from the
`movi` code, with which the data of the list begins. -/
structure PointsTo (avi : Avi) (k : ℕ) (frame : List UInt8) : Prop where
  id : (avi.index.drop (16 * k)).take 4 = FRAME
  length : wordAt avi.index (16 * k + 12) = frame.length
  chunk : Chunk.encode ⟨FRAME, frame⟩ <+: avi.movi.drop (wordAt avi.index (16 * k + 8))

/-- The file holds these frames, and counts and finds all of them. -/
structure Holds (avi : Avi) (frames : List (List UInt8)) : Prop where
  headers : avi.avih.length = 56 ∧ avi.strh.length = 56 ∧ avi.strf.length = 40
  chunks : avi.frames = frames.map (Chunk.mk FRAME)
  totalFrames : wordAt avi.avih 16 = frames.length
  streamLength : wordAt avi.strh 32 = frames.length
  indexLength : avi.index.length = 16 * frames.length
  index : ∀ k frame, frames[k]? = some frame → PointsTo avi k frame

/-! ## What is recorded -/

/-- The frames a recording takes: those the turns got, up to the cap. -/
def captured (turns : List (Option Frame)) : List Frame :=
  (turns.filterMap id).take REC_MAX_FRAMES.toNat

def frameChunk (fb : Frame) : Chunk := ⟨FRAME, fb.buf⟩

/-- The chunks of the `movi` list. -/
def moviChunks (frames : List Frame) : List Chunk := frames.map frameChunk

@[simp]
theorem moviChunks_cons (fb : Frame) (frames : List Frame) :
    moviChunks (fb :: frames) = frameChunk fb :: moviChunks frames := rfl

/-- The length of the file: its header, a padded chunk for each frame, and the index. -/
def fileSize (frames : List Frame) : ℕ :=
  224 + (frames.map fun fb => 8 + fb.buf.length + fb.buf.length % 2).sum + 8 + 16 * frames.length

/-- The index of chunks that begin at an offset. -/
def indexOf : ℕ → List Frame → List IdxEnt
  | _, [] => []
  | offset, fb :: frames =>
      ⟨UInt32.ofNat offset, UInt32.ofNat fb.buf.length⟩ ::
        indexOf (offset + (frameChunk fb).encode.length) frames

/-- What has been written in front of the frames. -/
def headerOf : List Frame → List UInt8
  | [] => []
  | fb :: _ => aviHeader fb.width.toUInt16 fb.height.toUInt16

/-- What `recTask` holds behind these frames. -/
structure Recorded (frames : List Frame) (r : Rec) : Prop where
  count : r.frames = UInt32.ofNat frames.length
  moviBytes : r.moviBytes = UInt32.ofNat (4 + (encodeAll (moviChunks frames)).length)
  hdrDone : r.hdrDone = !frames.isEmpty
  idx : r.idx = indexOf 4 frames
  bytes : r.file.bytes = headerOf frames ++ encodeAll (moviChunks frames)
  pos : r.file.pos = r.file.bytes.length

theorem recorded_start : Recorded [] Rec.start where
  count := rfl
  moviBytes := rfl
  hdrDone := rfl
  idx := rfl
  bytes := rfl
  pos := rfl

theorem write_bytes {file : File} (hpos : file.pos = file.bytes.length) (data : List UInt8) :
    (file.write data).bytes = file.bytes ++ data := by
  rw [File.write, put, hpos, List.take_length, List.drop_of_length_le (Nat.le_add_right _ _),
    List.append_nil]

/-- Writing at the end leaves the position at the end. -/
theorem write_pos {file : File} (hpos : file.pos = file.bytes.length) (data : List UInt8) :
    (file.write data).pos = (file.write data).bytes.length := by
  rw [write_bytes hpos, List.length_append, File.write, hpos]

theorem indexOf_append (offset : ℕ) (frames : List Frame) (fb : Frame) :
    indexOf offset (frames ++ [fb]) = indexOf offset frames ++
      [⟨UInt32.ofNat (offset + (encodeAll (moviChunks frames)).length),
        UInt32.ofNat fb.buf.length⟩] := by
  induction frames generalizing offset with
  | nil => rfl
  | cons first frames ih =>
      rw [List.cons_append, indexOf, ih, indexOf]
      simp only [moviChunks_cons, encodeAll_cons, List.length_append, List.cons_append,
        Nat.add_assoc]

theorem odd_iff (n : ℕ) : UInt32.ofNat n &&& 1 ≠ 0 ↔ n % 2 = 1 := by
  rw [ne_eq, ← UInt32.toNat_inj]
  simp only [UInt32.toNat_and, UInt32.toNat_ofNat', UInt32.reduceToNat, Nat.and_one_is_mod]
  omega

/-- What a chunk adds to the length of its list. -/
theorem padded_length (n : ℕ) :
    (8 + if UInt32.ofNat n &&& 1 ≠ 0 then UInt32.ofNat n + 1 else UInt32.ofNat n) =
      UInt32.ofNat (8 + n + n % 2) := by
  have height : UInt32.ofNat (8 + n) = 8 + UInt32.ofNat n := UInt32.ofNat_add 8 n
  by_cases hparity : n % 2 = 1
  · rw [if_pos ((odd_iff n).mpr hparity), hparity, UInt32.ofNat_add, height, UInt32.add_assoc]
    rfl
  · have heven : n % 2 = 0 := by omega
    rw [if_neg (mt (odd_iff n).mp hparity), heven, Nat.add_zero, height]

/-! ## The loop -/

theorem length_frameChunk (fb : Frame) :
    (frameChunk fb).encode.length = 8 + fb.buf.length + fb.buf.length % 2 :=
  length_encode rfl

/-- The header is in the file once there is a frame. -/
theorem withHeader_bytes {frames : List Frame} {r : Rec} (hrecorded : Recorded frames r)
    (fb : Frame) :
    (r.withHeader fb).bytes = headerOf (frames ++ [fb]) ++ encodeAll (moviChunks frames) ∧
      (r.withHeader fb).pos = (r.withHeader fb).bytes.length := by
  have hdone := hrecorded.hdrDone
  have hbytes := hrecorded.bytes
  cases frames with
  | nil =>
      rw [List.isEmpty_nil, Bool.not_true] at hdone
      rw [Rec.withHeader, hdone, if_neg (by simp)]
      refine ⟨?_, write_pos hrecorded.pos _⟩
      rw [write_bytes hrecorded.pos, hbytes]
      simp only [headerOf, moviChunks, List.map_nil, encodeAll_nil, List.nil_append,
        List.append_nil]
  | cons first frames =>
      rw [List.isEmpty_cons, Bool.not_false] at hdone
      rw [Rec.withHeader, hdone, if_pos rfl]
      refine ⟨?_, hrecorded.pos⟩
      rw [hbytes]
      simp only [headerOf, List.cons_append]

/-- A turn with a frame writes its chunk, padding included. -/
theorem recorded_recFrame {frames : List Frame} {r : Rec} (hrecorded : Recorded frames r)
    (fb : Frame) : Recorded (frames ++ [fb]) (recFrame r fb) := by
  obtain ⟨hbytes, hpos⟩ := withHeader_bytes hrecorded fb
  have hchunks : moviChunks (frames ++ [fb]) = moviChunks frames ++ [frameChunk fb] :=
    List.map_append
  have hlength : (encodeAll (moviChunks (frames ++ [fb]))).length =
      (encodeAll (moviChunks frames)).length + (8 + fb.buf.length + fb.buf.length % 2) := by
    rw [hchunks, encodeAll_append, List.length_append, encodeAll_cons, encodeAll_nil,
      List.append_nil, length_frameChunk]
  have hdata := write_pos (write_pos hpos (FRAME ++ wordBytes (UInt32.ofNat fb.buf.length)))
    fb.buf
  have hwritten : (((r.withHeader fb).write (FRAME ++
      wordBytes (UInt32.ofNat fb.buf.length))).write fb.buf).bytes =
        (r.withHeader fb).bytes ++ (FRAME ++ word fb.buf.length ++ fb.buf) := by
    rw [write_bytes (write_pos hpos _), write_bytes hpos, wordBytes_eq, List.append_assoc]
  have hodd := odd_iff fb.buf.length
  refine ⟨?_, ?_, ?_, ?_, ?_, ?_⟩
  · rw [recFrame, hrecorded.count, List.length_append, List.length_singleton, UInt32.ofNat_add]
    rfl
  · rw [hlength, ← Nat.add_assoc 4, UInt32.ofNat_add, ← padded_length, ← hrecorded.moviBytes]
    rfl
  · simp [recFrame]
  · rw [indexOf_append, recFrame, hrecorded.idx, hrecorded.moviBytes]
  · rw [recFrame, hchunks, encodeAll_append, encodeAll_cons, encodeAll_nil, List.append_nil]
    by_cases hparity : fb.buf.length % 2 = 1
    · simp only [if_pos (hodd.mpr hparity)]
      rw [write_bytes hdata, hwritten, hbytes, frameChunk, Chunk.encode, padding, if_pos hparity]
      simp only [List.append_assoc]
    · simp only [if_neg (mt hodd.mp hparity)]
      rw [hwritten, hbytes, frameChunk, Chunk.encode, padding, if_neg hparity]
      simp only [List.append_assoc, List.append_nil]
  · simp only [recFrame]
    split
    · exact write_pos hdata _
    · exact hdata

/-- The whole loop takes the captured frames. -/
theorem recorded_recLoop (turns : List (Option Frame)) {frames : List Frame} {r : Rec}
    (hrecorded : Recorded frames r) (hcap : frames.length ≤ 3000) :
    Recorded (frames ++ (turns.filterMap id).take (3000 - frames.length)) (recLoop turns r) := by
  induction turns generalizing frames r with
  | nil => simpa [recLoop] using hrecorded
  | cons turn turns ih =>
      have hcap32 : REC_MAX_FRAMES.toNat = 3000 := rfl
      have hcount : r.frames < REC_MAX_FRAMES ↔ frames.length < 3000 := by
        rw [hrecorded.count, UInt32.lt_iff_toNat_lt, hcap32, UInt32.toNat_ofNat',
          Nat.mod_eq_of_lt (by omega)]
      by_cases hroom : frames.length < 3000
      · cases turn with
        | none =>
            rw [recLoop, if_pos (hcount.mpr hroom)]
            exact ih hrecorded hcap
        | some fb =>
            have hnext := ih (recorded_recFrame hrecorded fb)
              (by rw [List.length_append, List.length_singleton]; omega)
            have hleft : 3000 - frames.length = 3000 - (frames ++ [fb]).length + 1 := by
              rw [List.length_append, List.length_singleton]
              omega
            rw [List.append_assoc, List.singleton_append] at hnext
            have hcons : (some fb :: turns).filterMap id = fb :: turns.filterMap id := rfl
            rw [recLoop, if_pos (hcount.mpr hroom)]
            rwa [hcons, hleft, List.take_succ_cons]
      · have hfull : 3000 - frames.length = 0 := by omega
        have hstop : recLoop (turn :: turns) r = r := by
          cases turn <;> rw [recLoop, if_neg (mt hcount.mp hroom)]
        rw [hstop, hfull, List.take_zero, List.append_nil]
        exact hrecorded

theorem recorded_captured (turns : List (Option Frame)) :
    Recorded (captured turns) (recLoop turns Rec.start) :=
  recorded_recLoop turns recorded_start (Nat.zero_le _)

theorem length_captured (turns : List (Option Frame)) : (captured turns).length ≤ 3000 :=
  List.length_take_le _ _

/-! ## The finished file -/

theorem foldl_write (entries : List IdxEnt) {file : File}
    (hpos : file.pos = file.bytes.length) :
    (entries.foldl (fun file e => file.write (indexEntry e)) file).bytes =
      file.bytes ++ entries.flatMap indexEntry := by
  induction entries generalizing file with
  | nil => simp
  | cons e entries ih =>
      rw [List.foldl_cons, ih (write_pos hpos _), write_bytes hpos, List.flatMap_cons,
        List.append_assoc]

def indexBytes (frames : List Frame) : List UInt8 := (indexOf 4 frames).flatMap indexEntry

/-- The three parts of the RIFF list. -/
def aviChunks (usPerFrame : UInt32) (frames : List Frame) (w h : UInt16) : List Chunk :=
  let count := UInt32.ofNat frames.length
  [hdrl usPerFrame count usPerFrame count w h, .list LIST MOVI (moviChunks frames),
    ⟨IDX1, indexBytes frames⟩]

theorem length_indexOf (offset : ℕ) (frames : List Frame) :
    (indexOf offset frames).length = frames.length := by
  induction frames generalizing offset with
  | nil => rfl
  | cons fb frames ih => rw [indexOf, List.length_cons, List.length_cons, ih]

theorem length_indexEntry (e : IdxEnt) : (indexEntry e).length = 16 := by
  simp [indexEntry, FRAME]

theorem length_indexBytes (frames : List Frame) :
    (indexBytes frames).length = 16 * frames.length := by
  simp [indexBytes, List.length_flatMap, length_indexEntry, length_indexOf, Nat.mul_comm]

/-- The frames end at an even offset. -/
theorem moviChunks_even (frames : List Frame) :
    (encodeAll (moviChunks frames)).length % 2 = 0 := by
  induction frames with
  | nil => rfl
  | cons fb frames ih =>
      rw [moviChunks_cons, encodeAll_cons, List.length_append, length_frameChunk]
      omega

theorem length_hdrl (usPerFrame frames scale length : UInt32) (w h : UInt16) :
    (hdrl usPerFrame frames scale length w h).encode.length = 200 := by
  rw [encode_hdrl]
  simp [length_avih, length_strh, length_strf, HDRL, AVIH, LIST, STRL, STRH, STRF]

theorem encode_movi (frames : List Frame) :
    Chunk.encode (.list LIST MOVI (moviChunks frames)) =
      LIST ++ (word (4 + (encodeAll (moviChunks frames)).length) ++
        (MOVI ++ encodeAll (moviChunks frames))) := by
  have heven := moviChunks_even frames
  exact encode_of_even List.length_append (by omega)

theorem encode_idx1 (frames : List Frame) :
    Chunk.encode ⟨IDX1, indexBytes frames⟩ =
      IDX1 ++ (word (16 * frames.length) ++ indexBytes frames) :=
  encode_of_even (length_indexBytes frames) (by omega)

/-- The length of the three parts. -/
theorem length_aviChunks (usPerFrame : UInt32) (frames : List Frame) (w h : UInt16) :
    (encodeAll (aviChunks usPerFrame frames w h)).length =
      220 + (encodeAll (moviChunks frames)).length + 16 * frames.length := by
  simp only [aviChunks, encodeAll_cons, encodeAll_nil, List.append_nil, List.length_append,
    length_hdrl, encode_movi, encode_idx1, length_word, length_indexBytes]
  simp only [LIST, MOVI, IDX1, List.length_cons, List.length_nil]
  omega

theorem encode_avi (usPerFrame : UInt32) (frames : List Frame) (w h : UInt16) :
    Chunk.encode (.list RIFF AVI (aviChunks usPerFrame frames w h)) =
      RIFF ++ (word (224 + (encodeAll (moviChunks frames)).length + 16 * frames.length) ++ (AVI ++
        ((hdrl usPerFrame (UInt32.ofNat frames.length) usPerFrame (UInt32.ofNat frames.length)
          w h).encode ++
            (LIST ++ (word (4 + (encodeAll (moviChunks frames)).length) ++ (MOVI ++
              (encodeAll (moviChunks frames) ++
                (IDX1 ++ (word (16 * frames.length) ++ indexBytes frames))))))))) := by
  have hlength : (AVI ++ encodeAll (aviChunks usPerFrame frames w h)).length =
      224 + (encodeAll (moviChunks frames)).length + 16 * frames.length := by
    rw [List.length_append, length_aviChunks]
    simp only [AVI, List.length_cons, List.length_nil]
    omega
  have heven := moviChunks_even frames
  rw [Chunk.list, encode_of_even hlength (by omega)]
  simp only [aviChunks, encodeAll_cons, encodeAll_nil, encode_movi, encode_idx1, List.append_assoc,
    List.append_nil]

/-- The sum `finalize` makes for the RIFF size. -/
theorem total_eq (movi count : ℕ) :
    224 + (UInt32.ofNat (4 + movi) - 4) + 8 + UInt32.ofNat (16 * count) - 8 =
      UInt32.ofNat (224 + movi + 16 * count) := by
  have hmovi : UInt32.ofNat (4 + movi) - 4 = UInt32.ofNat movi := by
    have hsub := @UInt32.ofNat_sub (4 + movi) 4 (Nat.le_add_right 4 movi)
    rw [Nat.add_sub_cancel_left] at hsub
    exact hsub.symm
  have hsum : 224 + UInt32.ofNat movi + 8 + UInt32.ofNat (16 * count) =
      UInt32.ofNat (224 + movi + 8 + 16 * count) := by
    rw [UInt32.ofNat_add, UInt32.ofNat_add, UInt32.ofNat_add]
    rfl
  have hrest : 224 + movi + 16 * count = 224 + movi + 8 + 16 * count - 8 := by omega
  rw [hmovi, hsum, hrest, UInt32.ofNat_sub (by omega)]
  rfl

/-- The width and height in the header are those of the first frame. -/
theorem headerOf_eq {frames : List Frame} (hframes : frames ≠ []) :
    ∃ w h, headerOf frames = header 0 0 0 0 0 0 w h := by
  cases frames with
  | nil => exact absurd rfl hframes
  | cons fb frames => exact ⟨_, _, aviHeader_eq _ _⟩

/-- What `finalize` writes is one RIFF list: each length it has counted is the length of
what it stands in front of. -/
theorem finalize_eq {frames : List Frame} {r : Rec} (hrecorded : Recorded frames r)
    (hframes : frames ≠ []) (hcap : frames.length ≤ 3000) (elapsedMs : UInt32) :
    ∃ usPerFrame w h, finalize r elapsedMs =
      some (Chunk.encode (.list RIFF AVI (aviChunks usPerFrame frames w h))) := by
  obtain ⟨w, h, hheader⟩ := headerOf_eq hframes
  have hpos := List.length_pos_iff.mpr hframes
  have hsome : r.frames ≠ 0 := by
    rw [hrecorded.count, ne_eq, ← UInt32.toNat_inj, UInt32.toNat_ofNat',
      Nat.mod_eq_of_lt (by omega), UInt32.toNat_zero]
    omega
  refine ⟨elapsedMs * 1000 / r.frames, w, h, ?_⟩
  have hend := write_pos hrecorded.pos (IDX1 ++ wordBytes (r.frames * 16))
  have hindex : UInt32.ofNat frames.length * 16 = UInt32.ofNat (16 * frames.length) := by
    rw [Nat.mul_comm]
    exact (UInt32.ofNat_mul frames.length 16).symm
  have hbytes : (r.idx.foldl (fun file e => file.write (indexEntry e))
      (r.file.write (IDX1 ++ wordBytes (r.frames * 16)))).bytes =
        header 0 0 0 0 0 0 w h ++ (encodeAll (moviChunks frames) ++
          (IDX1 ++ (word (16 * frames.length) ++ indexBytes frames))) := by
    rw [foldl_write _ hend, write_bytes hrecorded.pos, hrecorded.bytes, hrecorded.idx, hheader,
      hrecorded.count, hindex, wordBytes_eq]
    simp only [indexBytes, List.append_assoc]
  have htotal : 224 + (r.moviBytes - 4) + 8 + r.frames * 16 - 8 =
      UInt32.ofNat (224 + (encodeAll (moviChunks frames)).length + 16 * frames.length) := by
    rw [hrecorded.moviBytes, hrecorded.count, hindex, total_eq]
  rw [finalize, if_neg hsome, encode_avi]
  dsimp only
  rw [fillHeader_bytes hbytes, htotal, header_eq, hrecorded.moviBytes, wordBytes_eq, wordBytes_eq,
    hrecorded.count]
  simp only [List.append_assoc]

/-! ## The file as a player reads it -/

/-- The data of the `movi` list. -/
def moviData (frames : List Frame) : List UInt8 := MOVI ++ encodeAll (moviChunks frames)

/-- What a player finds. -/
def aviOf (usPerFrame : UInt32) (frames : List Frame) (w h : UInt16) : Avi where
  avih := avih usPerFrame (UInt32.ofNat frames.length) w h
  strh := strh usPerFrame (UInt32.ofNat frames.length) w h
  strf := strf w h
  movi := moviData frames
  frames := moviChunks frames
  index := indexBytes frames

theorem fits_avi {usPerFrame : UInt32} {frames : List Frame} {w h : UInt16}
    (hsize : 224 + (encodeAll (moviChunks frames)).length + 16 * frames.length < 2 ^ 32) :
    (Chunk.list RIFF AVI (aviChunks usPerFrame frames w h)).Fits := by
  refine ⟨rfl, ?_⟩
  rw [Chunk.list, List.length_append, length_aviChunks]
  simp only [AVI, List.length_cons, List.length_nil]
  omega

theorem parseList_strl {usPerFrame count : UInt32} {w h : UInt16}
    (hfits : (strl usPerFrame count w h).Fits) :
    parseList LIST STRL (strl usPerFrame count w h) =
      some [⟨STRH, strh usPerFrame count w h⟩, ⟨STRF, strf w h⟩] := by
  have hstrh : (Chunk.mk STRH (strh usPerFrame count w h)).Fits := hfits.of_mem (by simp) rfl
  have hstrf : (Chunk.mk STRF (strf w h)).Fits := hfits.of_mem (by simp) rfl
  rw [strl, parseList_list LIST rfl]
  simp only [List.forall_mem_cons]
  exact ⟨hstrh, hstrf, by simp⟩

theorem parseList_hdrl {usPerFrame count : UInt32} {w h : UInt16}
    (hfits : (hdrl usPerFrame count usPerFrame count w h).Fits) :
    parseList LIST HDRL (hdrl usPerFrame count usPerFrame count w h) =
      some [⟨AVIH, avih usPerFrame count w h⟩, strl usPerFrame count w h] := by
  have havih : (Chunk.mk AVIH (avih usPerFrame count w h)).Fits :=
    hfits.of_mem (by simp) rfl
  have hstrl : (strl usPerFrame count w h).Fits := hfits.of_mem (by simp) rfl
  rw [hdrl, parseList_list LIST rfl]
  simp only [List.forall_mem_cons]
  exact ⟨havih, hstrl, by simp⟩

theorem parseList_movi {frames : List Frame}
    (hfits : (Chunk.list LIST MOVI (moviChunks frames)).Fits) :
    parseList LIST MOVI (.list LIST MOVI (moviChunks frames)) = some (moviChunks frames) := by
  refine parseList_list LIST rfl fun chunk hmem => ?_
  obtain ⟨fb, -, rfl⟩ := List.mem_map.mp hmem
  exact hfits.of_mem hmem rfl

/-- Each length can be declared, since that of the file can. -/
theorem parseAvi_encode {usPerFrame : UInt32} {frames : List Frame} {w h : UInt16}
    (hsize : 224 + (encodeAll (moviChunks frames)).length + 16 * frames.length < 2 ^ 32) :
    parseAvi (Chunk.encode (.list RIFF AVI (aviChunks usPerFrame frames w h))) =
      some (aviOf usPerFrame frames w h) := by
  have hriff : (Chunk.list RIFF AVI (aviChunks usPerFrame frames w h)).Fits := fits_avi hsize
  generalize hcount : UInt32.ofNat frames.length = count
  have hhdrl : (hdrl usPerFrame count usPerFrame count w h).Fits :=
    hriff.of_mem (by simp [aviChunks, hcount]) rfl
  have hmovi : (Chunk.list LIST MOVI (moviChunks frames)).Fits :=
    hriff.of_mem (by simp [aviChunks]) rfl
  have hidx1 : (Chunk.mk IDX1 (indexBytes frames)).Fits :=
    hriff.of_mem (by simp [aviChunks]) rfl
  have hstrl : (strl usPerFrame count w h).Fits := hhdrl.of_mem (by simp) rfl
  have hfile : parse (Chunk.encode (.list RIFF AVI (aviChunks usPerFrame frames w h))) =
      some [.list RIFF AVI (aviChunks usPerFrame frames w h)] := by
    have hone := parse_encodeAll (List.forall_mem_singleton.mpr hriff)
    rwa [encodeAll_cons, encodeAll_nil, List.append_nil] at hone
  have hparts : parseList RIFF AVI (.list RIFF AVI (aviChunks usPerFrame frames w h)) =
      some [hdrl usPerFrame count usPerFrame count w h, .list LIST MOVI (moviChunks frames),
        ⟨IDX1, indexBytes frames⟩] := by
    rw [parseList_list RIFF rfl, aviChunks, hcount]
    simp only [aviChunks, hcount, List.forall_mem_cons]
    exact ⟨hhdrl, hmovi, hidx1, by simp⟩
  rw [parseAvi, hfile]
  simp only [Option.bind_eq_bind, Option.bind_some]
  rw [hparts]
  simp only [Option.bind_some, parseList_hdrl hhdrl, parseList_strl hstrl, parseList_movi hmovi]
  rw [if_pos ⟨trivial, trivial, trivial, trivial⟩, aviOf, hcount]
  rfl

/-- The k-th entry of the index, and what follows it. -/
theorem drop_indexOf {frames : List Frame} {k : ℕ} {fb : Frame} (hfb : frames[k]? = some fb)
    (offset : ℕ) :
    ∃ rest, ((indexOf offset frames).flatMap indexEntry).drop (16 * k) =
      FRAME ++ (word 0x10 ++ (word (offset + (encodeAll (moviChunks (frames.take k))).length) ++
        (word fb.buf.length ++ rest))) := by
  induction frames generalizing k offset with
  | nil => cases hfb
  | cons first frames ih =>
      have hentry : (indexOf offset (first :: frames)).flatMap indexEntry =
          indexEntry ⟨UInt32.ofNat offset, UInt32.ofNat first.buf.length⟩ ++
            (indexOf (offset + (frameChunk first).encode.length) frames).flatMap indexEntry := rfl
      cases k with
      | zero =>
          obtain rfl := Option.some.inj hfb
          refine ⟨(indexOf (offset + (frameChunk first).encode.length) frames).flatMap indexEntry,
            ?_⟩
          rw [hentry, indexEntry, wordBytes_eq, wordBytes_eq]
          simp only [List.append_assoc]
          rfl
      | succ k =>
          obtain ⟨rest, hrest⟩ := ih hfb (offset + (frameChunk first).encode.length)
          refine ⟨rest, ?_⟩
          have hskip : 16 * (k + 1) = (indexEntry
              ⟨UInt32.ofNat offset, UInt32.ofNat first.buf.length⟩).length + 16 * k := by
            rw [length_indexEntry]
            omega
          rw [hentry, hskip, ← List.drop_drop, List.drop_left, hrest]
          simp only [List.take_succ_cons, moviChunks_cons, encodeAll_cons, List.length_append,
            Nat.add_assoc]

/-- The chunks in front of the k-th, that chunk, and those behind it. -/
theorem moviChunks_split {frames : List Frame} {k : ℕ} {fb : Frame}
    (hfb : frames[k]? = some fb) :
    encodeAll (moviChunks frames) = encodeAll (moviChunks (frames.take k)) ++
      ((frameChunk fb).encode ++ encodeAll (moviChunks (frames.drop (k + 1)))) := by
  obtain ⟨hk, rfl⟩ := List.getElem?_eq_some_iff.mp hfb
  have hsplit : frames = frames.take k ++ frames[k] :: frames.drop (k + 1) := by
    rw [List.getElem_cons_drop, List.take_append_drop]
  conv_lhs => rw [hsplit]
  simp only [moviChunks, List.map_append, List.map_cons, encodeAll_append, encodeAll_cons]

/-- The k-th chunk of the list lies behind those in front of it. -/
theorem drop_moviData {frames : List Frame} {k : ℕ} {fb : Frame} (hfb : frames[k]? = some fb) :
    (frameChunk fb).encode <+:
      (moviData frames).drop (4 + (encodeAll (moviChunks (frames.take k))).length) := by
  have hdrop : (moviData frames).drop (4 + (encodeAll (moviChunks (frames.take k))).length) =
      (frameChunk fb).encode ++ encodeAll (moviChunks (frames.drop (k + 1))) := by
    rw [moviData, moviChunks_split hfb, ← List.append_assoc]
    exact List.drop_left' List.length_append
  rw [hdrop]
  exact List.prefix_append _ _

theorem length_buf_le {frames : List Frame} {k : ℕ} {fb : Frame} (hfb : frames[k]? = some fb) :
    (encodeAll (moviChunks (frames.take k))).length + fb.buf.length ≤
      (encodeAll (moviChunks frames)).length := by
  have hlength := congrArg List.length (moviChunks_split hfb)
  rw [List.length_append, List.length_append, length_frameChunk] at hlength
  omega

/-- The two places of the frame count. -/
theorem wordAt_avih {usPerFrame : UInt32} {n : ℕ} {w h : UInt16} (hn : n < 2 ^ 32) :
    wordAt (avih usPerFrame (UInt32.ofNat n) w h) 16 = n := by
  rw [avih, wordBytes_eq n, ← List.append_assoc, ← List.append_assoc]
  exact wordAt_append (wordBytes usPerFrame ++ zeros 8 ++ wordBytes 0x10) hn _

theorem wordAt_strh {scale : UInt32} {n : ℕ} {w h : UInt16} (hn : n < 2 ^ 32) :
    wordAt (strh scale (UInt32.ofNat n) w h) 32 = n := by
  rw [strh, wordBytes_eq n, ← List.append_assoc, ← List.append_assoc, ← List.append_assoc,
    ← List.append_assoc, ← List.append_assoc]
  exact wordAt_append
    (VIDS ++ MJPG ++ zeros 12 ++ wordBytes scale ++ wordBytes 1000000 ++ zeros 4) hn _

/-- What a player finds are the frames, counted and indexed. -/
theorem holds_aviOf {usPerFrame : UInt32} {frames : List Frame} {w h : UInt16}
    (hsize : 224 + (encodeAll (moviChunks frames)).length + 16 * frames.length < 2 ^ 32) :
    Holds (aviOf usPerFrame frames w h) (frames.map Frame.buf) where
  headers := ⟨length_avih _ _ _ _, length_strh _ _ _ _, length_strf _ _⟩
  chunks := by
    rw [aviOf, moviChunks, List.map_map]
    rfl
  totalFrames := by
    rw [List.length_map]
    exact wordAt_avih (by omega)
  streamLength := by
    rw [List.length_map]
    exact wordAt_strh (by omega)
  indexLength := by
    rw [List.length_map]
    exact length_indexBytes frames
  index k frame hframe := by
    rw [List.getElem?_map, Option.map_eq_some_iff] at hframe
    obtain ⟨fb, hfb, rfl⟩ := hframe
    obtain ⟨rest, hentry⟩ := drop_indexOf hfb 4
    have hindex : (aviOf usPerFrame frames w h).index.drop (16 * k) = _ := hentry
    have hinside := length_buf_le hfb
    have hoff : wordAt (aviOf usPerFrame frames w h).index (16 * k + 8) =
        4 + (encodeAll (moviChunks (frames.take k))).length := by
      rw [← wordAt_drop, hindex, ← List.append_assoc]
      exact wordAt_append (FRAME ++ word 0x10) (by omega) _
    refine ⟨?_, ?_, ?_⟩
    · rw [hindex]
      rfl
    · rw [← wordAt_drop, hindex, ← List.append_assoc, ← List.append_assoc]
      exact wordAt_append ((FRAME ++ word 0x10) ++ word _) (by omega) _
    · rw [hoff]
      exact drop_moviData hfb

theorem fileSize_eq (frames : List Frame) :
    fileSize frames = 232 + (encodeAll (moviChunks frames)).length + 16 * frames.length := by
  have hsum : (frames.map fun fb => 8 + fb.buf.length + fb.buf.length % 2).sum =
      (encodeAll (moviChunks frames)).length := by
    induction frames with
    | nil => rfl
    | cons fb frames ih =>
        rw [List.map_cons, List.sum_cons, ih, moviChunks_cons, encodeAll_cons,
          List.length_append, length_frameChunk]
  rw [fileSize, hsum]
  omega

/-- The size in front of the file counts what is behind it. -/
theorem wordAt_riff {usPerFrame : UInt32} {frames : List Frame} {w h : UInt16}
    (hsize : 224 + (encodeAll (moviChunks frames)).length + 16 * frames.length < 2 ^ 32) :
    let file := Chunk.encode (.list RIFF AVI (aviChunks usPerFrame frames w h))
    wordAt file 4 + 8 = file.length := by
  intro file
  have hfield : wordAt file 4 =
      224 + (encodeAll (moviChunks frames)).length + 16 * frames.length := by
    simp only [file]
    rw [encode_avi]
    exact wordAt_append RIFF hsize _
  have hlength : (Chunk.list RIFF AVI (aviChunks usPerFrame frames w h)).data.length =
      224 + (encodeAll (moviChunks frames)).length + 16 * frames.length := by
    rw [Chunk.list, List.length_append, length_aviChunks]
    simp only [AVI, List.length_cons, List.length_nil]
    omega
  have heven := moviChunks_even frames
  rw [hfield]
  simp only [file]
  rw [length_encode rfl, hlength]
  omega

/-- A recording that took frames and stays below 4 GiB is an AVI file of these frames. -/
theorem recording_parses (turns : List (Option Frame)) (elapsedMs : UInt32)
    (hsome : captured turns ≠ []) (hsize : fileSize (captured turns) < 2 ^ 32) :
    ∃ file avi, recTask turns elapsedMs = some file ∧ wordAt file 4 + 8 = file.length ∧
      parseAvi file = some avi ∧ Holds avi ((captured turns).map Frame.buf) := by
  rw [fileSize_eq] at hsize
  have hbound : 224 + (encodeAll (moviChunks (captured turns))).length +
      16 * (captured turns).length < 2 ^ 32 := by omega
  obtain ⟨usPerFrame, w, h, hfile⟩ := finalize_eq (recorded_captured turns) hsome
    (length_captured turns) elapsedMs
  exact ⟨_, _, hfile, wordAt_riff hbound, parseAvi_encode hbound, holds_aviOf hbound⟩

/-- Two frames, one of odd length, and a turn without one. -/
theorem recording_parses_two :
    ∃ file avi, recTask [some ⟨320, 240, [0xFF, 0xD8, 0xFF]⟩, none, some ⟨320, 240, [0xFF, 0xD8]⟩]
        400 = some file ∧ wordAt file 4 + 8 = file.length ∧ parseAvi file = some avi ∧
      Holds avi [[0xFF, 0xD8, 0xFF], [0xFF, 0xD8]] :=
  recording_parses _ _ (by decide) (by decide)

end LoraBridge.AviFile
