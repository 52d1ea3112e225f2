import LoraBridge.Codec.Memory

/-!
# The video recorder

`recTask` writes a header with gaps, one chunk for each frame of the camera and an index,
and then goes back to fill the gaps with what it has counted.
-/

namespace LoraBridge.CameraNode

open LoraBridge.Memory

def REC_MAX_FRAMES : UInt32 := 3000

/-! ## Four-character codes -/

/-- "RIFF". -/
def RIFF : List UInt8 := [0x52, 0x49, 0x46, 0x46]

/-- "AVI ". -/
def AVI : List UInt8 := [0x41, 0x56, 0x49, 0x20]

/-- "LIST". -/
def LIST : List UInt8 := [0x4C, 0x49, 0x53, 0x54]

/-- "hdrl". -/
def HDRL : List UInt8 := [0x68, 0x64, 0x72, 0x6C]

/-- "avih". -/
def AVIH : List UInt8 := [0x61, 0x76, 0x69, 0x68]

/-- "strl". -/
def STRL : List UInt8 := [0x73, 0x74, 0x72, 0x6C]

/-- "strh". -/
def STRH : List UInt8 := [0x73, 0x74, 0x72, 0x68]

/-- "vids". -/
def VIDS : List UInt8 := [0x76, 0x69, 0x64, 0x73]

/-- "MJPG". -/
def MJPG : List UInt8 := [0x4D, 0x4A, 0x50, 0x47]

/-- "strf". -/
def STRF : List UInt8 := [0x73, 0x74, 0x72, 0x66]

/-- "movi". -/
def MOVI : List UInt8 := [0x6D, 0x6F, 0x76, 0x69]

/-- "00dc". -/
def FRAME : List UInt8 := [0x30, 0x30, 0x64, 0x63]

/-- "idx1". -/
def IDX1 : List UInt8 := [0x69, 0x64, 0x78, 0x31]

/-! ## Files -/

/-- Bytes stored over others at an offset; `putFcc`, and `put32` of `wordBytes`. -/
def put (p : List UInt8) (offset : ℕ) (bytes : List UInt8) : List UInt8 :=
  p.take offset ++ bytes ++ p.drop (offset + bytes.length)

/-- A file on the card and the position in it; every write succeeds. -/
structure File where
  bytes : List UInt8
  pos : ℕ

def File.write (f : File) (data : List UInt8) : File :=
  ⟨put f.bytes f.pos data, f.pos + data.length⟩

def File.seek (f : File) (pos : ℕ) : File := { f with pos := pos }

/-- The 224 bytes `writeAviHeader` writes. -/
def aviHeader (w h : UInt16) : List UInt8 :=
  let hd := List.replicate 224 0
  let hd := put (put hd 0 RIFF) 8 AVI
  let hd := put (put (put hd 12 LIST) 16 (wordBytes 192)) 20 HDRL
  let hd := put (put hd 24 AVIH) 28 (wordBytes 56)
  let hd := put (put hd 44 (wordBytes 0x10)) 56 (wordBytes 1)
  let hd := put (put hd 64 (wordBytes w.toUInt32)) 68 (wordBytes h.toUInt32)
  let hd := put (put (put hd 88 LIST) 92 (wordBytes 116)) 96 STRL
  let hd := put (put hd 100 STRH) 104 (wordBytes 56)
  let hd := put (put hd 108 VIDS) 112 MJPG
  let hd := put hd 132 (wordBytes 1000000)
  let hd := put hd 160 [w.toUInt8, (w >>> 8).toUInt8]
  let hd := put hd 162 [h.toUInt8, (h >>> 8).toUInt8]
  let hd := put (put hd 164 STRF) 168 (wordBytes 40)
  let hd := put hd 172 (wordBytes 40)
  let hd := put (put hd 176 (wordBytes w.toUInt32)) 180 (wordBytes h.toUInt32)
  let hd := put (put hd 184 [1]) 186 [24]
  let hd := put hd 188 MJPG
  let hd := put hd 192 (wordBytes (w.toUInt32 * h.toUInt32 * 3))
  put (put hd 212 LIST) 220 MOVI

/-! ## Recording -/

/-- A frame of the camera. -/
structure Frame where
  width : UInt32
  height : UInt32
  buf : List UInt8

/-- An index entry: where a chunk lies, from the `movi` code on, and its length. -/
structure IdxEnt where
  off : UInt32
  len : UInt32

/-- What `recTask` holds between two turns of its loop. -/
structure Rec where
  file : File
  frames : UInt32
  moviBytes : UInt32
  hdrDone : Bool
  idx : List IdxEnt

def Rec.start : Rec := ⟨⟨[], 0⟩, 0, 4, false, []⟩

/-- The header in front of the first frame, its size taken from that frame. -/
def Rec.withHeader (r : Rec) (fb : Frame) : File :=
  if r.hdrDone then r.file else r.file.write (aviHeader fb.width.toUInt16 fb.height.toUInt16)

/-- A turn that got a frame and the bus. -/
def recFrame (r : Rec) (fb : Frame) : Rec :=
  let clen := UInt32.ofNat fb.buf.length
  let file := ((r.withHeader fb).write (FRAME ++ wordBytes clen)).write fb.buf
  { file := if clen &&& 1 ≠ 0 then file.write [0] else file
    frames := r.frames + 1
    moviBytes := r.moviBytes + (8 + if clen &&& 1 ≠ 0 then clen + 1 else clen)
    hdrDone := true
    idx := r.idx ++ [⟨r.moviBytes, clen⟩] }

/-- The turns until the recording is stopped; a turn may get no frame. -/
def recLoop : List (Option Frame) → Rec → Rec
  | [], r => r
  | turn :: turns, r =>
      if r.frames < REC_MAX_FRAMES then
        match turn with
        | some fb => recLoop turns (recFrame r fb)
        | none => recLoop turns r
      else r

def indexEntry (e : IdxEnt) : List UInt8 :=
  FRAME ++ wordBytes 0x10 ++ wordBytes e.off ++ wordBytes e.len

/-- The gaps of the header, in the order they are filled. -/
def fillHeader (file : File) (total usPerFrame frames moviBytes : UInt32) : File :=
  let file := (file.seek 4).write (wordBytes (total - 8))
  let file := (file.seek 32).write (wordBytes usPerFrame)
  let file := (file.seek 48).write (wordBytes frames)
  let file := (file.seek 128).write (wordBytes usPerFrame)
  let file := (file.seek 140).write (wordBytes frames)
  (file.seek 216).write (wordBytes moviBytes)

/-- The file that is left; a recording without frames is removed. -/
def finalize (r : Rec) (elapsedMs : UInt32) : Option (List UInt8) :=
  if r.frames = 0 then none
  else
    let usPerFrame := elapsedMs * 1000 / r.frames
    let file := r.file.write (IDX1 ++ wordBytes (r.frames * 16))
    let file := r.idx.foldl (fun file e => file.write (indexEntry e)) file
    let total := 224 + (r.moviBytes - 4) + 8 + r.frames * 16
    some (fillHeader file total usPerFrame r.frames r.moviBytes).bytes

/-- `recTask`, on a file that could be opened and with the bus free in the end. -/
def recTask (turns : List (Option Frame)) (elapsedMs : UInt32) : Option (List UInt8) :=
  finalize (recLoop turns Rec.start) elapsedMs

end LoraBridge.CameraNode
