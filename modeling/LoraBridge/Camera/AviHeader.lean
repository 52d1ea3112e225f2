import LoraBridge.Camera.CameraNode
import LoraBridge.Core.Riff

/-!
# The header of a recording

The bytes that `writeAviHeader` puts at fixed offsets are the chunks of an AVI header, and
the offsets that are filled in the end are those of its six gaps.
-/

namespace LoraBridge.AviHeader

open LoraBridge.CameraNode LoraBridge.Memory LoraBridge.Riff

def zeros (n : ℕ) : List UInt8 := List.replicate n 0

@[simp]
theorem length_zeros (n : ℕ) : (zeros n).length = n := List.length_replicate

@[simp]
theorem length_wordBytes (w : UInt32) : (wordBytes w).length = 4 := by simp [wordBytes]

/-! ## Bytes at an offset -/

/-- Behind a piece of the bytes, the offset counts from its end. -/
theorem put_append {piece : List UInt8} (rest bytes : List UInt8) {offset : ℕ}
    (hoffset : piece.length ≤ offset) :
    put (piece ++ rest) offset bytes = piece ++ put rest (offset - piece.length) bytes := by
  have hend : offset + bytes.length - piece.length = offset - piece.length + bytes.length := by
    omega
  rw [put, put, List.take_append, List.drop_append, List.take_of_length_le hoffset,
    List.drop_of_length_le (by omega), hend, List.nil_append, List.append_assoc,
    List.append_assoc, List.append_assoc]

theorem put_front {piece : List UInt8} (rest : List UInt8) {bytes : List UInt8}
    (hlength : piece.length = bytes.length) : put (piece ++ rest) 0 bytes = bytes ++ rest := by
  rw [put, List.take_zero, List.nil_append, Nat.zero_add, ← hlength, List.drop_left]

/-! ## The layout -/

/-- The main header: its first and fifth word are gaps. -/
def avih (usPerFrame frames : UInt32) (w h : UInt16) : List UInt8 :=
  wordBytes usPerFrame ++ (zeros 8 ++ (wordBytes 0x10 ++ (wordBytes frames ++ (zeros 4 ++
    (wordBytes 1 ++ (zeros 4 ++ (wordBytes w.toUInt32 ++ (wordBytes h.toUInt32 ++
      zeros 16))))))))

/-- The stream header: scale and length are gaps. -/
def strh (scale length : UInt32) (w h : UInt16) : List UInt8 :=
  VIDS ++ (MJPG ++ (zeros 12 ++ (wordBytes scale ++ (wordBytes 1000000 ++ (zeros 4 ++
    (wordBytes length ++ (zeros 16 ++ ([w.toUInt8, (w >>> 8).toUInt8] ++
      [h.toUInt8, (h >>> 8).toUInt8]))))))))

/-- The stream format. -/
def strf (w h : UInt16) : List UInt8 :=
  wordBytes 40 ++ (wordBytes w.toUInt32 ++ (wordBytes h.toUInt32 ++ ([1] ++ (zeros 1 ++ ([24] ++
    (zeros 1 ++ (MJPG ++ (wordBytes (w.toUInt32 * h.toUInt32 * 3) ++ zeros 16))))))))

/-- The header with what its gaps hold. -/
def header (riff usPerFrame frames scale length movi : UInt32) (w h : UInt16) : List UInt8 :=
  RIFF ++ (wordBytes riff ++ (AVI ++ (LIST ++ (wordBytes 192 ++ (HDRL ++ (AVIH ++
    (wordBytes 56 ++ (avih usPerFrame frames w h ++ (LIST ++ (wordBytes 116 ++ (STRL ++ (STRH ++
      (wordBytes 56 ++ (strh scale length w h ++ (STRF ++ (wordBytes 40 ++ (strf w h ++ (LIST ++
        (wordBytes movi ++ MOVI)))))))))))))))))))

/-- The headers of the stream. -/
def strl (scale length : UInt32) (w h : UInt16) : Chunk :=
  .list LIST STRL [⟨STRH, strh scale length w h⟩, ⟨STRF, strf w h⟩]

/-- All the headers. -/
def hdrl (usPerFrame frames scale length : UInt32) (w h : UInt16) : Chunk :=
  .list LIST HDRL [⟨AVIH, avih usPerFrame frames w h⟩, strl scale length w h]

/-- The zeros in front of the first `put`, cut where the header's fields are. -/
theorem zeros_eq : zeros 224 =
    zeros 4 ++ (zeros 4 ++ (zeros 4 ++ (zeros 4 ++ (zeros 4 ++ (zeros 4 ++ (zeros 4 ++ (zeros 4 ++
      (zeros 4 ++ (zeros 8 ++ (zeros 4 ++ (zeros 4 ++ (zeros 4 ++ (zeros 4 ++ (zeros 4 ++
        (zeros 4 ++ (zeros 4 ++ (zeros 16 ++ (zeros 4 ++ (zeros 4 ++ (zeros 4 ++ (zeros 4 ++
          (zeros 4 ++ (zeros 4 ++ (zeros 4 ++ (zeros 12 ++ (zeros 4 ++ (zeros 4 ++ (zeros 4 ++
            (zeros 4 ++ (zeros 16 ++ (zeros 2 ++ (zeros 2 ++ (zeros 4 ++ (zeros 4 ++ (zeros 4 ++
              (zeros 4 ++ (zeros 4 ++ (zeros 1 ++ (zeros 1 ++ (zeros 1 ++ (zeros 1 ++ (zeros 4 ++
                (zeros 4 ++ (zeros 16 ++ (zeros 4 ++ (zeros 4 ++
                  zeros 4)))))))))))))))))))))))))))))))))))))))))))))) := by
  simp only [zeros, List.replicate_append_replicate]

theorem aviHeader_eq (w h : UInt16) : aviHeader w h = header 0 0 0 0 0 0 w h := by
  have hzeros : List.replicate 224 (0 : UInt8) = zeros 224 := rfl
  have hword : wordBytes 0 = zeros 4 := rfl
  rw [aviHeader, hzeros, zeros_eq]
  simp (disch := simp) only [put_append, put_front, length_zeros, length_wordBytes, header, avih,
    strh, strf, hword, RIFF, AVI, LIST, HDRL, AVIH, STRL, STRH, VIDS, MJPG, STRF, MOVI,
    List.length_cons, List.length_nil, Nat.reduceAdd, Nat.reduceSub, zero_add, List.append_assoc]
  rfl

/-- The words that are written in the end go where the gaps are. -/
theorem fillHeader_bytes {file : File} {w h : UInt16} {rest : List UInt8}
    (hbytes : file.bytes = header 0 0 0 0 0 0 w h ++ rest)
    (total usPerFrame frames moviBytes : UInt32) :
    (fillHeader file total usPerFrame frames moviBytes).bytes =
      header (total - 8) usPerFrame frames usPerFrame frames moviBytes w h ++ rest := by
  simp (disch := simp) only [fillHeader, File.seek, File.write, hbytes, put_append, put_front,
    length_zeros, length_wordBytes, header, avih, strh, strf, RIFF, AVI, LIST, HDRL, AVIH, STRL,
    STRH, VIDS, MJPG, STRF, MOVI, List.length_cons, List.length_nil, Nat.reduceAdd,
    Nat.reduceSub, zero_add, List.append_assoc]

/-! ## The header as chunks -/

theorem wordBytes_eq (n : ℕ) : wordBytes (UInt32.ofNat n) = word n := by
  simp only [wordBytes, word, List.cons.injEq, and_true]
  refine ⟨?_, ?_, ?_, ?_⟩ <;> apply UInt8.toNat_inj.mp <;>
    simp only [UInt32.toNat_toUInt8, UInt32.toNat_shiftRight, UInt32.reduceToNat,
      Nat.reduceMod, Nat.shiftRight_eq_div_pow, UInt32.toNat_ofNat', UInt8.toNat_ofNat'] <;> omega

theorem length_avih (usPerFrame frames : UInt32) (w h : UInt16) :
    (avih usPerFrame frames w h).length = 56 := by
  simp [avih]

theorem length_strh (scale length : UInt32) (w h : UInt16) :
    (strh scale length w h).length = 56 := by
  simp [strh, VIDS, MJPG]

theorem length_strf (w h : UInt16) : (strf w h).length = 40 := by
  simp [strf, MJPG]

/-- A chunk of even length needs no padding. -/
theorem encode_of_even {id data : List UInt8} {n : ℕ} (hlength : data.length = n)
    (heven : n % 2 = 0) : Chunk.encode ⟨id, data⟩ = id ++ (word n ++ data) := by
  have hpadding : padding data = [] := if_neg (by omega)
  rw [Chunk.encode, hlength, hpadding, List.append_nil, List.append_assoc]

theorem encode_strl (scale length : UInt32) (w h : UInt16) :
    (strl scale length w h).encode =
      LIST ++ (wordBytes 116 ++ (STRL ++ (STRH ++ (wordBytes 56 ++ (strh scale length w h ++
        (STRF ++ (wordBytes 40 ++ strf w h))))))) := by
  have hstrh : Chunk.encode ⟨STRH, strh scale length w h⟩ =
      STRH ++ (word 56 ++ strh scale length w h) :=
    encode_of_even (length_strh scale length w h) rfl
  have hstrf : Chunk.encode ⟨STRF, strf w h⟩ = STRF ++ (word 40 ++ strf w h) :=
    encode_of_even (length_strf w h) rfl
  have hdata : (STRL ++ encodeAll [⟨STRH, strh scale length w h⟩, ⟨STRF, strf w h⟩]).length =
      116 := by
    rw [encodeAll_cons, encodeAll_cons, encodeAll_nil, hstrh, hstrf]
    simp [length_strh, length_strf, STRL, STRH, STRF]
  rw [strl, Chunk.list, encode_of_even hdata rfl, encodeAll_cons, encodeAll_cons, encodeAll_nil,
    hstrh, hstrf]
  simp only [List.append_assoc, List.append_nil]
  rfl

theorem encode_hdrl (usPerFrame frames scale length : UInt32) (w h : UInt16) :
    (hdrl usPerFrame frames scale length w h).encode =
      LIST ++ (wordBytes 192 ++ (HDRL ++ (AVIH ++ (wordBytes 56 ++ (avih usPerFrame frames w h ++
        (LIST ++ (wordBytes 116 ++ (STRL ++ (STRH ++ (wordBytes 56 ++ (strh scale length w h ++
          (STRF ++ (wordBytes 40 ++ strf w h))))))))))))) := by
  have havih : Chunk.encode ⟨AVIH, avih usPerFrame frames w h⟩ =
      AVIH ++ (word 56 ++ avih usPerFrame frames w h) :=
    encode_of_even (length_avih usPerFrame frames w h) rfl
  have hstrl := encode_strl scale length w h
  have hdata : (HDRL ++ encodeAll [⟨AVIH, avih usPerFrame frames w h⟩,
      strl scale length w h]).length = 192 := by
    rw [encodeAll_cons, encodeAll_cons, encodeAll_nil, havih, hstrl]
    simp [length_avih, length_strh, length_strf, HDRL, AVIH, LIST, STRL, STRH, STRF]
  rw [hdrl, Chunk.list, encode_of_even hdata rfl, encodeAll_cons, encodeAll_cons, encodeAll_nil,
    havih, hstrl]
  simp only [List.append_assoc, List.append_nil]
  rfl

/-- What stands in front of the frames is a list of headers and the start of another list. -/
theorem header_eq (riff usPerFrame frames scale length movi : UInt32) (w h : UInt16) :
    header riff usPerFrame frames scale length movi w h =
      RIFF ++ (wordBytes riff ++ (AVI ++ ((hdrl usPerFrame frames scale length w h).encode ++
        (LIST ++ (wordBytes movi ++ MOVI))))) := by
  rw [encode_hdrl]
  simp only [header, List.append_assoc]

end LoraBridge.AviHeader
