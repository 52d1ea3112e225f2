import Mathlib.Tactic

/-!
# RIFF chunks

A chunk is a four-byte identifier, the length of its data in four bytes, least
significant first, the data, and a byte of padding behind data of odd length.  A list is
a chunk whose data is a four-byte form followed by chunks.
-/

namespace LoraBridge.Riff

/-- A number in four bytes, least significant first. -/
def word (n : ℕ) : List UInt8 :=
  [UInt8.ofNat n, UInt8.ofNat (n / 256), UInt8.ofNat (n / 65536), UInt8.ofNat (n / 16777216)]

/-- The number in the four bytes at an offset. -/
def wordAt (bytes : List UInt8) (offset : ℕ) : ℕ :=
  (bytes.getD offset 0).toNat + 256 * (bytes.getD (offset + 1) 0).toNat +
    65536 * (bytes.getD (offset + 2) 0).toNat + 16777216 * (bytes.getD (offset + 3) 0).toNat

structure Chunk where
  id : List UInt8
  data : List UInt8
  deriving DecidableEq

/-- The identifier has its four bytes, and the length can be declared. -/
structure Chunk.Fits (chunk : Chunk) : Prop where
  id : chunk.id.length = 4
  data : chunk.data.length < 2 ^ 32

def padding (data : List UInt8) : List UInt8 := if data.length % 2 = 1 then [0] else []

def Chunk.encode (chunk : Chunk) : List UInt8 :=
  chunk.id ++ word chunk.data.length ++ chunk.data ++ padding chunk.data

def encodeAll (chunks : List Chunk) : List UInt8 := chunks.flatMap Chunk.encode

/-- A list of chunks under a form. -/
def Chunk.list (id form : List UInt8) (chunks : List Chunk) : Chunk :=
  ⟨id, form ++ encodeAll chunks⟩

/-- The chunk in front, and what is behind its padding. -/
def parseChunk (bytes : List UInt8) : Option (Chunk × List UInt8) :=
  let size := wordAt bytes 4
  if bytes.length < 8 + size + size % 2 then none
  else some (⟨bytes.take 4, (bytes.drop 8).take size⟩, bytes.drop (8 + size + size % 2))

/-- Chunks up to the end of the bytes, at most `fuel` of them. -/
def parseAll : ℕ → List UInt8 → Option (List Chunk)
  | 0, bytes => if bytes = [] then some [] else none
  | fuel + 1, bytes =>
      if bytes = [] then some []
      else do
        let (chunk, rest) ← parseChunk bytes
        let chunks ← parseAll fuel rest
        some (chunk :: chunks)

/-- All the chunks of a byte string; each takes some of its bytes. -/
def parse (bytes : List UInt8) : Option (List Chunk) := parseAll bytes.length bytes

/-- The chunks of a list of this form. -/
def parseList (id form : List UInt8) (chunk : Chunk) : Option (List Chunk) :=
  if chunk.id = id ∧ chunk.data.take 4 = form then parse (chunk.data.drop 4) else none

@[simp]
theorem length_word (n : ℕ) : (word n).length = 4 := rfl

theorem wordAt_append (before : List UInt8) {n : ℕ} (hn : n < 2 ^ 32) (after : List UInt8) :
    wordAt (before ++ (word n ++ after)) before.length = n := by
  simp only [wordAt, word, List.getD_eq_getElem?_getD,
    List.getElem?_append_right (Nat.le_refl _), List.getElem?_append_right (Nat.le_add_right _ _),
    Nat.sub_self, Nat.add_sub_cancel_left, List.cons_append, List.getElem?_cons_zero,
    List.getElem?_cons_succ, Option.getD_some, UInt8.toNat_ofNat']
  omega

theorem length_padding (data : List UInt8) : (padding data).length = data.length % 2 := by
  rw [padding]
  split
  · rw [List.length_singleton]
    omega
  · rw [List.length_nil]
    omega

theorem length_encode {chunk : Chunk} (hid : chunk.id.length = 4) :
    chunk.encode.length = 8 + chunk.data.length + chunk.data.length % 2 := by
  simp only [Chunk.encode, List.length_append, length_word, length_padding, hid]

@[simp]
theorem encodeAll_cons (chunk : Chunk) (chunks : List Chunk) :
    encodeAll (chunk :: chunks) = chunk.encode ++ encodeAll chunks := List.flatMap_cons

@[simp]
theorem encodeAll_nil : encodeAll [] = [] := rfl

@[simp]
theorem encodeAll_append (first second : List Chunk) :
    encodeAll (first ++ second) = encodeAll first ++ encodeAll second := List.flatMap_append

/-- A chunk is read back, whatever follows it. -/
theorem parseChunk_encode {chunk : Chunk} (hfits : chunk.Fits) (rest : List UInt8) :
    parseChunk (chunk.encode ++ rest) = some (chunk, rest) := by
  obtain ⟨id, data⟩ := chunk
  obtain ⟨hid, hdata⟩ := hfits
  dsimp only at hid hdata
  have hsplit : Chunk.encode ⟨id, data⟩ ++ rest =
      id ++ (word data.length ++ (data ++ (padding data ++ rest))) := by
    simp only [Chunk.encode, List.append_assoc]
  have hsize : wordAt (Chunk.encode ⟨id, data⟩ ++ rest) 4 = data.length := by
    rw [hsplit, ← hid]
    exact wordAt_append id hdata _
  have hlength : (Chunk.encode ⟨id, data⟩).length = 8 + data.length + data.length % 2 :=
    length_encode hid
  have htake : (Chunk.encode ⟨id, data⟩ ++ rest).take 4 = id := by
    rw [hsplit, ← hid]
    exact List.take_left
  have hdrop : (Chunk.encode ⟨id, data⟩ ++ rest).drop 8 = data ++ (padding data ++ rest) := by
    rw [hsplit, ← List.append_assoc]
    exact List.drop_left' (by rw [List.length_append, hid, length_word])
  have hbehind : (Chunk.encode ⟨id, data⟩ ++ rest).drop
      (8 + data.length + data.length % 2) = rest := List.drop_left' hlength
  rw [parseChunk]
  simp only [hsize, htake, hdrop, hbehind, List.take_left]
  rw [if_neg (by rw [List.length_append, hlength]; omega)]

theorem parseAll_encodeAll {chunks : List Chunk} (hfits : ∀ chunk ∈ chunks, chunk.Fits)
    {fuel : ℕ} (hfuel : (encodeAll chunks).length ≤ fuel) :
    parseAll fuel (encodeAll chunks) = some chunks := by
  induction chunks generalizing fuel with
  | nil => cases fuel <;> rfl
  | cons chunk chunks ih =>
      have hchunk := hfits chunk List.mem_cons_self
      have hlength := length_encode hchunk.id
      rw [encodeAll_cons, List.length_append] at hfuel
      cases fuel with
      | zero => omega
      | succ fuel =>
          have hne : chunk.encode ++ encodeAll chunks ≠ [] := fun hnil => by
            have hzero := congrArg List.length hnil
            rw [List.length_append, hlength] at hzero
            exact absurd hzero (by simp)
          rw [encodeAll_cons, parseAll, if_neg hne, parseChunk_encode hchunk]
          simp only [Option.bind_eq_bind, Option.bind_some]
          rw [ih (fun later hlater => hfits later (List.mem_cons_of_mem _ hlater)) (by omega)]
          rfl

/-- What is written as chunks is read as the same chunks. -/
theorem parse_encodeAll {chunks : List Chunk} (hfits : ∀ chunk ∈ chunks, chunk.Fits) :
    parse (encodeAll chunks) = some chunks :=
  parseAll_encodeAll hfits le_rfl

theorem parseList_list (id : List UInt8) {form : List UInt8} (hform : form.length = 4)
    {chunks : List Chunk} (hfits : ∀ chunk ∈ chunks, chunk.Fits) :
    parseList id form (.list id form chunks) = some chunks := by
  have htake : (form ++ encodeAll chunks).take 4 = form := List.take_left' hform
  have hdrop : (form ++ encodeAll chunks).drop 4 = encodeAll chunks := List.drop_left' hform
  rw [parseList, Chunk.list, htake, hdrop, if_pos ⟨rfl, rfl⟩, parse_encodeAll hfits]

/-- The chunks within a byte string are no longer than it. -/
theorem length_encode_le {chunk : Chunk} {chunks : List Chunk} (hmem : chunk ∈ chunks) :
    chunk.encode.length ≤ (encodeAll chunks).length := by
  obtain ⟨before, after, rfl⟩ := List.append_of_mem hmem
  simp only [encodeAll_append, encodeAll_cons, List.length_append]
  omega

/-- What lies in a list whose length can be declared has such a length itself. -/
theorem Chunk.Fits.of_mem {id form : List UInt8} {chunks : List Chunk}
    (hfits : (Chunk.list id form chunks).Fits) {chunk : Chunk} (hmem : chunk ∈ chunks)
    (hid : chunk.id.length = 4) : chunk.Fits where
  id := hid
  data := by
    have hinside := length_encode_le hmem
    have hlist : (form ++ encodeAll chunks).length < 2 ^ 32 := hfits.data
    rw [List.length_append] at hlist
    rw [length_encode hid] at hinside
    omega

theorem wordAt_drop (bytes : List UInt8) (p q : ℕ) :
    wordAt (bytes.drop p) q = wordAt bytes (p + q) := by
  simp only [wordAt, List.getD_eq_getElem?_getD, List.getElem?_drop, Nat.add_assoc]

end LoraBridge.Riff
