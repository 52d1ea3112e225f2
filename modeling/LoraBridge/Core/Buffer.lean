import Mathlib.Tactic

/-!
# Byte buffers of fixed size

An array whose accesses are checked: one that leaves the array gives nothing.
-/

namespace LoraBridge

structure Buffer (size : ℕ) where
  bytes : List UInt8
  length_bytes : bytes.length = size

namespace Buffer

variable {size : ℕ}

def zero (size : ℕ) : Buffer size := ⟨List.replicate size 0, List.length_replicate⟩

/-- `buffer[i] = value`. -/
def set (buffer : Buffer size) (i : ℕ) (value : UInt8) : Option (Buffer size) :=
  if i < size then
    some ⟨buffer.bytes.set i value, by rw [List.length_set, buffer.length_bytes]⟩
  else none

/-- `buffer[i]`. -/
def get (buffer : Buffer size) (i : ℕ) : Option UInt8 := buffer.bytes[i]?

/-- `memcpy` of `count` bytes out of the buffer, from its start. -/
def read (buffer : Buffer size) (count : ℕ) : Option (List UInt8) :=
  if count ≤ size then some (buffer.bytes.take count) else none

/-- `memcpy` of `source` to an offset. -/
def write (buffer : Buffer size) (offset : ℕ) (source : List UInt8) :
    Option (Buffer size) :=
  if hfits : offset + source.length ≤ size then
    some ⟨buffer.bytes.take offset ++ source ++
        buffer.bytes.drop (offset + source.length), by
      have hlength := buffer.length_bytes
      simp
      omega⟩
  else none

theorem set_eq_some (buffer : Buffer size) {i : ℕ} (hi : i < size) (value : UInt8) :
    ∃ next, buffer.set i value = some next ∧ next.bytes = buffer.bytes.set i value :=
  ⟨_, if_pos hi, rfl⟩

theorem read_eq_some (buffer : Buffer size) {count : ℕ} (hcount : count ≤ size) :
    buffer.read count = some (buffer.bytes.take count) := if_pos hcount

theorem write_eq_some (buffer : Buffer size) (offset : ℕ) (source : List UInt8)
    (hfits : offset + source.length ≤ size) :
    ∃ next, buffer.write offset source = some next ∧
      next.bytes = buffer.bytes.take offset ++ source ++
        buffer.bytes.drop (offset + source.length) :=
  ⟨_, dif_pos hfits, rfl⟩

/-- Writing behind a prefix extends it. -/
theorem take_set_next {bytes got : List UInt8} {i : ℕ} (hi : i < bytes.length)
    (hgot : bytes.take i = got) (value : UInt8) :
    (bytes.set i value).take (i + 1) = got ++ [value] := by
  have hlength : i < (bytes.set i value).length := by rwa [List.length_set]
  rw [List.take_succ_eq_append_getElem hlength, List.getElem_set_self,
    List.take_set_of_le (Nat.le_refl i), hgot]

end Buffer

end LoraBridge
