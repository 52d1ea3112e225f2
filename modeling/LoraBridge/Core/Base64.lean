import Mathlib.Data.List.Basic
import Mathlib.Tactic.TypeStar

/-!
# Base64

The coder lives in mbedTLS.  A `Coder` is what the bridge relies on: a buffer only decides
whether there is a result, four digits stand for three bytes, marks and a shorter group of
bytes come last, and no text has a NUL.
-/

namespace LoraBridge.Base64

/-- `mbedtls_base64_encode` and `mbedtls_base64_decode` into a buffer of so many bytes; an
error is `none`. -/
structure Coder where
  encode : ℕ → List UInt8 → Option (List UInt8)
  decode : ℕ → List UInt8 → Option (List UInt8)
  /-- The digits of the groups and a terminator are all that has to fit. -/
  encode_fits : ∀ {dlen src}, 4 * ((src.length + 2) / 3) + 1 ≤ dlen →
    ∃ text, encode dlen src = some text ∧ text.length = 4 * ((src.length + 2) / 3)
  zero_notMem_encode : ∀ {dlen src text}, encode dlen src = some text → 0 ∉ text
  decode_encode : ∀ {dlen room src text}, encode dlen src = some text → src.length ≤ room →
    decode room text = some src
  decode_nil : ∀ dlen, decode dlen [] = some []
  zero_notMem_decode : ∀ {dlen text bytes}, decode dlen text = some bytes → 0 ∉ text
  /-- The bytes do not depend on the buffer. -/
  decode_same : ∀ {dlen room text bytes bytes'}, decode dlen text = some bytes →
    decode room text = some bytes' → bytes' = bytes
  /-- Bytes that end in a group of one or two, with its marks, need no more room than they
  fill. -/
  decode_room : ∀ {dlen room text bytes}, decode dlen text = some bytes →
    bytes.length % 3 ≠ 0 → bytes.length ≤ room → decode room text = some bytes
  /-- The characters of a cut text are whole groups of three bytes, unless the last group of
  the whole text, with its marks, is among them. -/
  decode_take : ∀ {dlen room k text bytes cut}, decode dlen text = some bytes →
    decode room (text.take k) = some cut → cut.length % 3 = 0 ∨ cut = bytes

end LoraBridge.Base64
