import Mathlib.Tactic

/-!
# Printed text

The conversions of `snprintf` the dispatcher uses, as the bytes they write.
-/

namespace LoraBridge.Print

/-- The bytes of an ASCII literal. -/
def ascii (text : String) : List UInt8 := text.toList.map fun c => UInt8.ofNat c.toNat

/-- What `snprintf` leaves of a text in an array of `cap` bytes, without the terminator. -/
def snprintf (cap : ℕ) (text : List UInt8) : List UInt8 := text.take (cap - 1)

def digitByte (base : UInt8) (digit : ℕ) : UInt8 :=
  if digit < 10 then 0x30 + UInt8.ofNat digit else base + UInt8.ofNat (digit - 10)

/-- The `width` lowest hexadecimal digits, the letters from `base` on. -/
def hexDigits (base : UInt8) : ℕ → ℕ → List UInt8
  | 0, _ => []
  | width + 1, n => hexDigits base width (n / 16) ++ [digitByte base (n % 16)]

/-- `%08lx`. -/
def hex8 (v : UInt32) : List UInt8 := hexDigits 0x61 8 v.toNat

/-- `%02X`. -/
def hexUpper2 (v : UInt8) : List UInt8 := hexDigits 0x41 2 v.toNat

/-- `%u`. -/
def decimal (n : ℕ) : List UInt8 :=
  (Nat.toDigits 10 n).map fun c => UInt8.ofNat c.toNat

/-- `%d`. -/
def signed (n : ℤ) : List UInt8 :=
  if n < 0 then 0x2D :: decimal n.natAbs else decimal n.natAbs

/-! ## Lengths and terminators -/

theorem length_hexDigits (base : UInt8) (width n : ℕ) :
    (hexDigits base width n).length = width := by
  induction width generalizing n with
  | zero => rfl
  | succ width ih => rw [hexDigits, List.length_append, ih, List.length_singleton]

/-- No digit is a terminator. -/
theorem notMem_hexDigits {base : UInt8} (hbase : ∀ digit < 16, digitByte base digit ≠ 0)
    (width n : ℕ) : 0 ∉ hexDigits base width n := by
  induction width generalizing n with
  | zero => exact List.not_mem_nil
  | succ width ih =>
      rw [hexDigits, List.mem_append, List.mem_singleton]
      rintro (hmem | hmem)
      · exact ih _ hmem
      · exact hbase _ (Nat.mod_lt _ (by decide)) hmem.symm

theorem notMem_hex8 (v : UInt32) : 0 ∉ hex8 v := notMem_hexDigits (by decide) 8 _

theorem notMem_hexUpper2 (v : UInt8) : 0 ∉ hexUpper2 v := notMem_hexDigits (by decide) 2 _

end LoraBridge.Print
