import Mathlib.Data.Vector.Basic
import Mathlib.Data.List.GetD

/-!
# Numbers and keys typed into a form

The Arduino `String` and C library conversions the portal handlers use, on a text
as its list of characters.
-/

namespace LoraBridge.FormText

abbrev Text := List Char

/-- `isspace` in the C locale. -/
def isSpace (c : Char) : Bool :=
  c = ' ' ∨ (9 ≤ c.toNat ∧ c.toNat ≤ 13)

/-- `String::trim`. -/
def trim (text : Text) : Text :=
  ((text.dropWhile isSpace).reverse.dropWhile isSpace).reverse

/-- The value of one hexadecimal digit. -/
def hexNibble (c : Char) : Option ℕ :=
  if '0' ≤ c ∧ c ≤ '9' then some (c.toNat - '0'.toNat)
  else if 'a' ≤ c ∧ c ≤ 'f' then some (c.toNat - 'a'.toNat + 10)
  else if 'A' ≤ c ∧ c ≤ 'F' then some (c.toNat - 'A'.toNat + 10)
  else none

def isHexString (text : Text) (len : ℕ) : Bool :=
  text.length = len ∧ text.all fun c => (hexNibble c).isSome

/-- `s.startsWith("0x") || s.startsWith("0X")`, and the rest from there. -/
def stripHexMark : Text → Text
  | '0' :: 'x' :: rest => rest
  | '0' :: 'X' :: rest => rest
  | text => text

/-- A leading sign, as `strtol` and `strtoul` read it. -/
def splitSign : Text → Bool × Text
  | '-' :: rest => (true, rest)
  | '+' :: rest => (false, rest)
  | text => (false, text)

/-- `String::toInt`: `atol`, with the 32-bit `long` of the target. -/
def toInt (text : Text) : ℤ :=
  let (negative, digits) := splitSign (text.dropWhile isSpace)
  let magnitude := (digits.takeWhile Char.isDigit).foldl
    (fun value c => value * 10 + (c.toNat - '0'.toNat)) 0
  if negative then max (-(magnitude : ℤ)) (-2 ^ 31) else min (magnitude : ℤ) (2 ^ 31 - 1)

/-- The hexadecimal digits a text begins with, as a number. -/
def hexValue : Text → ℕ → ℕ
  | [], value => value
  | c :: rest, value =>
      match hexNibble c with
      | some digit => hexValue rest (value * 16 + digit)
      | none => value

/-- `0x` counts as a mark only in front of a digit. -/
def hexDigits : Text → Text
  | '0' :: 'x' :: c :: rest => if (hexNibble c).isSome then c :: rest else ['0']
  | '0' :: 'X' :: c :: rest => if (hexNibble c).isSome then c :: rest else ['0']
  | text => text

/-- `strtoul(text, nullptr, 16)`, with the 32-bit `unsigned long` of the target. -/
def strtoul16 (text : Text) : UInt32 :=
  let (negative, digits) := splitSign (text.dropWhile isSpace)
  let magnitude := hexValue (hexDigits digits) 0
  if 2 ^ 32 ≤ magnitude then 0xFFFFFFFF
  else if negative then 0 - UInt32.ofNat magnitude else UInt32.ofNat magnitude

/-- The bytes of pairs of digits, as far as the pairs go. -/
def hexPairs : Text → Option (List UInt8)
  | hi :: lo :: rest => do
      let high ← hexNibble hi
      let low ← hexNibble lo
      let bytes ← hexPairs rest
      some (UInt8.ofNat (high * 16 + low) :: bytes)
  | _ => some []

theorem length_of_hexPairs {text : Text} {bytes : List UInt8}
    (hpairs : hexPairs text = some bytes) : bytes.length = text.length / 2 := by
  induction text using hexPairs.induct generalizing bytes with
  | case1 hi lo rest ih =>
      rw [hexPairs] at hpairs
      obtain ⟨high, -, hpairs⟩ := Option.bind_eq_some_iff.mp hpairs
      obtain ⟨low, -, hpairs⟩ := Option.bind_eq_some_iff.mp hpairs
      obtain ⟨tail, htail, hpairs⟩ := Option.bind_eq_some_iff.mp hpairs
      obtain rfl := Option.some.inj hpairs
      rw [List.length_cons, ih htail]
      simp only [List.length_cons]
      omega
  | case2 text hshort =>
      rw [hexPairs] at hpairs
      · obtain rfl := Option.some.inj hpairs
        cases text with
        | nil => rfl
        | cons hi tail =>
            cases tail with
            | nil => simp
            | cons lo rest => exact absurd rfl (hshort hi lo rest)
      · exact hshort

/-- `lwHexToBytes`: exactly `n` pairs. -/
def lwHexToBytes (text : Text) (n : ℕ) : Option (List.Vector UInt8 n) :=
  if hlength : text.length = n * 2 then
    match hpairs : hexPairs text with
    | some bytes => some ⟨bytes, by rw [length_of_hexPairs hpairs]; omega⟩
    | none => none
  else none

/-- `hexToBytes`: the length is that of the C string, which a NUL ends. -/
def hexToBytes (text : Text) (n : ℕ) : Option (List.Vector UInt8 n) :=
  lwHexToBytes (text.takeWhile (· ≠ Char.ofNat 0)) n

end LoraBridge.FormText
