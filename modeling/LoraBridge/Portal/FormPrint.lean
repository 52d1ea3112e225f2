import LoraBridge.Portal.FormText
import Mathlib.Data.List.TakeWhile
import Mathlib.Tactic

/-!
# Numbers and keys printed into a form

What the portal prints into a text field comes back with the next form.  Hexadecimal digits
and decimal numbers are read back by the conversions of the handlers; a decimal number that
is read as hexadecimal comes out larger.
-/

namespace LoraBridge.FormPrint

open LoraBridge.FormText

/-- A digit of `%x`. -/
def lowerDigit (n : ℕ) : Char :=
  ['0', '1', '2', '3', '4', '5', '6', '7', '8', '9', 'a', 'b', 'c', 'd', 'e', 'f'].getD n '0'

/-- A digit of `%X`. -/
def upperDigit (n : ℕ) : Char :=
  ['0', '1', '2', '3', '4', '5', '6', '7', '8', '9', 'A', 'B', 'C', 'D', 'E', 'F'].getD n '0'

/-- The `width` lowest hexadecimal digits. -/
def hexText (digit : ℕ → Char) : ℕ → ℕ → Text
  | 0, _ => []
  | width + 1, n => hexText digit width (n / 16) ++ [digit (n % 16)]

/-- `lwHexFromBytes`. -/
def lwHexFromBytes (bytes : List UInt8) : Text :=
  bytes.flatMap fun b => hexText lowerDigit 2 b.toNat

/-- `%lu`. -/
def decimal (n : ℕ) : Text := Nat.toDigits 10 n

/-! ## Digits -/

theorem hexNibble_lt {c : Char} {n : ℕ} (hnibble : hexNibble c = some n) : n < 16 := by
  have hvalue : ∀ {low high : Char}, low ≤ c ∧ c ≤ high →
      low.toNat ≤ c.toNat ∧ c.toNat ≤ high.toNat := id
  unfold hexNibble at hnibble
  split at hnibble
  · have hrange := hvalue ‹_›
    obtain rfl := Option.some.inj hnibble
    simp only [Char.reduceToNat] at hrange ⊢
    omega
  · split at hnibble
    · have hrange := hvalue ‹_›
      obtain rfl := Option.some.inj hnibble
      simp only [Char.reduceToNat] at hrange ⊢
      omega
    · split at hnibble
      · have hrange := hvalue ‹_›
        obtain rfl := Option.some.inj hnibble
        simp only [Char.reduceToNat] at hrange ⊢
        omega
      · cases hnibble

/-- A function that prints the sixteen digits. -/
def Prints (digit : ℕ → Char) : Prop := ∀ n < 16, hexNibble (digit n) = some n

theorem prints_lowerDigit : Prints lowerDigit := by
  unfold Prints
  decide

theorem prints_upperDigit : Prints upperDigit := by
  unfold Prints
  decide

/-- A hexadecimal digit is neither a space, nor a sign, nor the mark of the base. -/
structure IsDigit (c : Char) : Prop where
  nibble : (hexNibble c).isSome
  notSpace : isSpace c = false
  notMinus : c ≠ '-'
  notPlus : c ≠ '+'
  notMark : c ≠ 'x' ∧ c ≠ 'X'

theorem range_of_nibble {c : Char} (hnibble : (hexNibble c).isSome) :
    (0x30 ≤ c.toNat ∧ c.toNat ≤ 0x39) ∨ (0x61 ≤ c.toNat ∧ c.toNat ≤ 0x66) ∨
      (0x41 ≤ c.toNat ∧ c.toNat ≤ 0x46) := by
  unfold hexNibble at hnibble
  split at hnibble
  · exact .inl ‹_›
  · split at hnibble
    · exact .inr (.inl ‹_›)
    · split at hnibble
      · exact .inr (.inr ‹_›)
      · cases hnibble

theorem isDigit_of_nibble {c : Char} (hnibble : (hexNibble c).isSome) : IsDigit c := by
  have hrange := range_of_nibble hnibble
  refine ⟨hnibble, ?_, ?_, ?_, ?_, ?_⟩
  · have hspace : c ≠ ' ' := by
      rintro rfl
      revert hrange
      decide
    have htab : ¬ (9 ≤ c.toNat ∧ c.toNat ≤ 13) := by omega
    simp [isSpace, hspace, htab]
  all_goals
    rintro rfl
    revert hrange
    decide

theorem isDigit_of_isDigit {c : Char} (hdigit : c.isDigit) : IsDigit c := by
  refine isDigit_of_nibble ?_
  have hrange : '0' ≤ c ∧ c ≤ '9' := by
    simpa [Char.isDigit, Char.le_def] using hdigit
  simp [hexNibble, hrange]

section Digits

variable {text : Text}

/-- Nothing is trimmed. -/
theorem trim_of_digits (hdigits : ∀ c ∈ text, IsDigit c) : trim text = text := by
  have hdrop : ∀ other : Text, (∀ c ∈ other, IsDigit c) → other.dropWhile isSpace = other := by
    intro other hother
    cases other with
    | nil => rfl
    | cons c rest =>
        exact List.dropWhile_cons_of_neg (by simp [(hother c List.mem_cons_self).notSpace])
  have hreverse : ∀ c ∈ text.reverse, IsDigit c :=
    fun c hc => hdigits c (List.mem_reverse.mp hc)
  rw [trim, hdrop text hdigits, hdrop _ hreverse, List.reverse_reverse]

/-- Nothing is stripped. -/
theorem stripHexMark_of_digits (hdigits : ∀ c ∈ text, IsDigit c) :
    stripHexMark text = text := by
  unfold stripHexMark
  split
  · exact absurd rfl (hdigits 'x' (by simp)).notMark.1
  · exact absurd rfl (hdigits 'X' (by simp)).notMark.2
  · rfl

theorem hexDigits_of_digits (hdigits : ∀ c ∈ text, IsDigit c) : hexDigits text = text := by
  unfold hexDigits
  split
  · exact absurd rfl (hdigits 'x' (by simp)).notMark.1
  · exact absurd rfl (hdigits 'X' (by simp)).notMark.2
  · rfl

/-- There is no space or sign in front. -/
theorem splitSign_of_digits (hdigits : ∀ c ∈ text, IsDigit c) :
    splitSign (text.dropWhile isSpace) = (false, text) := by
  cases text with
  | nil => rfl
  | cons c rest =>
      have hc := hdigits c List.mem_cons_self
      rw [List.dropWhile_cons_of_neg (by simp [hc.notSpace])]
      unfold splitSign
      split
      · exact absurd (List.cons.inj ‹_›).1 hc.notMinus
      · exact absurd (List.cons.inj ‹_›).1 hc.notPlus
      · rfl

theorem strtoul16_of_digits (hdigits : ∀ c ∈ text, IsDigit c)
    (hsmall : hexValue text 0 < 2 ^ 32) : strtoul16 text = UInt32.ofNat (hexValue text 0) := by
  rw [strtoul16, splitSign_of_digits hdigits]
  simp only [hexDigits_of_digits hdigits]
  rw [if_neg (by omega)]
  simp

end Digits

/-! ## Hexadecimal -/

section Hexadecimal

variable {digit : ℕ → Char}

theorem length_hexText (width n : ℕ) : (hexText digit width n).length = width := by
  induction width generalizing n with
  | zero => rfl
  | succ width ih => rw [hexText, List.length_append, ih, List.length_singleton]

theorem isDigit_hexText (hprints : Prints digit) (width n : ℕ) :
    ∀ c ∈ hexText digit width n, IsDigit c := by
  induction width generalizing n with
  | zero => simp [hexText]
  | succ width ih =>
      intro c hc
      rcases List.mem_append.mp hc with hc | hc
      · exact ih _ c hc
      · rw [List.mem_singleton.mp hc]
        refine isDigit_of_nibble ?_
        rw [hprints _ (Nat.mod_lt _ (by decide))]
        rfl

theorem isHexString_hexText (hprints : Prints digit) (width n : ℕ) :
    isHexString (hexText digit width n) width = true := by
  have hall : (hexText digit width n).all fun c => (hexNibble c).isSome :=
    List.all_eq_true.mpr fun c hc => (isDigit_hexText hprints width n c hc).nibble
  simp [isHexString, length_hexText, hall]

/-- The digits make the number modulo `16 ^ width`. -/
theorem hexValue_hexText (hprints : Prints digit) (width n : ℕ) (rest : Text) (value : ℕ) :
    hexValue (hexText digit width n ++ rest) value =
      hexValue rest (value * 16 ^ width + n % 16 ^ width) := by
  induction width generalizing n rest value with
  | zero => simp [hexText, Nat.mod_one]
  | succ width ih =>
      have hsplit : n % 16 ^ (width + 1) = n / 16 % 16 ^ width * 16 + n % 16 := by
        rw [pow_succ', Nat.mod_mul, Nat.mul_comm, Nat.add_comm]
      rw [hexText, List.append_assoc, ih, List.singleton_append, hexValue,
        hprints _ (Nat.mod_lt _ (by decide)), hsplit]
      simp only [Nat.add_mul, Nat.mul_assoc, pow_succ, Nat.add_assoc]

/-- Eight digits are the whole word. -/
theorem hexValue_word (hprints : Prints digit) (v : UInt32) :
    hexValue (hexText digit 8 v.toNat) 0 = v.toNat := by
  have hvalue := hexValue_hexText hprints 8 v.toNat [] 0
  have hlt := v.toNat_lt
  rwa [List.append_nil, hexValue, Nat.zero_mul, Nat.zero_add,
    Nat.mod_eq_of_lt (by omega)] at hvalue

/-- Eight digits are read back. -/
theorem strtoul16_hexText (hprints : Prints digit) (v : UInt32) :
    strtoul16 (hexText digit 8 v.toNat) = v := by
  have hvalue := hexValue_word hprints v
  have hlt := v.toNat_lt
  rw [strtoul16_of_digits (isDigit_hexText hprints 8 v.toNat) (by omega), hvalue,
    UInt32.ofNat_toNat]

theorem hexPairs_lwHexFromBytes (bytes : List UInt8) :
    hexPairs (lwHexFromBytes bytes) = some bytes := by
  induction bytes with
  | nil => rfl
  | cons b rest ih =>
      have hcons : lwHexFromBytes (b :: rest) = lowerDigit (b.toNat / 16 % 16) ::
          lowerDigit (b.toNat % 16) :: lwHexFromBytes rest := rfl
      have hb := b.toNat_lt
      have hbyte : b.toNat / 16 % 16 * 16 + b.toNat % 16 = b.toNat := by omega
      rw [hcons, hexPairs, prints_lowerDigit _ (Nat.mod_lt _ (by decide)),
        prints_lowerDigit _ (Nat.mod_lt _ (by decide)), ih]
      exact congrArg (some <| · :: rest) (by rw [hbyte, UInt8.ofNat_toNat])

theorem isDigit_lwHexFromBytes (bytes : List UInt8) :
    ∀ c ∈ lwHexFromBytes bytes, IsDigit c := by
  intro c hc
  obtain ⟨b, -, hb⟩ := List.mem_flatMap.mp hc
  exact isDigit_hexText prints_lowerDigit 2 b.toNat c hb

theorem length_lwHexFromBytes (bytes : List UInt8) :
    (lwHexFromBytes bytes).length = bytes.length * 2 := by
  induction bytes with
  | nil => rfl
  | cons b rest ih =>
      have hcons : lwHexFromBytes (b :: rest) =
          hexText lowerDigit 2 b.toNat ++ lwHexFromBytes rest := rfl
      rw [hcons, List.length_append, length_hexText, ih, List.length_cons]
      omega

/-- A printed key is read back. -/
theorem lwHexToBytes_lwHexFromBytes {n : ℕ} (key : List.Vector UInt8 n) :
    lwHexToBytes (lwHexFromBytes key.toList) n = some key := by
  have hlength : (lwHexFromBytes key.toList).length = n * 2 := by
    rw [length_lwHexFromBytes, key.toList_length]
  unfold lwHexToBytes
  rw [dif_pos hlength]
  split
  · rename_i bytes hpairs
    rw [hexPairs_lwHexFromBytes] at hpairs
    refine congrArg some (List.Vector.eq _ _ ?_)
    exact (Option.some.inj hpairs).symm
  · rename_i hpairs
    rw [hexPairs_lwHexFromBytes] at hpairs
    cases hpairs

end Hexadecimal

/-- The value of a text is bounded by its length. -/
theorem hexValue_lt (text : Text) (value : ℕ) :
    hexValue text value < (value + 1) * 16 ^ text.length := by
  induction text generalizing value with
  | nil => simp [hexValue]
  | cons c rest ih =>
      have hpos : 0 < 16 ^ rest.length := Nat.pow_pos (by decide)
      rw [hexValue, List.length_cons, pow_succ']
      cases hc : hexNibble c with
      | none =>
          calc value < (value + 1) * 16 := by omega
            _ ≤ (value + 1) * (16 * 16 ^ rest.length) :=
                Nat.mul_le_mul_left _ (Nat.le_mul_of_pos_right 16 hpos)
      | some digit =>
          have hdigit := hexNibble_lt hc
          calc hexValue rest (value * 16 + digit)
              < (value * 16 + digit + 1) * 16 ^ rest.length := ih _
            _ ≤ (value + 1) * 16 * 16 ^ rest.length :=
                Nat.mul_le_mul_right _ (by omega)
            _ = (value + 1) * (16 * 16 ^ rest.length) := Nat.mul_assoc _ _ _

/-! ## Decimal -/

theorem isDigit_decimal (n : ℕ) : ∀ c ∈ decimal n, IsDigit c := fun _ hc =>
  isDigit_of_isDigit (Nat.isDigit_of_mem_toDigits (by decide) (by decide) hc)

/-- A number is read back. -/
theorem toInt_decimal {n : ℕ} (hn : n < 2 ^ 31) : toInt (decimal n) = n := by
  have hall : (decimal n).takeWhile Char.isDigit = decimal n :=
    List.takeWhile_eq_self_iff.mpr fun c hc =>
      Nat.isDigit_of_mem_toDigits (by decide) (by decide) hc
  have hvalue : (decimal n).foldl (fun value c => value * 10 + (c.toNat - '0'.toNat)) 0 = n := by
    have hread := @Nat.ofDigitChars_toDigits 10 n (by decide) (by decide)
    rw [Nat.ofDigitChars_eq_foldl] at hread
    unfold decimal
    simpa only [Nat.mul_comm] using hread
  rw [toInt, splitSign_of_digits (isDigit_decimal n)]
  simp only [hall, hvalue]
  simp
  omega

/-- A byte is read back through a cast. -/
theorem byte_decimal (b : UInt8) :
    UInt8.ofNat ((toInt (decimal b.toNat)) % 2 ^ 8).toNat = b := by
  have hb := b.toNat_lt
  have hmod : ((b.toNat : ℤ) % 2 ^ 8).toNat = b.toNat := by omega
  rw [toInt_decimal (by omega), hmod, UInt8.ofNat_toNat]

theorem trim_decimal (n : ℕ) : trim (decimal n) = decimal n :=
  trim_of_digits (isDigit_decimal n)

theorem hexValue_append (text : Text) (hdigits : ∀ c ∈ text, IsDigit c) (rest : Text)
    (value : ℕ) : hexValue (text ++ rest) value = hexValue rest (hexValue text value) := by
  induction text generalizing value with
  | nil => rfl
  | cons c text ih =>
      obtain ⟨d, hd⟩ := Option.isSome_iff_exists.mp (hdigits c List.mem_cons_self).nibble
      rw [List.cons_append, hexValue, hexValue, hd]
      exact ih (fun other hother => hdigits other (List.mem_cons_of_mem c hother)) _

/-- A decimal number of two digits or more is larger when it is read as hexadecimal. -/
theorem lt_hexValue_decimal (n : ℕ) :
    n ≤ hexValue (decimal n) 0 ∧ (10 ≤ n → n < hexValue (decimal n) 0) := by
  induction n using Nat.strong_induction_on with
  | _ n ih =>
      have hdigit : ∀ d < 10, hexNibble d.digitChar = some d := by decide
      by_cases hn : n < 10
      · rw [decimal, Nat.toDigits_of_lt_base hn, hexValue, hdigit n hn]
        simp only [hexValue]
        omega
      · obtain ⟨hle, -⟩ := ih (n / 10) (by omega)
        have hsplit : decimal n = decimal (n / 10) ++ [(n % 10).digitChar] :=
          Nat.toDigits_of_base_le (by decide) (by omega)
        have hvalue : hexValue (decimal n) 0 =
            hexValue (decimal (n / 10)) 0 * 16 + n % 10 := by
          rw [hsplit, hexValue_append _ (isDigit_decimal _), hexValue,
            hdigit _ (Nat.mod_lt _ (by decide))]
          rfl
        omega

end LoraBridge.FormPrint
