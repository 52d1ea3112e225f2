import LoraBridge.Core.Base64
import LoraBridge.Core.Base64Decode
import LoraBridge.Core.Print

/-!
# Base64 to compute with

An encoder beside the decoder, and that the two obey the laws.  The accumulator of the decoder
is 32 bits wide and never cleared; each group of four digits pushes out what the groups before
it have left.
-/

namespace LoraBridge.Base64Coder

open LoraBridge.Base64 LoraBridge.Base64Decode LoraBridge.Print

/-! ## The encoder -/

def base64Digit (n : ℕ) : UInt8 :=
  if n < 26 then 0x41 + UInt8.ofNat n
  else if n < 52 then 0x61 + UInt8.ofNat (n - 26)
  else if n < 62 then 0x30 + UInt8.ofNat (n - 52)
  else if n = 62 then 0x2B else 0x2F

/-- The first `count` of the four digits of 24 bits. -/
def base64Digits (count n : ℕ) : List UInt8 :=
  ([n / 2 ^ 18 % 64, n / 2 ^ 12 % 64, n / 2 ^ 6 % 64, n % 64].map base64Digit).take count

/-- Three bytes to four digits, the rest padded with '='. -/
def base64 : List UInt8 → List UInt8
  | [] => []
  | [a] => base64Digits 2 (a.toNat * 2 ^ 16) ++ [0x3D, 0x3D]
  | [a, b] => base64Digits 3 (a.toNat * 2 ^ 16 + b.toNat * 2 ^ 8) ++ [0x3D]
  | a :: b :: c :: rest =>
      base64Digits 4 (a.toNat * 2 ^ 16 + b.toNat * 2 ^ 8 + c.toNat) ++ base64 rest

/-- The digits and a terminator have to fit into `dlen` bytes. -/
def encode (dlen : ℕ) (src : List UInt8) : Option (List UInt8) :=
  if src ≠ [] ∧ dlen < (base64 src).length + 1 then none else some (base64 src)

example : base64 (ascii "rns") = ascii "cm5z" := by decide

example : base64 (ascii "lora") = ascii "bG9yYQ==" := by decide

/-! ## One digit -/

/-- A digit is no blank and no mark, and has its value. -/
theorem base64Digit_spec {d : ℕ} (hd : d < 64) :
    ¬ (base64Digit d = 0x0D ∨ base64Digit d = 0x0A ∨ base64Digit d = 0x20) ∧
      base64Digit d ≠ 0x3D ∧ ¬ 127 < base64Digit d ∧
      decValue (base64Digit d) = some (UInt32.ofNat d) := by
  revert d
  decide

theorem scan_base64Digit {d : ℕ} (hd : d < 64) (rest : List UInt8) (n : ℕ) :
    scan (base64Digit d :: rest) false n 0 = scan rest false (n + 1) 0 := by
  obtain ⟨hblank, hmark, hascii, hvalue⟩ := base64Digit_spec hd
  rw [not_or, not_or] at hblank
  simp [scan, hblank.1, hblank.2.1, hblank.2.2, hmark, hascii, hvalue]

theorem scan_mark (rest : List UInt8) (n : ℕ) {equals : ℕ} (hequals : equals < 2) :
    scan (0x3D :: rest) false n equals = scan rest false (n + 1) (equals + 1) := by
  have hfew : ¬ 2 < equals + 1 := by omega
  simp [scan, hfew]

/-- The accumulator with six more bits. -/
def pushDigit (x : UInt32) (d : ℕ) : UInt32 := x <<< 6 ||| UInt32.ofNat d

theorem digits_base64Digit {d : ℕ} (hd : d < 64) (rest : List UInt8) (x : UInt32)
    (accumulated equals : ℕ) :
    digits (base64Digit d :: rest) x accumulated equals =
      if accumulated + 1 = 4 then
        emit (pushDigit x d) equals ++ digits rest (pushDigit x d) 0 equals
      else digits rest (pushDigit x d) (accumulated + 1) equals := by
  obtain ⟨hblank, hmark, -, hvalue⟩ := base64Digit_spec hd
  rw [digits_digit hblank hmark, hvalue]
  rfl

/-- The accumulator as a number. -/
theorem toNat_pushDigit (x : UInt32) {d : ℕ} (hd : d < 64) :
    (pushDigit x d).toNat = (x.toNat * 64 + d) % 2 ^ 32 := by
  have hx := x.toNat_lt
  have hvalue : (UInt32.ofNat d).toNat = d := by
    rw [UInt32.toNat_ofNat']
    omega
  have hshift : (x <<< 6).toNat = x.toNat % 2 ^ 26 * 2 ^ 6 := by
    rw [UInt32.toNat_shiftLeft, Nat.shiftLeft_eq]
    have hsix : (6 : UInt32).toNat % 32 = 6 := rfl
    rw [hsix]
    omega
  rw [pushDigit, UInt32.toNat_or, hvalue, hshift, ← Nat.shiftLeft_eq,
    ← Nat.shiftLeft_add_eq_or_of_lt (by omega : d < 2 ^ 6), Nat.shiftLeft_eq]
  omega

theorem toNat_shift_six (x : UInt32) : (x <<< 6).toNat = x.toNat * 64 % 2 ^ 32 := by
  rw [UInt32.toNat_shiftLeft, Nat.shiftLeft_eq]
  rfl

/-! ## A group of four -/

/-- The three bytes of an accumulator. -/
theorem bytes_of_accumulator {x : UInt32} {a b c : UInt8}
    (hx : x.toNat % 2 ^ 24 = a.toNat * 2 ^ 16 + b.toNat * 2 ^ 8 + c.toNat) :
    (x >>> 16).toUInt8 = a ∧ (x >>> 8).toUInt8 = b ∧ x.toUInt8 = c := by
  have ha := a.toNat_lt
  have hb := b.toNat_lt
  have hc := c.toNat_lt
  refine ⟨?_, ?_, ?_⟩ <;> apply UInt8.toNat_inj.mp <;>
    simp only [UInt32.toNat_toUInt8, UInt32.toNat_shiftRight, UInt32.reduceToNat,
      Nat.reduceMod, Nat.shiftRight_eq_div_pow] <;> omega

theorem scan_base64Digits {count : ℕ} (hcount : count ≤ 4) (v : ℕ) (rest : List UInt8) (n : ℕ) :
    scan (base64Digits count v ++ rest) false n 0 = scan rest false (n + count) 0 := by
  have hmod : ∀ m, m % 64 < 64 := fun m => Nat.mod_lt m (by decide)
  interval_cases count <;> simp [base64Digits, scan_base64Digit (hmod _)]

/-- Four digits are three bytes. -/
theorem digits_group (a b c : UInt8) (rest : List UInt8) (x : UInt32) :
    ∃ x', digits (base64Digits 4 (a.toNat * 2 ^ 16 + b.toNat * 2 ^ 8 + c.toNat) ++ rest) x 0 0 =
      a :: b :: c :: digits rest x' 0 0 := by
  have ha := a.toNat_lt
  have hb := b.toNat_lt
  have hc := c.toNat_lt
  have hmod : ∀ m, m % 64 < 64 := fun m => Nat.mod_lt m (by decide)
  generalize hv : a.toNat * 2 ^ 16 + b.toNat * 2 ^ 8 + c.toNat = v
  let x' := pushDigit (pushDigit (pushDigit (pushDigit x (v / 2 ^ 18 % 64)) (v / 2 ^ 12 % 64))
    (v / 2 ^ 6 % 64)) (v % 64)
  have hx : x'.toNat % 2 ^ 24 = a.toNat * 2 ^ 16 + b.toNat * 2 ^ 8 + c.toNat := by
    simp only [x', toNat_pushDigit _ (hmod _)]
    omega
  obtain ⟨hfirst, hsecond, hthird⟩ := bytes_of_accumulator hx
  refine ⟨x', ?_⟩
  simp only [base64Digits, List.map_cons, List.map_nil, List.take_succ_cons, List.take_zero,
    List.cons_append, List.nil_append, digits_base64Digit (hmod _)]
  simp [emit, x', ← hfirst, ← hsecond, ← hthird]

/-- Two digits and two marks are one byte. -/
theorem digits_one (a : UInt8) (x : UInt32) :
    digits (base64Digits 2 (a.toNat * 2 ^ 16) ++ [0x3D, 0x3D]) x 0 0 = [a] := by
  have ha := a.toNat_lt
  have hmod : ∀ m, m % 64 < 64 := fun m => Nat.mod_lt m (by decide)
  generalize hv : a.toNat * 2 ^ 16 = v
  let x' := (pushDigit (pushDigit x (v / 2 ^ 18 % 64)) (v / 2 ^ 12 % 64)) <<< 6 <<< 6
  have hx : x'.toNat % 2 ^ 24 =
      a.toNat * 2 ^ 16 + (0 : UInt8).toNat * 2 ^ 8 + (0 : UInt8).toNat := by
    simp only [x', toNat_shift_six, toNat_pushDigit _ (hmod _), UInt8.toNat_zero]
    omega
  have hfirst := (bytes_of_accumulator hx).1
  simp only [base64Digits, List.map_cons, List.map_nil, List.take_succ_cons, List.take_zero,
    List.cons_append, List.nil_append, digits_base64Digit (hmod _), digits_mark]
  simp [emit, digits, x', ← hfirst]

/-- Three digits and a mark are two bytes. -/
theorem digits_two (a b : UInt8) (x : UInt32) :
    digits (base64Digits 3 (a.toNat * 2 ^ 16 + b.toNat * 2 ^ 8) ++ [0x3D]) x 0 0 = [a, b] := by
  have ha := a.toNat_lt
  have hb := b.toNat_lt
  have hmod : ∀ m, m % 64 < 64 := fun m => Nat.mod_lt m (by decide)
  generalize hv : a.toNat * 2 ^ 16 + b.toNat * 2 ^ 8 = v
  let x' := (pushDigit (pushDigit (pushDigit x (v / 2 ^ 18 % 64)) (v / 2 ^ 12 % 64))
    (v / 2 ^ 6 % 64)) <<< 6
  have hx : x'.toNat % 2 ^ 24 = a.toNat * 2 ^ 16 + b.toNat * 2 ^ 8 + (0 : UInt8).toNat := by
    simp only [x', toNat_shift_six, toNat_pushDigit _ (hmod _), UInt8.toNat_zero]
    omega
  obtain ⟨hfirst, hsecond, -⟩ := bytes_of_accumulator hx
  simp only [base64Digits, List.map_cons, List.map_nil, List.take_succ_cons, List.take_zero,
    List.cons_append, List.nil_append, digits_base64Digit (hmod _), digits_mark]
  simp [emit, digits, x', ← hfirst, ← hsecond]

/-! ## A text -/

theorem length_base64Digits {count : ℕ} (hcount : count ≤ 4) (v : ℕ) :
    (base64Digits count v).length = count := by
  simpa [base64Digits] using hcount

theorem length_base64 (src : List UInt8) : (base64 src).length = (src.length + 2) / 3 * 4 := by
  induction src using base64.induct with
  | case1 => rfl
  | case2 a => simp [base64, length_base64Digits]
  | case3 a b => simp [base64, length_base64Digits]
  | case4 a b c rest ih =>
      rw [base64, List.length_append, length_base64Digits (by decide), ih]
      simp only [List.length_cons]
      omega

/-- The second pass gives the bytes back. -/
theorem digits_base64 (src : List UInt8) (x : UInt32) : digits (base64 src) x 0 0 = src := by
  induction src using base64.induct generalizing x with
  | case1 => rfl
  | case2 a => exact digits_one a x
  | case3 a b => exact digits_two a b x
  | case4 a b c rest ih =>
      obtain ⟨x', hgroup⟩ := digits_group a b c (base64 rest) x
      rw [base64, hgroup, ih]

/-- The first pass counts the digits, and the marks that fill the last group. -/
theorem scan_base64 (src : List UInt8) (n : ℕ) :
    scan (base64 src) false n 0 = some (n + (base64 src).length, (3 - src.length % 3) % 3) := by
  induction src using base64.induct generalizing n with
  | case1 => rfl
  | case2 a =>
      rw [base64, scan_base64Digits (by decide), scan_mark _ _ (by decide),
        scan_mark _ _ (by decide), List.length_append, length_base64Digits (by decide)]
      rfl
  | case3 a b =>
      rw [base64, scan_base64Digits (by decide), scan_mark _ _ (by decide), List.length_append,
        length_base64Digits (by decide)]
      rfl
  | case4 a b c rest ih =>
      rw [base64, scan_base64Digits (by decide), ih, List.length_append,
        length_base64Digits (by decide)]
      simp only [List.length_cons, Option.some.injEq, Prod.mk.injEq]
      omega

/-- Bytes that are encoded and decoded into an array they fit are the same bytes. -/
theorem decode_base64 {src : List UInt8} {dlen : ℕ} (hlength : src.length ≤ dlen) :
    decode dlen (base64 src) = some src := by
  have hcount := length_base64 src
  rw [decode, scan_base64]
  dsimp only
  by_cases hempty : src = []
  · subst hempty
    rfl
  · have hpos := List.length_pos_of_ne_nil hempty
    rw [if_neg (by omega), if_neg, digits_base64]
    rw [room, hcount]
    omega

theorem notMem_base64 (src : List UInt8) : 0 ∉ base64 src :=
  zero_notMem_of_scan (scan_base64 src 0)

theorem eq_base64_of_encode {dlen : ℕ} {src text : List UInt8}
    (hencode : encode dlen src = some text) : text = base64 src := by
  unfold encode at hencode
  split at hencode
  · cases hencode
  · exact (Option.some.inj hencode).symm

/-- The two together. -/
def coder : Coder where
  encode := encode
  decode := decode
  encode_fits := fun {dlen src} hfits => by
    have hlength := length_base64 src
    refine ⟨base64 src, if_neg fun hlong => ?_, by omega⟩
    omega
  zero_notMem_encode := fun {dlen src text} hencode => by
    rw [eq_base64_of_encode hencode]
    exact notMem_base64 src
  decode_encode := fun {dlen room src text} hencode hroom => by
    rw [eq_base64_of_encode hencode]
    exact decode_base64 hroom
  decode_nil _ := rfl
  zero_notMem_decode := zero_notMem_of_decode
  decode_same := fun hdecode hagain =>
    (digits_of_decode hagain).trans (digits_of_decode hdecode).symm
  decode_room := decode_of_room
  decode_take := decode_take

end LoraBridge.Base64Coder
