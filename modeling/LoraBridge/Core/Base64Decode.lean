import Mathlib.Data.List.Infix
import Mathlib.Tactic

/-!
# A base64 decoder to compute with

It counts the characters of the text in a first pass and writes three bytes for every four of
them in a second.  Line ends may stand anywhere and spaces in front of them; up to two marks
`=` end the text, and characters behind the last four are dropped.
-/

namespace LoraBridge.Base64Decode

/-- The value of a digit. -/
def decValue (c : UInt8) : Option UInt32 :=
  if 0x41 ≤ c ∧ c ≤ 0x5A then some (c - 0x41).toUInt32
  else if 0x61 ≤ c ∧ c ≤ 0x7A then some (c - 0x61 + 26).toUInt32
  else if 0x30 ≤ c ∧ c ≤ 0x39 then some (c - 0x30 + 52).toUInt32
  else if c = 0x2B then some 62
  else if c = 0x2F then some 63
  else none

/-- The first pass: the number of digits and marks, and of marks, of a valid text. -/
def scan : List UInt8 → Bool → ℕ → ℕ → Option (ℕ × ℕ)
  | [], _, n, equals => some (n, equals)
  | c :: rest, spacesPresent, n, equals =>
      if c = 0x20 then scan rest true n equals
      else if c = 0x0D ∧ rest.head? = some 0x0A then scan rest false n equals
      else if c = 0x0A then scan rest false n equals
      else if spacesPresent then none
      else if 127 < c then none
      else if c = 0x3D then
        if 2 < equals + 1 then none else scan rest false (n + 1) (equals + 1)
      else if equals ≠ 0 then none
      else if (decValue c).isNone then none
      else scan rest false (n + 1) equals

/-- The bytes of four characters. -/
def emit (x : UInt32) (equals : ℕ) : List UInt8 :=
  [(x >>> 16).toUInt8] ++ (if equals ≤ 1 then [(x >>> 8).toUInt8] else []) ++
    if equals = 0 then [x.toUInt8] else []

/-- The second pass. -/
def digits : List UInt8 → UInt32 → ℕ → ℕ → List UInt8
  | [], _, _, _ => []
  | c :: rest, x, accumulated, equals =>
      if c = 0x0D ∨ c = 0x0A ∨ c = 0x20 then digits rest x accumulated equals
      else
        let x' := if c = 0x3D then x <<< 6 else x <<< 6 ||| (decValue c).getD 0
        let equals' := if c = 0x3D then equals + 1 else equals
        if accumulated + 1 = 4 then emit x' equals' ++ digits rest x' 0 equals'
        else digits rest x' (accumulated + 1) equals'

/-- The room the first pass asks for. -/
def room (n equals : ℕ) : ℕ := 6 * (n / 8) + (6 * (n % 8) + 7) / 8 - equals

/-- Into `dlen` bytes; an error is `none`. -/
def decode (dlen : ℕ) (src : List UInt8) : Option (List UInt8) :=
  match scan src false 0 0 with
  | none => none
  | some (n, equals) =>
      if n = 0 then some []
      else if dlen < room n equals then none
      else some (digits src 0 0 0)

example : decode 48 [0x41, 0x51, 0x3D, 0x3D] = some [1] := by decide

example : decode 48 [0x41, 0x51] = some [] := by decide

/-! ## What one character does -/

/-- A character that the first pass accepts. -/
inductive Accepts (rest : List UInt8) (n equals : ℕ) (result : ℕ × ℕ) : UInt8 → Prop
  | blank (c : UInt8) (spaces : Bool) (hblank : c = 0x0D ∨ c = 0x0A ∨ c = 0x20)
      (hrest : scan rest spaces n equals = some result) : Accepts rest n equals result c
  | mark (hequals : equals < 2)
      (hrest : scan rest false (n + 1) (equals + 1) = some result) :
      Accepts rest n equals result 0x3D
  | digit (c : UInt8) (hblank : ¬ (c = 0x0D ∨ c = 0x0A ∨ c = 0x20)) (hmark : c ≠ 0x3D)
      (hvalue : (decValue c).isSome) (hequals : equals = 0)
      (hrest : scan rest false (n + 1) 0 = some result) : Accepts rest n equals result c

theorem accepts_of_scan {c : UInt8} {rest : List UInt8} {spaces : Bool} {n equals : ℕ}
    {result : ℕ × ℕ} (hscan : scan (c :: rest) spaces n equals = some result) :
    Accepts rest n equals result c := by
  rw [scan] at hscan
  split at hscan
  · exact .blank c true (.inr (.inr ‹_›)) hscan
  split at hscan
  · rename_i hreturn
    exact .blank c false (.inl hreturn.1) hscan
  split at hscan
  · exact .blank c false (.inr (.inl ‹_›)) hscan
  split at hscan
  · cases hscan
  split at hscan
  · cases hscan
  split at hscan
  · rename_i hmark
    subst hmark
    split at hscan
    · cases hscan
    · exact .mark (by omega) hscan
  split at hscan
  · cases hscan
  split at hscan
  · cases hscan
  rename_i hspace _ hline _ _ hmark hequals hvalue
  have hsome : (decValue c).isSome := Option.isSome_iff_ne_none.mpr (by simpa using hvalue)
  have hreturn : c ≠ 0x0D := by
    rintro rfl
    exact absurd hsome (by decide)
  obtain rfl := not_not.mp hequals
  exact .digit c (by simp [hspace, hline, hreturn]) hmark hsome rfl hscan

/-- No terminator is accepted. -/
theorem zero_notMem_of_scan {src : List UInt8} {spaces : Bool} {n equals : ℕ}
    {result : ℕ × ℕ} (hscan : scan src spaces n equals = some result) : 0 ∉ src := by
  induction src generalizing spaces n equals with
  | nil => exact List.not_mem_nil
  | cons c rest ih =>
      have hc : 0 ∉ rest ∧ c ≠ 0 := by
        cases accepts_of_scan hscan with
        | blank c spaces hblank hrest =>
            refine ⟨ih hrest, ?_⟩
            rintro rfl
            exact absurd hblank (by decide)
        | mark hequals hrest => exact ⟨ih hrest, by decide⟩
        | digit c hblank hmark hvalue hequals hrest =>
            refine ⟨ih hrest, ?_⟩
            rintro rfl
            exact absurd hvalue (by decide)
      rw [List.mem_cons, not_or]
      exact ⟨hc.2.symm, hc.1⟩

/-! ## How many bytes are written -/

theorem length_emit (x : UInt32) {equals : ℕ} (hequals : equals ≤ 2) :
    (emit x equals).length = 3 - equals := by
  unfold emit
  interval_cases equals <;> rfl

section Steps

variable {c : UInt8} {rest : List UInt8} {x : UInt32} {accumulated equals : ℕ}

theorem digits_blank (hblank : c = 0x0D ∨ c = 0x0A ∨ c = 0x20) :
    digits (c :: rest) x accumulated equals = digits rest x accumulated equals := by
  rw [digits, if_pos hblank]

theorem digits_mark : digits (0x3D :: rest) x accumulated equals =
    if accumulated + 1 = 4 then
      emit (x <<< 6) (equals + 1) ++ digits rest (x <<< 6) 0 (equals + 1)
    else digits rest (x <<< 6) (accumulated + 1) (equals + 1) := by
  rw [digits, if_neg (by decide)]
  rfl

theorem digits_digit (hblank : ¬ (c = 0x0D ∨ c = 0x0A ∨ c = 0x20)) (hmark : c ≠ 0x3D) :
    digits (c :: rest) x accumulated equals =
      if accumulated + 1 = 4 then
        emit (x <<< 6 ||| (decValue c).getD 0) equals ++
          digits rest (x <<< 6 ||| (decValue c).getD 0) 0 equals
      else digits rest (x <<< 6 ||| (decValue c).getD 0) (accumulated + 1) equals := by
  rw [digits, if_neg hblank]
  simp only [if_neg hmark]

end Steps

/-- The count of the first pass against the bytes of the second: whole groups of digits, or a
group with marks behind which no other is complete. -/
def Counted (n equals written : ℕ) : Prop :=
  (written = 3 * (n / 4) ∧ equals ≤ n % 4 ∧ equals ≤ 2) ∨
    (n % 4 < equals ∧ equals ≤ 2 ∧ room n equals ≤ written)

theorem counted_of_scan {src : List UInt8} {spaces : Bool} {n equals written : ℕ}
    {result : ℕ × ℕ} (x : UInt32) (hscan : scan src spaces n equals = some result)
    (hcounted : Counted n equals written) :
    Counted result.1 result.2 (written + (digits src x (n % 4) equals).length) := by
  induction src generalizing spaces n equals written x with
  | nil =>
      obtain rfl := Option.some.inj hscan
      exact hcounted
  | cons c rest ih =>
      cases accepts_of_scan hscan with
      | blank c spaces hblank hrest =>
          rw [digits_blank hblank]
          exact ih x hrest hcounted
      | mark hequals hrest =>
          rw [digits_mark]
          by_cases hfour : n % 4 + 1 = 4
          · have hmod : (n + 1) % 4 = 0 := by omega
            rw [if_pos hfour, List.length_append, length_emit _ (by omega), ← Nat.add_assoc]
            have hnext : Counted (n + 1) (equals + 1) (written + (3 - (equals + 1))) := by
              unfold Counted room at hcounted ⊢
              omega
            have hstep := ih (x <<< 6) hrest hnext
            rwa [hmod] at hstep
          · have hmod : (n + 1) % 4 = n % 4 + 1 := by omega
            rw [if_neg hfour]
            have hnext : Counted (n + 1) (equals + 1) written := by
              unfold Counted room at hcounted ⊢
              omega
            have hstep := ih (x <<< 6) hrest hnext
            rwa [hmod] at hstep
      | digit c hblank hmark hvalue hequals hrest =>
          subst hequals
          rw [digits_digit hblank hmark]
          by_cases hfour : n % 4 + 1 = 4
          · have hmod : (n + 1) % 4 = 0 := by omega
            rw [if_pos hfour, List.length_append, length_emit _ (by omega), ← Nat.add_assoc]
            have hnext : Counted (n + 1) 0 (written + (3 - 0)) := by
              unfold Counted room at hcounted ⊢
              omega
            have hstep := ih (x <<< 6 ||| (decValue c).getD 0) hrest hnext
            rwa [hmod] at hstep
          · have hmod : (n + 1) % 4 = n % 4 + 1 := by omega
            rw [if_neg hfour]
            have hnext : Counted (n + 1) 0 written := by
              unfold Counted room at hcounted ⊢
              omega
            have hstep := ih (x <<< 6 ||| (decValue c).getD 0) hrest hnext
            rwa [hmod] at hstep

/-- A text with marks in front of its last bytes needs no more room than it fills. -/
theorem room_le_of_scan {src : List UInt8} {n equals : ℕ}
    (hscan : scan src false 0 0 = some (n, equals))
    (hlength : (digits src 0 0 0).length % 3 ≠ 0) :
    room n equals ≤ (digits src 0 0 0).length := by
  have hstart : Counted 0 0 0 := by unfold Counted; omega
  have hcounted := counted_of_scan 0 hscan hstart
  rw [Nat.zero_add] at hcounted
  rcases hcounted with ⟨hwhole, -, -⟩ | ⟨-, -, hroom⟩
  · exact absurd (by rw [hwhole]; exact Nat.mul_mod_right 3 _) hlength
  · exact hroom

/-! ## A text that is cut -/

/-- The bytes of a cut text are the first bytes of the whole. -/
theorem digits_take_prefix (k : ℕ) (src : List UInt8) (x : UInt32) (accumulated equals : ℕ) :
    digits (src.take k) x accumulated equals <+: digits src x accumulated equals := by
  induction src generalizing k x accumulated equals with
  | nil => rw [List.take_nil]
  | cons c rest ih =>
      cases k with
      | zero => exact List.nil_prefix
      | succ k =>
          rw [List.take_succ_cons, digits, digits]
          dsimp only
          split
          · exact ih _ _ _ _
          · split
            · exact (List.prefix_append_right_inj _).mpr (ih _ _ _ _)
            · exact ih _ _ _ _

/-- Behind a group with marks no other is complete. -/
theorem digits_of_marks {src : List UInt8} {spaces : Bool} {n equals : ℕ} {result : ℕ × ℕ}
    (x : UInt32) (accumulated : ℕ) (hscan : scan src spaces n equals = some result)
    (hmarks : 0 < equals) (hroom : accumulated + (2 - equals) < 4) :
    digits src x accumulated equals = [] := by
  induction src generalizing spaces n equals x accumulated with
  | nil => rfl
  | cons c rest ih =>
      cases accepts_of_scan hscan with
      | blank c spaces hblank hrest =>
          rw [digits_blank hblank]
          exact ih x accumulated hrest hmarks hroom
      | mark hequals hrest =>
          rw [digits_mark, if_neg (by omega)]
          exact ih _ _ hrest (Nat.succ_pos _) (by omega)
      | digit c hblank hmark hvalue hequals hrest =>
          exact absurd hequals (Nat.ne_of_gt hmarks)

/-- A cut text that still has a group with marks has all bytes. -/
theorem digits_take_eq {src : List UInt8} {spaces : Bool} {n equals : ℕ} {result : ℕ × ℕ}
    (k : ℕ) (x : UInt32) {accumulated : ℕ} (hscan : scan src spaces n equals = some result)
    (hlength : (digits (src.take k) x accumulated equals).length % 3 ≠ 0) :
    digits (src.take k) x accumulated equals = digits src x accumulated equals := by
  induction src generalizing k spaces n equals x accumulated with
  | nil => rw [List.take_nil]
  | cons c rest ih =>
      cases k with
      | zero => exact absurd rfl hlength
      | succ k =>
          rw [List.take_succ_cons] at hlength ⊢
          cases accepts_of_scan hscan with
          | blank c spaces hblank hrest =>
              rw [digits_blank hblank] at hlength ⊢
              rw [digits_blank hblank]
              exact ih k x hrest hlength
          | mark hequals hrest =>
              rw [digits_mark] at hlength ⊢
              rw [digits_mark]
              by_cases hfour : accumulated + 1 = 4
              · have hnil := digits_of_marks (x <<< 6) 0 hrest (Nat.succ_pos _) (by omega)
                have hcut := digits_take_prefix k rest (x <<< 6) 0 (equals + 1)
                rw [hnil, List.prefix_nil] at hcut
                rw [if_pos hfour, if_pos hfour, hnil, hcut]
              · rw [if_neg hfour] at hlength ⊢
                rw [if_neg hfour]
                exact ih k _ hrest hlength
          | digit c hblank hmark hvalue hequals hrest =>
              subst hequals
              rw [digits_digit hblank hmark] at hlength ⊢
              rw [digits_digit hblank hmark]
              by_cases hfour : accumulated + 1 = 4
              · rw [if_pos hfour] at hlength ⊢
                rw [if_pos hfour]
                rw [List.length_append, length_emit _ (by omega)] at hlength
                rw [ih k _ hrest (by omega)]
              · rw [if_neg hfour] at hlength ⊢
                rw [if_neg hfour]
                exact ih k _ hrest hlength

/-! ## Decoding into another buffer, and a cut text -/

theorem scan_of_decode {dlen : ℕ} {src bytes : List UInt8}
    (hdecode : decode dlen src = some bytes) :
    ∃ n equals, scan src false 0 0 = some (n, equals) := by
  unfold decode at hdecode
  split at hdecode
  · cases hdecode
  · exact ⟨_, _, ‹_›⟩

theorem le_of_scan {src : List UInt8} {spaces : Bool} {n equals : ℕ} {result : ℕ × ℕ}
    (hscan : scan src spaces n equals = some result) : n ≤ result.1 := by
  induction src generalizing spaces n equals with
  | nil =>
      obtain rfl := Option.some.inj hscan
      exact le_rfl
  | cons c rest ih =>
      cases accepts_of_scan hscan with
      | blank c spaces hblank hrest => exact ih hrest
      | mark hequals hrest => exact Nat.le_of_succ_le (ih hrest)
      | digit c hblank hmark hvalue hequals hrest => exact Nat.le_of_succ_le (ih hrest)

/-- Without digits and marks nothing is written. -/
theorem digits_of_blank {src : List UInt8} {spaces : Bool} {n equals : ℕ} {result : ℕ × ℕ}
    (x : UInt32) (accumulated : ℕ) (hscan : scan src spaces n equals = some result)
    (hnone : result.1 = n) : digits src x accumulated equals = [] := by
  induction src generalizing spaces with
  | nil => rfl
  | cons c rest ih =>
      cases accepts_of_scan hscan with
      | blank c spaces hblank hrest =>
          rw [digits_blank hblank]
          exact ih hrest
      | mark hequals hrest => exact absurd (le_of_scan hrest) (by omega)
      | digit c hblank hmark hvalue hequals hrest => exact absurd (le_of_scan hrest) (by omega)

/-- What is decoded, if anything, does not depend on the buffer. -/
theorem digits_of_decode {dlen : ℕ} {src bytes : List UInt8}
    (hdecode : decode dlen src = some bytes) : bytes = digits src 0 0 0 := by
  unfold decode at hdecode
  split at hdecode
  · cases hdecode
  rename_i n equals hscan
  split at hdecode
  · rw [digits_of_blank 0 0 hscan ‹_›]
    exact (Option.some.inj hdecode).symm
  split at hdecode
  · cases hdecode
  · exact (Option.some.inj hdecode).symm

/-- One, sixteen or thirty-two bytes fit into any buffer that is as large. -/
theorem decode_of_room {dlen small : ℕ} {src bytes : List UInt8}
    (hdecode : decode dlen src = some bytes) (hlength : bytes.length % 3 ≠ 0)
    (hsmall : bytes.length ≤ small) : decode small src = some bytes := by
  obtain ⟨n, equals, hscan⟩ := scan_of_decode hdecode
  obtain rfl := digits_of_decode hdecode
  have hroom := room_le_of_scan hscan hlength
  have hn : n ≠ 0 := by
    rintro rfl
    rw [digits_of_blank 0 0 hscan rfl] at hlength
    exact hlength rfl
  rw [decode, hscan]
  dsimp only
  rw [if_neg hn, if_neg (by omega)]

/-- A cut text decodes to whole groups, or to all that the text decodes to. -/
theorem decode_take {dlen small k : ℕ} {src bytes cut : List UInt8}
    (hdecode : decode dlen src = some bytes)
    (hcut : decode small (src.take k) = some cut) :
    cut.length % 3 = 0 ∨ cut = bytes := by
  obtain ⟨n, equals, hscan⟩ := scan_of_decode hdecode
  rw [digits_of_decode hdecode, digits_of_decode hcut]
  by_cases hlength : (digits (src.take k) 0 0 0).length % 3 = 0
  · exact .inl hlength
  · exact .inr (digits_take_eq k 0 hscan hlength)

theorem zero_notMem_of_decode {dlen : ℕ} {src bytes : List UInt8}
    (hdecode : decode dlen src = some bytes) : 0 ∉ src := by
  obtain ⟨n, equals, hscan⟩ := scan_of_decode hdecode
  exact zero_notMem_of_scan hscan

end LoraBridge.Base64Decode
