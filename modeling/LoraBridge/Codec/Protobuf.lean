import LoraBridge.Codec.Memory

/-!
# The protobuf field walker

`pbVarint`, `pbSkip` and `pbReadFixed32` as the decoders use them, with the
target's integer widths: a cursor is a 32-bit `size_t`, a varint is a
`uint64_t`, `p + v` is a 64-bit sum, and the value is narrowed to `size_t`
before it is added to the cursor.  `parseField` states what the code reads of
one field whatever it then does with it.
-/

namespace LoraBridge.Protobuf

open LoraBridge.Memory

/-- The loop of `pbVarint` with `rounds` bytes left before `shift` reaches 64. -/
def pbVarintLoop (b : Pointer) (n : ℕ) : ℕ → ℕ → ℕ → ℕ → Except Halt (ℕ × ℕ)
  | 0, _, _, _ => .error .malformed
  | rounds + 1, shift, p, v =>
      if p < n then do
        let byte ← b p
        let v := v ||| ((byte &&& 0x7F).toNat <<< shift) % 2 ^ 64
        if byte &&& 0x80 = 0 then .ok (v, p + 1)
        else pbVarintLoop b n rounds (shift + 7) (p + 1) v
      else .error .malformed

/-- Ten bytes at most: the shift is 70 after the tenth. -/
def pbVarint (b : Pointer) (n p : ℕ) : Except Halt (ℕ × ℕ) :=
  pbVarintLoop b n 10 0 p 0

/-- `(p + amount)` in `size_t`. -/
def addSize (p amount : ℕ) : ℕ := (p + amount) % 2 ^ 32

/-- `p + v > n` with `v` a `uint64_t`. -/
def exceeds (p v n : ℕ) : Prop := n < (p + v) % 2 ^ 64

instance (p v n : ℕ) : Decidable (exceeds p v n) :=
  inferInstanceAs (Decidable (n < (p + v) % 2 ^ 64))

/-- A length varint, its `p + v > n` check, and the length. -/
def pbLength (b : Pointer) (n p : ℕ) : Except Halt (ℕ × ℕ) := do
  let (v, q) ← pbVarint b n p
  if exceeds q v n then .error .malformed else .ok (v, q)

/-- `p += (size_t)v`. -/
def addLength (p v : ℕ) : ℕ := addSize p (v % 2 ^ 32)

/-- A pointer into the bytes being walked and the length that goes with it. -/
structure Slice where
  offset : ℕ
  length : ℕ
  deriving DecidableEq, Repr

/-- The bytes of a slice, addressed from its own start. -/
def Slice.pointer (slice : Slice) (b : Pointer) : Pointer :=
  b.advance slice.offset

/-- `payload = pt + pos; payloadLen = (size_t)plen; pos += payloadLen`, after
the length check. -/
def takeSlice (b : Pointer) (n p : ℕ) : Except Halt (Slice × ℕ) := do
  let (plen, pos) ← pbLength b n p
  .ok (⟨pos, plen % 2 ^ 32⟩, addLength pos plen)

def pbSkip (b : Pointer) (n p wt : ℕ) : Except Halt ℕ :=
  match wt with
  | 0 => do
      let (_, q) ← pbVarint b n p
      .ok q
  | 1 => if n < addSize p 8 then .error .malformed else .ok (addSize p 8)
  | 2 => do
      let (v, q) ← pbLength b n p
      .ok (addLength q v)
  | 5 => if n < addSize p 4 then .error .malformed else .ok (addSize p 4)
  | _ => .error .malformed

def pbReadFixed32 (b : Pointer) (n p : ℕ) : Except Halt (UInt32 × ℕ) :=
  if n < addSize p 4 then .error .malformed
  else do
    let v ← word32 b p
    .ok (v, addSize p 4)

/-- The tag of a field: `(int)(tagv >> 3)`, `(int)(tagv & 7)` and the cursor. -/
def pbTag (b : Pointer) (n p : ℕ) : Except Halt (ℕ × ℕ × ℕ) := do
  let (tagv, q) ← pbVarint b n p
  .ok (tagv / 8 % 2 ^ 32, tagv % 8, q)

/-- One field as the bytes state it: `content` is where its payload begins and
`next` where the code continues. -/
structure Field where
  number : ℕ
  wireType : ℕ
  value : ℕ
  content : ℕ
  next : ℕ
  deriving DecidableEq, Repr

/-- The slice a length-delimited field stands for. -/
def Field.slice (field : Field) : Slice :=
  ⟨field.content, field.value % 2 ^ 32⟩

/-- What follows the tag of a field. -/
def parseContent (b : Pointer) (n number wireType q : ℕ) : Except Halt Field :=
  match wireType with
  | 0 => do
      let (v, r) ← pbVarint b n q
      .ok ⟨number, 0, v, r, r⟩
  | 1 =>
      if n < addSize q 8 then .error .malformed
      else .ok ⟨number, 1, 0, q, addSize q 8⟩
  | 2 => do
      let (v, r) ← pbLength b n q
      .ok ⟨number, 2, v, r, addLength r v⟩
  | 5 =>
      if n < addSize q 4 then .error .malformed
      else .ok ⟨number, 5, 0, q, addSize q 4⟩
  | _ => .error .malformed

def parseField (b : Pointer) (n p : ℕ) : Except Halt Field := do
  let (number, wireType, q) ← pbTag b n p
  parseContent b n number wireType q

/-! ## The readers as parts of a field -/

section Readers

variable {Result : Type} {b : Pointer} {n number wireType q : ℕ}
  {read : Field → Except Halt Result}

/-- The number and wire type of a field are those of its tag. -/
theorem parseContent_tag {field : Field}
    (hparse : parseContent b n number wireType q = .ok field) :
    field.number = number ∧ field.wireType = wireType := by
  simp only [parseContent, bind, Except.bind] at hparse
  split at hparse
  · split at hparse <;> cases hparse
    exact ⟨rfl, rfl⟩
  · split at hparse <;> cases hparse
    exact ⟨rfl, rfl⟩
  · split at hparse <;> cases hparse
    exact ⟨rfl, rfl⟩
  · split at hparse <;> cases hparse
    exact ⟨rfl, rfl⟩
  · cases hparse

/-- What is done with a field may assume the number and type of its tag. -/
theorem parseContent_congr {read' : Field → Except Halt Result}
    (hagree : ∀ field : Field, field.number = number → field.wireType = wireType →
      read field = read' field) :
    parseContent b n number wireType q >>= read =
      parseContent b n number wireType q >>= read' := by
  cases hparse : parseContent b n number wireType q with
  | error halt => rfl
  | ok field =>
      have htag := parseContent_tag hparse
      exact hagree field htag.1 htag.2

theorem pbVarint_bind {use : ℕ × ℕ → Except Halt Result}
    (hagree : ∀ v r, use (v, r) = read ⟨number, 0, v, r, r⟩) :
    pbVarint b n q >>= use = parseContent b n number 0 q >>= read := by
  simp only [parseContent, bind_assoc]
  exact bind_congr fun (v, r) => hagree v r

theorem pbLength_bind {use : ℕ × ℕ → Except Halt Result}
    (hagree : ∀ v r, use (v, r) = read ⟨number, 2, v, r, addLength r v⟩) :
    pbLength b n q >>= use = parseContent b n number 2 q >>= read := by
  simp only [parseContent, bind_assoc]
  exact bind_congr fun (v, r) => hagree v r

theorem pbSkip_bind {use : ℕ → Except Halt Result}
    (hagree : ∀ field : Field, field.number = number → field.wireType = wireType →
      use field.next = read field) :
    pbSkip b n q wireType >>= use =
      parseContent b n number wireType q >>= read := by
  refine Eq.trans ?_ (parseContent_congr hagree)
  unfold parseContent pbSkip
  split
  · simp only [bind_assoc]; rfl
  · split <;> rfl
  · simp only [bind_assoc]; rfl
  · split <;> rfl
  · rfl

theorem pbReadFixed32_bind {use : UInt32 × ℕ → Except Halt Result}
    (hagree : ∀ field : Field, field.number = number → field.wireType = 5 →
      (word32 b field.content >>= fun v => use (v, field.next)) = read field) :
    pbReadFixed32 b n q >>= use = parseContent b n number 5 q >>= read := by
  refine Eq.trans ?_ (parseContent_congr hagree)
  unfold parseContent pbReadFixed32
  by_cases hsize : n < addSize q 4
  · simp only [hsize, if_true]
    rfl
  · simp only [hsize, if_false, bind_assoc]
    rfl

theorem takeSlice_bind {use : Slice × ℕ → Except Halt Result}
    (hagree : ∀ v r, use (⟨r, v % 2 ^ 32⟩, addLength r v) =
      read ⟨number, 2, v, r, addLength r v⟩) :
    takeSlice b n q >>= use = parseContent b n number 2 q >>= read := by
  unfold takeSlice
  rw [bind_assoc]
  exact pbLength_bind hagree

/-- Behind the tag of a length-delimited field, `takeSlice` reads what the field
stands for. -/
theorem takeSlice_eq_ok_iff {p next : ℕ} {slice : Slice}
    (htag : pbTag b n p = .ok (number, 2, q)) :
    takeSlice b n q = .ok (slice, next) ↔
      ∃ field, parseField b n p = .ok field ∧ field.slice = slice ∧
        field.next = next := by
  simp only [parseField, htag]
  change _ ↔ ∃ field, parseContent b n number 2 q = .ok field ∧ _
  simp only [takeSlice, parseContent]
  constructor
  · intro hslice
    obtain ⟨⟨v, r⟩, hread, hslice⟩ := bind_eq_ok.mp hslice
    cases hslice
    exact ⟨⟨number, 2, v, r, addLength r v⟩, bind_eq_ok.mpr ⟨_, hread, rfl⟩, rfl, rfl⟩
  · rintro ⟨field, hparse, rfl, rfl⟩
    obtain ⟨⟨v, r⟩, hread, hfield⟩ := bind_eq_ok.mp hparse
    cases hfield
    exact bind_eq_ok.mpr ⟨_, hread, rfl⟩

end Readers

/-! ## What a varint read does to the cursor -/

theorem pbVarintLoop_spec {b : Pointer} {n rounds shift p v value q : ℕ}
    (hread : pbVarintLoop b n rounds shift p v = .ok (value, q)) (hv : v < 2 ^ 64) :
    p < q ∧ q ≤ n ∧ q ≤ p + rounds ∧ value < 2 ^ 64 := by
  induction rounds generalizing shift p v with
  | zero => cases hread
  | succ rounds ih =>
      simp only [pbVarintLoop] at hread
      split at hread
      · rename_i hp
        cases hbyte : b p with
        | error halt => simp [hbyte, bind, Except.bind] at hread
        | ok byte =>
            have hor : v ||| ((byte &&& 0x7F).toNat <<< shift) % 2 ^ 64 < 2 ^ 64 :=
              Nat.or_lt_two_pow hv (Nat.mod_lt _ (by norm_num))
            simp only [hbyte, bind, Except.bind] at hread
            split at hread
            · simp only [Except.ok.injEq, Prod.mk.injEq] at hread
              obtain ⟨rfl, rfl⟩ := hread
              exact ⟨by omega, by omega, by omega, hor⟩
            · have hrest := ih hread hor
              exact ⟨by omega, hrest.2.1, by omega, hrest.2.2.2⟩
      · cases hread

/-- A varint takes between one and ten of the remaining bytes. -/
theorem pbVarint_spec {b : Pointer} {n p value q : ℕ}
    (hread : pbVarint b n p = .ok (value, q)) :
    p < q ∧ q ≤ n ∧ q ≤ p + 10 ∧ value < 2 ^ 64 :=
  pbVarintLoop_spec hread (by norm_num)

theorem pbTag_spec {b : Pointer} {n p number wireType q : ℕ}
    (hread : pbTag b n p = .ok (number, wireType, q)) :
    p < q ∧ q ≤ n ∧ q ≤ p + 10 := by
  simp only [pbTag, bind, Except.bind] at hread
  split at hread
  · cases hread
  · rename_i read hvarint
    simp only [Except.ok.injEq, Prod.mk.injEq] at hread
    obtain ⟨-, -, rfl⟩ := hread
    have hspec := pbVarint_spec hvarint
    exact ⟨hspec.1, hspec.2.1, hspec.2.2.1⟩

theorem pbLength_spec {b : Pointer} {n p value q : ℕ}
    (hread : pbLength b n p = .ok (value, q)) :
    (p < q ∧ q ≤ n ∧ q ≤ p + 10 ∧ value < 2 ^ 64) ∧ ¬ exceeds q value n := by
  simp only [pbLength, bind, Except.bind] at hread
  split at hread
  · cases hread
  · rename_i read hvarint
    split at hread
    · cases hread
    · rename_i hfits
      simp only [Except.ok.injEq, Prod.mk.injEq] at hread
      obtain ⟨rfl, rfl⟩ := hread
      exact ⟨pbVarint_spec hvarint, hfits⟩

/-! ## Inside readable bytes the readers only refuse malformed ones -/

section Readable

variable {b : Pointer} {n : ℕ} {halt : Halt}

theorem pbVarintLoop_error (hreadable : Readable b n) {rounds shift p v : ℕ}
    (herror : pbVarintLoop b n rounds shift p v = .error halt) :
    halt = .malformed := by
  induction rounds generalizing shift p v with
  | zero => cases herror; rfl
  | succ rounds ih =>
      simp only [pbVarintLoop] at herror
      split at herror
      · rename_i hp
        obtain ⟨byte, hbyte⟩ := hreadable p hp
        rcases bind_eq_error.mp herror with hread | ⟨_, _, herror⟩
        · simp [hbyte] at hread
        · split at herror
          · cases herror
          · exact ih herror
      · cases herror
        rfl

theorem pbTag_error (hreadable : Readable b n) {p : ℕ}
    (herror : pbTag b n p = .error halt) : halt = .malformed := by
  rcases bind_eq_error.mp herror with hread | ⟨_, _, herror⟩
  · exact pbVarintLoop_error hreadable hread
  · cases herror

theorem pbLength_error (hreadable : Readable b n) {p : ℕ}
    (herror : pbLength b n p = .error halt) : halt = .malformed := by
  rcases bind_eq_error.mp herror with hread | ⟨_, _, herror⟩
  · exact pbVarintLoop_error hreadable hread
  · dsimp only at herror
    split at herror <;> cases herror
    rfl

theorem parseField_error (hreadable : Readable b n) {p : ℕ}
    (herror : parseField b n p = .error halt) : halt = .malformed := by
  rcases bind_eq_error.mp herror with htag | ⟨⟨number, wireType, q⟩, -, herror⟩
  · exact pbTag_error hreadable htag
  · simp only [parseContent] at herror
    split at herror
    · rcases bind_eq_error.mp herror with hread | ⟨_, _, herror⟩
      · exact pbVarintLoop_error hreadable hread
      · cases herror
    · split at herror <;> cases herror
      rfl
    · rcases bind_eq_error.mp herror with hread | ⟨_, _, herror⟩
      · exact pbLength_error hreadable hread
      · cases herror
    · split at herror <;> cases herror
      rfl
    · cases herror
      rfl

end Readable

/-! ## What one field does to the cursor -/

/-- The wire types a field can have, each with the reads it is made of. -/
theorem parseField_cases {b : Pointer} {n p : ℕ} {field : Field}
    (hparse : parseField b n p = .ok field) :
    ∃ q, pbTag b n p = .ok (field.number, field.wireType, q) ∧
      ((field.wireType = 0 ∧ pbVarint b n q = .ok (field.value, field.content) ∧
          field.next = field.content) ∨
        (field.wireType = 1 ∧ field.content = q ∧ addSize q 8 ≤ n ∧
          field.next = addSize q 8) ∨
        (field.wireType = 2 ∧ pbLength b n q = .ok (field.value, field.content) ∧
          field.next = addLength field.content field.value) ∨
        (field.wireType = 5 ∧ field.content = q ∧ addSize q 4 ≤ n ∧
          field.next = addSize q 4)) := by
  simp only [parseField, parseContent, bind, Except.bind] at hparse
  split at hparse
  · cases hparse
  · rename_i tag htag
    obtain ⟨number, wireType, q⟩ := tag
    refine ⟨q, ?_⟩
    dsimp only at hparse
    split at hparse
    · split at hparse
      · cases hparse
      · rename_i hvarint
        cases hparse
        exact ⟨htag, .inl ⟨rfl, hvarint, rfl⟩⟩
    · split at hparse
      · cases hparse
      · cases hparse
        exact ⟨htag, .inr (.inl ⟨rfl, rfl, by omega, rfl⟩)⟩
    · split at hparse
      · cases hparse
      · rename_i hlength
        cases hparse
        exact ⟨htag, .inr (.inr (.inl ⟨rfl, hlength, rfl⟩))⟩
    · split at hparse
      · cases hparse
      · cases hparse
        exact ⟨htag, .inr (.inr (.inr ⟨rfl, rfl, by omega, rfl⟩))⟩
    · cases hparse

/-- The header of a field is at least one byte and at most twenty, and lies
inside the message. -/
theorem parseField_content {b : Pointer} {n p : ℕ} {field : Field}
    (hparse : parseField b n p = .ok field) :
    p < field.content ∧ field.content ≤ n ∧ field.content ≤ p + 20 := by
  obtain ⟨q, htag, hcases⟩ := parseField_cases hparse
  have htag := pbTag_spec htag
  rcases hcases with ⟨-, hvarint, -⟩ | ⟨-, hcontent, -⟩ | ⟨-, hlength, -⟩ |
    ⟨-, hcontent, -⟩
  · have hvarint := pbVarint_spec hvarint
    omega
  · omega
  · have hlength := (pbLength_spec hlength).1
    omega
  · omega

/-- A field after which the cursor is not ahead of where the field began: a
declared length that wraps the 64-bit sum and is short of 2^64 by at least the
header's own size, or a fixed-width field at the very end of the 32-bit address
range. -/
def Field.Regresses (p : ℕ) (field : Field) : Prop :=
  (field.wireType = 2 ∧ 2 ^ 64 ≤ field.content + field.value ∧
      field.value + (field.content - p) ≤ 2 ^ 64) ∨
    (field.wireType = 1 ∧ 2 ^ 32 ≤ field.content + 8) ∨
    (field.wireType = 5 ∧ 2 ^ 32 ≤ field.content + 4)

instance (p : ℕ) (field : Field) : Decidable (field.Regresses p) :=
  inferInstanceAs (Decidable (_ ∨ _ ∨ _))

/-- Where the 64-bit sum wraps, the cursor moves back by what is missing from
the length to 2^64. -/
theorem addLength_of_wrap {n q v : ℕ} (hn : n < 2 ^ 32) (hq : q ≤ n)
    (hv : v < 2 ^ 64) (hwrap : 2 ^ 64 ≤ q + v) :
    addLength q v = q + v - 2 ^ 64 := by
  simp only [addLength, addSize]
  omega

theorem addLength_of_no_wrap {n q v : ℕ} (hn : n < 2 ^ 32)
    (hfits : ¬ exceeds q v n) (hno : q + v < 2 ^ 64) :
    addLength q v = q + v ∧ q + v ≤ n := by
  simp only [exceeds, not_lt] at hfits
  simp only [addLength, addSize]
  omega

theorem addSize_forward_iff {n p q amount : ℕ} (hn : n < 2 ^ 32)
    (hpq : p < q) (hq : q ≤ n) (hamount : amount < 2 ^ 32)
    (hshort : q ≤ p + 10) (hten : 2 ^ 32 ≤ q + amount → amount + 10 < 2 ^ 32)
    (hsize : addSize q amount ≤ n) :
    p < addSize q amount ∧ addSize q amount ≤ n ↔ q + amount < 2 ^ 32 := by
  simp only [addSize] at hsize ⊢
  omega

/-- The code leaves a field strictly ahead of its start, and inside the
message, exactly when the field does not regress. -/
theorem parseField_forward_iff {b : Pointer} {n p : ℕ} {field : Field}
    (hn : n < 2 ^ 32) (hparse : parseField b n p = .ok field) :
    p < field.next ∧ field.next ≤ n ↔ ¬ field.Regresses p := by
  have hcontent := parseField_content hparse
  obtain ⟨q, htag, hcases⟩ := parseField_cases hparse
  have htag := pbTag_spec htag
  rcases hcases with ⟨hwt, -, hnext⟩ | ⟨hwt, hbody, hsize, hnext⟩ |
    ⟨hwt, hlength, hnext⟩ | ⟨hwt, hbody, hsize, hnext⟩
  · simp [Field.Regresses, hwt, hnext, hcontent.1, hcontent.2.1]
  · have hmove := addSize_forward_iff hn htag.1 htag.2.1 (by norm_num)
      htag.2.2 (by norm_num) hsize
    rw [hnext, hmove]
    simp [Field.Regresses, hwt, hbody, -Nat.reducePow]
  · obtain ⟨hspec, hfits⟩ := pbLength_spec hlength
    have hregress : field.Regresses p ↔ 2 ^ 64 ≤ field.content + field.value ∧
        field.value + (field.content - p) ≤ 2 ^ 64 := by
      simp [Field.Regresses, hwt]
    rw [hregress, hnext]
    by_cases hwrap : 2 ^ 64 ≤ field.content + field.value
    · rw [addLength_of_wrap hn hcontent.2.1 hspec.2.2.2 hwrap]
      omega
    · obtain ⟨heq, hle⟩ := addLength_of_no_wrap hn hfits (not_le.mp hwrap)
      rw [heq]
      omega
  · have hmove := addSize_forward_iff hn htag.1 htag.2.1 (by norm_num)
      htag.2.2 (by norm_num) hsize
    rw [hnext, hmove]
    simp [Field.Regresses, hwt, hbody, -Nat.reducePow]

/-- A length that passed its check ends inside the message, both as the number
the sender declared and as the slice the code keeps, or it wrapped and neither
does. -/
theorem slice_inside_iff {b : Pointer} {n p base limit : ℕ} {field : Field}
    (hlimit : base + n ≤ limit) (hsmall : limit < 2 ^ 32)
    (hparse : parseField b n p = .ok field) (hwire : field.wireType = 2) :
    base + field.slice.offset + field.slice.length ≤ limit ↔
      base + field.content + field.value ≤ limit := by
  obtain ⟨q, -, hcases⟩ := parseField_cases hparse
  simp only [hwire] at hcases
  obtain ⟨hlength, -⟩ : pbLength b n q = .ok (field.value, field.content) ∧
      field.next = addLength field.content field.value := by simpa using hcases
  obtain ⟨hspec, hfits⟩ := pbLength_spec hlength
  simp only [exceeds, not_lt] at hfits
  simp only [Field.slice]
  omega

/-- The declared length brings the 64-bit sum `cursor + length` round to zero or past it. -/
def Field.Wraps (field : Field) : Prop := 2 ^ 64 ≤ field.content + field.value

/-- What passed the check of its length ends inside the message unless the sum wrapped. -/
theorem inside_iff_not_wraps {b : Pointer} {n p base limit : ℕ} {field : Field}
    (hlimit : base + n ≤ limit) (hsmall : limit < 2 ^ 32)
    (hparse : parseField b n p = .ok field) (hwire : field.wireType = 2) :
    base + field.content + field.value ≤ limit ↔ ¬ field.Wraps := by
  obtain ⟨q, -, hcases⟩ := parseField_cases hparse
  simp only [hwire] at hcases
  obtain ⟨hlength, -⟩ : pbLength b n q = .ok (field.value, field.content) ∧
      field.next = addLength field.content field.value := by simpa using hcases
  obtain ⟨hspec, hfits⟩ := pbLength_spec hlength
  simp only [exceeds, not_lt] at hfits
  rw [Field.Wraps, not_le]
  omega

/-- Inside short readable bytes, the word of a fixed32 field can be read. -/
theorem word32_of_parse {b : Pointer} {n p : ℕ} {field : Field}
    (hreadable : Readable b n) (hn : n + 4 < 2 ^ 32)
    (hparse : parseField b n p = .ok field) (hwire : field.wireType = 5) :
    ∃ word, word32 b field.content = .ok word := by
  have hcontent := parseField_content hparse
  obtain ⟨q, -, hcases⟩ := parseField_cases hparse
  simp only [hwire] at hcases
  obtain ⟨rfl, hsize, -⟩ : field.content = q ∧ addSize q 4 ≤ n ∧
      field.next = addSize q 4 := by simpa using hcases
  unfold addSize at hsize
  exact word32_of_readable hreadable (by omega)

/-- The cursors at which the fields of a message begin, as the bytes chain
them. -/
inductive FieldStart (b : Pointer) (n : ℕ) : ℕ → Prop
  | first : FieldStart b n 0
  | next {p : ℕ} {field : Field} : FieldStart b n p → p < n →
      parseField b n p = .ok field → FieldStart b n field.next

/-- No field of the message moves the cursor back to its own start. -/
def NeverRegresses (b : Pointer) (n : ℕ) : Prop :=
  ∀ p field, FieldStart b n p → p < n → parseField b n p = .ok field →
    ¬ field.Regresses p

/-- The fields of a message from a cursor on, up to its end or to the first
malformed one.  A message whose fields lead back to themselves has none. -/
inductive Message (b : Pointer) (n : ℕ) : ℕ → List Field → Prop
  | done {p : ℕ} : n ≤ p → Message b n p []
  | malformed {p : ℕ} : p < n → parseField b n p = .error .malformed →
      Message b n p []
  | field {p : ℕ} {field : Field} {fields : List Field} : p < n →
      parseField b n p = .ok field → Message b n field.next fields →
        Message b n p (field :: fields)

/-- The listed fields are those at the field starts. -/
theorem Message.exists_start {b : Pointer} {n p : ℕ} {fields : List Field}
    (hmessage : Message b n p fields) (hfield : FieldStart b n p) {field : Field}
    (hmem : field ∈ fields) :
    ∃ start, FieldStart b n start ∧ start < n ∧
      parseField b n start = .ok field := by
  induction hmessage with
  | done => cases hmem
  | malformed => cases hmem
  | field hlt hparse _ ih =>
      rcases List.mem_cons.mp hmem with rfl | hrest
      · exact ⟨_, hfield, hlt, hparse⟩
      · exact ih (hfield.next hlt hparse) hrest

/-- The bytes determine the fields. -/
theorem Message.unique {b : Pointer} {n p : ℕ} {left right : List Field}
    (hleft : Message b n p left) (hright : Message b n p right) : left = right := by
  induction hleft generalizing right with
  | done hend =>
      cases hright with
      | done => rfl
      | malformed => rfl
      | field hlt => omega
  | malformed hlt hparse =>
      cases hright with
      | done => rfl
      | malformed => rfl
      | field _ hfield => simp [hparse] at hfield
  | field hlt hparse _ ih =>
      cases hright with
      | done hend => omega
      | malformed _ hmalformed => simp [hparse] at hmalformed
      | field _ hfield hrest =>
          obtain rfl : _ = _ := Except.ok.inj (hparse.symm.trans hfield)
          rw [ih hrest]

end LoraBridge.Protobuf
