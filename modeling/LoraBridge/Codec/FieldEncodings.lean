import LoraBridge.Codec.FieldWalk

/-!
# Encodings of protobuf fields

The wire format as a grammar: varints of one to ten bytes, minimal or not, and fields of
the four wire types that are not groups.  The field walker reads each encoding back,
wherever it stands in a message.
-/

namespace LoraBridge.FieldEncodings

open LoraBridge.FieldWalk LoraBridge.Memory LoraBridge.Protobuf LoraBridge.WhileLoop

/-- A varint: bytes with the top bit set, and a last one without it. -/
structure Varint where
  more : List UInt8
  last : UInt8
  more_top : ∀ b ∈ more, b &&& 0x80 ≠ 0
  last_top : last &&& 0x80 = 0
  short : more.length < 10

def Varint.bytes (varint : Varint) : List UInt8 := varint.more ++ [varint.last]

/-- Seven bits a byte, least significant first. -/
def sevenBits : List UInt8 → ℕ
  | [] => 0
  | b :: rest => (b &&& 0x7F).toNat + 128 * sevenBits rest

/-- The value as a 64-bit integer. -/
def Varint.value (varint : Varint) : ℕ := sevenBits varint.bytes % 2 ^ 64

/-- What follows a tag. -/
inductive Content where
  | varint (value : Varint)
  | fixed64 (bytes : List.Vector UInt8 8)
  | delimited (length : Varint) (payload : List UInt8) (counts : length.value = payload.length)
  | fixed32 (bytes : List.Vector UInt8 4)

def Content.wireType : Content → ℕ
  | .varint _ => 0
  | .fixed64 _ => 1
  | .delimited _ _ _ => 2
  | .fixed32 _ => 5

def Content.bytes : Content → List UInt8
  | .varint value => value.bytes
  | .fixed64 bytes => bytes.toList
  | .delimited length payload _ => length.bytes ++ payload
  | .fixed32 bytes => bytes.toList

/-- A field of a message; a field number has 29 bits. -/
structure EncodedField where
  number : ℕ
  tag : Varint
  content : Content
  number_small : number < 2 ^ 29
  tag_value : tag.value = 8 * number + content.wireType

def EncodedField.bytes (field : EncodedField) : List UInt8 :=
  field.tag.bytes ++ field.content.bytes

/-- The bytes of a message, field by field. -/
def messageBytes (fields : List EncodedField) : List UInt8 := fields.flatMap EncodedField.bytes

/-! ## Varints -/

/-- A byte below 128 ends a varint. -/
theorem last_varint_byte {b : UInt8} (hb : b.toNat < 128) : b &&& 0x7F = b ∧ b &&& 0x80 = 0 := by
  have hall : ∀ n < 128, UInt8.ofNat n &&& 0x7F = UInt8.ofNat n ∧
      UInt8.ofNat n &&& 0x80 = 0 := by decide +kernel
  have hbyte := hall b.toNat hb
  rwa [UInt8.ofNat_toNat] at hbyte

/-- The other bytes carry seven bits under the top one. -/
theorem more_varint_byte {m : ℕ} (hm : m < 128) :
    (UInt8.ofNat (m ||| 0x80) &&& 0x7F).toNat = m ∧ UInt8.ofNat (m ||| 0x80) &&& 0x80 ≠ 0 := by
  revert m
  decide +kernel

theorem toNat_ofNat_of_lt {n : ℕ} (hn : n < 256) : (UInt8.ofNat n).toNat = n := by
  rw [UInt8.toNat_ofNat', Nat.mod_eq_of_lt (by omega)]

theorem exists_varint_one {b : UInt8} (hb : b.toNat < 128) :
    ∃ varint : Varint, varint.bytes = [b] ∧ varint.value = b.toNat := by
  obtain ⟨hbits, htop⟩ := last_varint_byte hb
  refine ⟨⟨[], b, by simp, htop, by decide⟩, rfl, ?_⟩
  have hmod := Nat.mod_eq_of_lt (by omega : b.toNat < 2 ^ 64)
  simp only [Varint.value, Varint.bytes, List.nil_append, sevenBits, hbits, Nat.mul_zero,
    Nat.add_zero, hmod]

theorem exists_varint_two {low high : ℕ} (hlow : low < 128) (hhigh : high < 128) :
    ∃ varint : Varint, varint.bytes = [UInt8.ofNat (low ||| 0x80), UInt8.ofNat high] ∧
      varint.value = low + 128 * high := by
  obtain ⟨hlowBits, hlowTop⟩ := more_varint_byte hlow
  have hbyte := toNat_ofNat_of_lt (by omega : high < 256)
  obtain ⟨hhighBits, hhighTop⟩ := last_varint_byte (hbyte ▸ hhigh)
  refine ⟨⟨[UInt8.ofNat (low ||| 0x80)], UInt8.ofNat high, by simpa using hlowTop, hhighTop,
    by simp⟩, rfl, ?_⟩
  have hmod := Nat.mod_eq_of_lt (by omega : low + 128 * high < 2 ^ 64)
  simp only [Varint.value, Varint.bytes, List.cons_append, List.nil_append, sevenBits, hlowBits,
    hhighBits, hbyte, Nat.mul_zero, Nat.add_zero, hmod]

theorem sevenBits_lt (b : UInt8) : (b &&& 0x7F).toNat < 128 := by
  rw [UInt8.toNat_and]
  exact Nat.lt_of_le_of_lt Nat.and_le_right (by decide)

/-- A byte of seven bits in front of the others. -/
theorem shiftLeft_sevenBits (b : UInt8) (rest : List UInt8) (shift : ℕ) :
    sevenBits (b :: rest) <<< shift % 2 ^ 64 =
      (b &&& 0x7F).toNat <<< shift % 2 ^ 64 ||| sevenBits rest <<< (shift + 7) % 2 ^ 64 := by
  have hsum : (b &&& 0x7F).toNat + 128 * sevenBits rest =
      (b &&& 0x7F).toNat ||| sevenBits rest <<< 7 := by
    rw [Nat.or_comm, ← Nat.shiftLeft_add_eq_or_of_lt (sevenBits_lt b), Nat.shiftLeft_eq]
    omega
  rw [sevenBits, hsum, Nat.shiftLeft_or_distrib, Nat.or_mod_two_pow, ← Nat.shiftLeft_add,
    Nat.add_comm 7]

theorem length_bytes (varint : Varint) : varint.bytes.length = varint.more.length + 1 := by
  simp [Varint.bytes]

/-- The loop of `pbVarint` in front of a varint. -/
theorem pbVarintLoop_bytes (before : List UInt8) (more : List UInt8)
    (hmore : ∀ b ∈ more, b &&& 0x80 ≠ 0) {last : UInt8} (hlast : last &&& 0x80 = 0)
    (after : List UInt8) {n rounds : ℕ}
    (hn : before.length + (more ++ [last]).length ≤ n) (hrounds : more.length < rounds)
    (shift v : ℕ) :
    pbVarintLoop (.ofList (before ++ (more ++ [last] ++ after))) n rounds shift before.length v =
      .ok (v ||| sevenBits (more ++ [last]) <<< shift % 2 ^ 64,
        before.length + (more ++ [last]).length) := by
  induction more generalizing before rounds shift v with
  | nil =>
      obtain ⟨rounds, rfl⟩ : ∃ left, rounds = left + 1 := ⟨rounds - 1, by simp at hrounds; omega⟩
      have hread := ofList_append_cons before last after
      simp only [List.nil_append, List.singleton_append, List.length_singleton] at hn ⊢
      rw [pbVarintLoop, if_pos (by omega), hread]
      simp [bind, Except.bind, hlast, sevenBits]
  | cons b rest ih =>
      obtain ⟨rounds, rfl⟩ : ∃ left, rounds = left + 1 := ⟨rounds - 1, by simp at hrounds; omega⟩
      have hread := ofList_append_cons before b (rest ++ [last] ++ after)
      have hbytes : before ++ (b :: rest ++ [last] ++ after) =
          before ++ [b] ++ (rest ++ [last] ++ after) := by simp
      simp only [List.cons_append, List.length_cons] at hn hrounds
      have hrest := @ih (before ++ [b]) (fun c hc => hmore c (List.mem_cons_of_mem b hc)) rounds
        (by simp only [List.length_append, List.length_singleton] at hn ⊢; omega) (by omega)
        (shift + 7) (v ||| ((b &&& 0x7F).toNat <<< shift) % 2 ^ 64)
      rw [List.length_append, List.length_singleton] at hrest
      rw [List.cons_append, List.cons_append, pbVarintLoop, if_pos (by omega), hread]
      simp only [bind, Except.bind]
      rw [if_neg (hmore b List.mem_cons_self), ← List.cons_append, ← List.cons_append, hbytes,
        hrest, List.cons_append, shiftLeft_sevenBits, Nat.or_assoc, List.length_cons]
      congr 2
      omega

/-- `pbVarint` reads a varint wherever it stands. -/
theorem pbVarint_bytes (before : List UInt8) (varint : Varint) (after : List UInt8) {n : ℕ}
    (hn : before.length + varint.bytes.length ≤ n) :
    pbVarint (.ofList (before ++ (varint.bytes ++ after))) n before.length =
      .ok (varint.value, before.length + varint.bytes.length) := by
  have hloop := pbVarintLoop_bytes before varint.more varint.more_top varint.last_top after
    hn varint.short 0 0
  rw [Nat.zero_or, Nat.shiftLeft_zero] at hloop
  exact hloop

/-! ## Fields -/

/-- The bytes the walker has passed when it notes where the payload is. -/
def Content.offset : Content → ℕ
  | .varint value => value.bytes.length
  | .delimited length _ _ => length.bytes.length
  | .fixed64 _ | .fixed32 _ => 0

/-- The value the walker keeps. -/
def Content.value : Content → ℕ
  | .varint value => value.value
  | .delimited _ payload _ => payload.length
  | .fixed64 _ | .fixed32 _ => 0

/-- A field as the walker reads it at a place in the message. -/
def EncodedField.parsed (field : EncodedField) (start : ℕ) : Field where
  number := field.number
  wireType := field.content.wireType
  value := field.content.value
  content := start + field.tag.bytes.length + field.content.offset
  next := start + field.bytes.length

/-- A length-delimited field under a tag of one byte. -/
theorem exists_delimited {tag : UInt8} {number : ℕ} (htag : tag.toNat = 8 * number + 2)
    (hsmall : tag.toNat < 128) {length : Varint} {payload : List UInt8}
    (hlength : length.value = payload.length) :
    ∃ field : EncodedField, field.number = number ∧
      field.bytes = tag :: (length.bytes ++ payload) ∧
      field.content = .delimited length payload hlength := by
  obtain ⟨tagVarint, hbytes, hvalue⟩ := exists_varint_one hsmall
  refine ⟨⟨number, tagVarint, .delimited length payload hlength, by omega, ?_⟩, rfl, ?_, rfl⟩
  · rw [hvalue, htag]
    rfl
  · rw [EncodedField.bytes, hbytes]
    rfl

theorem wireType_lt (content : Content) : content.wireType < 8 := by
  cases content <;> simp [Content.wireType]

/-- The tag. -/
theorem pbTag_bytes (before : List UInt8) (field : EncodedField) (after : List UInt8) {n : ℕ}
    (hn : before.length + field.tag.bytes.length ≤ n) :
    pbTag (.ofList (before ++ (field.tag.bytes ++ after))) n before.length =
      .ok (field.number, field.content.wireType, before.length + field.tag.bytes.length) := by
  have hwire := wireType_lt field.content
  have hnumber := field.number_small
  rw [pbTag, pbVarint_bytes before field.tag after hn, field.tag_value]
  simp only [bind, Except.bind]
  rw [show (8 * field.number + field.content.wireType) / 8 % 2 ^ 32 = field.number by omega,
    show (8 * field.number + field.content.wireType) % 8 = field.content.wireType by omega]

/-- What follows the tag. -/
theorem parseContent_bytes (before : List UInt8) (content : Content) (after : List UInt8)
    (number : ℕ) {n : ℕ} (hn : before.length + content.bytes.length ≤ n) (hsmall : n < 2 ^ 31) :
    parseContent (.ofList (before ++ (content.bytes ++ after))) n number content.wireType
        before.length =
      .ok ⟨number, content.wireType, content.value,
        before.length + content.offset, before.length + content.bytes.length⟩ := by
  cases content with
  | varint value =>
      have hread := pbVarint_bytes before value after hn
      simp only [parseContent, Content.wireType, Content.bytes, hread]
      rfl
  | fixed64 bytes =>
      have hlength : bytes.toList.length = 8 := bytes.toList_length
      have hend : addSize before.length 8 = before.length + 8 := by
        rw [addSize]
        omega
      simp only [parseContent, Content.wireType, Content.bytes, hend, hlength] at hn ⊢
      rw [if_neg (by omega)]
      rfl
  | delimited length payload counts =>
      simp only [Content.bytes, List.length_append] at hn
      have hroom : before.length + length.bytes.length ≤ n := by omega
      have hread := pbVarint_bytes before length (payload ++ after) hroom
      have hfits : ¬ exceeds (before.length + length.bytes.length) payload.length n := by
        rw [exceeds]
        omega
      have hnext : addLength (before.length + length.bytes.length) payload.length =
          before.length + (length.bytes ++ payload).length := by
        rw [addLength, addSize, List.length_append]
        omega
      simp only [parseContent, Content.wireType, Content.bytes, pbLength, List.append_assoc,
        hread, counts, bind, Except.bind]
      rw [if_neg hfits]
      simp only [hnext]
      rfl
  | fixed32 bytes =>
      have hlength : bytes.toList.length = 4 := bytes.toList_length
      have hend : addSize before.length 4 = before.length + 4 := by
        rw [addSize]
        omega
      simp only [parseContent, Content.wireType, Content.bytes, hend, hlength] at hn ⊢
      rw [if_neg (by omega)]
      rfl

/-- `parseField` reads a field wherever it stands. -/
theorem parseField_bytes (before : List UInt8) (field : EncodedField) (after : List UInt8)
    {n : ℕ} (hn : before.length + field.bytes.length ≤ n) (hsmall : n < 2 ^ 31) :
    parseField (.ofList (before ++ (field.bytes ++ after))) n before.length =
      .ok (field.parsed before.length) := by
  rw [EncodedField.bytes, List.length_append] at hn
  have hroom : before.length + field.tag.bytes.length ≤ n := by omega
  have htag := pbTag_bytes before field (field.content.bytes ++ after) hroom
  have hbytes : before ++ (field.bytes ++ after) =
      before ++ field.tag.bytes ++ (field.content.bytes ++ after) := by
    simp [EncodedField.bytes]
  have hend : (before ++ field.tag.bytes).length + field.content.bytes.length ≤ n := by
    rw [List.length_append]
    omega
  have hcontent := parseContent_bytes (before ++ field.tag.bytes) field.content after
    field.number hend hsmall
  rw [← List.append_assoc] at htag
  rw [List.length_append] at hcontent
  rw [parseField, hbytes, htag]
  simp only [bind, Except.bind, hcontent, EncodedField.parsed, EncodedField.bytes,
     List.length_append, Nat.add_assoc]

/-! ## Messages -/

/-- The fields of a message at their places. -/
def parsedFrom : ℕ → List EncodedField → List Field
  | _, [] => []
  | start, field :: rest => field.parsed start :: parsedFrom (start + field.bytes.length) rest

theorem length_pos (field : EncodedField) : 0 < field.bytes.length := by
  rw [EncodedField.bytes, List.length_append, length_bytes]
  omega

/-- The walk over an encoded message comes to its end and reads every field, whatever is
behind it. -/
theorem message_bytes (before : List UInt8) (fields : List EncodedField) (after : List UInt8)
    {n : ℕ} (hn : n = before.length + (messageBytes fields).length) (hsmall : n < 2 ^ 31) :
    Message (.ofList (before ++ (messageBytes fields ++ after))) n before.length
      (parsedFrom before.length fields) := by
  induction fields generalizing before with
  | nil => exact .done (by simp [hn, messageBytes])
  | cons field rest ih =>
      have hbytes : messageBytes (field :: rest) = field.bytes ++ messageBytes rest := by
        simp [messageBytes]
      rw [hbytes, List.length_append] at hn
      have hpos := length_pos field
      have hfield := parseField_bytes before field (messageBytes rest ++ after)
        (by omega : before.length + field.bytes.length ≤ n) hsmall
      have hrest := ih (before ++ field.bytes) (by rw [List.length_append]; omega)
      rw [@List.length_append _ before field.bytes] at hrest
      rw [hbytes, List.append_assoc]
      refine .field (by omega) hfield ?_
      rwa [← List.append_assoc]

/-- A walk that handles every field of an encoded message finishes with all of them. -/
theorem run_messageBytes {State : Type} {b : Pointer} {n : ℕ} (walk : FieldWalk b n State)
    (before : List UInt8) (fields : List EncodedField) (after : List UInt8)
    (hb : b = .ofList (before ++ (messageBytes fields ++ after)))
    (hn : n = before.length + (messageBytes fields).length) (hsmall : n < 2 ^ 31)
    {state last : State} (hcursor : walk.cursor state = before.length)
    (happly : (parsedFrom before.length fields).foldlM walk.apply state = .ok last)
    {fuel : ℕ} (hfuel : fields.length < fuel) :
    run (FieldWalk.guard walk) walk.body fuel state = .finished last := by
  induction fields generalizing before state fuel with
  | nil =>
      obtain ⟨fuel, rfl⟩ : ∃ left, fuel = left + 1 := ⟨fuel - 1, by simp at hfuel; omega⟩
      obtain rfl : state = last := Except.ok.inj happly
      have hguard : FieldWalk.guard walk state = false := by
        simp [FieldWalk.guard, hcursor, hn, messageBytes]
      simp [run, hguard]
  | cons field rest ih =>
      obtain ⟨fuel, rfl⟩ : ∃ left, fuel = left + 1 := ⟨fuel - 1, by simp at hfuel; omega⟩
      obtain ⟨next, hnext, hrest⟩ := foldlM_cons_eq_ok.mp happly
      have hbytes : messageBytes (field :: rest) = field.bytes ++ messageBytes rest := by
        simp [messageBytes]
      rw [hbytes, List.length_append] at hn
      rw [hbytes, List.append_assoc] at hb
      have hpos := length_pos field
      have hparse := parseField_bytes before field (messageBytes rest ++ after)
        (by omega : before.length + field.bytes.length ≤ n) hsmall
      rw [← hb, ← hcursor] at hparse
      have hstep : Continues (FieldWalk.guard walk) walk.body state next :=
        (continues_iff walk).mpr ⟨by omega, _, hparse, by rwa [hcursor]⟩
      have hat : (before ++ field.bytes).length = before.length + field.bytes.length :=
        List.length_append
      rw [run_succ_of_continues hstep]
      refine ih (before ++ field.bytes) (by rw [hb, List.append_assoc]) (by omega) ?_ (by rwa [hat])
        (by simpa using hfuel)
      rw [walk.cursor_apply hnext, hat]
      rfl

theorem length_le_messageBytes (fields : List EncodedField) :
    fields.length ≤ (messageBytes fields).length := by
  induction fields with
  | nil => exact Nat.le_refl 0
  | cons field rest ih =>
      have hpos := length_pos field
      simp only [messageBytes, List.flatMap_cons, List.length_append, List.length_cons] at ih ⊢
      omega

theorem loop_messageBytes {State : Type} {b : Pointer} {n : ℕ} (walk : FieldWalk b n State)
    (fields : List EncodedField) (after : List UInt8)
    (hb : b = .ofList (messageBytes fields ++ after)) (hn : n = (messageBytes fields).length)
    (hsmall : n < 2 ^ 31) {state last : State} (hcursor : walk.cursor state = 0)
    (happly : (parsedFrom 0 fields).foldlM walk.apply state = .ok last) :
    loop walk state = .finished last := by
  have hle := length_le_messageBytes fields
  exact run_messageBytes walk [] fields after hb (by simpa using hn) hsmall hcursor happly
    (by omega)

end LoraBridge.FieldEncodings
