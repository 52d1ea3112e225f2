import LoraBridge.Core.Buffer
import LoraBridge.Core.Deframer
import LoraBridge.Link.LinkProtocol

/-!
# The two frame parsers

`UartLink::feedByte` on the host and `feedByte` on the co-processor take a byte at a
time.  Their array accesses are checked, so a run that gets through has made none
outside.  Both run the deframer of the link's format.
-/

namespace LoraBridge.FrameParser

open LoraBridge.LinkProtocol

inductive RxState where
  | PRE0
  | PRE1
  | HDR
  | PAYLOAD
  deriving DecidableEq, Repr

/-- `_hdr` is type, radio, len_lo and len_hi. -/
structure Parser where
  st : RxState
  hdr : Buffer 4
  hdrCount : UInt8
  payLen : UInt16
  payCount : UInt16
  buf : Buffer (MAX_PAYLOAD + CRC_LEN)

/-- After boot. -/
def Parser.start : Parser := ⟨.PRE0, .zero 4, 0, 0, 0, .zero _⟩

def word16 (lo hi : UInt8) : UInt16 := lo.toUInt16 ||| (hi.toUInt16 <<< 8)

/-- The CRC over type, radio, len_lo, len_hi and the payload, copied together. -/
def Parser.frameCrc (p : Parser) : Option UInt16 := do
  let vb ← (Buffer.zero (4 + MAX_PAYLOAD)).write 0 (← p.hdr.read 4)
  let vb ← if p.payLen ≠ 0 then vb.write 4 (← p.buf.read p.payLen.toNat) else some vb
  let covered ← vb.read (4 + p.payLen.toNat)
  return crc16 covered

/-- What `handleFrame` is given. -/
def Parser.message (p : Parser) : Option Message := do
  return ⟨← p.hdr.get 0, ← p.hdr.get 1, ← p.buf.read p.payLen.toNat⟩

/-- `UartLink::feedByte` on the host. -/
def uartLinkFeedByte (p : Parser) (b : UInt8) : Option (Parser × List Message) :=
  match p.st with
  | .PRE0 => some (if b = PRE0 then { p with st := .PRE1 } else p, [])
  | .PRE1 =>
      if b = PRE1 then some ({ p with st := .HDR, hdrCount := 0 }, [])
      else if b = PRE0 then some (p, [])
      else some ({ p with st := .PRE0 }, [])
  | .HDR => do
      let hdr ← p.hdr.set p.hdrCount.toNat b
      let p := { p with hdr := hdr, hdrCount := p.hdrCount + 1 }
      if p.hdrCount = 4 then
        let p := { p with payLen := word16 (← p.hdr.get 2) (← p.hdr.get 3) }
        if MAX_PAYLOAD < p.payLen.toNat then return ({ p with st := .PRE0 }, [])
        else return ({ p with payCount := 0, st := .PAYLOAD }, [])
      else return (p, [])
  | .PAYLOAD => do
      let buf ← p.buf.set p.payCount.toNat b
      let p := { p with buf := buf, payCount := p.payCount + 1 }
      if p.payCount = p.payLen + 2 then
        let rxCrc := word16 (← p.buf.get p.payLen.toNat) (← p.buf.get (p.payLen.toNat + 1))
        let computed ← p.frameCrc
        let delivered ← if computed = rxCrc then p.message.map ([·]) else some []
        return ({ p with st := .PRE0 }, delivered)
      else return (p, [])

/-- `feedByte` on the co-processor. -/
def coprocFeedByte (p : Parser) (b : UInt8) : Option (Parser × List Message) :=
  match p.st with
  | .PRE0 => some (if b = PRE0 then { p with st := .PRE1 } else p, [])
  | .PRE1 =>
      if b = PRE1 then some ({ p with st := .HDR, hdrCount := 0 }, [])
      else if b ≠ PRE0 then some ({ p with st := .PRE0 }, [])
      else some (p, [])
  | .HDR => do
      let hdr ← p.hdr.set p.hdrCount.toNat b
      let p := { p with hdr := hdr, hdrCount := p.hdrCount + 1 }
      if p.hdrCount = 4 then
        let p := { p with payLen := word16 (← p.hdr.get 2) (← p.hdr.get 3) }
        if MAX_PAYLOAD < p.payLen.toNat then return ({ p with st := .PRE0 }, [])
        else return ({ p with payCount := 0, st := .PAYLOAD }, [])
      else return (p, [])
  | .PAYLOAD => do
      let buf ← p.buf.set p.payCount.toNat b
      let p := { p with buf := buf, payCount := p.payCount + 1 }
      if p.payCount = p.payLen + 2 then
        let rxCrc := word16 (← p.buf.get p.payLen.toNat) (← p.buf.get (p.payLen.toNat + 1))
        let delivered ← if (← p.frameCrc) = rxCrc then p.message.map ([·]) else some []
        return ({ p with st := .PRE0 }, delivered)
      else return (p, [])

theorem coprocFeedByte_eq : coprocFeedByte = uartLinkFeedByte := by
  funext p b
  unfold coprocFeedByte uartLinkFeedByte
  cases p.st with
  | PRE0 => rfl
  | PRE1 => by_cases hfirst : b = PRE0 <;> simp [hfirst]
  | HDR => rfl
  | PAYLOAD => rfl

/-- A stream, byte after byte. -/
def feedAll (feedByte : Parser → UInt8 → Option (Parser × List Message)) :
    Parser → List UInt8 → Option (Parser × List Message)
  | p, [] => some (p, [])
  | p, b :: rest => do
      let (next, delivered) ← feedByte p b
      let (last, later) ← feedAll feedByte next rest
      return (last, delivered ++ later)

/-! ## The format of the link -/

/-- The payload length a header declares. -/
def declared : List UInt8 → ℕ
  | [_, _, lo, hi] => lo.toNat + 256 * hi.toNat
  | _ => 0

/-- The format of `LinkProtocol.h`, the CRC counted as part of the body. -/
def linkFormat : Deframer.Format UInt8 where
  first := PRE0
  second := PRE1
  first_ne_second := by decide
  headerLength := 4
  header_pos := by decide
  bodyLength header :=
    if declared header ≤ MAX_PAYLOAD then some (declared header + CRC_LEN) else none
  bodyMax := MAX_PAYLOAD + CRC_LEN
  body_bounds header size hsize := by
    split at hsize
    · obtain rfl := Option.some.inj hsize
      simp only [CRC_LEN]
      omega
    · simp at hsize
  accepts header body :=
    word16Bytes (crc16 (header ++ body.take (declared header))) =
      body.drop (declared header)

/-- The message a frame of the link carries. -/
def messageOf (frame : Deframer.Frame linkFormat) : Message :=
  match frame.header with
  | [type, radio, _, _] => ⟨type, radio, frame.body.take (declared frame.header)⟩
  | _ => ⟨0, 0, []⟩

theorem toNat_word16 (lo hi : UInt8) :
    (word16 lo hi).toNat = lo.toNat + 256 * hi.toNat := by
  have hlo := lo.toNat_lt
  have hhi := hi.toNat_lt
  have hor : hi.toNat <<< 8 + lo.toNat = hi.toNat <<< 8 ||| lo.toNat :=
    Nat.shiftLeft_add_eq_or_of_lt hlo hi.toNat
  have hshift : hi.toNat <<< 8 = 256 * hi.toNat := by
    rw [Nat.shiftLeft_eq]
    omega
  have hmod : hi.toNat <<< 8 % 2 ^ 16 = 256 * hi.toNat := by omega
  simp only [word16, UInt16.toNat_or, UInt16.toNat_shiftLeft, UInt8.toNat_toUInt16]
  rw [show (8 : UInt16).toNat % 16 = 8 from rfl, hmod, Nat.or_comm, ← hshift, ← hor]
  omega

theorem word16Bytes_eq_iff (crc : UInt16) (lo hi : UInt8) :
    word16Bytes crc = [lo, hi] ↔ crc = word16 lo hi := by
  have hlo := lo.toNat_lt
  have hhi := hi.toNat_lt
  have hcrc := crc.toNat_lt
  have hlow : crc.toUInt8.toNat = crc.toNat % 256 := by simp
  have hhigh : (crc >>> 8).toUInt8.toNat = crc.toNat / 256 := by
    simp [Nat.shiftRight_eq_div_pow]
    omega
  simp only [word16Bytes, List.cons.injEq, and_true, ← UInt8.toNat_inj, ← UInt16.toNat_inj,
    toNat_word16, hlow, hhigh]
  omega

/-! ## Both parsers deframe -/

/-- The parser is where the deframer is. -/
def Holds (p : Parser) : Deframer.Hunt linkFormat → Prop
  | .first => p.st = .PRE0
  | .second => p.st = .PRE1
  | .header got _ => p.st = .HDR ∧ p.hdrCount.toNat = got.length ∧
      p.hdr.bytes.take got.length = got
  | .body header _ size _ got _ => p.st = .PAYLOAD ∧ p.hdr.bytes = header ∧
      p.payLen.toNat = declared header ∧ p.payLen.toNat + CRC_LEN = size ∧
      p.payCount.toNat = got.length ∧ p.buf.bytes.take got.length = got

theorem holds_start : Holds .start .first := rfl

theorem declared_hdr (hdr : Buffer 4) :
    ∃ type radio lo hi, hdr.bytes = [type, radio, lo, hi] := by
  obtain ⟨bytes, hlength⟩ := hdr
  match bytes, hlength with
  | [type, radio, lo, hi], _ => exact ⟨type, radio, lo, hi, rfl⟩

theorem feedByte_header {p : Parser} {got : List UInt8} {hgot : got.length < 4}
    (hholds : Holds p (.header got hgot)) (b : UInt8) :
    ∃ next, uartLinkFeedByte p b = some (next, []) ∧
      Holds next (Deframer.step (.header got hgot) b).1 := by
  obtain ⟨hst, hcount, hhdr⟩ := hholds
  have hroom : p.hdrCount.toNat < 4 := by omega
  obtain ⟨hdr, hset, hbytes⟩ := p.hdr.set_eq_some hroom b
  have hlength : got.length < p.hdr.bytes.length := by
    rw [p.hdr.length_bytes]
    exact hgot
  have htake : hdr.bytes.take (got.length + 1) = got ++ [b] := by
    rw [hbytes, hcount]
    exact Buffer.take_set_next hlength hhdr b
  have hsucc : (p.hdrCount + 1).toNat = got.length + 1 := by
    rw [UInt8.toNat_add, hcount]
    simp
    omega
  unfold uartLinkFeedByte
  rw [hst]
  simp only [hset, Option.bind_eq_bind, Option.bind_some]
  by_cases hmore : got.length + 1 < 4
  · have hcount' : p.hdrCount + 1 ≠ 4 := by
      intro heq
      rw [heq] at hsucc
      simp at hsucc
      omega
    have hstep : (Deframer.step (.header got hgot : Deframer.Hunt linkFormat) b).1 =
        .header (got ++ [b]) (by simpa [linkFormat] using hmore) := by
      simp [Deframer.step, linkFormat, hmore]
    refine ⟨_, if_neg hcount', ?_⟩
    rw [hstep]
    exact ⟨rfl, by simpa using hsucc, by simpa using htake⟩
  · have hcount' : p.hdrCount + 1 = 4 := by
      apply UInt8.toNat_inj.mp
      rw [hsucc]
      simp
      omega
    obtain ⟨type, radio, lo, hi, hfour⟩ := declared_hdr hdr
    have hfull : hdr.bytes = got ++ [b] := by
      rw [← htake, List.take_of_length_le (by rw [hdr.length_bytes]; omega)]
    have hlo : hdr.get 2 = some lo := by simp [Buffer.get, hfour]
    have hhi : hdr.get 3 = some hi := by simp [Buffer.get, hfour]
    have hdeclared : (word16 lo hi).toNat = declared (got ++ [b]) := by
      rw [toNat_word16, ← hfull, hfour, declared]
    have hstep : (Deframer.step (.header got hgot : Deframer.Hunt linkFormat) b).1 =
        Deframer.enterBody (got ++ [b]) (by simp [linkFormat]; omega) := by
      simp [Deframer.step, linkFormat, hmore]
    rw [hstep, if_pos hcount']
    simp only [hlo, hhi, Option.bind_some]
    by_cases hlarge : MAX_PAYLOAD < (word16 lo hi).toNat
    · rw [Deframer.enterBody_none _ (by simp [linkFormat]; omega)]
      exact ⟨_, if_pos hlarge, rfl⟩
    · have hsize : linkFormat.bodyLength (got ++ [b]) =
          some (declared (got ++ [b]) + CRC_LEN) := by
        simp [linkFormat]
        omega
      rw [Deframer.enterBody_some _ hsize]
      refine ⟨_, if_neg hlarge, rfl, hfull, hdeclared, ?_, rfl, rfl⟩
      exact congrArg (· + CRC_LEN) hdeclared

theorem frameCrc_eq (p : Parser) (hlen : p.payLen.toNat ≤ MAX_PAYLOAD) :
    p.frameCrc = some (crc16 (p.hdr.bytes ++ p.buf.bytes.take p.payLen.toNat)) := by
  have hbuf := p.buf.length_bytes
  have hfour := p.hdr.length_bytes
  have hhdr : p.hdr.read 4 = some p.hdr.bytes := by
    rw [p.hdr.read_eq_some (Nat.le_refl 4), List.take_of_length_le (by omega)]
  obtain ⟨vb, hwrite, hvb⟩ := (Buffer.zero (4 + MAX_PAYLOAD)).write_eq_some 0 p.hdr.bytes
    (by omega)
  have htake : vb.bytes.take 4 = p.hdr.bytes := by
    rw [hvb, List.take_zero, List.nil_append, List.take_append_of_le_length (by omega),
      List.take_of_length_le (by omega)]
  unfold Parser.frameCrc
  simp only [hhdr, hwrite, Option.bind_eq_bind, Option.bind_some]
  by_cases hzero : p.payLen = 0
  · have hread : vb.read 4 = some p.hdr.bytes := by
      rw [vb.read_eq_some (by omega), htake]
    simp [hzero, hread]
  · have hpayload : p.buf.read p.payLen.toNat = some (p.buf.bytes.take p.payLen.toNat) :=
      p.buf.read_eq_some (by simp only [CRC_LEN]; omega)
    have hcount : (p.buf.bytes.take p.payLen.toNat).length = p.payLen.toNat := by
      rw [List.length_take, hbuf]
      simp only [CRC_LEN]
      omega
    obtain ⟨vb', hwrite', hvb'⟩ := vb.write_eq_some 4 (p.buf.bytes.take p.payLen.toNat)
      (by omega)
    have hread : vb'.read (4 + p.payLen.toNat) =
        some (p.hdr.bytes ++ p.buf.bytes.take p.payLen.toNat) := by
      have hprefix : (p.hdr.bytes ++ p.buf.bytes.take p.payLen.toNat).length =
          4 + p.payLen.toNat := by
        rw [List.length_append, hfour, hcount]
      rw [vb'.read_eq_some (by omega), hvb', htake,
        List.take_append_of_le_length (by omega), List.take_of_length_le (by omega)]
    simp only [ne_eq, hzero, not_false_eq_true, if_true, hpayload, Option.bind_some,
      hwrite', hread]
    rfl

/-- The message behind a complete header and payload. -/
theorem message_eq (p : Parser) {type radio lo hi : UInt8}
    (hhdr : p.hdr.bytes = [type, radio, lo, hi]) (hlen : p.payLen.toNat ≤ MAX_PAYLOAD) :
    p.message = some ⟨type, radio, p.buf.bytes.take p.payLen.toNat⟩ := by
  have hread : p.buf.read p.payLen.toNat = some (p.buf.bytes.take p.payLen.toNat) :=
    p.buf.read_eq_some (by simp only [CRC_LEN]; omega)
  simp only [Parser.message, Buffer.get, hhdr, hread]
  rfl

/-- A byte of the body is stored behind the others, and the count says when it was the
last one. -/
theorem store_body {p : Parser} {header : List UInt8} {hheader : header.length = 4}
    {size : ℕ} {hsize : linkFormat.bodyLength header = some size} {got : List UInt8}
    {hgot : got.length < size} (hholds : Holds p (.body header hheader size hsize got hgot))
    (hlen : p.payLen.toNat ≤ MAX_PAYLOAD) (b : UInt8) :
    (∃ buf, p.buf.set p.payCount.toNat b = some buf ∧
      buf.bytes.take (got.length + 1) = got ++ [b]) ∧
      (p.payCount + 1).toNat = got.length + 1 ∧
      (p.payCount + 1 = p.payLen + 2 ↔ got.length + 1 = size) := by
  obtain ⟨-, -, -, htotal, hcount, hbuf⟩ := hholds
  have hroom : p.payCount.toNat < MAX_PAYLOAD + CRC_LEN := by omega
  obtain ⟨buf, hset, hbytes⟩ := p.buf.set_eq_some hroom b
  have htake : buf.bytes.take (got.length + 1) = got ++ [b] := by
    rw [hbytes, hcount]
    exact Buffer.take_set_next (by rw [p.buf.length_bytes]; omega) hbuf b
  simp only [MAX_PAYLOAD, CRC_LEN] at hlen hroom htotal
  have hsucc : (p.payCount + 1).toNat = got.length + 1 := by
    rw [UInt16.toNat_add, hcount]
    simp
    omega
  have hwhole : (p.payLen + 2).toNat = size := by
    rw [UInt16.toNat_add]
    simp
    omega
  exact ⟨⟨buf, hset, htake⟩, hsucc, by rw [← UInt16.toNat_inj, hsucc, hwhole]⟩

/-- The last byte: the CRC is read from behind the payload and compared. -/
theorem feedByte_last {p : Parser} {header : List UInt8} {hheader : header.length = 4}
    {size : ℕ} {hsize : linkFormat.bodyLength header = some size} {got : List UInt8}
    {hgot : got.length < size} (hholds : Holds p (.body header hheader size hsize got hgot))
    (hlen : p.payLen.toNat ≤ MAX_PAYLOAD) {b : UInt8} (hlast : got.length + 1 = size) :
    ∃ next, uartLinkFeedByte p b = some (next,
        (Deframer.step (.body header hheader size hsize got hgot) b).2.map messageOf) ∧
      Holds next (Deframer.step (.body header hheader size hsize got hgot) b).1 := by
  obtain ⟨⟨buf, hset, htake⟩, -, hcount⟩ := store_body hholds hlen b
  obtain ⟨hst, hhdr, hdeclared, htotal, -, -⟩ := hholds
  have hmore : ¬ got.length + 1 < size := by omega
  simp only [CRC_LEN] at htotal
  have hfull : got.length + 1 = p.payLen.toNat + 2 := by omega
  have htwo : ((got ++ [b]).drop p.payLen.toNat).length = 2 := by
    simp
    omega
  obtain ⟨lo, hi, hcrc⟩ := List.length_eq_two.mp htwo
  have hget : ∀ i, i < 2 → buf.get (p.payLen.toNat + i) = [lo, hi][i]? := by
    intro i hi'
    rw [← hcrc, List.getElem?_drop, ← htake, List.getElem?_take_of_lt (by omega)]
    rfl
  have hlo : buf.get p.payLen.toNat = some lo := hget 0 (by decide)
  have hhi : buf.get (p.payLen.toNat + 1) = some hi := hget 1 (by decide)
  have hpayload : buf.bytes.take p.payLen.toNat = (got ++ [b]).take (declared header) := by
    rw [← htake, List.take_take, Nat.min_eq_left (by omega), hdeclared]
  have hcomputed : Parser.frameCrc ⟨.PAYLOAD, p.hdr, p.hdrCount, p.payLen,
      p.payCount + 1, buf⟩ =
        some (crc16 (header ++ (got ++ [b]).take (declared header))) := by
    have hcrc' := frameCrc_eq ⟨.PAYLOAD, p.hdr, p.hdrCount, p.payLen, p.payCount + 1, buf⟩ hlen
    rwa [hpayload, hhdr] at hcrc'
  have haccepts : linkFormat.accepts header (got ++ [b]) = true ↔
      crc16 (header ++ (got ++ [b]).take (declared header)) = word16 lo hi := by
    rw [← word16Bytes_eq_iff, ← hcrc, hdeclared]
    simp [linkFormat]
  unfold uartLinkFeedByte
  rw [hst]
  simp only [hset, Option.bind_eq_bind, Option.bind_some]
  rw [if_pos (hcount.mpr hlast)]
  simp only [hlo, hhi, hcomputed, Option.bind_some]
  by_cases hgood : crc16 (header ++ (got ++ [b]).take (declared header)) = word16 lo hi
  · have hstep : Deframer.step (.body header hheader size hsize got hgot) b =
        (.first, [⟨header, got ++ [b], hheader, by simp [hsize]; omega,
          haccepts.mpr hgood⟩]) := by
      simp [Deframer.step, hmore, haccepts.mpr hgood]
    obtain ⟨type, radio, len_lo, len_hi, hfour⟩ := declared_hdr p.hdr
    have hmessage : Parser.message ⟨.PAYLOAD, p.hdr, p.hdrCount, p.payLen,
        p.payCount + 1, buf⟩ =
          some ⟨type, radio, (got ++ [b]).take (declared header)⟩ := by
      have hread := message_eq
        ⟨.PAYLOAD, p.hdr, p.hdrCount, p.payLen, p.payCount + 1, buf⟩ hfour hlen
      rwa [hpayload] at hread
    rw [hfour] at hhdr
    subst hhdr
    rw [hstep]
    simp only [if_pos hgood, hmessage]
    exact ⟨_, rfl, rfl⟩
  · have hstep : Deframer.step (.body header hheader size hsize got hgot) b =
        (.first, []) := by
      simp [Deframer.step, hmore, mt haccepts.mp hgood]
    rw [hstep]
    exact ⟨_, if_neg hgood, rfl⟩

theorem feedByte_body {p : Parser} {header : List UInt8} {hheader : header.length = 4}
    {size : ℕ} {hsize : linkFormat.bodyLength header = some size} {got : List UInt8}
    {hgot : got.length < size} (hholds : Holds p (.body header hheader size hsize got hgot))
    (b : UInt8) :
    ∃ next, uartLinkFeedByte p b = some (next,
        (Deframer.step (.body header hheader size hsize got hgot) b).2.map messageOf) ∧
      Holds next (Deframer.step (.body header hheader size hsize got hgot) b).1 := by
  have hlen : p.payLen.toNat ≤ MAX_PAYLOAD := by
    rw [hholds.2.2.1]
    by_contra hlarge
    simp [linkFormat, hlarge] at hsize
  by_cases hmore : got.length + 1 < size
  · obtain ⟨⟨buf, hset, htake⟩, hsucc, hcount⟩ := store_body hholds hlen b
    obtain ⟨hst, hhdr, hdeclared, htotal, -, -⟩ := hholds
    have hnotLast : ¬ p.payCount + 1 = p.payLen + 2 := mt hcount.mp (by omega)
    have hstep : Deframer.step (.body header hheader size hsize got hgot) b =
        (.body header hheader size hsize (got ++ [b]) (by simpa using hmore), []) := by
      simp [Deframer.step, hmore]
    unfold uartLinkFeedByte
    rw [hst, hstep]
    simp only [hset, Option.bind_eq_bind, Option.bind_some]
    refine ⟨_, if_neg hnotLast, rfl, hhdr, hdeclared, htotal, by simpa using hsucc, ?_⟩
    simpa using htake
  · exact feedByte_last hholds hlen (by omega)

/-- One byte: no access leaves its array, and the parser goes where the deframer does. -/
theorem feedByte_spec {p : Parser} {hunt : Deframer.Hunt linkFormat} (hholds : Holds p hunt)
    (b : UInt8) :
    ∃ next, uartLinkFeedByte p b = some (next, (Deframer.step hunt b).2.map messageOf) ∧
      Holds next (Deframer.step hunt b).1 := by
  cases hunt with
  | first =>
      have hst : p.st = .PRE0 := hholds
      by_cases hb : b = PRE0
      · refine ⟨{ p with st := .PRE1 }, by simp [uartLinkFeedByte, hst, hb, Deframer.step], ?_⟩
        simp [Deframer.step, linkFormat, hb, Holds]
      · refine ⟨p, by simp [uartLinkFeedByte, hst, hb, Deframer.step], ?_⟩
        simpa [Deframer.step, linkFormat, hb, Holds] using hst
  | second =>
      have hst : p.st = .PRE1 := hholds
      by_cases hsecond : b = PRE1
      · refine ⟨{ p with st := .HDR, hdrCount := 0 },
          by simp [uartLinkFeedByte, hst, hsecond, Deframer.step], ?_⟩
        simp [Deframer.step, linkFormat, hsecond, Holds]
      · by_cases hfirst : b = PRE0
        · refine ⟨p, by simp [uartLinkFeedByte, hst, hfirst, Deframer.step, PRE0, PRE1], ?_⟩
          simpa [Deframer.step, linkFormat, hfirst, Holds, PRE0, PRE1] using hst
        · refine ⟨{ p with st := .PRE0 },
            by simp [uartLinkFeedByte, hst, hsecond, hfirst, Deframer.step], ?_⟩
          simp [Deframer.step, linkFormat, hsecond, hfirst, Holds]
  | header got hgot =>
      obtain ⟨next, hfeed, hnext⟩ := feedByte_header hholds b
      exact ⟨next, hfeed, hnext⟩
  | body header hheader size hsize got hgot => exact feedByte_body hholds b

/-- A stream: the same, with what is delivered. -/
theorem feedAll_spec {p : Parser} {hunt : Deframer.Hunt linkFormat} (hholds : Holds p hunt)
    (stream : List UInt8) :
    ∃ next, feedAll uartLinkFeedByte p stream =
        some (next, (Deframer.feed hunt stream).2.map messageOf) ∧
      Holds next (Deframer.feed hunt stream).1 := by
  induction stream generalizing p hunt with
  | nil => exact ⟨p, rfl, hholds⟩
  | cons b rest ih =>
      obtain ⟨next, hfeed, hnext⟩ := feedByte_spec hholds b
      obtain ⟨last, hrest, hlast⟩ := ih hnext
      refine ⟨last, ?_, hlast⟩
      simp [feedAll, hfeed, hrest, Deframer.feed, Machine.run]

theorem feedAll_append (feedByte : Parser → UInt8 → Option (Parser × List Message))
    (p : Parser) (before after : List UInt8) :
    feedAll feedByte p (before ++ after) = do
      let (middle, delivered) ← feedAll feedByte p before
      let (last, later) ← feedAll feedByte middle after
      return (last, delivered ++ later) := by
  induction before generalizing p with
  | nil => simp [feedAll]
  | cons b rest ih =>
      simp only [List.cons_append, feedAll, ih]
      cases feedByte p b with
      | none => rfl
      | some first =>
          cases hrest : feedAll feedByte first.1 rest with
          | none => simp [hrest]
          | some second =>
              cases hafter : feedAll feedByte second.1 after with
              | none => simp [hrest, hafter]
              | some third => simp [hrest, hafter]

end LoraBridge.FrameParser
