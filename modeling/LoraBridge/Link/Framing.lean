import LoraBridge.Link.FrameParser

/-!
# What the UART framing guarantees

Both ends deliver the same frames of a stream, each as `buildFrame` would build it.
Frames sent back to back all arrive, and after noise a parser hunts again within the
length of one frame.
-/

namespace LoraBridge.Framing

open LoraBridge.LinkProtocol LoraBridge.FrameParser

/-! ## Frames and `buildFrame` -/

theorem lengthBytes_declared {lo hi : UInt8} (type radio : UInt8) :
    lengthBytes (declared [type, radio, lo, hi]) = [lo, hi] := by
  have hlo := lo.toNat_lt
  have hhi := hi.toNat_lt
  simp only [lengthBytes, declared, List.cons.injEq, and_true, ← UInt8.toNat_inj,
    UInt8.toNat_ofNat']
  omega

theorem declared_lengthBytes (type radio : UInt8) {len : ℕ} (hlen : len ≤ MAX_PAYLOAD) :
    declared (type :: radio :: lengthBytes len) = len := by
  simp only [MAX_PAYLOAD] at hlen
  simp only [lengthBytes, declared, UInt8.toNat_ofNat']
  omega

/-- `buildFrame` with a buffer for the largest frame. -/
def build (message : Message) : Option (List UInt8) :=
  buildFrame MAX_FRAME message.type message.radio message.payload

theorem build_eq (message : Message)
    (hlen : message.payload.length ≤ MAX_PAYLOAD) :
    build message =
      some ([PRE0, PRE1] ++
        ([message.type, message.radio] ++ lengthBytes message.payload.length ++
          message.payload) ++
        word16Bytes (crc16 ([message.type, message.radio] ++
          lengthBytes message.payload.length ++ message.payload))) := by
  unfold build buildFrame
  rw [if_neg (by omega), if_neg (by simp only [MAX_FRAME, HEADER_LEN, CRC_LEN]; omega)]

/-- A frame of the link is what is built for its message. -/
theorem build_messageOf (frame : Deframer.Frame linkFormat) :
    build (messageOf frame) = some frame.bytes := by
  obtain ⟨header, body, hheader, hbody, haccepted⟩ := frame
  match header, hheader with
  | [type, radio, lo, hi], _ =>
      have hdeclared : declared [type, radio, lo, hi] ≤ MAX_PAYLOAD := by
        by_contra hlarge
        simp [linkFormat, hlarge] at hbody
      have hlength : body.length = declared [type, radio, lo, hi] + 2 := by
        simpa [linkFormat, hdeclared, CRC_LEN, eq_comm] using hbody
      have hpayload : (body.take (declared [type, radio, lo, hi])).length =
          declared [type, radio, lo, hi] := by
        rw [List.length_take, hlength]
        omega
      have hcrc : word16Bytes (crc16 ([type, radio, lo, hi] ++
          body.take (declared [type, radio, lo, hi]))) =
            body.drop (declared [type, radio, lo, hi]) := by
        simpa [linkFormat] using haccepted
      have hbuild := build_eq
        (messageOf ⟨[type, radio, lo, hi], body, rfl, hbody, haccepted⟩) (by
          rw [messageOf, hpayload]
          exact hdeclared)
      rw [hbuild]
      simp only [messageOf, hpayload, lengthBytes_declared]
      simp only [List.cons_append, List.nil_append] at hcrc ⊢
      rw [hcrc]
      simp [Deframer.Frame.bytes, linkFormat]

/-- The frame that is built for a message. -/
def frameOf (message : Message) (hlen : message.payload.length ≤ MAX_PAYLOAD) :
    Deframer.Frame linkFormat where
  header := [message.type, message.radio] ++ lengthBytes message.payload.length
  body := message.payload ++ word16Bytes (crc16 ([message.type, message.radio] ++
    lengthBytes message.payload.length ++ message.payload))
  header_length := rfl
  body_length := by
    simp [linkFormat, declared_lengthBytes _ _ hlen, hlen, word16Bytes, CRC_LEN]
  accepted := by
    simp [linkFormat, declared_lengthBytes _ _ hlen]

theorem messageOf_frameOf (message : Message)
    (hlen : message.payload.length ≤ MAX_PAYLOAD) :
    messageOf (frameOf message hlen) = message := by
  have hdeclared := declared_lengthBytes message.type message.radio hlen
  have hmessage : messageOf (frameOf message hlen) =
      ⟨message.type, message.radio, (frameOf message hlen).body.take
        (declared (message.type :: message.radio :: lengthBytes message.payload.length))⟩ :=
    rfl
  rw [hmessage, hdeclared]
  simp [frameOf]

theorem build_eq_bytes (message : Message)
    (hlen : message.payload.length ≤ MAX_PAYLOAD) :
    build message = some (frameOf message hlen).bytes := by
  rw [← build_messageOf, messageOf_frameOf]

/-! ## What a stream carries -/

/-- The stream is these messages as they are built, one after another, with anything
before, between and behind them. -/
inductive Carries : List UInt8 → List Message → Prop
  | rest (gap : List UInt8) : Carries gap []
  | message (gap : List UInt8) (message : Message) {bytes stream : List UInt8}
      {messages : List Message} (hbuilt : build message = some bytes)
      (hrest : Carries stream messages) :
      Carries (gap ++ (bytes ++ stream)) (message :: messages)

theorem carries_of_sliced {stream : List UInt8}
    {frames : List (Deframer.Frame linkFormat)} (hsliced : Deframer.Sliced stream frames) :
    Carries stream (frames.map messageOf) := by
  induction hsliced with
  | rest gap => exact .rest gap
  | frame gap frame hrest ih => exact .message gap _ (build_messageOf frame) ih

/-- The messages as they are sent, back to back. -/
def sent (messages : List Message) : Option (List UInt8) :=
  (messages.mapM build).map List.flatten

theorem sent_eq (messages : List Message)
    (hlens : ∀ message ∈ messages, message.payload.length ≤ MAX_PAYLOAD) :
    ∃ frames : List (Deframer.Frame linkFormat), frames.map messageOf = messages ∧
      sent messages = some (frames.flatMap Deframer.Frame.bytes) := by
  induction messages with
  | nil => exact ⟨[], rfl, rfl⟩
  | cons message rest ih =>
      have hlen := hlens message List.mem_cons_self
      obtain ⟨frames, hframes, hsent⟩ := ih fun other hmem =>
        hlens other (List.mem_cons_of_mem _ hmem)
      refine ⟨frameOf message hlen :: frames, ?_, ?_⟩
      · rw [List.map_cons, messageOf_frameOf, hframes]
      · simp only [sent, Option.map_eq_some_iff] at hsent ⊢
        obtain ⟨built, hbuilt, hflatten⟩ := hsent
        refine ⟨(frameOf message hlen).bytes :: built, ?_, ?_⟩
        · simp [List.mapM_cons, build_eq_bytes message hlen, hbuilt]
        · simp [hflatten]

/-- Bytes that arrive in pieces. -/
def feedChunks (feedByte : Parser → UInt8 → Option (Parser × List Message)) :
    Parser → List (List UInt8) → Option (Parser × List Message)
  | p, [] => some (p, [])
  | p, chunk :: rest => do
      let (next, delivered) ← feedAll feedByte p chunk
      let (last, later) ← feedChunks feedByte next rest
      return (last, delivered ++ later)

theorem feedChunks_eq (feedByte : Parser → UInt8 → Option (Parser × List Message))
    (p : Parser) (chunks : List (List UInt8)) :
    feedChunks feedByte p chunks = feedAll feedByte p chunks.flatten := by
  induction chunks generalizing p with
  | nil => rfl
  | cons chunk rest ih =>
      rw [List.flatten_cons, feedAll_append]
      simp only [feedChunks, ih]

def Hunting (p : Parser) : Prop := p.st = .PRE0 ∨ p.st = .PRE1

theorem holds_of_hunting {p : Parser} (hhunting : Hunting p) :
    ∃ hunt : Deframer.Hunt linkFormat, Holds p hunt ∧ hunt.Hunting := by
  rcases hhunting with hst | hst
  · exact ⟨.first, hst, trivial⟩
  · exact ⟨.second, hst, trivial⟩

theorem hunting_of_holds {p : Parser} {hunt : Deframer.Hunt linkFormat}
    (hholds : Holds p hunt) (hhunt : hunt.Hunting) : Hunting p := by
  cases hunt with
  | first => exact .inl hholds
  | second => exact .inr hholds
  | header got hgot => exact hhunt.elim
  | body header hheader size hsize got hgot => exact hhunt.elim

/-- The host's parser and the co-processor's. -/
def parsers : List (Parser → UInt8 → Option (Parser × List Message)) :=
  [uartLinkFeedByte, coprocFeedByte]

theorem uartLinkFeedByte_mem : uartLinkFeedByte ∈ parsers := List.mem_cons_self

theorem coprocFeedByte_mem : coprocFeedByte ∈ parsers :=
  List.mem_cons_of_mem _ List.mem_cons_self

theorem eq_of_mem_parsers {feedByte : Parser → UInt8 → Option (Parser × List Message)}
    (hparser : feedByte ∈ parsers) : feedByte = uartLinkFeedByte := by
  simpa [parsers, coprocFeedByte_eq] using hparser

/-- Whatever arrives, in whatever pieces: no access leaves its array, both ends deliver
the same frames, and these lie in the stream as `buildFrame` builds them.  From a
parser that hunts, frames sent back to back are delivered as they are.  After any
stream, a parser hunts again within the length of one frame. -/
theorem framing :
    (∀ stream : List UInt8, ∃ p messages, Carries stream messages ∧
      ∀ feedByte ∈ parsers, ∀ chunks : List (List UInt8), chunks.flatten = stream →
        feedChunks feedByte .start chunks = some (p, messages)) ∧
    (∀ feedByte ∈ parsers, ∀ p, Hunting p → ∀ messages : List Message,
      (∀ message ∈ messages, message.payload.length ≤ MAX_PAYLOAD) →
        ∃ stream next, sent messages = some stream ∧
          feedAll feedByte p stream = some (next, messages)) ∧
    (∀ feedByte ∈ parsers, ∀ before stream : List UInt8,
      4 + MAX_PAYLOAD + CRC_LEN ≤ stream.length →
        ∃ count ≤ 4 + MAX_PAYLOAD + CRC_LEN, ∃ p messages,
          feedAll feedByte .start (before ++ stream.take count) = some (p, messages) ∧
            Hunting p) := by
  refine ⟨fun stream => ?_, fun feedByte hparser p hhunting messages hlens => ?_,
    fun feedByte hparser before stream hlong => ?_⟩
  · obtain ⟨p, hfeed, -⟩ := feedAll_spec holds_start stream
    refine ⟨p, _, carries_of_sliced (Deframer.sliced_feed .first stream), ?_⟩
    rintro feedByte hparser chunks rfl
    rw [eq_of_mem_parsers hparser, feedChunks_eq, hfeed]
  · obtain rfl := eq_of_mem_parsers hparser
    obtain ⟨hunt, hholds, hhunt⟩ := holds_of_hunting hhunting
    obtain ⟨frames, rfl, hsent⟩ := sent_eq messages hlens
    obtain ⟨next, hfeed, -⟩ := feedAll_spec hholds (frames.flatMap Deframer.Frame.bytes)
    rw [Deframer.feed_frames hunt hhunt frames] at hfeed
    exact ⟨_, next, hsent, hfeed⟩
  · obtain rfl := eq_of_mem_parsers hparser
    obtain ⟨p, hbefore, hholds⟩ := feedAll_spec holds_start before
    generalize (Deframer.feed .first before).1 = hunt at hholds
    have hremaining := Deframer.remaining_le hunt
    obtain ⟨count, hcount, hhunt⟩ := Deframer.feed_hunting hunt stream
      (hremaining.trans hlong)
    obtain ⟨last, hafter, hlast⟩ := feedAll_spec hholds (stream.take count)
    have hall : feedAll uartLinkFeedByte .start (before ++ stream.take count) =
        some (last, (Deframer.feed .first before).2.map messageOf ++
          (Deframer.feed hunt (stream.take count)).2.map messageOf) := by
      rw [feedAll_append, hbefore]
      simp [hafter]
    exact ⟨count, hcount.trans hremaining, last, _, hall, hunting_of_holds hlast hhunt⟩

end LoraBridge.Framing
