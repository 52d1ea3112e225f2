import LoraBridge.Link.Framing

/-!
# One direction of the UART

Bytes on their way, and the parser they go to one at a time.  What is still to come out of
the parser is what was sent and not yet delivered.
-/

namespace LoraBridge.ByteWire

open LoraBridge.FrameParser LoraBridge.Framing LoraBridge.LinkProtocol

structure Wire where
  bytes : List UInt8
  parser : Parser

def Wire.idle : Wire := ⟨[], .start⟩

/-- `sendFrame` and `linkSend`: nothing of a payload that is too large. -/
def Wire.send (message : Message) (wire : Wire) : Wire :=
  match build message with
  | some frame => { wire with bytes := wire.bytes ++ frame }
  | none => wire

/-- The next byte is read by the parser of one end, if there is a byte; none if an access
leaves its array. -/
def Wire.feed (feedByte : Parser → UInt8 → Option (Parser × List Message)) (wire : Wire) :
    Option (Wire × List Message) :=
  match wire.bytes with
  | [] => some (wire, [])
  | b :: rest => (feedByte wire.parser b).map fun (p, messages) => (⟨rest, p⟩, messages)

theorem Wire.bytes_feed {feedByte : Parser → UInt8 → Option (Parser × List Message)}
    {wire next : Wire} {messages : List Message}
    (hfeed : wire.feed feedByte = some (next, messages)) : next.bytes = wire.bytes.tail := by
  unfold Wire.feed at hfeed
  split at hfeed
  · cases hfeed
    simp [*]
  · obtain ⟨⟨p, delivered⟩, -, heq⟩ := Option.map_eq_some_iff.mp hfeed
    cases heq
    simp [*]

/-- With all its bytes read, the parser will have delivered these messages, and hunts. -/
def Wire.Pending (wire : Wire) (messages : List Message) : Prop :=
  ∃ hunt, Holds wire.parser hunt ∧ (Deframer.feed hunt wire.bytes).1.Hunting ∧
    (Deframer.feed hunt wire.bytes).2.map messageOf = messages

section Pending

variable {wire : Wire} {messages : List Message}

theorem pending_idle : Wire.idle.Pending [] := ⟨.first, holds_start, trivial, rfl⟩

/-- A message that fits joins the others. -/
theorem Wire.Pending.send (hpending : wire.Pending messages) {message : Message}
    (hlen : message.payload.length ≤ MAX_PAYLOAD) :
    (wire.send message).Pending (messages ++ [message]) := by
  obtain ⟨hunt, hholds, hhunt, rfl⟩ := hpending
  have hsend : wire.send message =
      { wire with bytes := wire.bytes ++ (frameOf message hlen).bytes } := by
    rw [Wire.send, build_eq_bytes message hlen]
  have hbehind : Deframer.feed hunt (wire.bytes ++ (frameOf message hlen).bytes) =
      (.first, (Deframer.feed hunt wire.bytes).2 ++ [frameOf message hlen]) := by
    have hframe := Deframer.feed_frame _ hhunt (frameOf message hlen) []
    rw [List.append_nil] at hframe
    rw [Deframer.feed, Machine.run_append]
    rw [Deframer.feed] at hframe
    rw [hframe]
    rfl
  refine ⟨hunt, hsend ▸ hholds, ?_, ?_⟩
  · rw [hsend, hbehind]
    trivial
  · rw [hsend, hbehind, List.map_append, List.map_singleton, messageOf_frameOf]

/-- A byte that either end reads delivers what is next, if it ends a frame. -/
theorem Wire.Pending.feed (hpending : wire.Pending messages)
    {feedByte : Parser → UInt8 → Option (Parser × List Message)} (hparser : feedByte ∈ parsers) :
    ∃ next delivered later, wire.feed feedByte = some (next, delivered) ∧
      messages = delivered ++ later ∧ next.Pending later := by
  obtain rfl := eq_of_mem_parsers hparser
  obtain ⟨hunt, hholds, hhunt, rfl⟩ := hpending
  obtain ⟨bytes, parser⟩ := wire
  cases bytes with
  | nil => exact ⟨⟨[], parser⟩, [], [], rfl, rfl, hunt, hholds, hhunt, rfl⟩
  | cons b rest =>
      obtain ⟨p, hfeed, hnext⟩ := feedByte_spec hholds b
      refine ⟨⟨rest, p⟩, (Deframer.step hunt b).2.map messageOf,
        (Deframer.feed (Deframer.step hunt b).1 rest).2.map messageOf, ?_, ?_,
        (Deframer.step hunt b).1, hnext, hhunt, rfl⟩
      · simp only [Wire.feed, hfeed, Option.map_some]
      · rw [← List.map_append]
        rfl

/-- Once all bytes are read, nothing is pending. -/
theorem Wire.Pending.eq_nil (hpending : wire.Pending messages) (hbytes : wire.bytes = []) :
    messages = [] := by
  obtain ⟨hunt, -, -, rfl⟩ := hpending
  rw [hbytes]
  rfl

end Pending

end LoraBridge.ByteWire
