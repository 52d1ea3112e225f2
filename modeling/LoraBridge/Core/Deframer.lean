import LoraBridge.Core.Machine

/-!
# Frames in a byte stream

A frame is two preamble bytes, a header of fixed length that says how many bytes
follow, and a body with a check.  A deframer hunts for the preamble, collects, and
delivers what passes the check.  What it delivers lies in the stream frame by frame,
frames sent back to back all arrive, and noise holds it up for one frame at most.
-/

namespace LoraBridge.Deframer

/-- The layout of a frame. -/
structure Format (Byte : Type) where
  first : Byte
  second : Byte
  first_ne_second : first ≠ second
  headerLength : ℕ
  header_pos : 0 < headerLength
  /-- How many bytes follow a header, or none if it is refused. -/
  bodyLength : List Byte → Option ℕ
  bodyMax : ℕ
  body_bounds : ∀ header size, bodyLength header = some size → 0 < size ∧ size ≤ bodyMax
  accepts : List Byte → List Byte → Bool

/-- A header and a body that belong together. -/
structure Frame {Byte : Type} (format : Format Byte) where
  header : List Byte
  body : List Byte
  header_length : header.length = format.headerLength
  body_length : format.bodyLength header = some body.length
  accepted : format.accepts header body = true

variable {Byte : Type} {format : Format Byte}

def Frame.bytes (frame : Frame format) : List Byte :=
  format.first :: format.second :: (frame.header ++ frame.body)

/-- Hunting for a preamble byte, or collecting with something still to come. -/
inductive Hunt (format : Format Byte) where
  | first
  | second
  | header (got : List Byte) (hgot : got.length < format.headerLength)
  | body (header : List Byte) (hheader : header.length = format.headerLength) (size : ℕ)
      (hsize : format.bodyLength header = some size) (got : List Byte)
      (hgot : got.length < size)

def Hunt.Hunting : Hunt format → Prop
  | .first => True
  | .second => True
  | .header _ _ => False
  | .body _ _ _ _ _ _ => False

/-- What has been read of a frame that may be under way. -/
def Hunt.pending : Hunt format → List Byte
  | .first => []
  | .second => [format.first]
  | .header got _ => format.first :: format.second :: got
  | .body head _ _ _ got _ => format.first :: format.second :: (head ++ got)

/-- How many more bytes the frame under way can take at most. -/
def Hunt.remaining : Hunt format → ℕ
  | .first => 0
  | .second => 0
  | .header got _ => format.headerLength - got.length + format.bodyMax
  | .body _ _ size _ got _ => size - got.length

/-- A header is complete: collect its body, or hunt again if it is refused. -/
def enterBody (header : List Byte) (hheader : header.length = format.headerLength) :
    Hunt format :=
  match hsize : format.bodyLength header with
  | none => .first
  | some size => .body header hheader size hsize [] (format.body_bounds header size hsize).1

theorem enterBody_some {header : List Byte} (hheader : header.length = format.headerLength)
    {size : ℕ} (hsize : format.bodyLength header = some size) :
    enterBody header hheader =
      .body header hheader size hsize [] (format.body_bounds header size hsize).1 := by
  unfold enterBody
  split
  · simp_all
  · rename_i size' hsize'
    obtain rfl : size' = size := by simpa [hsize'] using hsize
    rfl

theorem enterBody_none {header : List Byte} (hheader : header.length = format.headerLength)
    (hnone : format.bodyLength header = none) : enterBody header hheader = .first := by
  unfold enterBody
  split
  · rfl
  · simp_all

theorem enterBody_pending (header : List Byte)
    (hheader : header.length = format.headerLength) :
    ∃ gap, format.first :: format.second :: header =
      gap ++ (enterBody header hheader).pending := by
  unfold enterBody
  split
  · exact ⟨_, (List.append_nil _).symm⟩
  · exact ⟨[], by simp [Hunt.pending]⟩

theorem enterBody_remaining (header : List Byte)
    (hheader : header.length = format.headerLength) :
    (enterBody header hheader).remaining ≤ format.bodyMax := by
  unfold enterBody
  split
  · exact Nat.zero_le _
  · rename_i size hsize
    exact (format.body_bounds header size hsize).2

/-- The stream is these frames, with anything before, between and behind them. -/
inductive Sliced : List Byte → List (Frame format) → Prop
  | rest (gap : List Byte) : Sliced gap []
  | frame (gap : List Byte) (frame : Frame format) {stream : List Byte}
      {frames : List (Frame format)} (hrest : Sliced stream frames) :
      Sliced (gap ++ (frame.bytes ++ stream)) (frame :: frames)

theorem Sliced.gap {stream : List Byte} {frames : List (Frame format)}
    (hsliced : Sliced stream frames) (gap : List Byte) : Sliced (gap ++ stream) frames := by
  cases hsliced with
  | rest => exact .rest _
  | frame gap' frame hrest =>
      rw [← List.append_assoc]
      exact .frame (gap ++ gap') frame hrest

theorem hunting_of_remaining {hunt : Hunt format} (hzero : hunt.remaining = 0) :
    hunt.Hunting := by
  cases hunt with
  | first => trivial
  | second => trivial
  | header got hgot =>
      simp only [Hunt.remaining] at hzero
      omega
  | body header hheader size hsize got hgot =>
      simp only [Hunt.remaining] at hzero
      omega

theorem remaining_le (hunt : Hunt format) :
    hunt.remaining ≤ format.headerLength + format.bodyMax := by
  cases hunt with
  | first => exact Nat.zero_le _
  | second => exact Nat.zero_le _
  | header got hgot =>
      simp only [Hunt.remaining]
      omega
  | body header hheader size hsize got hgot =>
      have hmax := (format.body_bounds header size hsize).2
      simp only [Hunt.remaining]
      omega

/-! ## One byte -/

variable [DecidableEq Byte]

def step : Hunt format → Byte → Hunt format × List (Frame format)
  | .first, byte => (if byte = format.first then .second else .first, [])
  | .second, byte =>
      (if byte = format.second then .header [] format.header_pos
        else if byte = format.first then .second
        else .first, [])
  | .header got hgot, byte =>
      (if hmore : got.length + 1 < format.headerLength then
          .header (got ++ [byte]) (by simpa using hmore)
        else enterBody (got ++ [byte]) (by simp; omega), [])
  | .body header hheader size hsize got hgot, byte =>
      if hmore : got.length + 1 < size then
        (.body header hheader size hsize (got ++ [byte]) (by simpa using hmore), [])
      else if haccepted : format.accepts header (got ++ [byte]) = true then
        (.first, [⟨header, got ++ [byte], hheader, by simp [hsize]; omega, haccepted⟩])
      else (.first, [])

/-- A byte goes to the frame under way, completes it, or shows that it was none. -/
theorem step_pending (hunt : Hunt format) (byte : Byte) :
    (∃ gap, hunt.pending ++ [byte] = gap ++ (step hunt byte).1.pending ∧
        (step hunt byte).2 = []) ∨
      ∃ frame, hunt.pending ++ [byte] = frame.bytes ∧ step hunt byte = (.first, [frame]) := by
  cases hunt with
  | first =>
      refine .inl ?_
      by_cases hfirst : byte = format.first
      · exact ⟨[], by simp [step, hfirst, Hunt.pending], rfl⟩
      · exact ⟨[byte], by simp [step, hfirst, Hunt.pending], rfl⟩
  | second =>
      refine .inl ?_
      by_cases hsecond : byte = format.second
      · exact ⟨[], by simp [step, hsecond, Hunt.pending], rfl⟩
      · by_cases hfirst : byte = format.first
        · exact ⟨[format.first], by
            simp [step, hfirst, format.first_ne_second, Hunt.pending], rfl⟩
        · exact ⟨[format.first, byte], by simp [step, hsecond, hfirst, Hunt.pending], rfl⟩
  | header got hgot =>
      refine .inl ?_
      by_cases hmore : got.length + 1 < format.headerLength
      · exact ⟨[], by simp [step, hmore, Hunt.pending], rfl⟩
      · obtain ⟨gap, hgap⟩ := enterBody_pending (got ++ [byte])
          (show (got ++ [byte]).length = format.headerLength by simp; omega)
        exact ⟨gap, by simpa [step, hmore, Hunt.pending] using hgap, rfl⟩
  | body header hheader size hsize got hgot =>
      by_cases hmore : got.length + 1 < size
      · exact .inl ⟨[], by simp [step, hmore, Hunt.pending], by simp [step, hmore]⟩
      · by_cases haccepted : format.accepts header (got ++ [byte]) = true
        · refine .inr ⟨⟨header, got ++ [byte], hheader, by simp [hsize]; omega, haccepted⟩,
            ?_, ?_⟩
          · simp [Hunt.pending, Frame.bytes]
          · simp [step, hmore, haccepted]
        · refine .inl ⟨format.first :: format.second :: (header ++ (got ++ [byte])), ?_, ?_⟩
          · simp [step, hmore, haccepted, Hunt.pending]
          · simp [step, hmore, haccepted]

/-- The frame under way comes closer to its end. -/
theorem step_remaining (hunt : Hunt format) (byte : Byte) (hhunt : ¬ hunt.Hunting) :
    (step hunt byte).1.remaining + 1 ≤ hunt.remaining := by
  cases hunt with
  | first => exact absurd trivial hhunt
  | second => exact absurd trivial hhunt
  | header got hgot =>
      by_cases hmore : got.length + 1 < format.headerLength
      · simp [step, hmore, Hunt.remaining]
        omega
      · have henter := enterBody_remaining (got ++ [byte])
          (show (got ++ [byte]).length = format.headerLength by simp; omega)
        have hremaining : (Hunt.header got hgot).remaining =
          format.headerLength - got.length + format.bodyMax := rfl
        simp only [step, hmore, dif_neg, not_false_eq_true]
        omega
  | body header hheader size hsize got hgot =>
      by_cases hmore : got.length + 1 < size
      · simp [step, hmore, Hunt.remaining]
        omega
      · have hfirst : (step (.body header hheader size hsize got hgot) byte).1 = .first := by
          by_cases haccepted : format.accepts header (got ++ [byte]) = true <;>
            simp [step, hmore, haccepted]
        rw [hfirst]
        simp only [Hunt.remaining]
        omega

/-! ## Streams -/

/-- The state after a stream and the frames delivered. -/
abbrev feed (hunt : Hunt format) (stream : List Byte) : Hunt format × List (Frame format) :=
  Machine.run step hunt stream

/-- What is delivered lies in the stream, frame by frame. -/
theorem sliced_feed (hunt : Hunt format) (stream : List Byte) :
    Sliced (hunt.pending ++ stream) (feed hunt stream).2 := by
  induction stream generalizing hunt with
  | nil => exact .rest _
  | cons byte rest ih =>
      have hsplit : hunt.pending ++ byte :: rest = (hunt.pending ++ [byte]) ++ rest := by simp
      rw [hsplit]
      simp only [feed, Machine.run]
      rcases step_pending hunt byte with ⟨gap, hpending, hnone⟩ | ⟨frame, hpending, hstep⟩
      · rw [hpending, hnone, List.append_assoc]
        exact (ih (step hunt byte).1).gap gap
      · rw [hpending, hstep]
        exact Sliced.frame [] frame (ih .first)

/-- The deframer is hunting again by the time the frame under way can have ended. -/
theorem feed_hunting (hunt : Hunt format) (stream : List Byte)
    (hlong : hunt.remaining ≤ stream.length) :
    ∃ count ≤ hunt.remaining, (feed hunt (stream.take count)).1.Hunting := by
  induction stream generalizing hunt with
  | nil => exact ⟨0, Nat.zero_le _, hunting_of_remaining (Nat.le_zero.mp hlong)⟩
  | cons byte rest ih =>
      by_cases hhunt : hunt.Hunting
      · exact ⟨0, Nat.zero_le _, hhunt⟩
      · have hless := step_remaining hunt byte hhunt
        obtain ⟨count, hcount, hhunting⟩ := ih (step hunt byte).1
          (by rw [List.length_cons] at hlong; omega)
        exact ⟨count + 1, by omega, hhunting⟩

/-! ## Frames back to back -/

theorem feed_header {header : List Byte} (hheader : header.length = format.headerLength)
    {size : ℕ} (hsize : format.bodyLength header = some size) (left got stream : List Byte)
    (hgot : got.length < format.headerLength) (hsplit : got ++ left = header) :
    feed (.header got hgot) (left ++ stream) =
      feed (.body header hheader size hsize [] (format.body_bounds header size hsize).1)
        stream := by
  induction left generalizing got with
  | nil =>
      rw [List.append_nil] at hsplit
      rw [hsplit] at hgot
      omega
  | cons byte left ih =>
      have hnext : (got ++ [byte]) ++ left = header := by simpa using hsplit
      simp only [feed, List.cons_append, Machine.run, step]
      by_cases hmore : got.length + 1 < format.headerLength
      · rw [dif_pos hmore]
        exact ih (got ++ [byte]) _ hnext
      · have hnil : left = [] := by
          have hlength := congrArg List.length hnext
          simp only [List.length_append, List.length_singleton] at hlength
          exact List.length_eq_zero_iff.mp (by omega)
        subst hnil
        rw [List.append_nil] at hnext
        subst hnext
        rw [dif_neg hmore, enterBody_some hheader hsize]
        rfl

theorem feed_body (frame : Frame format) {size : ℕ}
    (hsize : format.bodyLength frame.header = some size) (left got stream : List Byte)
    (hgot : got.length < size) (hsplit : got ++ left = frame.body) :
    feed (.body frame.header frame.header_length size hsize got hgot) (left ++ stream) =
      ((feed .first stream).1, frame :: (feed .first stream).2) := by
  have hlength : frame.body.length = size := by
    simpa [frame.body_length] using hsize
  induction left generalizing got with
  | nil =>
      rw [List.append_nil] at hsplit
      rw [hsplit] at hgot
      omega
  | cons byte left ih =>
      have hnext : (got ++ [byte]) ++ left = frame.body := by simpa using hsplit
      simp only [feed, List.cons_append, Machine.run, step]
      by_cases hmore : got.length + 1 < size
      · rw [dif_pos hmore]
        exact ih (got ++ [byte]) _ hnext
      · have hnil : left = [] := by
          have hlength' := congrArg List.length hnext
          simp only [List.length_append, List.length_singleton] at hlength'
          exact List.length_eq_zero_iff.mp (by omega)
        subst hnil
        rw [List.append_nil] at hnext
        have haccepted : format.accepts frame.header (got ++ [byte]) = true := by
          rw [hnext]
          exact frame.accepted
        rw [dif_neg hmore, dif_pos haccepted]
        simp only [hnext, List.nil_append]
        rfl

/-- A frame that starts where the deframer is hunting is delivered. -/
theorem feed_frame (hunt : Hunt format) (hhunt : hunt.Hunting) (frame : Frame format)
    (stream : List Byte) :
    feed hunt (frame.bytes ++ stream) =
      ((feed .first stream).1, frame :: (feed .first stream).2) := by
  have hsecond : feed (.second : Hunt format)
      (format.second :: (frame.header ++ (frame.body ++ stream))) =
        ((feed .first stream).1, frame :: (feed .first stream).2) := by
    have hheader := feed_header frame.header_length frame.body_length frame.header []
      (frame.body ++ stream) format.header_pos rfl
    have hbody := feed_body frame frame.body_length frame.body [] stream
      (format.body_bounds _ _ frame.body_length).1 rfl
    simp only [feed, Machine.run, step, if_true] at hheader hbody ⊢
    rw [hheader, hbody]
    rfl
  have hbytes : frame.bytes ++ stream =
      format.first :: format.second :: (frame.header ++ (frame.body ++ stream)) := by
    simp [Frame.bytes]
  rw [hbytes]
  cases hunt with
  | first =>
      simp only [feed, Machine.run, step, if_true] at hsecond ⊢
      exact hsecond
  | second =>
      simp only [feed, Machine.run, step, if_true, format.first_ne_second, if_false]
        at hsecond ⊢
      exact hsecond
  | header got hgot => exact hhunt.elim
  | body header hheader size hsize got hgot => exact hhunt.elim

/-- Frames sent back to back are delivered, all of them and in order. -/
theorem feed_frames (hunt : Hunt format) (hhunt : hunt.Hunting)
    (frames : List (Frame format)) :
    (feed hunt (frames.flatMap Frame.bytes)).2 = frames := by
  induction frames generalizing hunt with
  | nil => rfl
  | cons frame rest ih =>
      rw [List.flatMap_cons, feed_frame hunt hhunt, ih .first trivial]

end LoraBridge.Deframer
