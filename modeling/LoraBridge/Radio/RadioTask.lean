import LoraBridge.Codec.Protocol
import LoraBridge.Core.Machine
import LoraBridge.Radio.RouteQueue

/-!
# The task of one radio

One turn of `radioTask`: an in-flight transmission is waited for, a received packet
is handed on, the periodic NodeInfo is queued, and one queued packet is sent when no
packet is waiting, the backoff and the airtime throttle are over, and the channel is
clear.  Other tasks push onto the queue at any time.
-/

namespace LoraBridge.RadioTask

open LoraBridge.Machine LoraBridge.RouteQueue LoraBridge.WrapClock

/-- The build flags of the scheduler. -/
structure Settings where
  maxAgeMs : UInt32
  txInflightTimeoutMs : UInt32
  txDutyPercent : UInt32
  txMinGapMs : UInt32

def Settings.default : Settings where
  maxAgeMs := BRIDGE_ROUTE_MAX_AGE_MS
  txInflightTimeoutMs := 10000
  txDutyPercent := 50
  txMinGapMs := 0

def SYNC_WORD_LORAWAN : UInt8 := 0x34

def SYNC_WORD_MESHTASTIC : UInt8 := 0x2B

def REGION_US : UInt8 := 1

def regionDwellMs (region : UInt8) : UInt32 :=
  if region = REGION_US then 400 else 0

/-- A radio on the board, or on the co-processor behind the UART link. -/
inductive Kind where
  | onBoard
  | remote
  deriving DecidableEq

/-- The channel of a remote radio cannot be sensed and counts as clear. -/
def Kind.scanChannel (kind : Kind) (detected : Bool) : Bool :=
  match kind with
  | .onBoard => detected
  | .remote => false

/-- A remote radio refuses until the co-processor has been seen. -/
def Kind.startTransmit (kind : Kind) (linkReady accepted : Bool) : Bool :=
  match kind with
  | .onBoard => accepted
  | .remote => linkReady && accepted

/-- The radio's channel protocol, the region, and `estimateAirtimeMs` of a payload
length under the radio's RF plan. -/
structure Config where
  kind : Kind
  protocol : UInt8
  region : UInt8
  airtimeMs : ℕ → UInt32

structure State (cap : ℕ) where
  queue : Queue cap
  pending : Option Entry
  txBusy : Bool
  txStartMs : UInt32
  txBackoffUntil : UInt32
  nextTxAllowedMs : UInt32
  nextNodeInfoMs : UInt32

/-- A packet for the queue and the time it is pushed. -/
structure Push where
  data : List UInt8
  time : ℕ

/-- Why the scheduler gave up a packet it had latched. -/
inductive Drop where
  | latchStale
  | dwell
  | startFail
  deriving DecidableEq

/-- What the task did: a packet was queued, the channel was scanned, a backoff of
`wait` ms began, a transmission started with its throttle gap, a packet was given up. -/
inductive Output where
  | pushed (entry : Entry)
  | scanned
  | backedOff (time : ℕ) (wait : UInt32)
  | started (entry : Entry) (time : ℕ) (gap : UInt32)
  | dropped (reason : Drop) (entry : Entry)
  deriving DecidableEq

/-- What one turn meets: the time at each read of `millis()`, what the radio answers,
the NodeInfo packet, and what is pushed onto the queue before and after the pop (by
other tasks, or by this one while it handles the received frame). -/
structure Turn where
  doneAt : ℕ
  nodeInfoAt : ℕ
  nodeInfoSetAt : ℕ
  popAt : ℕ
  latchAt : ℕ
  backoffAt : ℕ
  allowedAt : ℕ
  busyAt : ℕ
  startAt : ℕ
  done : Bool
  waiting : Bool
  detected : Bool
  backoff : UInt32
  linkReady : Bool
  accepted : Bool
  nodeInfo : Option Push
  early : List Push
  late : List Push

variable {cap : ℕ}

/-- `push`: a refused packet changes nothing. -/
def pushOne (state : State cap) (packet : Push) : State cap × List Output :=
  match push packet.data packet.time state.queue with
  | some queue => ({ state with queue := queue }, [.pushed ⟨packet.data, ticks packet.time⟩])
  | none => (state, [])

/-- One thing after another. -/
def andThen (first : State cap × List Output)
    (second : State cap → State cap × List Output) : State cap × List Output :=
  ((second first.1).1, first.2 ++ (second first.1).2)

/-- (A): wait for the in-flight transmission, or give up on it. -/
def serviceTx (settings : Settings) (turn : Turn) (state : State cap) : State cap :=
  if turn.done ∨ settings.txInflightTimeoutMs < ticks turn.doneAt - state.txStartMs then
    { state with txBusy := false }
  else state

/-- (C): the periodic NodeInfo of a Meshtastic radio. -/
def queueNodeInfo (config : Config) (turn : Turn) (state : State cap) :
    State cap × List Output :=
  if config.protocol = SYNC_WORD_MESHTASTIC ∧
      reached (ticks turn.nodeInfoAt) state.nextNodeInfoMs then
    andThen (run pushOne state turn.nodeInfo.toList) fun state =>
      ({ state with nextNodeInfoMs := ticks turn.nodeInfoSetAt + 300000 }, [])
  else (state, [])

/-- Latch the next queued packet. -/
def latch (turn : Turn) (state : State cap) : State cap :=
  match state.pending with
  | some _ => state
  | none =>
      { state with pending := (pop turn.popAt state.queue).1
                   queue := (pop turn.popAt state.queue).2 }

/-- Give up a latched packet that is too old by now. -/
def expire (settings : Settings) (turn : Turn) (state : State cap) :
    State cap × List Output :=
  match state.pending with
  | none => (state, [])
  | some entry =>
      if stale settings.maxAgeMs turn.latchAt entry then
        ({ state with pending := none }, [.dropped .latchStale entry])
      else (state, [])

/-- Nothing waits to be read, and both deadlines are over. -/
def guardPasses (turn : Turn) (state : State cap) : Bool :=
  !turn.waiting && reached (ticks turn.backoffAt) state.txBackoffUntil &&
    reached (ticks turn.allowedAt) state.nextTxAllowedMs

/-- How long the radio stays off the air after a transmission of `air` ms. -/
def throttleGap (settings : Settings) (air : UInt32) : UInt32 :=
  let gap := if 0 < settings.txDutyPercent then air * 100 / settings.txDutyPercent else air
  if gap < air + settings.txMinGapMs then air + settings.txMinGapMs else gap

def dwellBlocked (config : Config) (entry : Entry) : Bool :=
  regionDwellMs config.region ≠ 0 ∧ config.protocol = SYNC_WORD_LORAWAN ∧
    regionDwellMs config.region < config.airtimeMs entry.data.length

/-- CAD, and a non-blocking send. -/
def attempt (settings : Settings) (config : Config) (turn : Turn) (entry : Entry)
    (state : State cap) : State cap × List Output :=
  if config.kind.scanChannel turn.detected then
    ({ state with txBackoffUntil := ticks turn.busyAt + turn.backoff },
      [.scanned, .backedOff turn.busyAt turn.backoff])
  else if dwellBlocked config entry then
    ({ state with pending := none }, [.scanned, .dropped .dwell entry])
  else if config.kind.startTransmit turn.linkReady turn.accepted then
    let gap := throttleGap settings (config.airtimeMs entry.data.length)
    ({ state with
        txBusy := true
        txStartMs := ticks turn.startAt
        pending := none
        nextTxAllowedMs := ticks turn.startAt + gap },
      [.scanned, .started entry turn.startAt gap])
  else ({ state with pending := none }, [.scanned, .dropped .startFail entry])

/-- The gate of (D) and what is behind it. -/
def schedule (settings : Settings) (config : Config) (turn : Turn) (state : State cap) :
    State cap × List Output :=
  match state.pending with
  | none => (state, [])
  | some entry =>
      if guardPasses turn state then attempt settings config turn entry state
      else (state, [])

/-- The state when the scheduler comes to its queue. -/
def received (config : Config) (turn : Turn) (state : State cap) : State cap × List Output :=
  andThen (run pushOne state turn.early) (queueNodeInfo config turn)

/-- The state at the gate of (D). -/
def atGate (settings : Settings) (config : Config) (turn : Turn) (state : State cap) :
    State cap × List Output :=
  andThen (received config turn state) fun state =>
    expire settings turn (latch turn state)

/-- One turn of the loop of `radioTask`. -/
def radioTask (settings : Settings) (config : Config) (turn : Turn) (state : State cap) :
    State cap × List Output :=
  if state.txBusy then
    andThen (run pushOne state turn.early) fun state =>
      andThen (serviceTx settings turn state, []) fun state => run pushOne state turn.late
  else
    andThen (andThen (atGate settings config turn state) (schedule settings config turn))
      fun state => run pushOne state turn.late

/-- Some task pushes, or the radio's task makes a turn. -/
inductive Event where
  | push (packet : Push)
  | turn (turn : Turn)

def step (settings : Settings) (config : Config) :
    State cap → Event → State cap × List Output
  | state, .push packet => pushOne state packet
  | state, .turn turn => radioTask settings config turn state

/-- When the task starts, at `bootMs`. -/
def start (settings : Settings) (first : Fin cap) (allocated : Bool) (bootMs : ℕ) :
    State cap where
  queue := begin first settings.maxAgeMs allocated
  pending := none
  txBusy := false
  txStartMs := 0
  txBackoffUntil := 0
  nextTxAllowedMs := 0
  nextNodeInfoMs := ticks bootMs + 10000

/-! ## What the parts of a turn do -/

theorem pushOne_cases (state : State cap) (packet : Push) :
    (pushOne state packet = (state, [])) ∨
      ∃ queue, push packet.data packet.time state.queue = some queue ∧
        pushOne state packet =
          ({ state with queue := queue }, [.pushed ⟨packet.data, ticks packet.time⟩]) := by
  unfold pushOne
  cases hpush : push packet.data packet.time state.queue with
  | none => exact .inl rfl
  | some queue => exact .inr ⟨queue, rfl, rfl⟩

theorem expire_cases (settings : Settings) (turn : Turn) (state : State cap) :
    (expire settings turn state = (state, []) ∧
        ∀ entry, state.pending = some entry →
          stale settings.maxAgeMs turn.latchAt entry = false) ∨
      ∃ entry, state.pending = some entry ∧
        stale settings.maxAgeMs turn.latchAt entry = true ∧
        expire settings turn state =
          ({ state with pending := none }, [.dropped .latchStale entry]) := by
  unfold expire
  cases hpending : state.pending with
  | none => exact .inl ⟨rfl, by simp⟩
  | some entry =>
      by_cases hstale : stale settings.maxAgeMs turn.latchAt entry = true
      · exact .inr ⟨entry, rfl, hstale, by simp [hstale]⟩
      · exact .inl ⟨by simp [hstale], by simpa using hstale⟩

/-! ## What the parts of a turn keep -/

/-- A part of a turn keeps an invariant of the state and of all outputs so far. -/
def Keeps (inv : State cap → List Output → Prop)
    (part : State cap → State cap × List Output) : Prop :=
  ∀ state history, inv state history → inv (part state).1 (history ++ (part state).2)

section Keeps

variable {inv : State cap → List Output → Prop} {settings : Settings} {config : Config}

theorem Keeps.andThen {first : State cap → State cap × List Output}
    {second : State cap → State cap × List Output} (hfirst : Keeps inv first)
    (hsecond : Keeps inv second) :
    Keeps inv fun state => RadioTask.andThen (first state) second := by
  intro state history hinv
  have hboth := hsecond _ _ (hfirst state history hinv)
  simpa only [RadioTask.andThen, List.append_assoc] using hboth

/-- The state changes, and nothing is emitted. -/
theorem keeps_silent {part : State cap → State cap}
    (hpart : ∀ state history, inv state history → inv (part state) history) :
    Keeps inv fun state => (part state, []) := by
  intro state history hinv
  simpa using hpart state history hinv

theorem keeps_pushes (hpush : ∀ packet, Keeps inv fun state => pushOne state packet)
    (packets : List Push) : Keeps inv fun state => run pushOne state packets :=
  fun _ _ hinv =>
    invariant_run_always (fun state history packet => hpush packet state history) packets hinv

/-- An invariant of everything in front of the gate of (D). -/
structure BeforeGate (settings : Settings) (inv : State cap → List Output → Prop) :
    Prop where
  push : ∀ packet, Keeps inv fun state => pushOne state packet
  nodeInfo : ∀ state history next, inv state history →
    inv { state with nextNodeInfoMs := next } history
  latch : ∀ turn state history, inv state history → inv (latch turn state) history
  expire : ∀ turn, Keeps inv (expire settings turn)

theorem BeforeGate.atGate (hbefore : BeforeGate settings inv) (config : Config)
    (turn : Turn) : Keeps inv (atGate settings config turn) := by
  have hnodeInfo : Keeps inv (queueNodeInfo config turn) := by
    intro state history hinv
    unfold queueNodeInfo
    split
    · exact Keeps.andThen (keeps_pushes hbefore.push turn.nodeInfo.toList)
        (keeps_silent fun state history => hbefore.nodeInfo state history _)
        state history hinv
    · simpa using hinv
  have hreceived : Keeps inv (received config turn) :=
    Keeps.andThen (keeps_pushes hbefore.push turn.early) hnodeInfo
  refine Keeps.andThen hreceived fun state history hinv => ?_
  exact hbefore.expire turn _ _ (hbefore.latch turn state history hinv)

/-- An invariant of every part. -/
structure Invariant (settings : Settings) (config : Config)
    (inv : State cap → List Output → Prop) : Prop extends BeforeGate settings inv where
  service : ∀ turn state history, inv state history →
    inv (serviceTx settings turn state) history
  attempt : ∀ turn entry state history, inv state history → state.pending = some entry →
    inv (attempt settings config turn entry state).1
      (history ++ (attempt settings config turn entry state).2)

theorem Invariant.schedule (hinv : Invariant settings config inv) (turn : Turn) :
    Keeps inv (schedule settings config turn) := by
  intro state history hstate
  cases hpending : state.pending with
  | none => simpa [RadioTask.schedule, hpending] using hstate
  | some entry =>
      by_cases hguard : guardPasses turn state = true
      · simpa only [RadioTask.schedule, hpending, hguard, if_true] using
          hinv.attempt turn entry state history hstate hpending
      · simpa [RadioTask.schedule, hpending, hguard] using hstate

theorem Invariant.step (hinv : Invariant settings config inv) (event : Event) :
    Keeps inv fun state => step settings config state event := by
  have hlate : ∀ turn : Turn, Keeps inv fun state => run pushOne state turn.late :=
    fun turn => keeps_pushes hinv.push turn.late
  cases event with
  | push packet => exact hinv.push packet
  | turn turn =>
      have hservice : Keeps inv fun state => (serviceTx settings turn state, []) :=
        keeps_silent fun state history => hinv.service turn state history
      have hbusy := Keeps.andThen (keeps_pushes hinv.push turn.early)
        (Keeps.andThen hservice (hlate turn))
      have hfree := Keeps.andThen (Keeps.andThen (hinv.atGate config turn) (hinv.schedule turn))
        (hlate turn)
      intro state history hstate
      simp only [RadioTask.step, radioTask]
      split
      · exact hbusy state history hstate
      · exact hfree state history hstate

/-- What every part keeps, every run keeps. -/
theorem Invariant.run (hinv : Invariant settings config inv) {state : State cap}
    (history : List Output) (events : List Event) (hstart : inv state history) :
    inv (Machine.run (RadioTask.step settings config) state events).1
      (history ++ (Machine.run (RadioTask.step settings config) state events).2) :=
  invariant_run_always (fun state history event => hinv.step event state history)
    events hstart

/-! ## What is emitted in front of the gate and behind it -/

/-- A packet was queued, or given up before the gate. -/
def Output.Quiet : Output → Prop
  | .pushed _ | .dropped .latchStale _ => True
  | _ => False

theorem quiet_pushOne (state : State cap) (packet : Push) :
    ∀ output ∈ (pushOne state packet).2, output.Quiet := by
  rcases pushOne_cases state packet with heq | ⟨queue, -, heq⟩
  · simp [heq]
  · simp [heq, Output.Quiet]

theorem quiet_expire (settings : Settings) (turn : Turn) (state : State cap) :
    ∀ output ∈ (expire settings turn state).2, output.Quiet := by
  rcases expire_cases settings turn state with ⟨heq, -⟩ | ⟨entry, -, -, heq⟩
  · simp [heq]
  · simp [heq, Output.Quiet]

theorem quiet_append {history outputs : List Output}
    (hhistory : ∀ output ∈ history, output.Quiet)
    (houtputs : ∀ output ∈ outputs, output.Quiet) :
    ∀ output ∈ history ++ outputs, output.Quiet := by
  intro output hmem
  rcases List.mem_append.mp hmem with hold | hnew
  · exact hhistory output hold
  · exact houtputs output hnew

theorem quiet_pushes (state : State cap) (packets : List Push) :
    ∀ output ∈ (Machine.run pushOne state packets).2, output.Quiet := by
  let quiet : State cap → List Output → Prop := fun _ history =>
    ∀ output ∈ history, output.Quiet
  have hpushes : Keeps quiet fun state => Machine.run pushOne state packets :=
    keeps_pushes
      (fun packet state _ hquiet => quiet_append hquiet (quiet_pushOne state packet)) packets
  exact hpushes state [] (by simp [quiet])

theorem quiet_atGate (settings : Settings) (config : Config) (turn : Turn)
    (state : State cap) : ∀ output ∈ (atGate settings config turn state).2, output.Quiet := by
  have hquiet : BeforeGate settings fun (_ : State cap) (history : List Output) =>
      ∀ output ∈ history, output.Quiet :=
    ⟨fun packet state _ hquiet => quiet_append hquiet (quiet_pushOne state packet),
      fun _ _ _ hquiet => hquiet, fun _ _ _ hquiet => hquiet,
      fun turn state _ hquiet => quiet_append hquiet (quiet_expire settings turn state)⟩
  simpa using hquiet.atGate config turn state [] (by simp)

end Keeps

end LoraBridge.RadioTask
