import LoraBridge.Radio.RadioTask

/-!
# The deadlines of the scheduler

The backoff and the airtime throttle are deadlines on the 32-bit clock, compared by
the sign of a difference.  Neither is refreshed while it does not hold a packet back,
so after half a period of the clock without a busy channel, or without a transmission,
a deadline long past counts as one to come.
-/

namespace LoraBridge.TxDeadlines

open LoraBridge.Machine LoraBridge.RadioTask LoraBridge.RouteQueue LoraBridge.WrapClock

/-- The intended end of the last backoff, 0 for none since boot. -/
def backoffDeadline (history : List Output) : ℕ :=
  history.foldl (fun deadline output =>
    match output with
    | .backedOff time wait => time + wait.toNat
    | _ => deadline) 0

/-- The intended end of the last airtime throttle, 0 for none since boot. -/
def throttleDeadline (history : List Output) : ℕ :=
  history.foldl (fun deadline output =>
    match output with
    | .started _ time gap => time + gap.toNat
    | _ => deadline) 0

/-- The registers show the intended deadlines. -/
structure Tracks {cap : ℕ} (state : State cap) (history : List Output) : Prop where
  backoff : state.txBackoffUntil = ticks (backoffDeadline history)
  throttle : state.nextTxAllowedMs = ticks (throttleDeadline history)

theorem deadlines_append (history : List Output) {outputs : List Output}
    (hnone : ∀ output ∈ outputs, output.Quiet) :
    backoffDeadline (history ++ outputs) = backoffDeadline history ∧
      throttleDeadline (history ++ outputs) = throttleDeadline history := by
  induction outputs generalizing history with
  | nil => simp
  | cons output rest ih =>
      have hrest := @ih (history ++ [output]) fun later hlater =>
        hnone later (List.mem_cons_of_mem output hlater)
      have hhead := hnone output List.mem_cons_self
      rw [List.append_assoc, List.singleton_append] at hrest
      rw [hrest.1, hrest.2]
      cases output with
      | backedOff time wait => exact hhead.elim
      | started entry time gap => exact hhead.elim
      | pushed entry => simp [backoffDeadline, throttleDeadline]
      | scanned => exact hhead.elim
      | dropped reason entry => simp [backoffDeadline, throttleDeadline]

section Tracks

variable {cap : ℕ} {settings : Settings} {config : Config}

/-- Both registers are left alone. -/
def SameRegisters (state next : State cap) : Prop :=
  next.txBackoffUntil = state.txBackoffUntil ∧
    next.nextTxAllowedMs = state.nextTxAllowedMs

theorem SameRegisters.trans {state middle next : State cap}
    (hfirst : SameRegisters state middle) (hsecond : SameRegisters middle next) :
    SameRegisters state next :=
  ⟨hsecond.1.trans hfirst.1, hsecond.2.trans hfirst.2⟩

theorem sameRegisters_pushOne (state : State cap) (packet : Push) :
    SameRegisters state (pushOne state packet).1 := by
  rcases pushOne_cases state packet with heq | ⟨queue, -, heq⟩ <;> rw [heq]
  · exact ⟨rfl, rfl⟩
  · exact ⟨rfl, rfl⟩

theorem sameRegisters_latch (turn : Turn) (state : State cap) :
    SameRegisters state (latch turn state) := by
  cases hpending : state.pending <;> simp [SameRegisters, latch, hpending]

theorem sameRegisters_expire (settings : Settings) (turn : Turn) (state : State cap) :
    SameRegisters state (expire settings turn state).1 := by
  rcases expire_cases settings turn state with ⟨heq, -⟩ | ⟨entry, -, -, heq⟩ <;> rw [heq]
  · exact ⟨rfl, rfl⟩
  · exact ⟨rfl, rfl⟩

theorem sameRegisters_serviceTx (settings : Settings) (turn : Turn) (state : State cap) :
    SameRegisters state (serviceTx settings turn state) := by
  unfold serviceTx
  split
  · exact ⟨rfl, rfl⟩
  · exact ⟨rfl, rfl⟩

/-- Nothing in front of the gate touches them. -/
theorem sameRegisters_atGate (turn : Turn) (state : State cap) :
    SameRegisters state (atGate settings config turn state).1 := by
  have hsame : BeforeGate settings fun next _ => SameRegisters state next :=
    ⟨fun packet middle _ hmiddle => SameRegisters.trans hmiddle (sameRegisters_pushOne _ packet),
      fun _ _ _ hmiddle => hmiddle,
      fun turn middle _ hmiddle => SameRegisters.trans hmiddle (sameRegisters_latch turn _),
      fun turn middle _ hmiddle =>
        SameRegisters.trans hmiddle (sameRegisters_expire settings turn _)⟩
  exact hsame.atGate config turn state [] ⟨rfl, rfl⟩

/-- A part that sets no deadline. -/
theorem Tracks.quiet {state next : State cap} {history outputs : List Output}
    (htracks : Tracks state history) (hregisters : SameRegisters state next)
    (hquiet : ∀ output ∈ outputs, output.Quiet) : Tracks next (history ++ outputs) := by
  obtain ⟨hbackoff, hthrottle⟩ := deadlines_append history hquiet
  exact ⟨by rw [hregisters.1, htracks.backoff, hbackoff],
    by rw [hregisters.2, htracks.throttle, hthrottle]⟩

/-- A part that sets no deadline and emits nothing. -/
theorem Tracks.silent {state next : State cap} {history : List Output}
    (htracks : Tracks state history) (hregisters : SameRegisters state next) :
    Tracks next history :=
  ⟨hregisters.1.trans htracks.backoff, hregisters.2.trans htracks.throttle⟩

theorem tracks_attempt (turn : Turn) (entry : Entry) {state : State cap}
    {history : List Output} (htracks : Tracks state history) :
    Tracks (attempt settings config turn entry state).1
      (history ++ (attempt settings config turn entry state).2) := by
  obtain ⟨hbackoff, hthrottle⟩ := htracks
  unfold attempt
  split
  · exact ⟨by simp [backoffDeadline, ticks_add], by simpa [throttleDeadline] using hthrottle⟩
  · split
    · exact ⟨by simpa [backoffDeadline] using hbackoff,
        by simpa [throttleDeadline] using hthrottle⟩
    · split
      · exact ⟨by simpa [backoffDeadline] using hbackoff,
          by simp [throttleDeadline, ticks_add]⟩
      · exact ⟨by simpa [backoffDeadline] using hbackoff,
          by simpa [throttleDeadline] using hthrottle⟩

theorem invariant_tracks : Invariant settings config (@Tracks cap) where
  push packet state _ htracks :=
    htracks.quiet (sameRegisters_pushOne state packet) (quiet_pushOne state packet)
  nodeInfo _ _ _ htracks := ⟨htracks.backoff, htracks.throttle⟩
  latch turn state _ htracks := htracks.silent (sameRegisters_latch turn state)
  expire turn state _ htracks :=
    htracks.quiet (sameRegisters_expire settings turn state)
      (quiet_expire settings turn state)
  service turn state _ htracks :=
    htracks.silent (sameRegisters_serviceTx settings turn state)
  attempt turn entry _ _ htracks _ := tracks_attempt turn entry htracks

end Tracks

/-! ## The guard -/

/-- The turn goes on to CAD, and on a clear channel to the dwell check and the
transmission of the packet. -/
def GoesOn (config : Config) (turn : Turn) (entry : Entry) (outputs : List Output) : Prop :=
  Output.scanned ∈ outputs ∧
    (config.kind.scanChannel turn.detected = false →
      (∃ time gap, Output.started entry time gap ∈ outputs) ∨
        ∃ reason, reason ≠ .latchStale ∧ Output.dropped reason entry ∈ outputs)

section Guard

variable {cap : ℕ} {settings : Settings} {config : Config} {turn : Turn} {entry : Entry}
  {state : State cap} {history : List Output}

/-- What CAD and TX do with a packet. -/
theorem goesOn_attempt (outputs later : List Output) :
    GoesOn config turn entry
      (outputs ++ (attempt settings config turn entry state).2 ++ later) := by
  unfold attempt
  split
  · rename_i hdetected
    exact ⟨by simp, fun hclear => absurd hdetected (by simp [hclear])⟩
  · split
    · exact ⟨by simp, fun _ => .inr ⟨.dwell, by simp, by simp⟩⟩
    · split
      · exact ⟨by simp, fun _ => .inl ⟨_, _, by simp; exact .inr (.inl ⟨rfl, rfl⟩)⟩⟩
      · exact ⟨by simp, fun _ => .inr ⟨.startFail, by simp, by simp⟩⟩

/-- A packet at the gate goes on exactly when the guard passes. -/
theorem goesOn_iff_guard (hfree : state.txBusy = false)
    (hpending : (atGate settings config turn state).1.pending = some entry) :
    GoesOn config turn entry (step settings config state (.turn turn)).2 ↔
      guardPasses turn (atGate settings config turn state).1 = true := by
  simp only [step, radioTask, hfree, Bool.false_eq_true, if_false, andThen, schedule,
    hpending]
  constructor
  · intro hgoes
    by_contra hheld
    rw [if_neg hheld] at hgoes
    have hscanned := hgoes.1
    simp only [List.append_nil, List.mem_append] at hscanned
    rcases hscanned with hgate | hlate
    · exact quiet_atGate settings config turn state _ hgate
    · exact quiet_pushes _ turn.late _ hlate
  · intro hpasses
    rw [if_pos hpasses]
    exact goesOn_attempt _ _

/-- The guard sees a passed deadline in every other half of a period. -/
theorem guardPasses_iff (htracks : Tracks state history) (hwaiting : turn.waiting = false)
    (hbackoff : backoffDeadline history ≤ turn.backoffAt)
    (hthrottle : throttleDeadline history ≤ turn.allowedAt) :
    guardPasses turn (atGate settings config turn state).1 = true ↔
      FirstHalf (turn.backoffAt - backoffDeadline history) ∧
        FirstHalf (turn.allowedAt - throttleDeadline history) := by
  have hregisters := @sameRegisters_atGate cap settings config turn state
  rw [guardPasses, hregisters.1, hregisters.2, htracks.backoff, htracks.throttle, hwaiting,
    Bool.not_false, Bool.true_and, Bool.and_eq_true, reached_ticks hbackoff,
    reached_ticks hthrottle]

theorem tracks_start (settings : Settings) (first : Fin cap) (allocated : Bool)
    (bootMs : ℕ) : Tracks (start settings first allocated bootMs) [] :=
  ⟨rfl, rfl⟩

end Guard

/-- In every state that a run reaches, a packet that the scheduler may send goes on to
CAD and TX exactly when both deadlines, passed in real time, are in the first half of
a period of the clock behind it. -/
theorem guard_passes_iff {cap : ℕ} (settings : Settings) (config : Config)
    (first : Fin cap) (allocated : Bool) (bootMs : ℕ) (events : List Event) (turn : Turn)
    (entry : Entry) :
    let life := run (step settings config) (start settings first allocated bootMs) events
    life.1.txBusy = false →
    (atGate settings config turn life.1).1.pending = some entry →
    turn.waiting = false →
    backoffDeadline life.2 ≤ turn.backoffAt →
    throttleDeadline life.2 ≤ turn.allowedAt →
    (GoesOn config turn entry (step settings config life.1 (.turn turn)).2 ↔
      FirstHalf (turn.backoffAt - backoffDeadline life.2) ∧
        FirstHalf (turn.allowedAt - throttleDeadline life.2)) := by
  intro life hfree hpending hwaiting hbackoff hthrottle
  have htracks : Tracks life.1 ([] ++ life.2) :=
    invariant_tracks.run [] events (tracks_start settings first allocated bootMs)
  rw [List.nil_append] at htracks
  rw [goesOn_iff_guard hfree hpending, guardPasses_iff htracks hwaiting hbackoff hthrottle]

/-- A turn at one time, on a clear channel and with nothing received. -/
def quietTurn (time : ℕ) : Turn where
  doneAt := time
  nodeInfoAt := time
  nodeInfoSetAt := time
  popAt := time
  latchAt := time
  backoffAt := time
  allowedAt := time
  busyAt := time
  startAt := time
  done := true
  waiting := false
  detected := false
  backoff := 20
  linkReady := true
  accepted := true
  nodeInfo := none
  early := []
  late := []

/-- A MeshCore radio on the board. -/
def meshCoreRadio : Config where
  kind := .onBoard
  protocol := 0x12
  region := REGION_US
  airtimeMs _ := 100

def bootState : State BRIDGE_ROUTE_QUEUE_DEPTH :=
  start Settings.default ⟨0, by decide⟩ true 0

/-- A packet is pushed and the radio's task makes a turn. -/
def pushedAt (time : ℕ) : List Event := [.push ⟨[1, 2, 3], time⟩]

/-- One hour after boot the first packet goes on. -/
theorem firstPacket_goesOn :
    GoesOn meshCoreRadio (quietTurn 3600000) ⟨[1, 2, 3], 3600000⟩
      (step Settings.default meshCoreRadio
        (run (step Settings.default meshCoreRadio) bootState (pushedAt 3600000)).1
        (.turn (quietTurn 3600000))).2 :=
  (guard_passes_iff Settings.default meshCoreRadio ⟨0, by decide⟩ true 0 (pushedAt 3600000)
    (quietTurn 3600000) ⟨[1, 2, 3], 3600000⟩ (by decide) (by decide) rfl (by decide)
    (by decide)).mpr ⟨by decide, by decide⟩

/-- Twenty-five days after boot no deadline was ever set, and the first packet is held
back. -/
theorem neverSet_holdsBack :
    let life := run (step Settings.default meshCoreRadio) bootState (pushedAt 2160000000)
    let turn := quietTurn 2160000000
    life.1.txBusy = false ∧
      (atGate Settings.default meshCoreRadio turn life.1).1.pending =
        some ⟨[1, 2, 3], 2160000000⟩ ∧
      turn.waiting = false ∧
      backoffDeadline life.2 = 0 ∧ throttleDeadline life.2 = 0 ∧
      ¬ GoesOn meshCoreRadio turn ⟨[1, 2, 3], 2160000000⟩
        (step Settings.default meshCoreRadio life.1 (.turn turn)).2 :=
  ⟨by decide, by decide, rfl, by decide, by decide, fun hgoes => absurd hgoes.1 (by decide)⟩

/-! ## Remote radios -/

/-- A remote radio never senses its channel, so its backoff deadline stays 0. -/
theorem remote_never_backs_off {cap : ℕ} (settings : Settings) (config : Config)
    (hremote : config.kind = .remote) (first : Fin cap) (allocated : Bool) (bootMs : ℕ)
    (events : List Event) :
    (run (step settings config) (start settings first allocated bootMs)
      events).1.txBackoffUntil = 0 := by
  have hzero : Invariant settings config fun (state : State cap) _ =>
      state.txBackoffUntil = 0 := by
    refine ⟨⟨fun packet state _ hstate => ?_, fun _ _ _ hstate => hstate,
      fun turn state _ hstate => ?_, fun turn state _ hstate => ?_⟩,
      fun turn state _ hstate => ?_, fun turn entry state _ hstate _ => ?_⟩
    · exact (sameRegisters_pushOne state packet).1.trans hstate
    · exact (sameRegisters_latch turn state).1.trans hstate
    · exact (sameRegisters_expire settings turn state).1.trans hstate
    · exact (sameRegisters_serviceTx settings turn state).1.trans hstate
    · unfold attempt
      simp only [hremote, Kind.scanChannel, Bool.false_eq_true, if_false]
      split
      · exact hstate
      · split <;> exact hstate
  exact hzero.run [] events rfl

end LoraBridge.TxDeadlines
