import LoraBridge.Radio.TxDeadlines

/-!
# The duty cycle

After a transmission the radio is off the air for its airtime times 100 over the duty
cycle in percent.  The gap is far shorter than half a period of the clock, so a deadline
that is still to come is never taken for a passed one, and at 50 percent a radio
transmits at most half of the time, wherever the clock wraps.
-/

namespace LoraBridge.DutyCycle

open LoraBridge.Machine LoraBridge.RadioTask LoraBridge.RouteQueue LoraBridge.TxDeadlines
  LoraBridge.WrapClock

/-- A transmission that started, at the time recorded in `g_txStartMs`. -/
structure Start where
  entry : Entry
  time : ℕ
  gap : UInt32
  deriving DecidableEq

def startOf : Output → Option Start
  | .started entry time gap => some ⟨entry, time, gap⟩
  | _ => none

/-- The transmissions of a run, in order. -/
def starts (history : List Output) : List Start := history.filterMap startOf

/-- The airtime estimate the task makes of it. -/
def Start.air (config : Config) (start : Start) : UInt32 :=
  config.airtimeMs start.entry.data.length

/-- The product of the throttle does not wrap. -/
def Fits (config : Config) (start : Start) : Prop :=
  (start.air config).toNat * 100 < 2 ^ 32

/-- The radio was off the air at least as long as it had been on. -/
def Spaced (config : Config) (earlier later : Start) : Prop :=
  Fits config earlier → earlier.time + 2 * (earlier.air config).toNat ≤ later.time

/-- The times at which `millis()` is read in one turn, in the order of the code; a turn
makes only some of the readings. -/
def readings : Event → List ℕ
  | .push _ => []
  | .turn turn =>
      [turn.doneAt, turn.nodeInfoAt, turn.nodeInfoSetAt, turn.popAt, turn.latchAt,
        turn.backoffAt, turn.allowedAt, turn.busyAt, turn.startAt]

/-- Time does not run backwards. -/
def Chronological (events : List Event) : Prop :=
  (events.flatMap readings).Pairwise (· ≤ ·)

/-! ## What one turn starts -/

@[simp]
theorem starts_append (history outputs : List Output) :
    starts (history ++ outputs) = starts history ++ starts outputs :=
  List.filterMap_append

theorem startOf_of_quiet {output : Output} (hquiet : output.Quiet) : startOf output = none := by
  cases output with
  | started entry time gap => exact hquiet.elim
  | pushed entry => rfl
  | scanned => rfl
  | backedOff time wait => rfl
  | dropped reason entry => rfl

theorem starts_of_quiet {outputs : List Output} (hquiet : ∀ output ∈ outputs, output.Quiet) :
    starts outputs = [] :=
  List.filterMap_eq_nil_iff.mpr fun output hmem => startOf_of_quiet (hquiet output hmem)

/-- The deadline of the throttle is that of the last transmission. -/
theorem throttleDeadline_eq (history : List Output) :
    throttleDeadline history =
      (starts history).getLast?.elim 0 fun start => start.time + start.gap.toNat := by
  induction history using List.reverseRecOn with
  | nil => rfl
  | append_singleton earlier output ih =>
      rw [starts_append, throttleDeadline, List.foldl_append]
      cases output with
      | started entry time gap => simp [starts, startOf]
      | pushed entry => simpa [starts, startOf, throttleDeadline] using ih
      | scanned => simpa [starts, startOf, throttleDeadline] using ih
      | backedOff time wait => simpa [starts, startOf, throttleDeadline] using ih
      | dropped reason entry => simpa [starts, startOf, throttleDeadline] using ih

section Turns

variable {cap : ℕ} {settings : Settings} {config : Config}

/-- The transmission an attempt makes. -/
def made (settings : Settings) (config : Config) (turn : Turn) (entry : Entry) : Start :=
  ⟨entry, turn.startAt, throttleGap settings (config.airtimeMs entry.data.length)⟩

theorem starts_attempt (turn : Turn) (entry : Entry) (state : State cap) :
    starts (attempt settings config turn entry state).2 = [] ∨
      starts (attempt settings config turn entry state).2 =
        [made settings config turn entry] := by
  unfold attempt
  split
  · exact .inl rfl
  · split
    · exact .inl rfl
    · split
      · exact .inr rfl
      · exact .inl rfl

/-- A transmission is started behind the gate only. -/
theorem starts_schedule (turn : Turn) (state : State cap) :
    starts (schedule settings config turn state).2 = [] ∨
      ∃ entry, reached (ticks turn.allowedAt) state.nextTxAllowedMs = true ∧
        starts (schedule settings config turn state).2 =
          [made settings config turn entry] := by
  unfold schedule
  cases state.pending with
  | none => exact .inl rfl
  | some entry =>
      by_cases hguard : guardPasses turn state = true
      · simp only [hguard, if_true]
        simp only [guardPasses, Bool.and_eq_true] at hguard
        exact (starts_attempt turn entry state).imp_right fun hstarts =>
          ⟨entry, hguard.2, hstarts⟩
      · simp only [hguard]
        exact .inl rfl

/-- One turn starts at most one transmission, and only after the throttle's deadline. -/
theorem starts_turn (turn : Turn) (state : State cap) :
    starts (step settings config state (.turn turn)).2 = [] ∨
      ∃ entry, reached (ticks turn.allowedAt) state.nextTxAllowedMs = true ∧
        starts (step settings config state (.turn turn)).2 =
          [made settings config turn entry] := by
  have hpushes : ∀ (middle : State cap) packets, starts (run pushOne middle packets).2 = [] :=
    fun middle packets => starts_of_quiet (quiet_pushes middle packets)
  have hgate := starts_of_quiet (quiet_atGate settings config turn state)
  have hregisters := @sameRegisters_atGate cap settings config turn state
  simp only [step, radioTask]
  split
  · refine .inl ?_
    simp only [andThen, starts_append, hpushes, List.nil_append]
  · simp only [andThen, starts_append, hgate, hpushes, List.nil_append, List.append_nil]
    have hschedule := @starts_schedule cap settings config turn
      (atGate settings config turn state).1
    rwa [hregisters.2] at hschedule

end Turns

/-! ## The gap -/

/-- At a duty cycle of 50 percent the gap is twice the airtime or more, and less than
half a period of the clock. -/
theorem throttleGap_bounds {settings : Settings} (hduty : settings.txDutyPercent = 50)
    (hminGap : settings.txMinGapMs.toNat ≤ 2 ^ 30) {air : UInt32}
    (hfits : air.toNat * 100 < 2 ^ 32) :
    2 * air.toNat ≤ (throttleGap settings air).toNat ∧
      (throttleGap settings air).toNat ≤ 2 ^ 31 := by
  have hgap : (air * 100 / 50).toNat = 2 * air.toNat := by
    rw [UInt32.toNat_div, UInt32.toNat_mul]
    simp only [UInt32.reduceToNat]
    omega
  have hfloor : (air + settings.txMinGapMs).toNat = air.toNat + settings.txMinGapMs.toNat := by
    rw [UInt32.toNat_add]
    omega
  simp only [throttleGap, hduty]
  rw [if_pos (show (0 : UInt32) < 50 by decide)]
  split
  · rename_i hfloored
    have hlt := UInt32.lt_iff_toNat_lt.mp hfloored
    omega
  · omega

/-- A gap that is over by the sign of the difference is over. -/
theorem deadline_le_of_reached {time now : ℕ} {gap : UInt32} (hafter : time ≤ now)
    (hshort : gap.toNat ≤ 2 ^ 31) (hreached : reached (ticks now) (ticks (time + gap.toNat))) :
    time + gap.toNat ≤ now := by
  by_contra hahead
  rw [not_reached_ticks (by omega) (by omega)] at hreached
  exact Bool.false_ne_true hreached

/-! ## Runs -/

section Runs

variable {cap : ℕ} {settings : Settings} {config : Config}

/-- What holds of the transmissions of a run. -/
structure Lawful (settings : Settings) (config : Config) (events : List Event)
    (history : List Output) : Prop where
  read : ∀ start ∈ starts history, start.time ∈ events.flatMap readings
  gap : ∀ start ∈ starts history, start.gap = throttleGap settings (start.air config)
  spaced : (starts history).IsChain (Spaced config)

theorem Lawful.of_starts_nil {events : List Event} {history outputs : List Output}
    (hlawful : Lawful settings config events history) (event : Event)
    (hnone : starts outputs = []) :
    Lawful settings config (events ++ [event]) (history ++ outputs) := by
  have hsame : starts (history ++ outputs) = starts history := by simp [hnone]
  constructor
  · intro start hmem
    rw [hsame] at hmem
    rw [List.flatMap_append]
    exact List.mem_append_left _ (hlawful.read start hmem)
  · rw [hsame]
    exact hlawful.gap
  · rw [hsame]
    exact hlawful.spaced

/-- A transmission behind the deadline keeps its distance from the one before. -/
theorem spaced_made (hduty : settings.txDutyPercent = 50)
    (hminGap : settings.txMinGapMs.toNat ≤ 2 ^ 30) {turn : Turn} {entry : Entry}
    {history : List Output} {earlier : Start} (hlast : (starts history).getLast? = some earlier)
    (hgap : earlier.gap = throttleGap settings (earlier.air config))
    (hbefore : earlier.time ≤ turn.allowedAt) (hwithin : turn.allowedAt ≤ turn.startAt)
    (hreached : reached (ticks turn.allowedAt) (ticks (throttleDeadline history)) = true) :
    Spaced config earlier (made settings config turn entry) := by
  intro hfits
  obtain ⟨hlong, hshort⟩ := throttleGap_bounds hduty hminGap hfits
  rw [← hgap] at hlong hshort
  rw [throttleDeadline_eq, hlast, Option.elim_some] at hreached
  have hover := deadline_le_of_reached hbefore hshort hreached
  calc earlier.time + 2 * (earlier.air config).toNat
      ≤ earlier.time + earlier.gap.toNat := Nat.add_le_add_left hlong _
    _ ≤ turn.allowedAt := hover
    _ ≤ (made settings config turn entry).time := hwithin

theorem Lawful.turn (hduty : settings.txDutyPercent = 50)
    (hminGap : settings.txMinGapMs.toNat ≤ 2 ^ 30) {events : List Event} {turn : Turn}
    (hclock : Chronological (events ++ [.turn turn])) {state : State cap}
    {history : List Output} (htracks : Tracks state history)
    (hlawful : Lawful settings config events history) :
    Lawful settings config (events ++ [.turn turn])
      (history ++ (step settings config state (.turn turn)).2) := by
  rcases @starts_turn cap settings config turn state with hnone | ⟨entry, hreached, hone⟩
  · exact hlawful.of_starts_nil (.turn turn) hnone
  rw [htracks.throttle] at hreached
  rw [Chronological, List.flatMap_append, List.pairwise_append] at hclock
  have hwithin : turn.allowedAt ≤ turn.startAt := by
    have hturn := hclock.2.1
    simp only [List.flatMap_cons, List.flatMap_nil, List.append_nil, readings,
      List.pairwise_cons, List.mem_cons] at hturn
    exact hturn.2.2.2.2.2.2.1 _ (.inr (.inl rfl))
  have hbefore : ∀ start ∈ starts history, start.time ≤ turn.allowedAt := fun start hmem =>
    hclock.2.2 _ (hlawful.read start hmem) _ (by simp [readings])
  constructor
  · intro start hmem
    rw [starts_append, hone, List.mem_append, List.mem_singleton] at hmem
    rw [List.flatMap_append]
    rcases hmem with hold | rfl
    · exact List.mem_append_left _ (hlawful.read start hold)
    · exact List.mem_append_right _ (by simp [readings, made])
  · intro start hmem
    rw [starts_append, hone, List.mem_append, List.mem_singleton] at hmem
    rcases hmem with hold | rfl
    · exact hlawful.gap start hold
    · rfl
  · rw [starts_append, hone, List.isChain_append]
    refine ⟨hlawful.spaced, List.isChain_singleton _, ?_⟩
    intro earlier hlast later hhead
    have hmem := List.mem_of_getLast? hlast
    obtain rfl := Option.some.inj hhead
    exact spaced_made hduty hminGap hlast (hlawful.gap earlier hmem) (hbefore earlier hmem)
      hwithin hreached

/-- Every run is lawful. -/
theorem lawful_run (hduty : settings.txDutyPercent = 50)
    (hminGap : settings.txMinGapMs.toNat ≤ 2 ^ 30) (first : Fin cap) (allocated : Bool)
    (bootMs : ℕ) (events : List Event) (hclock : Chronological events) :
    Lawful settings config events
      (run (step settings config) (start settings first allocated bootMs) events).2 := by
  induction events using List.reverseRecOn with
  | nil => exact ⟨by simp [run, starts], by simp [run, starts], List.isChain_nil⟩
  | append_singleton before event ih =>
      have hearlier : Chronological before := by
        rw [Chronological, List.flatMap_append] at hclock
        exact (List.pairwise_append.mp hclock).1
      have htracks := (@invariant_tracks cap settings config).run [] before
        (tracks_start settings first allocated bootMs)
      rw [List.nil_append] at htracks
      rw [run_append]
      simp only [run, List.append_nil]
      cases event with
      | push packet =>
          exact (ih hearlier).of_starts_nil _ (starts_of_quiet (quiet_pushOne _ packet))
      | turn turn => exact (ih hearlier).turn hduty hminGap hclock htracks

end Runs

/-- From the first to the last of a chain of transmissions. -/
theorem airtime_le_half {config : Config} {first last : Start} {middle : List Start}
    (hchain : (first :: middle ++ [last]).IsChain (Spaced config))
    (hfits : ∀ start ∈ first :: middle, Fits config start) :
    first.time + 2 * ((first :: middle).map fun start => (start.air config).toNat).sum ≤
      last.time := by
  induction middle generalizing first with
  | nil =>
      have hspaced := (List.isChain_pair.mp hchain) (hfits first List.mem_cons_self)
      simpa using hspaced
  | cons second rest ih =>
      rw [List.cons_append, List.cons_append, List.isChain_cons_cons] at hchain
      have hspaced := hchain.1 (hfits first List.mem_cons_self)
      have hrest := ih hchain.2 fun start hmem => hfits start (List.mem_cons_of_mem first hmem)
      rw [List.map_cons, List.sum_cons]
      omega

/-- In every run at a duty cycle of 50 percent, the start of a transmission whose airtime
times 100 fits the clock is followed by the next one after twice its airtime or later, and
of any row of transmissions the airtime of all but the last is at most half the time
from the first start to the last. -/
theorem duty_cycle_law {cap : ℕ} (settings : Settings) (config : Config)
    (hduty : settings.txDutyPercent = 50) (hminGap : settings.txMinGapMs.toNat ≤ 2 ^ 30)
    (first : Fin cap) (allocated : Bool) (bootMs : ℕ) (events : List Event)
    (hclock : Chronological events) :
    let sent := starts
      (run (step settings config) (start settings first allocated bootMs) events).2
    (∀ before earlier later after, sent = before ++ earlier :: later :: after →
        Fits config earlier →
        earlier.time + 2 * (earlier.air config).toNat ≤ later.time) ∧
      ∀ before earliest middle last after,
        sent = before ++ (earliest :: middle ++ [last]) ++ after →
        (∀ start ∈ earliest :: middle, Fits config start) →
        2 * ((earliest :: middle).map fun start => (start.air config).toNat).sum ≤
          last.time - earliest.time := by
  intro sent
  have hspaced := (@lawful_run cap settings config hduty hminGap first allocated bootMs events
    hclock).spaced
  constructor
  · intro before earlier later after hsent hfits
    exact (List.isChain_iff_forall_rel_of_append_cons_cons.mp hspaced) hsent hfits
  · intro before earliest middle last after hsent hfits
    have hrow : earliest :: middle ++ [last] <:+: sent := ⟨before, after, hsent.symm⟩
    have hpart := List.IsChain.infix hspaced hrow
    have hhalf := airtime_le_half hpart hfits
    exact Nat.le_sub_of_add_le (by rwa [Nat.add_comm])

/-- Two packets one second after boot: the first is sent, waited for, and the second is
held back until the throttle is over. -/
def twoPackets : List Event :=
  [.push ⟨[1, 2, 3], 1000⟩, .push ⟨[4, 5, 6], 1000⟩, .turn (quietTurn 1000),
    .turn (quietTurn 1100), .turn (quietTurn 1150), .turn (quietTurn 1200)]

theorem twoPackets_spaced :
    starts (run (step Settings.default meshCoreRadio) bootState twoPackets).2 =
        [⟨⟨[1, 2, 3], 1000⟩, 1000, 200⟩, ⟨⟨[4, 5, 6], 1000⟩, 1200, 200⟩] ∧
      1000 + 2 * 100 ≤ 1200 := by
  have hclock : Chronological twoPackets := by
    unfold Chronological
    decide
  have hlaw := duty_cycle_law Settings.default meshCoreRadio rfl (by decide)
    (⟨0, by decide⟩ : Fin BRIDGE_ROUTE_QUEUE_DEPTH) true 0 twoPackets hclock
  have hfits : Fits meshCoreRadio ⟨⟨[1, 2, 3], 1000⟩, 1000, 200⟩ := by
    unfold Fits
    decide
  exact ⟨by decide, hlaw.1 [] _ ⟨⟨[4, 5, 6], 1000⟩, 1200, 200⟩ [] (by decide) hfits⟩

end LoraBridge.DutyCycle
