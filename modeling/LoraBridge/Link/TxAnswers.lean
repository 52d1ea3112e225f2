import LoraBridge.Link.Coprocessor

/-!
# Every transmit request is answered once

A MSG_TX is answered by a MSG_TX_DONE when it is refused, when its transmission fails to
start, and when the transmission in flight is settled.  A CFG_RADIO forgets the one in
flight, and one that disables the radio leaves its queue behind.
-/

namespace LoraBridge.TxAnswers

open LoraBridge.LinkProtocol LoraBridge.Coprocessor

/-- The jobs queued and in flight. -/
def owed (radio : Radio) : ℕ :=
  radio.txq.count + if radio.txActive.isSome then 1 else 0

/-- A MSG_TX for this radio. -/
def isTxFor (i : LocalRadio) : Event → Bool
  | .frame message _ _ _ => message.type = MSG_TX ∧ localOf message.radio = some i
  | .pass _ => false

/-- A MSG_TX_DONE for this radio. -/
def answers (i : LocalRadio) : Act → Bool
  | .txDone radio _ _ => radio = i
  | _ => false

/-- A CFG_RADIO that acts on this radio, and whether it leaves it enabled. -/
def cfgFor (i : LocalRadio) : Event → Option Bool
  | .frame message _ begun _ =>
      if message.type = MSG_CFG_RADIO ∧ localOf message.radio = some i then
        (CfgRadio.read message.payload).map fun c => c.enable ≠ 0 ∧ begun i = true
      else none
  | .pass _ => none

/-- MSG_RESET ends a life: another begins with `setup()`. -/
def InLife : Event → Prop
  | .frame message _ _ _ => message.type ≠ MSG_RESET
  | .pass _ => True

instance (event : Event) : Decidable (InLife event) := by
  cases event with
  | frame message serial begun up => exact inferInstanceAs (Decidable (_ ≠ _))
  | pass turns => exact instDecidableTrue

/-! ## One event -/

section Step

variable {i : LocalRadio} {radios : Radios}

/-- What a configuration of the radio does. -/
structure Configures (i : LocalRadio) (radios : Radios) (on : Bool)
    (next : Radios × List Act) : Prop where
  txq : (next.1 i).txq = (radios i).txq
  idle : (next.1 i).txActive = none
  enabled : (next.1 i).enabled = on
  unanswered : next.2.countP (answers i) = 0

/-- What anything else does: each request taken in is queued, in flight or answered. -/
structure Accounts (i : LocalRadio) (radios : Radios) (received : ℕ)
    (next : Radios × List Act) : Prop where
  owed_eq : owed (next.1 i) + next.2.countP (answers i) = owed (radios i) + received
  enabled : (next.1 i).enabled = (radios i).enabled
  waiting : (radios i).enabled = false → (next.1 i).txq.count ≤ (radios i).txq.count

theorem accounts_of_unchanged {received : ℕ} {next : Radios × List Act}
    (hsame : next.1 i = radios i) (hanswers : next.2.countP (answers i) = received) :
    Accounts i radios received next := by
  refine ⟨by rw [hsame, hanswers], by rw [hsame], fun _ => by rw [hsame]⟩

theorem txqPush_count {txq next : Ring TxJob TX_Q_DEPTH} {d : List UInt8} {serial : ℕ}
    (hpush : txqPush txq d serial = some next) : next.count = txq.count + 1 := by
  unfold txqPush at hpush
  split at hpush
  · rw [← Option.some.inj hpush]
    rfl
  · simp at hpush

theorem txqPop_count {txq : Ring TxJob TX_Q_DEPTH} {job : TxJob}
    (hpeek : txqPeek txq = some job) : (txqPop txq).count + 1 = txq.count := by
  unfold txqPeek at hpeek
  split at hpeek
  · rename_i hcount
    have hpos : 0 < txq.count := Nat.pos_of_ne_zero hcount
    simp only [txqPop, dif_pos hpos, Ring.dropOldest]
    omega
  · simp at hpeek

theorem handle_cfg {message : Message} {serial : ℕ} {begun : LocalRadio → Bool}
    {up : UInt32} {on : Bool}
    (hcfg : cfgFor i (.frame message serial begun up) = some on) :
    Configures i radios on (handleHostFrame message serial begun up radios) := by
  simp only [cfgFor] at hcfg
  split at hcfg
  · rename_i hfor
    obtain ⟨c, hread, rfl⟩ := Option.map_eq_some_iff.mp hcfg
    simp only [handleHostFrame, if_pos hfor.1, hfor.2, hread]
    by_cases henable : c.enable ≠ 0
    · rw [if_pos henable]
      unfold applyCfg
      cases hbegun : begun i
      · exact ⟨by simp, by simp, by simp, by simp [answers]⟩
      · exact ⟨by simp, by simp, by simp [henable], by simp [answers]⟩
    · rw [if_neg henable]
      exact ⟨by simp, by simp, by simp [henable], by simp [answers]⟩
  · simp at hcfg

theorem handle_tx {message : Message} (serial : ℕ) (begun : LocalRadio → Bool)
    (up : UInt32) (htype : message.type = MSG_TX) :
    Accounts i radios (if localOf message.radio = some i then 1 else 0)
      (handleHostFrame message serial begun up radios) := by
  have hnot : message.type ≠ MSG_CFG_RADIO := by
    rw [htype]
    decide
  simp only [handleHostFrame, if_neg hnot, if_pos htype]
  cases hlocal : localOf message.radio with
  | none => exact accounts_of_unchanged rfl rfl
  | some j =>
      have hcount : ∀ (text : String) (status : ℤ),
          [Act.log text, .txDone j status serial].countP (answers i) =
            if some j = some i then 1 else 0 := by
        intro text status
        by_cases hj : j = i <;> simp [answers, hj]
      cases henabled : (radios j).enabled with
      | false =>
          simp only [henabled, if_false, Bool.false_eq_true]
          exact accounts_of_unchanged rfl (hcount _ _)
      | true =>
          simp only [henabled, if_true]
          cases hpush : txqPush (radios j).txq message.payload serial with
          | none => exact accounts_of_unchanged rfl (hcount _ _)
          | some txq =>
              by_cases hj : j = i
              · subst hj
                have hqueued := txqPush_count hpush
                refine ⟨?_, by simp [henabled], by simp [henabled]⟩
                simp only [owed, Function.update_self, List.countP_nil, if_true]
                omega
              · have hne : some j ≠ some i := fun heq => hj (Option.some.inj heq)
                rw [if_neg hne]
                exact accounts_of_unchanged (by simp [Ne.symm hj]) rfl

theorem handle_other {message : Message} {serial : ℕ} {begun : LocalRadio → Bool}
    {up : UInt32} (hlife : message.type ≠ MSG_RESET)
    (hcfg : cfgFor i (.frame message serial begun up) = none)
    (htx : message.type ≠ MSG_TX) :
    Accounts i radios 0 (handleHostFrame message serial begun up radios) := by
  unfold handleHostFrame
  by_cases htype : message.type = MSG_CFG_RADIO
  · rw [if_pos htype]
    cases hlocal : localOf message.radio with
    | none => exact accounts_of_unchanged rfl rfl
    | some j =>
        cases hread : CfgRadio.read message.payload with
        | none => exact accounts_of_unchanged rfl rfl
        | some c =>
            have hj : i ≠ j := by
              rintro rfl
              simp [cfgFor, htype, hlocal, hread] at hcfg
            by_cases henable : c.enable ≠ 0
            · simp only [if_pos henable, applyCfg]
              cases begun j
              · exact accounts_of_unchanged (by simp [hj]) (by simp [answers])
              · exact accounts_of_unchanged (by simp [hj]) (by simp [answers])
            · simp only [if_neg henable]
              exact accounts_of_unchanged (by simp [hj]) (by simp [answers])
  · rw [if_neg htype, if_neg htx]
    by_cases hstart : message.type = MSG_START_RX
    · rw [if_pos hstart]
      cases localOf message.radio with
      | none => exact accounts_of_unchanged rfl rfl
      | some j =>
          refine accounts_of_unchanged rfl ?_
          simp only
          split <;> simp [answers]
    · rw [if_neg hstart]
      by_cases hping : message.type = MSG_PING
      · rw [if_pos hping]
        exact accounts_of_unchanged rfl (by simp [answers])
      · rw [if_neg hping, if_neg hlife]
        exact accounts_of_unchanged rfl rfl

/-- A turn of one radio: nothing is lost between the queue, the air and the answers. -/
theorem serviceRadio_owed (i : LocalRadio) (turn : Turn) (radio : Radio) :
    let next := serviceRadio i turn radio
    owed next.1 + next.2.countP (answers i) = owed radio ∧
      next.1.enabled = radio.enabled ∧ next.1.txq.count ≤ radio.txq.count := by
  unfold serviceRadio
  cases hactive : radio.txActive with
  | some flight =>
      simp only [serviceFlight]
      split
      · simp [owed, hactive, answers]
      · simp [owed, hactive]
  | none =>
      simp only
      split
      · cases turn.available with
        | some packet =>
            have hsilent : (forward i packet).countP (answers i) = 0 := by
              unfold forward
              split
              · simp [answers]
              · split <;> simp [answers]
            simp [hsilent]
        | none =>
            cases hpeek : txqPeek radio.txq with
            | none => simp
            | some job =>
                have hpop := txqPop_count hpeek
                simp only [dispatch]
                split
                · simp [answers]
                · split
                  · simp [owed, hactive, answers]
                    omega
                  · simp [owed, hactive, answers]
                    omega
      · simp

theorem answers_of_other {i j : LocalRadio} (hne : j ≠ i) (turn : Turn) (radio : Radio) :
    (serviceRadio j turn radio).2.countP (answers i) = 0 := by
  unfold serviceRadio
  cases radio.txActive with
  | some flight =>
      simp only [serviceFlight]
      split <;> simp [answers, hne]
  | none =>
      simp only
      split
      · cases turn.available with
        | some packet =>
            simp only [forward]
            split
            · simp [answers]
            · split <;> simp [answers]
        | none =>
            cases txqPeek radio.txq with
            | none => simp
            | some job =>
                simp only [dispatch]
                split
                · simp [answers]
                · split <;> simp [answers, hne]
      · simp

theorem pass_accounts (turns : LocalRadio → Turn) :
    Accounts i radios 0 (Coprocessor.pass turns radios) := by
  have hself := serviceRadio_owed i (turns i) (radios i)
  have hcount : (Coprocessor.pass turns radios).2.countP (answers i) =
      (serviceRadio i (turns i) (radios i)).2.countP (answers i) := by
    simp only [Coprocessor.pass, List.finRange_succ, List.finRange_zero, List.map_cons,
      List.map_nil, List.flatMap_cons, List.flatMap_nil, List.append_nil, List.countP_append]
    fin_cases i
    · have hother := answers_of_other (i := 0) (j := 1) (by decide) (turns 1) (radios 1)
      simpa using hother
    · have hother := answers_of_other (i := 1) (j := 0) (by decide) (turns 0) (radios 0)
      simpa using hother
  refine ⟨?_, hself.2.1, fun _ => hself.2.2⟩
  rw [hcount]
  exact hself.1

/-- An event that is not a configuration of the radio. -/
theorem step_accounts {event : Event} (hlife : InLife event)
    (hcfg : cfgFor i event = none) :
    Accounts i radios (if isTxFor i event then 1 else 0) (step radios event) := by
  cases event with
  | pass turns => exact pass_accounts turns
  | frame message serial begun up =>
      by_cases htx : message.type = MSG_TX
      · have htake : Accounts i radios _ (step radios (.frame message serial begun up)) :=
          handle_tx serial begun up htx
        simpa [isTxFor, htx] using htake
      · have htake : Accounts i radios _ (step radios (.frame message serial begun up)) :=
          handle_other hlife hcfg htx
        simpa [isTxFor, htx] using htake

end Step

/-! ## A life -/

/-- From `setup()` on: each request is answered, queued or in flight, and no packet waits
on a radio that is not enabled. -/
def Answered (i : LocalRadio) (begun : LocalRadio → Bool) (events : List Event) : Prop :=
  let life := Machine.run step (setup begun).1 events
  events.countP (isTxFor i) = life.2.countP (answers i) + owed (life.1 i) ∧
    ((life.1 i).txq.count ≠ 0 → (life.1 i).enabled = true)

/-- A configuration finds nothing in flight, and one that leaves the radio disabled finds
its queue empty. -/
def CfgWhenIdle (radios : Radios) (event : Event) : Prop :=
  ∀ i on, cfgFor i event = some on →
    (radios i).txActive = none ∧ (on = false → (radios i).txq.count = 0)

theorem isTxFor_of_cfg {i : LocalRadio} {event : Event} {on : Bool}
    (hcfg : cfgFor i event = some on) : isTxFor i event = false := by
  cases event with
  | pass turns => rfl
  | frame message serial begun up =>
      simp only [cfgFor] at hcfg
      split at hcfg
      · rename_i hfor
        simp [isTxFor, hfor.1, MSG_CFG_RADIO, MSG_TX]
      · simp at hcfg

theorem run_snoc {begun : LocalRadio → Bool} (before : List Event) (event : Event) :
    Machine.run step (setup begun).1 (before ++ [event]) =
      ((step (Machine.run step (setup begun).1 before).1 event).1,
        (Machine.run step (setup begun).1 before).2 ++
          (step (Machine.run step (setup begun).1 before).1 event).2) := by
  rw [Machine.run_append]
  simp [Machine.run]

/-- An event keeps a radio's account exactly when it is no configuration at a bad time. -/
theorem answered_snoc_iff {i : LocalRadio} {begun : LocalRadio → Bool}
    {before : List Event} {event : Event} (hlife : InLife event)
    (hbefore : Answered i begun before) :
    Answered i begun (before ++ [event]) ↔
      ∀ on, cfgFor i event = some on →
        ((Machine.run step (setup begun).1 before).1 i).txActive = none ∧
          (on = false → ((Machine.run step (setup begun).1 before).1 i).txq.count = 0) := by
  obtain ⟨hcount, hwaits⟩ := hbefore
  simp only [Answered, run_snoc, List.countP_append, List.countP_singleton]
  generalize Machine.run step (setup begun).1 before = life at hcount hwaits ⊢
  cases hcfg : cfgFor i event with
  | none =>
      have hstep : Accounts i life.1 _ (step life.1 event) := step_accounts hlife hcfg
      have howed := hstep.owed_eq
      refine iff_of_true ⟨by omega, fun hsome => ?_⟩ (by simp)
      rw [hstep.enabled]
      cases henabled : (life.1 i).enabled with
      | true => rfl
      | false =>
          have hless := hstep.waiting henabled
          have hon := hwaits (by omega)
          rw [henabled] at hon
          exact hon
  | some on =>
      have htx := isTxFor_of_cfg hcfg
      cases event with
      | pass turns => simp [cfgFor] at hcfg
      | frame message serial begun' up =>
          have hconfigures : Configures i life.1 on
              (step life.1 (.frame message serial begun' up)) := handle_cfg hcfg
          have howed : owed ((step life.1 (.frame message serial begun' up)).1 i) =
              (life.1 i).txq.count := by
            simp [owed, hconfigures.txq, hconfigures.idle]
          rw [hconfigures.unanswered, howed, hconfigures.txq, hconfigures.enabled, hcount,
            htx]
          simp only [owed, Option.some.injEq, forall_eq']
          cases (life.1 i).txActive with
          | none =>
              cases on <;> simp
          | some flight =>
              refine iff_of_false (fun hboth => ?_) (by simp)
              have hequal := hboth.1
              simp at hequal

/-- Each request is answered exactly once and no packet waits on a disabled radio, in
every state of a life, exactly when configurations come at idle times only. -/
theorem answered_iff_cfgWhenIdle (begun : LocalRadio → Bool) (events : List Event)
    (hlife : ∀ event ∈ events, InLife event) :
    (∀ before, before <+: events → ∀ i, Answered i begun before) ↔
      Machine.Along step CfgWhenIdle (setup begun).1 events := by
  refine Machine.always_iff_along (fun i => ?_) events fun before event hinitial hearlier => ?_
  · simp [Answered, Machine.run, setup, owed, Ring.empty]
  · have hevent : InLife event := hlife event
      (hinitial.subset (List.mem_append_right _ List.mem_cons_self))
    have hbefore := hearlier before List.prefix_rfl
    constructor
    · intro hall i on hcfg
      exact (answered_snoc_iff hevent (hbefore i)).mp (hall i) on hcfg
    · intro hallowed i
      exact (answered_snoc_iff hevent (hbefore i)).mpr (hallowed i)

/-! ## A configuration during a transmission -/

/-- A MSG_TX for R3. -/
def request : Event := .frame ⟨MSG_TX, 0, [0x01]⟩ 0 (fun _ => true) 0

/-- An enabling CFG_RADIO for R3. -/
def reconfigure : Event :=
  .frame ⟨ MSG_CFG_RADIO, 0, 1 :: List.replicate 14 0⟩ 1 (fun _ => true) 0

/-- A pass on a clear channel, at one time. -/
def clearPass (done : Bool) : Event :=
  .pass fun _ => ⟨done, 0, none, -15, RADIOLIB_ERR_NONE, 0⟩

/-- A request of a radio that was configured before it is sent and settled, and answered. -/
theorem answered_when_settled :
    Answered 0 (fun _ => true) [reconfigure, request, clearPass false, clearPass true] := by
  refine (answered_iff_cfgWhenIdle (fun _ => true)
    [reconfigure, request, clearPass false, clearPass true] (by decide)).mpr ?_ _
      List.prefix_rfl 0
  have hnone : ∀ event ∈ [request, clearPass false, clearPass true], ∀ i,
      cfgFor i event = none := by
    decide
  refine ⟨fun i on _ => ⟨rfl, fun _ => rfl⟩, fun i on hcfg => ?_, fun i on hcfg => ?_,
    fun i on hcfg => ?_, trivial⟩
  · simp [hnone request (by simp) i] at hcfg
  · simp [hnone (clearPass false) (by simp) i] at hcfg
  · simp [hnone (clearPass true) (by simp) i] at hcfg

/-- A request whose transmission is under way when a CFG_RADIO comes is never answered. -/
theorem reconfigured_unanswered :
    ¬ Answered 0 (fun _ => true) [request, clearPass false, reconfigure] := by
  rintro ⟨hcount, -⟩
  revert hcount
  decide

end LoraBridge.TxAnswers
