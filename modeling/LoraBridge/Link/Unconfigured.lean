import LoraBridge.Link.TxAnswers

/-!
# Transmitting unconfigured

`setup()` enables a radio whose `begin()` succeeds on the placeholder settings.  Until
the first CFG_RADIO such a radio takes MSG_TX and sends, although the co-processor says
it is idle until CFG_RADIO.
-/

namespace LoraBridge.Unconfigured

open LoraBridge.LinkProtocol LoraBridge.Coprocessor LoraBridge.TxAnswers

/-- A MSG_RESET boots the co-processor again; what each `begin()` returns then. -/
def bootOf : Event → Option (LocalRadio → Bool)
  | .frame message _ begun _ => if message.type = MSG_RESET then some begun else none
  | .pass _ => none

/-- How the last CFG_RADIO for a radio since the last boot left it. -/
def lastCfg (i : LocalRadio) (events : List Event) : Option Bool :=
  events.foldl (fun last event =>
    if (bootOf event).isSome then none else (cfgFor i event).or last) none

/-- What each `begin()` returned at the last boot. -/
def lastBoot (begun : LocalRadio → Bool) (events : List Event) : LocalRadio → Bool :=
  events.foldl (fun last event => (bootOf event).getD last) begun

theorem lastCfg_snoc (i : LocalRadio) (before : List Event) (event : Event) :
    lastCfg i (before ++ [event]) =
      if (bootOf event).isSome then none else (cfgFor i event).or (lastCfg i before) := by
  simp [lastCfg]

theorem lastBoot_snoc (begun : LocalRadio → Bool) (before : List Event) (event : Event) :
    lastBoot begun (before ++ [event]) = (bootOf event).getD (lastBoot begun before) := by
  simp [lastBoot]

def transmits (i : LocalRadio) : Act → Bool
  | .startTransmit radio _ _ => radio = i
  | _ => false

/-- The state after some events since a first boot. -/
abbrev after (begun : LocalRadio → Bool) (events : List Event) : Radios :=
  (Machine.run step (setup begun).1 events).1

/-- `startTransmit` is called on this radio at this event. -/
def Transmits (i : LocalRadio) (begun : LocalRadio → Bool) (before : List Event)
    (event : Event) : Prop :=
  (step (after begun before) event).2.any (transmits i) = true

instance (i : LocalRadio) (begun : LocalRadio → Bool) (before : List Event)
    (event : Event) : Decidable (Transmits i begun before event) :=
  inferInstanceAs (Decidable (_ = true))

/-- A pass that comes to this radio, with nothing received, finds a packet and a clear
channel. -/
def Ready (i : LocalRadio) (radios : Radios) : Event → Prop
  | .frame _ _ _ _ => False
  | .pass turns => (turns i).available.isNone ∧ (radios i).txq.count ≠ 0 ∧
      (turns i).cad ≠ RADIOLIB_LORA_DETECTED

/-! ## When a radio transmits -/

section Step

variable {i : LocalRadio} {radios : Radios}

theorem handleHostFrame_silent (i : LocalRadio) (message : Message) (serial : ℕ)
    (begun : LocalRadio → Bool) (up : UInt32) :
    (handleHostFrame message serial begun up radios).2.any (transmits i) = false := by
  unfold handleHostFrame applyCfg
  split
  · split
    · split
      · split <;> simp [transmits]
      · simp [transmits]
    · rfl
  · split
    · split
      · rfl
      · split
        · split <;> simp [transmits]
        · simp [transmits]
    · split
      · split
        · rfl
        · simp only
          split <;> simp [transmits]
      · split
        · simp [transmits]
        · split
          · simp only [setup]
            cases begun 0 <;> cases begun 1 <;> simp [transmits]
          · rfl

theorem serviceRadio_transmits_iff (i j : LocalRadio) (turn : Turn) (radio : Radio) :
    (serviceRadio j turn radio).2.any (transmits i) = true ↔
      j = i ∧ radio.txActive = none ∧ radio.enabled = true ∧ turn.available.isNone ∧
        radio.txq.count ≠ 0 ∧ turn.cad ≠ RADIOLIB_LORA_DETECTED := by
  unfold serviceRadio
  cases hactive : radio.txActive with
  | some flight =>
      simp only [serviceFlight]
      split <;> simp [transmits]
  | none =>
      cases henabled : radio.enabled with
      | false => simp
      | true =>
          cases havailable : turn.available with
          | some packet =>
              have hsilent : (forward j packet).any (transmits i) = false := by
                unfold forward
                split
                · simp [transmits]
                · split <;> simp [transmits]
              simp [hsilent]
          | none =>
              by_cases hcount : radio.txq.count = 0
              · simp [txqPeek, hcount]
              · simp only [txqPeek, ne_eq, hcount, not_false_eq_true, if_true, dispatch]
                by_cases hcad : turn.cad = RADIOLIB_LORA_DETECTED
                · simp [hcad, transmits]
                · simp only [hcad, if_false]
                  split <;> simp [transmits]

theorem pass_transmits_iff (turns : LocalRadio → Turn) :
    (Coprocessor.pass turns radios).2.any (transmits i) = true ↔
      (radios i).txActive = none ∧ (radios i).enabled = true ∧
        Ready i radios (.pass turns) := by
  have hany : (Coprocessor.pass turns radios).2.any (transmits i) = true ↔
      ∃ j, (serviceRadio j (turns j) (radios j)).2.any (transmits i) = true := by
    simp [Coprocessor.pass, List.any_flatMap]
  rw [hany]
  simp only [serviceRadio_transmits_iff, exists_eq_left, Ready]

theorem handleHostFrame_idle (message : Message) (serial : ℕ)
    (begun : LocalRadio → Bool) (up : UInt32) (hidle : (radios i).txActive = none) :
    ((handleHostFrame message serial begun up radios).1 i).txActive = none := by
  have hupdate : ∀ (j : LocalRadio) (radio : Radio), (j = i → radio.txActive = none) →
      (Function.update radios j radio i).txActive = none := by
    intro j radio hradio
    by_cases hj : i = j
    · subst hj
      simpa using hradio rfl
    · simpa [hj] using hidle
  unfold handleHostFrame applyCfg
  split
  · split
    · split
      · split <;> exact hupdate _ _ fun _ => rfl
      · exact hupdate _ _ fun _ => rfl
    · exact hidle
  · split
    · split
      · exact hidle
      · split
        · split
          · exact hupdate _ _ fun hj => by simpa [hj] using hidle
          · exact hidle
        · exact hidle
    · split
      · split <;> exact hidle
      · split
        · exact hidle
        · split
          · rfl
          · exact hidle

/-- A radio comes to have a transmission in flight only by `startTransmit`. -/
theorem transmits_of_active {event : Event} (hidle : (radios i).txActive = none)
    (hactive : ((step radios event).1 i).txActive ≠ none) :
    (step radios event).2.any (transmits i) = true := by
  cases event with
  | frame message serial begun up =>
      exact absurd (handleHostFrame_idle message serial begun up hidle) hactive
  | pass turns =>
      have hready : (radios i).enabled = true ∧ Ready i radios (.pass turns) := by
        simp only [step, Coprocessor.pass, serviceRadio, hidle] at hactive
        cases henabled : (radios i).enabled with
        | false => simp [henabled, hidle] at hactive
        | true =>
            cases havailable : (turns i).available with
            | some packet => simp [henabled, havailable, hidle] at hactive
            | none =>
                by_cases hcount : (radios i).txq.count = 0
                · simp [henabled, havailable, txqPeek, hcount, hidle] at hactive
                · by_cases hcad : (turns i).cad = RADIOLIB_LORA_DETECTED
                  · simp [henabled, havailable, txqPeek, hcount, dispatch, hcad, hidle]
                      at hactive
                  · exact ⟨rfl, by simp [havailable], hcount, hcad⟩
      exact pass_transmits_iff turns |>.mpr ⟨hidle, hready⟩

end Step

/-! ## A run since boot -/

variable {i : LocalRadio} {begun : LocalRadio → Bool} {before : List Event} {event : Event}

theorem after_snoc : after begun (before ++ [event]) = (step (after begun before) event).1 := by
  simp only [after, run_snoc]

/-- A reset is a boot. -/
theorem step_boot {radios : Radios} {begun' : LocalRadio → Bool}
    (hboot : bootOf event = some begun') : step radios event = setup begun' := by
  cases event with
  | pass turns => simp [bootOf] at hboot
  | frame message serial begun'' up =>
      simp only [bootOf, Option.ite_none_right_eq_some, Option.some.injEq] at hboot
      obtain ⟨htype, rfl⟩ := hboot
      simp [step, handleHostFrame, htype, MSG_RESET, MSG_CFG_RADIO, MSG_TX, MSG_START_RX,
        MSG_PING]

theorem inLife_of_not_boot (hboot : bootOf event = none) : InLife event := by
  cases event with
  | pass turns => trivial
  | frame message serial begun' up => simpa [bootOf, InLife] using hboot

/-- A radio is as its last CFG_RADIO left it, and before the first as `setup()` did. -/
theorem enabled_eq :
    (after begun before i).enabled = (lastCfg i before).getD (lastBoot begun before i) := by
  induction before using List.reverseRecOn with
  | nil => rfl
  | append_singleton before event ih =>
      rw [after_snoc, lastCfg_snoc, lastBoot_snoc]
      cases hboot : bootOf event with
      | some begun' =>
          rw [step_boot hboot]
          rfl
      | none =>
          cases hcfg : cfgFor i event with
          | none =>
              have haccounts : Accounts i (after begun before) _
                  (step (after begun before) event) :=
                step_accounts (inLife_of_not_boot hboot) hcfg
              rw [haccounts.enabled, ih]
              rfl
          | some on =>
              cases event with
              | pass turns => simp [cfgFor] at hcfg
              | frame message serial begun' up =>
                  have hconfigures : Configures i (after begun before) on
                      (step (after begun before) (.frame message serial begun' up)) :=
                    handle_cfg hcfg
                  rw [hconfigures.enabled]
                  rfl

/-- Every call of `startTransmit` so far came after a CFG_RADIO that applied, and after
none since that failed or disabled the radio. -/
def OnlyConfigured (begun : LocalRadio → Bool) (events : List Event) : Prop :=
  ∀ before event, before ++ [event] <+: events → ∀ i, Transmits i begun before event →
    lastCfg i before = some true

/-- A radio that no CFG_RADIO has come for has nothing in flight. -/
theorem idle_of_onlyConfigured (honly : OnlyConfigured begun before)
    (hnone : lastCfg i before = none) : (after begun before i).txActive = none := by
  induction before using List.reverseRecOn with
  | nil => rfl
  | append_singleton before event ih =>
      rw [after_snoc]
      cases hboot : bootOf event with
      | some begun' =>
          rw [step_boot hboot]
          rfl
      | none =>
          rw [lastCfg_snoc, hboot] at hnone
          simp only [Option.isSome_none, Bool.false_eq_true, if_false,
            Option.or_eq_none_iff] at hnone
          have hbefore := ih (fun earlier later hinitial => honly earlier later
            (hinitial.trans (List.prefix_append _ _))) hnone.2
          by_contra hactive
          have hsome := honly before event List.prefix_rfl i
            (transmits_of_active hbefore hactive)
          rw [hnone.2] at hsome
          simp at hsome

/-- `startTransmit` is called on configured radios only, exactly when no pass comes to a
radio that is up since `setup()` alone and ready to send. -/
theorem onlyConfigured_iff (begun : LocalRadio → Bool) (events : List Event) :
    (∀ before, before <+: events → OnlyConfigured begun before) ↔
      ∀ before event, before ++ [event] <+: events → ∀ i, lastBoot begun before i = true →
        lastCfg i before = none → ¬ Ready i (after begun before) event := by
  refine Machine.always_iff_each ?_ events fun before event hinitial hearlier => ?_
  · intro before event hinitial
    simp at hinitial
  · have hbefore := hearlier before List.prefix_rfl
    have hsplit : OnlyConfigured begun (before ++ [event]) ↔
        ∀ i, Transmits i begun before event → lastCfg i before = some true := by
      refine ⟨fun honly => honly before event List.prefix_rfl, fun hlast => ?_⟩
      intro earlier later hinitial'
      rcases List.prefix_concat_iff.mp hinitial' with heq | hshorter
      · obtain ⟨rfl, heq'⟩ := List.append_inj' heq rfl
        obtain rfl := List.singleton_inj.mp heq'
        exact hlast
      · exact hbefore earlier later hshorter
    rw [hsplit]
    refine forall_congr' fun i => ?_
    have henabled : (after begun before i).enabled =
        (lastCfg i before).getD (lastBoot begun before i) := enabled_eq
    have htransmits : Transmits i begun before event ↔
        (after begun before i).txActive = none ∧ (after begun before i).enabled = true ∧
          Ready i (after begun before) event := by
      cases event with
      | pass turns => exact pass_transmits_iff turns
      | frame message serial begun' up =>
          have hsilent : (step (after begun before)
              (.frame message serial begun' up)).2.any (transmits i) = false :=
            handleHostFrame_silent i message serial begun' up
          simp [Transmits, hsilent, Ready]
    rw [htransmits, henabled]
    cases hlast : lastCfg i before with
    | none =>
        have hidle := idle_of_onlyConfigured hbefore hlast
        simp [hidle]
    | some on => cases on <;> simp

/-- A MSG_TX that comes before the first CFG_RADIO is sent on the placeholder settings. -/
theorem placeholder_transmits :
    ¬ OnlyConfigured (fun _ => true) [request, clearPass false] ∧
      .startTransmit 0 defaultConfig [0x01] ∈
        (step (after (fun _ => true) [request]) (clearPass false)).2 := by
  refine ⟨fun honly => ?_, .head _⟩
  have hlast := honly [request] (clearPass false) List.prefix_rfl 0 (by decide)
  revert hlast
  decide

end LoraBridge.Unconfigured
