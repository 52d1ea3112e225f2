import LoraBridge.Link.TxAnswers

/-!
# The transmit gate

`RemoteRadio::startTransmit` closes a gate and sends MSG_TX; `radioTask` waits until a
MSG_TX_DONE opens it or its own timeout passes.  The gate is one bit for each radio: an
answer to an earlier MSG_TX opens it as well.
-/

namespace LoraBridge.TxGate

open LoraBridge.LinkProtocol LoraBridge.Coprocessor

/-- The host's side of one remote radio: `_txDone`, `g_txBusy`, and the MSG_TX armed
last, which the code does not keep. -/
structure Host where
  txDone : Bool
  busy : Bool
  armed : Option ℕ

/-- Both boards and the two directions of the link.  Each MSG_TX has its own serial;
`finished` lists those the co-processor has answered. -/
structure System where
  ready : Bool
  host : LocalRadio → Host
  next : ℕ
  down : List (Message × ℕ)
  radios : Radios
  up : List Act
  finished : List ℕ

/-- What goes over the link, as opposed to what is asked of a radio. -/
def onLink : Act → Bool
  | .startReceive _ | .startTransmit _ _ _ => false
  | _ => true

def txDoneSerial : Act → Option ℕ
  | .txDone _ _ serial => some serial
  | _ => none

/-- The co-processor's step, with what it sends put on the link. -/
def coprocessor (next : Radios × List Act) (s : System) : System :=
  { s with
    radios := next.1
    up := s.up ++ next.2.filter onLink
    finished := s.finished ++ next.2.filterMap txDoneSerial }

/-- `RemoteRadio::startTransmit`: nothing before the first MSG_READY; then the gate is
closed and the frame sent.  A frame that is not written whole is lost. -/
def startTransmit (i : LocalRadio) (data : List UInt8) (written : Bool) (s : System) :
    System :=
  if s.ready then
    { s with
      host := Function.update s.host i ⟨false, written, some s.next⟩
      next := s.next + 1
      down := s.down ++ if written then [(⟨MSG_TX, .ofNat i, data⟩, s.next)] else [] }
  else s

/-- The transmission in flight, as `radioTask` settles it. -/
def settle (i : LocalRadio) (timedOut : Bool) (s : System) : System :=
  if (s.host i).busy ∧ ((s.host i).txDone ∨ timedOut) then
    { s with host := Function.update s.host i { s.host i with busy := false } }
  else s

/-- `UartLink::handleFrame` on the next frame, and the radios whose gate it opens. -/
def handleFrame (s : System) : System × List LocalRadio :=
  match s.up with
  | [] => (s, [])
  | .txDone i _ _ :: rest =>
      ({ s with
          host := Function.update s.host i { s.host i with txDone := true }
          up := rest },
        if (s.host i).txDone then [] else [i])
  | .ready _ :: rest => ({ s with ready := true, up := rest }, [])
  | _ :: rest => ({ s with up := rest }, [])

/-- One step of either board, or of the link. -/
inductive Event where
  /-- `radioTask` hands a packet over; `written` is what the serial port makes of it. -/
  | transmit (i : LocalRadio) (data : List UInt8) (written : Bool)
  /-- `radioTask` looks at the transmission in flight. -/
  | settle (i : LocalRadio) (timedOut : Bool)
  /-- CFG_RADIO from `begin()`. -/
  | begin (i : LocalRadio) (cfg : List UInt8)
  /-- START_RX. -/
  | startReceive (i : LocalRadio)
  /-- The host takes the next frame off the link. -/
  | hostReceives
  /-- The co-processor takes the next frame off the link. -/
  | coprocReceives (begun : LocalRadio → Bool) (up : UInt32)
  | pass (turns : LocalRadio → Turn)
  /-- The co-processor restarts. -/
  | reboot (begun : LocalRadio → Bool)
  | loseDown (index : ℕ)
  | loseUp (index : ℕ)

def step (s : System) : Event → System × List LocalRadio
  | .transmit i data written =>
      (if (s.host i).busy then s else startTransmit i data written s, [])
  | .settle i timedOut => (TxGate.settle i timedOut s, [])
  | .begin i cfg =>
      ({ s with down := s.down ++ [(⟨ MSG_CFG_RADIO, .ofNat i, cfg⟩, 0)] }, [])
  | .startReceive i =>
      ({ s with down := s.down ++ [(⟨MSG_START_RX, .ofNat i, []⟩, 0)] }, [])
  | .hostReceives => handleFrame s
  | .coprocReceives begun up =>
      match s.down with
      | [] => (s, [])
      | (message, serial) :: rest =>
          (coprocessor (handleHostFrame message serial begun up s.radios)
            { s with down := rest }, [])
  | .pass turns => (coprocessor (Coprocessor.pass turns s.radios) s, [])
  | .reboot begun => (coprocessor (setup begun) s, [])
  | .loseDown index => ({ s with down := s.down.eraseIdx index }, [])
  | .loseUp index => ({ s with up := s.up.eraseIdx index }, [])

/-- Both boards after their first boot, with the co-processor's MSG_READY on its way. -/
def boot (begun : LocalRadio → Bool) : System where
  ready := false
  host := fun _ => ⟨true, false, none⟩
  next := 0
  down := []
  radios := (setup begun).1
  up := (setup begun).2.filter onLink
  finished := []

/-- The MSG_TX that the host armed last has been answered by the co-processor. -/
def Finished (i : LocalRadio) (s : System) : Prop :=
  ∃ serial ∈ s.finished, (s.host i).armed = some serial

instance (i : LocalRadio) (s : System) : Decidable (Finished i s) :=
  inferInstanceAs (Decidable (∃ serial ∈ s.finished, (s.host i).armed = some serial))

/-! ## Requests without an answer -/

/-- A queued or transmitted packet. -/
def Held (radio : Radio) (serial : ℕ) : Prop :=
  (∃ job ∈ radio.txq.contents, job.serial = serial) ∨
    ∃ flight, radio.txActive = some flight ∧ flight.serial = serial

/-- A MSG_TX_DONE for a radio. -/
def Answers (i : LocalRadio) (acts : List Act) (serial : ℕ) : Prop :=
  ∃ status, .txDone i status serial ∈ acts

/-- A MSG_TX for this radio. -/
def Requests (i : LocalRadio) (message : Message) : Prop :=
  message.type = MSG_TX ∧ localOf message.radio = some i

/-- A MSG_TX on the link, queued or in the air, or its answer on the way back. -/
def Outstanding (i : LocalRadio) (s : System) (serial : ℕ) : Prop :=
  (∃ message, (message, serial) ∈ s.down ∧ Requests i message) ∨
    Held (s.radios i) serial ∨ Answers i s.up serial

/-- A MSG_TX is armed for a radio only if no earlier one is outstanding. -/
def ArmsWhenAnswered (s : System) : Event → Prop
  | .transmit i _ _ => (s.host i).busy = false → s.ready = true →
      ∀ serial, ¬ Outstanding i s serial
  | _ => True

section Step

variable {i : LocalRadio} {radios : Radios} {serial : ℕ}

theorem held_push {radio : Radio} {d : List UInt8} {pushed : ℕ}
    {txq : Ring TxJob TX_Q_DEPTH} (hpush : txqPush radio.txq d pushed = some txq)
    (hheld : Held { radio with txq := txq } serial) :
    Held radio serial ∨ serial = pushed := by
  unfold txqPush at hpush
  split at hpush
  · rename_i hroom
    rw [← Option.some.inj hpush] at hheld
    rcases hheld with ⟨job, hmem, hserial⟩ | hflight
    · rw [Ring.contents_append, List.mem_append, List.mem_singleton] at hmem
      rcases hmem with hmem | rfl
      · exact .inl (.inl ⟨job, hmem, hserial⟩)
      · exact .inr hserial.symm
    · exact .inl (.inr hflight)
  · simp at hpush

theorem held_of_pop {txq : Ring TxJob TX_Q_DEPTH} {job : TxJob}
    (hpeek : txqPeek txq = some job) :
    txq.contents = job :: (txqPop txq).contents := by
  unfold txqPeek at hpeek
  split at hpeek
  · rename_i hcount
    have hpos : 0 < txq.count := Nat.pos_of_ne_zero hcount
    rw [Ring.contents_eq_cons txq hpos, Option.some.inj hpeek, txqPop, dif_pos hpos]
  · simp at hpeek

/-- What is held or answered afterwards was held before or came with the step. -/
def Traces (i : LocalRadio) (radios : Radios) (arriving : ℕ → Prop)
    (next : Radios × List Act) : Prop :=
  ∀ serial, Held (next.1 i) serial ∨ Answers i next.2 serial →
    Held (radios i) serial ∨ arriving serial

theorem traces_of_silent {arriving : ℕ → Prop} {acts : List Act} {next : Radios}
    (hheld : ∀ serial, Held (next i) serial → Held (radios i) serial ∨ arriving serial)
    (hsilent : acts.filterMap txDoneSerial = []) :
    Traces i radios arriving (next, acts) := by
  rintro serial (hnext | ⟨status, hmem⟩)
  · exact hheld serial hnext
  · have hserial : serial ∈ acts.filterMap txDoneSerial :=
      List.mem_filterMap.mpr ⟨_, hmem, rfl⟩
    simp [hsilent] at hserial

/-- A radio whose flight is forgotten holds its queue. -/
theorem held_update {j : LocalRadio} {radio : Radio}
    (hheld : Held (Function.update radios j radio i) serial)
    (hqueue : radio.txq = (radios j).txq) (hidle : radio.txActive = none) :
    Held (radios i) serial := by
  by_cases hj : i = j
  · subst hj
    rw [Function.update_self] at hheld
    rcases hheld with hqueued | ⟨flight, hflight, -⟩
    · exact .inl (hqueue ▸ hqueued)
    · simp [hidle] at hflight
  · rwa [Function.update_of_ne hj] at hheld

theorem setup_silent (begun : LocalRadio → Bool) :
    ¬ (Held ((setup begun).1 i) serial ∨ Answers i (setup begun).2 serial) := by
  have hacts : (setup begun).2.filterMap txDoneSerial = [] := by
    cases hr3 : begun 0 <;> cases hr4 : begun 1 <;> simp [setup, hr3, hr4, txDoneSerial]
  rintro ((⟨job, hmem, -⟩ | ⟨flight, hflight, -⟩) | ⟨status, hmem⟩)
  · simp [setup] at hmem
  · simp [setup] at hflight
  · have hserial : serial ∈ (setup begun).2.filterMap txDoneSerial :=
      List.mem_filterMap.mpr ⟨_, hmem, rfl⟩
    simp [hacts] at hserial

theorem setup_traces {arriving : ℕ → Prop} (begun : LocalRadio → Bool) :
    Traces i radios arriving (setup begun) :=
  fun _ hnext => absurd hnext (setup_silent begun)

theorem handle_traces (message : Message) (serial : ℕ) (begun : LocalRadio → Bool)
    (up : UInt32) :
    Traces i radios (fun arriving => arriving = serial ∧ Requests i message)
      (handleHostFrame message serial begun up radios) := by
  unfold handleHostFrame applyCfg
  split
  · split
    · split
      · split
        · exact traces_of_silent (fun _ hheld => .inl (held_update hheld rfl rfl)) rfl
        · exact traces_of_silent (fun _ hheld => .inl (held_update hheld rfl rfl)) rfl
      · exact traces_of_silent (fun _ hheld => .inl (held_update hheld rfl rfl)) rfl
    · exact traces_of_silent (fun _ hheld => .inl hheld) rfl
  · split
    · rename_i htype
      cases hlocal : localOf message.radio with
      | none => exact traces_of_silent (fun _ hheld => .inl hheld) rfl
      | some j =>
          have hanswer : ∀ (text : String) (status : ℤ),
              Traces i radios (fun arriving => arriving = serial ∧ Requests i message)
                (radios, [.log text, .txDone j status serial]) := by
            rintro text status arriving (hheld | ⟨status', hmem⟩)
            · exact .inl hheld
            · simp only [List.mem_cons, Act.txDone.injEq, reduceCtorEq, List.not_mem_nil,
                or_false, false_or] at hmem
              obtain ⟨rfl, -, rfl⟩ := hmem
              exact .inr ⟨rfl, htype, hlocal⟩
          simp only
          split
          · split
            · rename_i txq hpush
              refine traces_of_silent (fun arriving hheld => ?_) rfl
              by_cases hj : i = j
              · subst hj
                rw [Function.update_self] at hheld
                rcases held_push hpush hheld with hbefore | rfl
                · exact .inl hbefore
                · exact .inr ⟨rfl, htype, hlocal⟩
              · rw [Function.update_of_ne hj] at hheld
                exact .inl hheld
            · exact hanswer _ _
          · exact hanswer _ _
    · split
      · split
        · exact traces_of_silent (fun _ hheld => .inl hheld) rfl
        · refine traces_of_silent (fun _ hheld => .inl hheld) ?_
          split <;> rfl
      · split
        · exact traces_of_silent (fun _ hheld => .inl hheld) rfl
        · split
          · exact setup_traces begun
          · exact traces_of_silent (fun _ hheld => .inl hheld) rfl

/-- A turn takes from the queue to the air, and from either to an answer. -/
theorem serviceRadio_traces (turn : Turn) (radio : Radio)
    (hnext : Held (serviceRadio i turn radio).1 serial ∨
      Answers i (serviceRadio i turn radio).2 serial) : Held radio serial := by
  unfold serviceRadio at hnext
  cases hactive : radio.txActive with
  | some flight =>
      simp only [hactive, serviceFlight] at hnext
      split at hnext
      · rcases hnext with (hqueued | ⟨flight', hflight, -⟩) | ⟨status, hmem⟩
        · exact .inl hqueued
        · simp at hflight
        · simp only [List.mem_singleton, Act.txDone.injEq] at hmem
          exact .inr ⟨flight, hactive, hmem.2.2.symm⟩
      · simpa [Answers] using hnext
  | none =>
      simp only [hactive] at hnext
      split at hnext
      · cases havailable : turn.available with
        | some packet =>
            have hsilent : ¬ Answers i (forward i packet) serial := by
              rintro ⟨status, hmem⟩
              unfold forward at hmem
              split at hmem
              · simp at hmem
              · split at hmem <;> simp at hmem
            simp only [havailable] at hnext
            exact hnext.resolve_right hsilent
        | none =>
            simp only [havailable] at hnext
            cases hpeek : txqPeek radio.txq with
            | none => simpa [hpeek, Answers] using hnext
            | some job =>
                have hpop := held_of_pop hpeek
                have hjob : job.serial = serial → Held radio serial := fun heq =>
                  .inl ⟨job, by rw [hpop]; exact List.mem_cons_self, heq⟩
                have hrest : (∃ later ∈ (txqPop radio.txq).contents,
                    later.serial = serial) → Held radio serial := by
                  rintro ⟨later, hmem, hserial⟩
                  exact .inl ⟨later, by rw [hpop]; exact List.mem_cons_of_mem _ hmem, hserial⟩
                simp only [hpeek, dispatch] at hnext
                split at hnext
                · simpa [Answers] using hnext
                · split at hnext
                  · rcases hnext with (hqueued | ⟨flight, hflight, hserial⟩) | ⟨status, hmem⟩
                    · exact hrest hqueued
                    · obtain rfl := Option.some.inj hflight
                      exact hjob hserial
                    · simp at hmem
                  · rcases hnext with (hqueued | ⟨flight, hflight, -⟩) | ⟨status, hmem⟩
                    · exact hrest hqueued
                    · simp [hactive] at hflight
                    · simp only [List.mem_cons, reduceCtorEq, Act.txDone.injEq,
                        List.not_mem_nil, or_false, false_or] at hmem
                      exact hjob hmem.2.2.symm
      · simpa [Answers] using hnext

theorem answers_of_other {j : LocalRadio} (hne : j ≠ i) (turn : Turn) (radio : Radio) :
    ¬ Answers i (serviceRadio j turn radio).2 serial := by
  rintro ⟨status, hmem⟩
  have hcount := TxAnswers.answers_of_other hne turn radio
  rw [List.countP_eq_zero] at hcount
  exact hcount _ hmem (by simp [TxAnswers.answers])

theorem pass_traces (turns : LocalRadio → Turn) :
    Traces i radios (fun _ => False) (Coprocessor.pass turns radios) := by
  intro serial hnext
  left
  apply serviceRadio_traces (turns i) (radios i)
  rcases hnext with hheld | ⟨status, hmem⟩
  · exact .inl hheld
  · obtain ⟨j, -, hfrom⟩ := List.mem_flatMap.mp hmem
    by_cases hj : j = i
    · subst hj
      exact .inr ⟨status, hfrom⟩
    · exact absurd ⟨status, hfrom⟩ (answers_of_other hj _ _)

end Step

/-! ## A run -/

section Run

variable {i : LocalRadio} {s : System}

/-- What is outstanding for a radio was armed last, and what the co-processor has
answered is finished. -/
structure Inv (s : System) : Prop where
  armed : ∀ i serial, Outstanding i s serial → (s.host i).armed = some serial
  finished : ∀ i serial, Answers i s.up serial → serial ∈ s.finished

theorem inv_boot (begun : LocalRadio → Bool) : Inv (boot begun) := by
  have hup : ∀ i serial, Answers i (boot begun).up serial →
      Answers i (setup begun).2 serial := by
    rintro i serial ⟨status, hmem⟩
    exact ⟨status, List.mem_of_mem_filter hmem⟩
  refine ⟨fun i serial hout => ?_, fun i serial hanswers => ?_⟩
  · rcases hout with ⟨message, hmem, -⟩ | hheld | hanswers
    · simp [boot] at hmem
    · exact absurd (.inl hheld) (setup_silent begun)
    · exact absurd (.inr (hup i serial hanswers)) (setup_silent begun)
  · exact absurd (.inr (hup i serial hanswers)) (setup_silent begun)

theorem localOf_ofNat (i : LocalRadio) : localOf (.ofNat i) = some i := by
  revert i
  decide

theorem not_requests_cfg {cfg : List UInt8} {radio : UInt8} :
    ¬ Requests i ⟨ MSG_CFG_RADIO, radio, cfg⟩ := by
  simp [Requests, MSG_CFG_RADIO, MSG_TX]

theorem not_requests_startRx {radio : UInt8} : ¬ Requests i ⟨MSG_START_RX, radio, []⟩ := by
  simp [Requests, MSG_START_RX, MSG_TX]

/-- Frames that are no MSG_TX come and go freely. -/
theorem inv_mono {t : System} (hinv : Inv s)
    (harmed : ∀ i, (t.host i).armed = (s.host i).armed)
    (hdown : ∀ i message serial, (message, serial) ∈ t.down → Requests i message →
      (message, serial) ∈ s.down)
    (hradios : t.radios = s.radios) (hup : t.up ⊆ s.up)
    (hfinished : t.finished = s.finished) : Inv t := by
  refine ⟨fun i serial hout => ?_, fun i serial hanswers => ?_⟩
  · rw [harmed]
    apply hinv.armed
    rcases hout with ⟨message, hmem, hfor⟩ | hheld | ⟨status, hmem⟩
    · exact .inl ⟨message, hdown i message serial hmem hfor, hfor⟩
    · exact .inr (.inl (hradios ▸ hheld))
    · exact .inr (.inr ⟨status, hup hmem⟩)
  · obtain ⟨status, hmem⟩ := hanswers
    rw [hfinished]
    exact hinv.finished i serial ⟨status, hup hmem⟩

theorem inv_coprocessor {next : Radios × List Act} {arriving : LocalRadio → ℕ → Prop}
    (hinv : Inv s) (htraces : ∀ i, Traces i s.radios (arriving i) next)
    (harriving : ∀ i serial, arriving i serial → (s.host i).armed = some serial) :
    Inv (coprocessor next s) := by
  have hup : ∀ i serial, Answers i (s.up ++ next.2.filter onLink) serial →
      Answers i s.up serial ∨ Answers i next.2 serial := by
    rintro i serial ⟨status, hmem⟩
    rcases List.mem_append.mp hmem with hbefore | hnew
    · exact .inl ⟨status, hbefore⟩
    · exact .inr ⟨status, List.mem_of_mem_filter hnew⟩
  have htraced : ∀ i serial, Held (next.1 i) serial ∨ Answers i next.2 serial →
      (s.host i).armed = some serial := by
    intro i serial hnext
    rcases htraces i serial hnext with hheld | hnew
    · exact hinv.armed i serial (.inr (.inl hheld))
    · exact harriving i serial hnew
  refine ⟨fun i serial hout => ?_, fun i serial hanswers => ?_⟩
  · rcases hout with hdown | hheld | hanswers
    · exact hinv.armed i serial (.inl hdown)
    · exact htraced i serial (.inl hheld)
    · rcases hup i serial hanswers with hbefore | hnew
      · exact hinv.armed i serial (.inr (.inr hbefore))
      · exact htraced i serial (.inr hnew)
  · rcases hup i serial hanswers with hbefore | ⟨status, hmem⟩
    · exact List.mem_append_left _ (hinv.finished i serial hbefore)
    · exact List.mem_append_right _ (List.mem_filterMap.mpr ⟨_, hmem, rfl⟩)

theorem inv_startTransmit {data : List UInt8} {written : Bool} (hinv : Inv s)
    (hanswered : ∀ serial, ¬ Outstanding i s serial) (hready : s.ready = true) :
    Inv (startTransmit i data written s) := by
  rw [startTransmit, if_pos hready]
  refine ⟨fun j serial hout => ?_, fun j serial hanswers => hinv.finished j serial hanswers⟩
  by_cases hj : j = i
  · subst hj
    simp only [Function.update_self]
    rcases hout with ⟨message, hmem, hfor⟩ | hbefore
    · rcases List.mem_append.mp hmem with hdown | hnew
      · exact absurd (.inl ⟨message, hdown, hfor⟩) (hanswered serial)
      · cases written with
        | false => simp at hnew
        | true =>
            simp only [if_true, List.mem_singleton, Prod.mk.injEq] at hnew
            rw [hnew.2]
    · exact absurd (.inr hbefore) (hanswered serial)
  · simp only [Function.update_of_ne hj]
    apply hinv.armed
    rcases hout with ⟨message, hmem, hfor⟩ | hbefore
    · rcases List.mem_append.mp hmem with hdown | hnew
      · exact .inl ⟨message, hdown, hfor⟩
      · cases written with
        | false => simp at hnew
        | true =>
            simp only [if_true, List.mem_singleton, Prod.mk.injEq] at hnew
            have hlocal := hfor.2
            rw [hnew.1, localOf_ofNat] at hlocal
            exact absurd (Option.some.inj hlocal).symm hj
    · exact .inr hbefore

theorem inv_handleFrame (hinv : Inv s) : Inv (handleFrame s).1 := by
  unfold handleFrame
  split
  · exact hinv
  · rename_i j status serial rest hup
    refine inv_mono hinv (fun i => ?_) (fun _ _ _ hmem _ => hmem) rfl ?_ rfl
    · by_cases hj : i = j
      · subst hj
        simp
      · simp [hj]
    · rw [hup]
      exact List.subset_cons_self _ _
  · rename_i hup
    refine inv_mono hinv (fun _ => rfl) (fun _ _ _ hmem _ => hmem) rfl ?_ rfl
    rw [hup]
    exact List.subset_cons_self _ _
  · rename_i hup
    refine inv_mono hinv (fun _ => rfl) (fun _ _ _ hmem _ => hmem) rfl ?_ rfl
    rw [hup]
    exact List.subset_cons_self _ _

theorem mem_of_mem_snoc {down : List (Message × ℕ)} {message other : Message}
    {serial : ℕ} (hother : ¬ Requests i other)
    (hmem : (message, serial) ∈ down ++ [(other, 0)]) (hfor : Requests i message) :
    (message, serial) ∈ down := by
  rcases List.mem_append.mp hmem with hdown | hnew
  · exact hdown
  · simp only [List.mem_singleton, Prod.mk.injEq] at hnew
    rw [hnew.1] at hfor
    exact absurd hfor hother

/-- Every step keeps the invariant that arms a radio when nothing is outstanding. -/
theorem inv_step {event : Event} (hinv : Inv s) (harms : ArmsWhenAnswered s event) :
    Inv (step s event).1 := by
  cases event with
  | transmit i data written =>
      cases hbusy : (s.host i).busy with
      | true => simpa [step, hbusy] using hinv
      | false =>
          simp only [step, hbusy, Bool.false_eq_true, if_false]
          cases hready : s.ready with
          | false => simpa [startTransmit, hready] using hinv
          | true => exact inv_startTransmit hinv (harms hbusy hready) hready
  | settle i timedOut =>
      simp only [step, TxGate.settle]
      split
      · refine inv_mono hinv (fun j => ?_) (fun _ _ _ hmem _ => hmem) rfl
          (List.Subset.refl _) rfl
        by_cases hj : j = i
        · subst hj
          simp
        · simp [hj]
      · exact hinv
  | begin i cfg =>
      exact inv_mono hinv (fun _ => rfl)
        (fun _ _ _ hmem hfor => mem_of_mem_snoc not_requests_cfg hmem hfor) rfl
        (List.Subset.refl _) rfl
  | startReceive i =>
      exact inv_mono hinv (fun _ => rfl)
        (fun _ _ _ hmem hfor => mem_of_mem_snoc not_requests_startRx hmem hfor) rfl
        (List.Subset.refl _) rfl
  | hostReceives => exact inv_handleFrame hinv
  | coprocReceives begun up =>
      simp only [step]
      cases hdown : s.down with
      | nil => exact hinv
      | cons head rest =>
          obtain ⟨message, serial⟩ := head
          have hrest : Inv { s with down := rest } :=
            inv_mono hinv (fun _ => rfl)
              (fun _ _ _ hmem _ => by rw [hdown]; exact List.mem_cons_of_mem _ hmem)
              rfl (List.Subset.refl _) rfl
          refine inv_coprocessor hrest (fun i => handle_traces message serial begun up)
            fun i arriving hnew => ?_
          obtain ⟨rfl, hfor⟩ := hnew
          exact hinv.armed i arriving
            (.inl ⟨message, by rw [hdown]; exact List.mem_cons_self, hfor⟩)
  | pass turns =>
      exact inv_coprocessor hinv (fun i => pass_traces turns) fun _ _ hnew => hnew.elim
  | reboot begun =>
      have htraces : ∀ i, Traces i s.radios (fun _ => False) (setup begun) :=
        fun i => setup_traces begun
      exact inv_coprocessor hinv htraces fun _ _ hnew => hnew.elim
  | loseDown index =>
      exact inv_mono hinv (fun _ => rfl)
        (fun _ _ _ hmem _ => List.mem_of_mem_eraseIdx hmem) rfl (List.Subset.refl _) rfl
  | loseUp index =>
      exact inv_mono hinv (fun _ => rfl) (fun _ _ _ hmem _ => hmem) rfl
        (List.eraseIdx_subset) rfl

/-- A gate opens on an answer to the MSG_TX armed last. -/
theorem finished_of_opens {event : Event} (hinv : Inv s) (hopens : i ∈ (step s event).2) :
    Finished i (step s event).1 := by
  cases event with
  | hostReceives =>
      simp only [step, handleFrame] at hopens ⊢
      split at hopens
      · simp at hopens
      · rename_i j status serial rest hup
        split at hopens
        · simp at hopens
        · obtain rfl := List.mem_singleton.mp hopens
          have hanswers : Answers i s.up serial := ⟨status, by simp [hup]⟩
          refine ⟨serial, hinv.finished i serial hanswers, ?_⟩
          simp only [Function.update_self]
          exact hinv.armed i serial (.inr (.inr hanswers))
      · simp at hopens
      · simp at hopens
  | coprocReceives begun up =>
      simp only [step] at hopens
      split at hopens <;> simp at hopens
  | _ => simp [step] at hopens

/-- In every run that arms a radio only when nothing is outstanding for it, a gate that
a MSG_TX_DONE opens was closed by a MSG_TX that the co-processor has finished. -/
theorem gate_matches (begun : LocalRadio → Bool) (events : List Event)
    (harms : Machine.Along step ArmsWhenAnswered (boot begun) events) :
    ∀ before event, before ++ [event] <+: events →
      ∀ i ∈ (step (Machine.run step (boot begun) before).1 event).2,
        Finished i (step (Machine.run step (boot begun) before).1 event).1 := by
  rintro before event ⟨after, rfl⟩ i hopens
  rw [List.append_assoc] at harms
  have hinv : Inv (Machine.run step (boot begun) before).1 :=
    Machine.invariant_state (fun state event hinv harms => inv_step hinv harms) before
      (inv_boot begun) (Machine.along_append harms).1
  exact finished_of_opens hinv hopens

end Run

/-! ## A late answer -/

/-- What a pass finds on a clear channel, at one time. -/
def clear (done : Bool) : LocalRadio → Turn :=
  fun _ => ⟨done, 0, none, -15, RADIOLIB_ERR_NONE, 0⟩

/-- A MSG_TX that is sent and settled before the host looks. -/
def settled : List Event :=
  [.hostReceives, .transmit 0 [0x01] true, .coprocReceives (fun _ => true) 0,
    .pass (clear false), .pass (clear true), .hostReceives]

/-- The host times out and arms the next MSG_TX before the first is answered. -/
def rearmed : List Event :=
  [.hostReceives, .transmit 0 [0x01] true, .settle 0 true, .transmit 0 [0x02] true,
    .coprocReceives (fun _ => true) 0, .pass (clear false), .pass (clear true),
    .hostReceives]

/-- An answer in time opens the gate for the MSG_TX it answers. -/
theorem gate_opens_when_settled :
    0 ∈ (step (Machine.run step (boot fun _ => true) settled).1 .hostReceives).2 ∧
      Finished 0 (step (Machine.run step (boot fun _ => true) settled).1 .hostReceives).1 := by
  refine ⟨by decide, gate_matches (fun _ => true) (settled ++ [.hostReceives]) ?_ settled
    .hostReceives List.prefix_rfl 0 (by decide)⟩
  refine ⟨trivial, ?_, trivial, trivial, trivial, trivial, trivial, trivial⟩
  intro _ _ serial hout
  rcases hout with ⟨message, hmem, -⟩ | hheld | ⟨status, hmem⟩
  · have hnone : (message, serial) ∈ ([] : List (Message × ℕ)) := hmem
    simp at hnone
  · exact setup_silent (i := 0) (fun _ => true) (.inl hheld)
  · have hlog : Act.txDone 0 status serial ∈ [Act.logIdle fun _ => true] := hmem
    simp at hlog

/-- The late answer to the first MSG_TX opens the gate that the second closed, while the
second still waits on the link. -/
theorem late_answer_opens :
    0 ∈ (step (Machine.run step (boot fun _ => true) rearmed).1 .hostReceives).2 ∧
      ¬ Finished 0 (step (Machine.run step (boot fun _ => true) rearmed).1 .hostReceives).1 := by
  decide

end LoraBridge.TxGate
