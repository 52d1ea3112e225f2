import LoraBridge.Control.FloorTasks
import LoraBridge.Core.SharedCounter
import LoraBridge.Counter.LoRaWANConfig

/-!
# Counter operations of two tasks

The radio tasks are spread over two cores, and `nextFcnt`, `nextTxSeq` and
`acceptInboundSeq` take no lock.  Each reads, may write to NVS, and writes back.
-/

namespace LoraBridge.CounterTasks

open LoraBridge.Program LoraBridge.ReserveAhead LoraBridge.SharedCounter
  LoraBridge.FloorTasks

section Fcnt

open LoraBridge.LoRaWANConfig

variable {Output : Type}

/-- `s_fcnt[i] = v + 1`, together with the reservation. -/
def setCounter (slot : Slot) (counter : Counter) (state : State) : State :=
  { state with ram := { state.ram with
      counter := Function.update state.ram.counter slot counter } }

/-- `persistReservedForAddr`. -/
def persistReserved (devAddr reserved : UInt32) (write : Write) (state : State) : State :=
  { state with nvs := state.nvs.setFc devAddr (write.apply (state.nvs.fc devAddr) reserved) }

/-- `nextFcnt(i)`, step by step: read the address and the cursor, reserve the next
block if needed, write the cursor back. -/
def nextFcntSteps (i : ℤ) (write : Write) : Program State Output (Option UInt32) :=
  match slotOf i with
  | none => pure none
  | some slot => do
      let (devAddr, counter) ← Program.read fun state =>
        ((state.ram.dev slot).devAddr, state.ram.counter slot)
      if devAddr = 0 then pure none
      else if counter.limit ≤ counter.next then
        if 0xFFFFFFFF - 1 - FCNT_RESERVE < counter.next then pure none
        else do
          let reserved := counter.next + 1 + FCNT_RESERVE
          Program.modify (persistReserved devAddr reserved write)
          if write = .confirmed then do
            Program.modify (setCounter slot ⟨counter.next + 1, reserved⟩)
            pure (some counter.next)
          else pure none
      else do
        Program.modify fun state =>
          setCounter slot ⟨counter.next + 1, (state.ram.counter slot).limit⟩ state
        pure (some counter.next)

/-- One counter and its reservation. -/
def fcntPart (slot : Slot) (devAddr : UInt32) : Part State (Counter × UInt32) where
  view state := (state.ram.counter slot, state.nvs.fc devAddr)
  put state shared := ⟨state.nvs.setFc devAddr shared.2,
    { state.ram with counter := Function.update state.ram.counter slot shared.1 }⟩
  view_put state shared := by simp [Nvs.setFc]
  put_put state shared shared' := by simp [Nvs.setFc]
  put_view state := by simp [Nvs.setFc]

@[simp]
theorem fcntPart_view (slot : Slot) (devAddr : UInt32) (state : State) :
    (fcntPart slot devAddr).view state = (state.ram.counter slot, state.nvs.fc devAddr) :=
  rfl

/-- On a slot that keeps its address, the steps ask its counter. -/
theorem nextFcntSteps_same {i : ℤ} {slot : Slot} (hslot : slotOf i = some slot)
    {devAddr : UInt32} (haddress : devAddr ≠ 0) (write : Write) :
    (nextFcntSteps i write : Program State Output _).Same
      (fun state => (state.ram.dev slot).devAddr = devAddr)
      ((take Output FCNT_RESERVE write).within (fcntPart slot devAddr)) := by
  unfold nextFcntSteps
  rw [hslot]
  intro state hstate
  refine ⟨by simp [fcntPart, Nvs.setFc], hstate, ?_⟩
  simp only [Program.bind, hstate, haddress, if_false, fcntPart_view]
  refine goOn_same (fcntPart slot devAddr) (state.ram.counter slot)
    (fun reserved => persistReserved devAddr reserved write) (setCounter slot)
    (fun number later => setCounter slot ⟨number, (later.ram.counter slot).limit⟩ later)
    ?_ ?_ ?_
  · intro reserved later hlater
    exact ⟨hlater, by simp [persistReserved, fcntPart]⟩
  · intro counter later hlater
    exact ⟨hlater, by simp [setCounter, fcntPart, Nvs.setFc]⟩
  · intro number later hlater
    exact ⟨hlater, by simp [setCounter, fcntPart, Nvs.setFc]⟩

theorem nextFcntSteps_same_zero (Output : Type) {i : ℤ} {slot : Slot}
    (hslot : slotOf i = some slot) (write : Write) :
    (nextFcntSteps i write : Program State Output _).Same
      (fun state => (state.ram.dev slot).devAddr = 0)
      (readWrite (fun _ => ()) (fun _ => []) fun _ => none) := by
  unfold nextFcntSteps
  rw [hslot]
  intro state hstate
  refine ⟨rfl, hstate, ?_⟩
  simp only [Program.bind, hstate, if_true]
  rfl

/-- Alone, the steps are one call. -/
theorem run_nextFcntSteps (i : ℤ) (write : Write) (state : State) :
    ((nextFcntSteps i write : Program State Output _).run state).state =
        (nextFcnt i write state).1 ∧
      ((nextFcntSteps i write : Program State Output _).run state).result.toList =
        (nextFcnt i write state).2.map Issue.fcnt := by
  cases hslot : slotOf i with
  | none => simp [nextFcntSteps, nextFcnt, hslot]
  | some slot =>
      by_cases haddress : (state.ram.dev slot).devAddr = 0
      · rw [(nextFcntSteps_same_zero Output hslot write).run haddress]
        simp [nextFcnt, hslot, haddress, readWrite, writes, Program.run]
      · rw [(nextFcntSteps_same hslot haddress write).run rfl, run_within]
        have htake := run_take Output FCNT_RESERVE write
          ((fcntPart slot (state.ram.dev slot).devAddr).view state)
        rw [htake.1, htake.2]
        simp only [nextFcnt, hslot, haddress, if_false, advanceFcnt, fcntPart_view]
        refine ⟨rfl, ?_⟩
        simp [issueOf, Function.comp_def]

end Fcnt

section Tx

open LoraBridge.CamC2Config

variable {Output : Type}

/-- The transmit counter and its reservation. -/
def txPart : Part State (Counter × UInt32) where
  view state := (state.ram.tx, state.nvs.txseq)
  put state shared := state.setTx shared.1 shared.2
  view_put _ _ := rfl
  put_put _ _ _ := rfl
  put_view _ := rfl

theorem nextTxSeq_same (invariant : State → Prop) (write : Write)
    (hkeeps : ∀ state tx txseq, invariant state → invariant (state.setTx tx txseq)) :
    (nextTxSeq write : Program State Output _).Same invariant
      ((take Output SEQ_RESERVE write).within txPart) := by
  unfold nextTxSeq
  intro state hstate
  refine ⟨rfl, hstate, ?_⟩
  exact goOn_same txPart state.ram.tx
    (fun reserved later => later.setTx later.ram.tx (write.apply later.nvs.txseq reserved))
    (fun counter later => later.setTx counter later.nvs.txseq)
    (fun number later => later.setTx ⟨number, later.ram.tx.limit⟩ later.nvs.txseq)
    (fun _ _ hlater => ⟨hkeeps _ _ _ hlater, rfl⟩)
    (fun _ _ hlater => ⟨hkeeps _ _ _ hlater, rfl⟩)
    (fun _ _ hlater => ⟨hkeeps _ _ _ hlater, rfl⟩)

end Tx

/-! ## The operations -/

/-- The state of both namespaces and their RAM copies. -/
structure Counters where
  lorawan : LoRaWANConfig.State
  c2 : CamC2Config.State

def lorawanPart : Part Counters LoRaWANConfig.State where
  view := Counters.lorawan
  put counters state := { counters with lorawan := state }
  view_put _ _ := rfl
  put_put _ _ _ := rfl
  put_view _ := rfl

def c2Part : Part Counters CamC2Config.State where
  view := Counters.c2
  put counters state := { counters with c2 := state }
  view_put _ _ := rfl
  put_put _ _ _ := rfl
  put_view _ := rfl

/-- A call of one task, with what becomes of its NVS write. -/
inductive Op where
  | nextFcnt (write : Write)
  | nextTxSeq (write : Write)
  | acceptInboundSeq (seq : UInt32) (write : Write)

def Op.Result : Op → Type
  | .nextFcnt _ => Option UInt32
  | .nextTxSeq _ => Option UInt32
  | .acceptInboundSeq _ _ => Bool

/-- A frame that was accepted: the peer and its number. -/
abbrev Accepted := UInt32 × UInt32

/-- The steps of a call on one device slot and one peer slot. -/
def Op.steps (device peer : ℤ) : (op : Op) → Program Counters Accepted op.Result
  | .nextFcnt write => (nextFcntSteps device write).within lorawanPart
  | .nextTxSeq write => (CamC2Config.nextTxSeq write).within c2Part
  | .acceptInboundSeq seq write =>
      (CamC2Config.acceptInboundSeq peer seq write fun peerId => (peerId, seq)).within c2Part

/-- Both calls issued one number, or accepted one frame. -/
def Op.Doubled : (first second : Op) → first.Result → second.Result → Prop
  | .nextFcnt _, .nextFcnt _, left, right =>
      ∃ number : UInt32, left = some number ∧ right = some number
  | .nextTxSeq _, .nextTxSeq _, left, right =>
      ∃ number : UInt32, left = some number ∧ right = some number
  | .acceptInboundSeq seq _, .acceptInboundSeq seq' _, left, right =>
      seq = seq' ∧ left = true ∧ right = true
  | _, _, _, _ => False

/-- When two calls do not disturb each other: they work on different counters, one is
over before the other reads, or what they found lets only one of them go on. -/
def Op.Undisturbed (device peer : ℤ) (counters : Counters) (trace : List Side) :
    Op → Op → Prop
  | .nextFcnt write, .nextFcnt write' =>
      Apart trace ∨ ∀ slot, LoRaWANConfig.slotOf device = some slot →
        (counters.lorawan.ram.dev slot).devAddr = 0 ∨
          ¬ (Issues LoRaWANConfig.FCNT_RESERVE write (counters.lorawan.ram.counter slot) ∧
            Issues LoRaWANConfig.FCNT_RESERVE write' (counters.lorawan.ram.counter slot))
  | .nextTxSeq write, .nextTxSeq write' =>
      Apart trace ∨ ¬ (Issues CamC2Config.SEQ_RESERVE write counters.c2.ram.tx ∧
        Issues CamC2Config.SEQ_RESERVE write' counters.c2.ram.tx)
  | .acceptInboundSeq seq write, .acceptInboundSeq seq' write' =>
      Apart trace ∨ ∀ slot, CamC2Config.slotOf peer = some slot →
        ¬ Passes (counters.c2.ram.peer slot) seq ∨
          ¬ Passes (counters.c2.ram.peer slot) seq' ∨
            InOrder (writeOrder trace) seq seq' write write'
  | _, _ => True

section Pairs

variable {device peer : ℤ} {counters : Counters} {trace : List Side}

theorem nextFcnt_pair {write write' : Write}
    {outcome : Outcome Counters (Option UInt32) (Option UInt32)}
    (hruns : Interleaves ((nextFcntSteps device write).within lorawanPart)
      ((nextFcntSteps device write' : Program _ Accepted _).within lorawanPart) counters
      trace outcome) :
    (Serializable ((nextFcntSteps device write).within lorawanPart)
        ((nextFcntSteps device write' : Program _ Accepted _).within lorawanPart) counters
        outcome ∧
      ¬ ∃ number, outcome.left = some number ∧ outcome.right = some number) ↔
    Op.Undisturbed device peer counters trace (.nextFcnt write) (.nextFcnt write') := by
  obtain ⟨state, hstate, hiff⟩ := interleaves_part (Same.refl _) (Same.refl _) trivial hruns
  rw [hiff]
  cases hslot : LoRaWANConfig.slotOf device with
  | none =>
      have hdone : ∀ write, (nextFcntSteps device write : Program _ Accepted _) =
          .done none := fun write => by
        rw [nextFcntSteps, hslot]
        rfl
      rw [hdone, hdone] at hstate ⊢
      obtain ⟨houtcome, -⟩ := interleaves_done_left hstate
      refine ⟨fun _ => .inr fun slot hsome => by simp [hslot] at hsome, fun _ => ?_⟩
      refine ⟨.inl houtcome, ?_⟩
      rintro ⟨number, hleft, -⟩
      rw [(Outcome.mk.inj houtcome).1] at hleft
      simp at hleft
  | some slot =>
      have hundisturbed : Op.Undisturbed device peer counters trace (.nextFcnt write)
          (.nextFcnt write') ↔
          Apart trace ∨ (counters.lorawan.ram.dev slot).devAddr = 0 ∨
            ¬ (Issues LoRaWANConfig.FCNT_RESERVE write (counters.lorawan.ram.counter slot) ∧
              Issues LoRaWANConfig.FCNT_RESERVE write'
                (counters.lorawan.ram.counter slot)) := by
        simp [Op.Undisturbed, hslot]
      rw [hundisturbed]
      by_cases haddress : (counters.lorawan.ram.dev slot).devAddr = 0
      · have hleft := nextFcntSteps_same_zero Accepted hslot write
        have hright := nextFcntSteps_same_zero Accepted hslot write'
        have hserial := serializable_of_no_writes rfl rfl (hstate.same hleft hright haddress)
        refine ⟨fun _ => .inr (.inl haddress), fun _ => ⟨?_, ?_⟩⟩
        · exact (serializable_same_iff hleft hright haddress).mpr hserial
        · rintro ⟨number, hsome, -⟩
          rcases hserial with houtcome | houtcome
          · have hnone := congrArg Outcome.left houtcome
            simp [leftFirst, readWrite, writes, hsome, Program.run] at hnone
          · have hnone := congrArg Outcome.left houtcome
            simp [rightFirst, readWrite, writes, hsome, Program.run] at hnone
      · obtain ⟨shared, hshared, hiff'⟩ := interleaves_part
          (nextFcntSteps_same hslot haddress write)
          (nextFcntSteps_same hslot haddress write') rfl hstate
        have hserial := take_serializable_iff hshared
        rw [← hiff'] at hserial
        constructor
        · rintro ⟨hserializable, -⟩
          exact (hserial.mp hserializable).imp_right .inr
        · intro hcondition
          have hserializable := hserial.mpr
            (hcondition.imp_right fun hor => hor.resolve_left haddress)
          refine ⟨hserializable, ?_⟩
          rintro ⟨number, hboth⟩
          exact distinct_of_serializable (hiff'.mp hserializable) number hboth

theorem nextTxSeq_pair {write write' : Write}
    {outcome : Outcome Counters (Option UInt32) (Option UInt32)}
    (hruns : Interleaves ((CamC2Config.nextTxSeq write).within c2Part)
      ((CamC2Config.nextTxSeq write' : Program _ Accepted _).within c2Part) counters
      trace outcome) :
    (Serializable ((CamC2Config.nextTxSeq write).within c2Part)
        ((CamC2Config.nextTxSeq write' : Program _ Accepted _).within c2Part) counters
        outcome ∧
      ¬ ∃ number, outcome.left = some number ∧ outcome.right = some number) ↔
    Op.Undisturbed device peer counters trace (.nextTxSeq write) (.nextTxSeq write') := by
  obtain ⟨state, hstate, hiff⟩ := interleaves_part (Same.refl _) (Same.refl _) trivial hruns
  obtain ⟨shared, hshared, hiff'⟩ := interleaves_part
    (nextTxSeq_same (fun _ => True) write fun _ _ _ _ => trivial)
    (nextTxSeq_same _ write' fun _ _ _ _ => trivial) trivial hstate
  rw [hiff, hiff']
  have hserial := take_serializable_iff hshared
  refine ⟨fun ⟨hserializable, _⟩ => hserial.mp hserializable, fun hcondition => ?_⟩
  have hserializable := hserial.mpr hcondition
  exact ⟨hserializable, fun ⟨number, hboth⟩ =>
    distinct_of_serializable hserializable number hboth⟩

theorem acceptInboundSeq_pair {seq seq' : UInt32} {write write' : Write}
    {accepted accepted' : UInt32 → Accepted} {outcome : Outcome Counters Bool Bool}
    (hruns : Interleaves
      ((CamC2Config.acceptInboundSeq peer seq write accepted).within c2Part)
      ((CamC2Config.acceptInboundSeq peer seq' write' accepted').within c2Part) counters
      trace outcome) :
    (Serializable ((CamC2Config.acceptInboundSeq peer seq write accepted).within c2Part)
        ((CamC2Config.acceptInboundSeq peer seq' write' accepted').within c2Part) counters
        outcome ∧
      ¬ (seq = seq' ∧ outcome.left = true ∧ outcome.right = true)) ↔
    Op.Undisturbed device peer counters trace (.acceptInboundSeq seq write)
      (.acceptInboundSeq seq' write') := by
  obtain ⟨state, hstate, hiff⟩ := interleaves_part (Same.refl _) (Same.refl _) trivial hruns
  rw [hiff]
  cases hslot : CamC2Config.slotOf peer with
  | none =>
      have hdone : ∀ seq write accepted,
          (CamC2Config.acceptInboundSeq peer seq write accepted : Program _ Accepted _) =
            .done false := fun seq write accepted => by
        rw [CamC2Config.acceptInboundSeq, hslot]
        rfl
      rw [hdone, hdone] at hstate ⊢
      obtain ⟨houtcome, -⟩ := interleaves_done_left hstate
      refine ⟨fun _ => .inr fun slot hsome => by simp [hslot] at hsome, fun _ => ?_⟩
      refine ⟨.inl houtcome, ?_⟩
      rintro ⟨-, hleft, -⟩
      rw [(Outcome.mk.inj houtcome).1] at hleft
      simp at hleft
  | some slot =>
      obtain ⟨piece, hpiece, hiff'⟩ := interleaves_part
        (acceptInboundSeq_same hslot seq write accepted _)
        (acceptInboundSeq_same hslot seq' write' accepted' _) rfl hstate
      rw [hiff']
      have hserial := accept_serializable_iff hpiece
      have hundisturbed : Op.Undisturbed device peer counters trace
          (.acceptInboundSeq seq write) (.acceptInboundSeq seq' write') ↔
          Apart trace ∨ ¬ Passes (counters.c2.ram.peer slot) seq ∨
            ¬ Passes (counters.c2.ram.peer slot) seq' ∨
              InOrder (writeOrder trace) seq seq' write write' := by
        simp [Op.Undisturbed, hslot]
      rw [hundisturbed]
      refine ⟨fun hpair => hserial.mp hpair.1, fun hcondition => ?_⟩
      have hserializable := hserial.mpr hcondition
      refine ⟨hserializable, ?_⟩
      rintro ⟨rfl, hboth⟩
      exact accepted_once hserializable hboth

theorem independent_lorawan_c2 : lorawanPart.Independent c2Part :=
  ⟨fun _ _ => rfl, fun _ _ => rfl, fun _ _ _ => rfl⟩

theorem independent_tx_slot (slot : CamC2Config.Slot) :
    txPart.Independent (slotPart slot) :=
  ⟨fun _ _ => rfl, fun _ _ => rfl, fun _ _ _ => rfl⟩

theorem tx_accept_serializable {seq : UInt32} {write write' : Write}
    {accepted : UInt32 → Accepted} {outcome : Outcome Counters (Option UInt32) Bool}
    (hruns : Interleaves ((CamC2Config.nextTxSeq write).within c2Part)
      ((CamC2Config.acceptInboundSeq peer seq write' accepted).within c2Part) counters
      trace outcome) :
    Serializable ((CamC2Config.nextTxSeq write).within c2Part)
      ((CamC2Config.acceptInboundSeq peer seq write' accepted).within c2Part) counters
      outcome := by
  obtain ⟨state, hstate, hiff⟩ := interleaves_part (Same.refl _) (Same.refl _) trivial hruns
  rw [hiff]
  cases hslot : CamC2Config.slotOf peer with
  | none =>
      have hdone : CamC2Config.acceptInboundSeq peer seq write' accepted = .done false := by
        rw [CamC2Config.acceptInboundSeq, hslot]
        rfl
      rw [hdone] at hstate ⊢
      exact .inl (interleaves_done_right hstate).1
  | some slot =>
      have hleft : (CamC2Config.nextTxSeq write : Program _ Accepted _).Same _ _ :=
        nextTxSeq_same (fun state => (state.ram.peer slot).peerId =
          (counters.c2.ram.peer slot).peerId) write fun _ _ _ hpeer => hpeer
      have hright := acceptInboundSeq_same hslot seq write' accepted
        (counters.c2.ram.peer slot).peerId
      exact (serializable_same_iff hleft hright rfl).mpr
        (serializable_of_independent (independent_tx_slot slot)
          (hstate.same hleft hright rfl))

end Pairs

/-- Two tasks on one device slot and one peer slot act as one after the other, and
neither issue nor accept a number twice, exactly when they do not disturb each other. -/
theorem atomic_iff_undisturbed (device peer : ℤ) (first second : Op) (counters : Counters)
    (trace : List Side) (outcome : Outcome Counters first.Result second.Result)
    (hruns : Interleaves (first.steps device peer) (second.steps device peer) counters
      trace outcome) :
    (Serializable (first.steps device peer) (second.steps device peer) counters outcome ∧
        ¬ Op.Doubled first second outcome.left outcome.right) ↔
      Op.Undisturbed device peer counters trace first second := by
  have happart := independent_lorawan_c2
  cases first with
  | nextFcnt write =>
      cases second with
      | nextFcnt write' => exact nextFcnt_pair hruns
      | nextTxSeq write' =>
          exact iff_of_true ⟨serializable_of_independent happart hruns, id⟩ trivial
      | acceptInboundSeq seq' write' =>
          exact iff_of_true ⟨serializable_of_independent happart hruns, id⟩ trivial
  | nextTxSeq write =>
      cases second with
      | nextFcnt write' =>
          exact iff_of_true ⟨serializable_of_independent happart.symm hruns, id⟩ trivial
      | nextTxSeq write' => exact nextTxSeq_pair hruns
      | acceptInboundSeq seq' write' =>
          exact iff_of_true ⟨tx_accept_serializable hruns, id⟩ trivial
  | acceptInboundSeq seq write =>
      cases second with
      | nextFcnt write' =>
          exact iff_of_true ⟨serializable_of_independent happart.symm hruns, id⟩ trivial
      | nextTxSeq write' =>
          exact iff_of_true ⟨(tx_accept_serializable hruns.swap).swap, id⟩ trivial
      | acceptInboundSeq seq' write' => exact acceptInboundSeq_pair hruns

/-! ## Two tasks that cross -/

/-- After boot, one ABP device and one C2 peer. -/
def counters : Counters where
  lorawan := LoRaWANConfig.boot
    ⟨some fun _ => { LoRaWANConfig.Device.empty with inUse := 1, devAddr := 0x26011BDA },
      fun _ => 0⟩
  c2 := CamC2Config.boot none
    ⟨some fun _ => { CamC2Config.Peer.empty with inUse := 1, peerId := 7 }, fun _ => 0, 0⟩

/-- Both read before either writes back. -/
def crossing : List Side := [.left, .right, .left, .right, .left, .right]

/-- Two uplinks get one FCnt, and a frame heard by two radios is accepted by both. -/
theorem crossing_doubles :
    (∃ outcome, Interleaves ((Op.nextFcnt .confirmed).steps 0 0)
        ((Op.nextFcnt .confirmed).steps 0 0) counters crossing outcome ∧
      Op.Doubled (.nextFcnt .confirmed) (.nextFcnt .confirmed) outcome.left
        outcome.right) ∧
    ∃ outcome, Interleaves ((Op.acceptInboundSeq 1 .confirmed).steps 0 0)
        ((Op.acceptInboundSeq 1 .confirmed).steps 0 0) counters crossing outcome ∧
      Op.Doubled (.acceptInboundSeq 1 .confirmed) (.acceptInboundSeq 1 .confirmed)
        outcome.left outcome.right := by
  constructor
  · exact ⟨_, .left (.right (.left (.right (.left (.right (.done _ _ _)))))), 0, rfl, rfl⟩
  · exact ⟨_, .left (.right (.left (.right (.left (.right (.done _ _ _)))))), rfl, rfl, rfl⟩

/-- Two transmit numbers taken one after the other differ. -/
theorem apart_seqs_differ : ∃ outcome,
    Interleaves ((Op.nextTxSeq .confirmed).steps 0 0) ((Op.nextTxSeq .confirmed).steps 0 0)
      counters [.left, .left, .left, .right, .right] outcome ∧
    ¬ Op.Doubled (.nextTxSeq .confirmed) (.nextTxSeq .confirmed) outcome.left
      outcome.right := by
  refine ⟨_, .left (.left (.left (.right (.right (.done _ _ _))))), ?_⟩
  exact ((atomic_iff_undisturbed 0 0 (.nextTxSeq .confirmed) (.nextTxSeq .confirmed) counters
    [.left, .left, .left, .right, .right] _
    (.left (.left (.left (.right (.right (.done _ _ _))))))).mpr
      (.inl ⟨.left, 3, 2, rfl⟩)).2

end LoraBridge.CounterTasks
