import LoraBridge.Control.CamC2Config
import LoraBridge.Core.Machine

/-!
# Transmit sequence numbers

The numbers `nextTxSeq` hands out are the nonces of the frames a device sends, and
what its peers hold against their floors.  They start at 1 and strictly increase
over the life of the sender, so a receiver that gets some of them in order accepts
each.
-/

namespace LoraBridge.TxSequence

open LoraBridge.CamC2Config LoraBridge.Machine LoraBridge.ReserveAhead

theorem reserve_small : SEQ_RESERVE ≤ 0xFFFFFFFE := by decide

/-! ## The sender -/

/-- What a frame's keystream is made from. -/
structure Nonce where
  psk : List.Vector UInt8 16
  senderId : UInt32
  seq : UInt32
  deriving DecidableEq

/-- A frame sent to a peer, with what becomes of the reservation's write if it makes
one; or the power goes, between calls or after some steps of one. -/
inductive SenderEvent where
  | send (psk : List.Vector UInt8 16) (write : Write)
  | powerLoss (during : Option (Write × ℕ))

/-- One event of the device with C2 id `myId`. -/
def sendStep (seed : Option Peer) (myId : UInt32) :
    State → SenderEvent → State × List Nonce
  | state, .send psk write =>
      let call := (nextTxSeq write : Program State Nonce (Option UInt32)).run state
      (call.state, call.result.toList.map (Nonce.mk psk myId))
  | state, .powerLoss none => (boot seed state.nvs, [])
  | state, .powerLoss (some (write, steps)) =>
      let (cut, _) := (nextTxSeq write : Program State Nonce (Option UInt32)).cut steps state
      (boot seed cut.nvs, [])

def seqsOf (nonces : List Nonce) : List UInt32 := nonces.map Nonce.seq

@[simp]
theorem seqsOf_append (before after : List Nonce) :
    seqsOf (before ++ after) = seqsOf before ++ seqsOf after := by
  simp [seqsOf]

/-- What holds of a sender and of everything it has sent. -/
structure SenderInv (myId : UInt32) (state : State) (sent : List Nonce) : Prop where
  sound : Sound state.nvs.txseq state.ram.tx (seqsOf sent)
  positive : 1 ≤ state.ram.tx.next
  increasing : (seqsOf sent).Pairwise (· < ·)
  oneBased : ∀ nonce ∈ sent, 1 ≤ nonce.seq
  own : ∀ nonce ∈ sent, nonce.senderId = myId

theorem sound_txResume {cell : UInt32} {issued : List UInt32}
    (hbehind : Behind cell issued) : Sound cell (txResume cell) issued where
  durable := UInt32.le_refl cell
  ahead number hmem := by
    have hless := hbehind number hmem
    unfold txResume
    split
    · grind
    · exact hless
  behind := hbehind

theorem one_le_txResume (cell : UInt32) : 1 ≤ (txResume cell).next := by
  unfold txResume
  split <;> grind

section Sender

variable {seed : Option Peer} {myId : UInt32} {state : State} {sent : List Nonce}

theorem senderInv_boot (nvs : Nvs) : SenderInv myId (boot seed nvs) [] where
  sound := sound_txResume fun number hmem => by simp [seqsOf] at hmem
  positive := one_le_txResume nvs.txseq
  increasing := List.Pairwise.nil
  oneBased nonce hmem := by simp at hmem
  own nonce hmem := by simp at hmem

/-- A restart on a reservation that is ahead of everything sent. -/
theorem SenderInv.boot (hinv : SenderInv myId state sent) {nvs : Nvs}
    (hbehind : Behind nvs.txseq (seqsOf sent)) : SenderInv myId (boot seed nvs) sent where
  sound := sound_txResume hbehind
  positive := one_le_txResume nvs.txseq
  increasing := hinv.increasing
  oneBased := hinv.oneBased
  own := hinv.own

theorem SenderInv.send (hinv : SenderInv myId state sent) (psk : List.Vector UInt8 16)
    (write : Write) :
    SenderInv myId (sendStep seed myId state (.send psk write)).1
      (sent ++ (sendStep seed myId state (.send psk write)).2) := by
  have hsound : Sound (advance SEQ_RESERVE write state.ram.tx state.nvs.txseq).cell
      (advance SEQ_RESERVE write state.ram.tx state.nvs.txseq).counter
      (seqsOf sent ++
        (advance SEQ_RESERVE write state.ram.tx state.nvs.txseq).issued.toList) :=
    sound_advance reserve_small hinv.sound
  simp only [sendStep, run_nextTxSeq]
  cases hissued : (advance SEQ_RESERVE write state.ram.tx state.nvs.txseq).issued with
  | none =>
      have hcounter := counter_advance_of_none reserve_small hissued
      rw [hissued] at hsound
      constructor
      · simpa [State.setTx] using hsound
      · simpa [State.setTx, hcounter] using hinv.positive
      · simpa using hinv.increasing
      · simpa using hinv.oneBased
      · simpa using hinv.own
  | some number =>
      obtain ⟨rfl, hcounter, hsucc⟩ := next_advance reserve_small hissued
      have habove := (issued_advance reserve_small hinv.sound hissued).1
      have hpositive := hinv.positive
      rw [hissued] at hsound
      constructor
      · simpa [State.setTx, seqsOf] using hsound
      · simp only [State.setTx, hcounter]
        grind
      · rw [seqsOf_append, List.pairwise_append]
        refine ⟨hinv.increasing, List.pairwise_singleton _ _, ?_⟩
        intro earlier hearlier later hlater
        obtain rfl : later = state.ram.tx.next := by simpa [seqsOf] using hlater
        exact habove earlier hearlier
      · intro nonce hmem
        rcases List.mem_append.mp hmem with hold | hnew
        · exact hinv.oneBased nonce hold
        · obtain rfl : nonce = ⟨psk, myId, state.ram.tx.next⟩ := by simpa using hnew
          exact hpositive
      · intro nonce hmem
        rcases List.mem_append.mp hmem with hold | hnew
        · exact hinv.own nonce hold
        · obtain rfl : nonce = ⟨psk, myId, state.ram.tx.next⟩ := by simpa using hnew
          rfl

/-- Wherever a call is cut off, its reservation is ahead of everything sent. -/
theorem SenderInv.behind_cut (hinv : SenderInv myId state sent) (write : Write)
    (steps : ℕ) :
    Behind ((nextTxSeq write : Program State Nonce (Option UInt32)).cut steps
      state).1.nvs.txseq (seqsOf sent) := by
  have hkeeps : (nextTxSeq write : Program State Nonce (Option UInt32)).Keeps
      (fun state _ => Behind state.nvs.txseq (seqsOf sent)) state [] := by
    refine keeps_nextTxSeq write fun tx txseq htxseq number hmem => ?_
    have hbehind := hinv.sound.behind number hmem
    have hahead := hinv.sound.ahead number hmem
    simp only [State.setTx]
    grind
  exact hkeeps.cut steps

theorem SenderInv.step (hinv : SenderInv myId state sent) (event : SenderEvent) :
    SenderInv myId (sendStep seed myId state event).1
      (sent ++ (sendStep seed myId state event).2) := by
  cases event with
  | send psk write => exact hinv.send psk write
  | powerLoss during =>
      cases during with
      | none => simpa [sendStep] using hinv.boot hinv.sound.behind
      | some call =>
          simpa [sendStep] using hinv.boot (hinv.behind_cut call.1 call.2)

theorem senderInv_run (nvs : Nvs) (events : List SenderEvent) :
    SenderInv myId (run (sendStep seed myId) (boot seed nvs) events).1
      (run (sendStep seed myId) (boot seed nvs) events).2 := by
  have hstep : ∀ state sent event, SenderInv myId state sent →
      SenderInv myId (sendStep seed myId state event).1
        (sent ++ (sendStep seed myId state event).2) :=
    fun _ _ event hinv => hinv.step event
  simpa using invariant_run_always hstep events (senderInv_boot nvs)

end Sender

/-! ## The receiver -/

/-- A frame of the sender arrives, its floor is stored; or the receiver restarts. -/
inductive ReceiverEvent where
  | deliver (seq : UInt32)
  | reboot

/-- The receiver keeps the sender in slot `i`; it emits what it accepts. -/
def receiveStep (seed : Option Peer) (i : ℤ) :
    State → ReceiverEvent → State × List (UInt32 × UInt32)
  | state, .deliver seq =>
      let call := (acceptInboundSeq i seq .confirmed fun peerId => (peerId, seq)).run state
      (call.state, call.outputs)
  | state, .reboot => (boot seed state.nvs, [])

def delivered : List ReceiverEvent → List UInt32
  | [] => []
  | .deliver seq :: rest => seq :: delivered rest
  | .reboot :: rest => delivered rest

/-- The receiver trusts `senderId` in this slot, now and after a restart, and has
accepted nothing above the floor. -/
structure Trusts (seed : Option Peer) (slot : Slot) (senderId floor : UInt32)
    (state : State) : Prop where
  nonzero : senderId ≠ 0
  peerId : (state.ram.peer slot).peerId = senderId
  inUse : (state.ram.peer slot).inUse ≠ 0
  ramFloor : (state.ram.peer slot).rxHighWater = floor
  nvsFloor : state.nvs.rx senderId = floor
  restart : ((begin seed state.nvs).peer slot).identity = (state.ram.peer slot).identity

section Receiver

variable {seed : Option Peer} {slot : Slot} {senderId floor : UInt32} {state : State}

theorem Trusts.reboot (htrusts : Trusts seed slot senderId floor state) :
    Trusts seed slot senderId floor (boot seed state.nvs) := by
  have hid : ((begin seed state.nvs).peer slot).peerId = senderId :=
    (congrArg Peer.peerId htrusts.restart).trans htrusts.peerId
  have huse : ((begin seed state.nvs).peer slot).inUse ≠ 0 :=
    (congrArg Peer.inUse htrusts.restart).trans_ne htrusts.inUse
  refine ⟨htrusts.nonzero, hid, huse, ?_, htrusts.nvsFloor, rfl⟩
  have hfloor := begin_floor seed state.nvs slot (hid ▸ htrusts.nonzero)
  rw [hid, htrusts.nvsFloor] at hfloor
  exact hfloor

theorem Trusts.deliver (htrusts : Trusts seed slot senderId floor state) {seq : UInt32}
    (habove : floor < seq) :
    (receiveStep seed slot state (.deliver seq)).2 = [(senderId, seq)] ∧
      Trusts seed slot senderId seq (receiveStep seed slot state (.deliver seq)).1 := by
  have haccepts := accepts_acceptInboundSeq (slotOf_slot slot) seq .confirmed
    (fun peerId => (peerId, seq)) state
  have hconfigured : (state.ram.peer slot).configured := by
    simp [Peer.configured, htrusts.inUse, htrusts.peerId, htrusts.nonzero]
  simp only [receiveStep]
  generalize (acceptInboundSeq slot seq .confirmed fun peerId => (peerId, seq)).run state
    = call at haccepts
  cases haccepts with
  | rejected hreason =>
      rcases hreason with hpeer | hfloor
      · rw [hconfigured] at hpeer
        cases hpeer
      · rw [htrusts.ramFloor] at hfloor
        grind
  | unstored _ _ hwrite => exact absurd rfl hwrite
  | stored _ _ _ =>
      have hid := htrusts.peerId
      refine ⟨by rw [hid], htrusts.nonzero, ?_, ?_, ?_, ?_, ?_⟩
      · simpa [State.setFloor, State.setPeers, State.setRx] using hid
      · simpa [State.setFloor, State.setPeers, State.setRx] using htrusts.inUse
      · simp [State.setFloor, State.setPeers]
      · simp [State.setFloor, State.setPeers, State.setRx, hid]
      · refine (begin_identity seed ?_ slot).trans (htrusts.restart.trans ?_)
        · rfl
        · simp [State.setFloor, State.setPeers, State.setRx, Peer.identity]

/-- Frames in increasing order above the floor are all accepted. -/
theorem Trusts.run (htrusts : Trusts seed slot senderId floor state)
    (events : List ReceiverEvent) (hincreasing : (delivered events).Pairwise (· < ·))
    (habove : ∀ seq ∈ delivered events, floor < seq) :
    (run (receiveStep seed slot) state events).2 =
      (delivered events).map fun seq => (senderId, seq) := by
  induction events generalizing state floor with
  | nil => rfl
  | cons event rest ih =>
      cases event with
      | reboot => exact ih htrusts.reboot hincreasing habove
      | deliver seq =>
          obtain ⟨hlater, hrest⟩ := List.pairwise_cons.mp hincreasing
          obtain ⟨haccepted, htrusts'⟩ := htrusts.deliver (habove seq List.mem_cons_self)
          simp only [Machine.run, delivered, List.map_cons, haccepted]
          rw [ih htrusts' hrest hlater]
          rfl

end Receiver

/-! ## Sender and receiver -/

/-- Over the whole life of a sender its sequence numbers start at 1 and strictly
increase, so no keystream nonce is used twice; and every receiver with floor 0 that
gets any of its frames in order, and restarts in between, accepts each of them. -/
theorem c2_sequences_never_repeat (seed : Option Peer) (myId : UInt32) (nvs : Nvs)
    (events : List SenderEvent) :
    (∀ nonce ∈ (run (sendStep seed myId) (boot seed nvs) events).2, 1 ≤ nonce.seq) ∧
      (seqsOf (run (sendStep seed myId) (boot seed nvs) events).2).Pairwise (· < ·) ∧
      (run (sendStep seed myId) (boot seed nvs) events).2.Nodup ∧
      ∀ (seed' : Option Peer) (slot : Slot) (receiver : State)
        (deliveries : List ReceiverEvent), Trusts seed' slot myId 0 receiver →
        (delivered deliveries).Sublist
          (seqsOf (run (sendStep seed myId) (boot seed nvs) events).2) →
        (run (receiveStep seed' slot) receiver deliveries).2 =
          (delivered deliveries).map fun seq => (myId, seq) := by
  have hinv : SenderInv myId (run (sendStep seed myId) (boot seed nvs) events).1
      (run (sendStep seed myId) (boot seed nvs) events).2 := senderInv_run nvs events
  generalize run (sendStep seed myId) (boot seed nvs) events = life at *
  have hnodup : life.2.Nodup := by
    refine List.Nodup.of_map Nonce.seq (hinv.increasing.imp fun hless heq => ?_)
    rw [heq] at hless
    exact absurd hless (by grind)
  refine ⟨hinv.oneBased, hinv.increasing, hnodup, ?_⟩
  intro seed' slot receiver deliveries htrusts hdelivered
  refine htrusts.run deliveries (hinv.increasing.sublist hdelivered) fun seq hmem => ?_
  obtain ⟨nonce, hnonce, rfl⟩ := List.mem_map.mp (hdelivered.subset hmem)
  have := hinv.oneBased nonce hnonce
  grind

/-- A sender that restarts three times, once inside a reservation. -/
def restlessSender : List SenderEvent :=
  let psk := List.Vector.replicate 16 0
  [.send psk .confirmed, .send psk .confirmed, .powerLoss none, .send psk .lost,
    .send psk .confirmed, .powerLoss (some (.confirmed, 2)), .send psk .unconfirmed,
    .powerLoss none, .send psk .confirmed]

/-- A receiver whose stored table has peer 7 in slot 0. -/
def receiverNvs : Nvs where
  peers := some (Function.update (fun _ => Peer.empty) Slot.first
    { Peer.empty with inUse := 1, peerId := 7 })
  rx _ := 0
  txseq := 0

theorem restlessSender_accepted :
    seqsOf (run (sendStep none 7) (boot none ⟨none, fun _ => 0, 0⟩) restlessSender).2 =
        [1, 2, 18, 52] ∧
      (run (receiveStep none Slot.first) (boot none receiverNvs)
        [.deliver 1, .reboot, .deliver 18, .deliver 52]).2 =
          [(7, 1), (7, 18), (7, 52)] := by
  have hseqs : seqsOf (run (sendStep none 7) (boot none ⟨none, fun _ => 0, 0⟩)
      restlessSender).2 = [1, 2, 18, 52] := by decide
  refine ⟨hseqs, (c2_sequences_never_repeat none 7 ⟨none, fun _ => 0, 0⟩
    restlessSender).2.2.2 none Slot.first (boot none receiverNvs)
    [.deliver 1, .reboot, .deliver 18, .deliver 52] ?_ ?_⟩
  · exact ⟨by decide, by decide, by decide, by decide, by decide, by decide⟩
  · rw [hseqs]
    decide

end LoraBridge.TxSequence
