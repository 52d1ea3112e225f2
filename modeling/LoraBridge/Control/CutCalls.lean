import LoraBridge.Control.AtMostOnce
import LoraBridge.Control.CamC2Send

/-!
# Calls to their end and calls cut off

What `handleInbound` does when it runs to its end, and what holds wherever it or one of
the senders is cut off: the stored reservation stays above the number of every frame that
has left.
-/

namespace LoraBridge.CutCalls

open LoraBridge.Actuation LoraBridge.CamC2 LoraBridge.CamC2Config LoraBridge.Machine
open LoraBridge.ReserveAhead

/-! ## A call of `handleInbound` to its end -/

section Handles

variable {device : Device} {inbound : Inbound} {state : CamC2.State}

/-- How `handleInbound` ends. -/
inductive Handles (device : Device) (inbound : Inbound) (state : CamC2.State) :
    Program.Run CamC2.State Output Bool → Prop
  | ignored : Handles device inbound state ⟨state, [], false⟩
  | unstored (slot : Slot) (frame : Frame) (htrusted : Trusted device inbound state slot frame)
      (hwrite : inbound.rxWrite ≠ .confirmed) :
      Handles device inbound state
        ⟨state.setConfig (state.config.setRx frame.sender
          (inbound.rxWrite.apply (state.config.nvs.rx frame.sender) frame.seq)), [], false⟩
  | command (slot : Slot) (frame : Frame) (htrusted : Trusted device inbound state slot frame)
      (hwrite : inbound.rxWrite = .confirmed) (hcamera : device.camera = true)
      (htype : frame.type = T_CMD) :
      Handles device inbound state
        ⟨((handleCommand device inbound frame).run (acceptedState state slot frame)).state,
          .accepted frame.sender frame.seq ::
            ((handleCommand device inbound frame).run (acceptedState state slot frame)).outputs,
          true⟩
  | message (slot : Slot) (frame : Frame) (htrusted : Trusted device inbound state slot frame)
      (hwrite : inbound.rxWrite = .confirmed) (hcamera : device.camera = true)
      (htype : frame.type = T_MSG) :
      Handles device inbound state
        ⟨{ acceptedState state slot frame with
            ring := storeMessage state.ring frame.sender inbound.camera.uptime frame.plain },
          [.accepted frame.sender frame.seq], true⟩
  | consumed (slot : Slot) (frame : Frame) (htrusted : Trusted device inbound state slot frame)
      (hwrite : inbound.rxWrite = .confirmed) :
      Handles device inbound state
        ⟨acceptedState state slot frame, [.accepted frame.sender frame.seq], true⟩

theorem handles_handleInbound (device : Device) (inbound : Inbound) (state : CamC2.State) :
    Handles device inbound state ((handleInbound device inbound).run state) := by
  unfold handleInbound
  by_cases hready : device.ready = true
  · simp only [hready, Bool.not_true, Bool.false_eq_true, if_false, Program.run_bind]
    have hauth : Auth device inbound state ((authInbound device inbound).run state) :=
      auth_authInbound hready
    generalize (authInbound device inbound).run state = call at hauth
    cases hauth with
    | ignored => exact .ignored
    | unstored slot frame htrusted hwrite => exact .unstored slot frame htrusted hwrite
    | accepted slot frame htrusted hwrite =>
        by_cases hcommand : device.camera = true ∧ frame.type = T_CMD
        · simp only [hcommand, and_self, if_true, Program.run_bind, Program.run_pure,
            List.append_nil]
          exact .command slot frame htrusted hwrite hcommand.1 hcommand.2
        · by_cases hmessage : device.camera = true ∧ frame.type = T_MSG
          · simp only [if_neg hcommand, if_pos hmessage]
            exact .message slot frame htrusted hwrite hmessage.1 hmessage.2
          · simp only [hcommand, hmessage, if_false, Program.run_pure, List.append_nil]
            exact .consumed slot frame htrusted hwrite
  · simp only [hready, Bool.not_false, if_true]
    exact .ignored

/-- `executeCommand` on the payload of a frame. -/
def carryOut (inbound : Inbound) (frame : Frame) (last : LastCommand) :
    UInt8 × List UInt8 × LastCommand :=
  executeCommand inbound.camera (frame.plain.getD 0 CMD_NONE) (frame.plain.drop 1) MAX_PAYLOAD
    last

/-- The acknowledgement of a command that was carried out in this state. -/
def reply (device : Device) (inbound : Inbound) (frame : Frame) (state : CamC2.State) :
    Program.Run CamC2.State Output Unit :=
  (sendAck device inbound frame.sender (carryOut inbound frame state.last).2.1).run
    { state with last := (carryOut inbound frame state.last).2.2 }

theorem run_handleCommand (device : Device) (inbound : Inbound) (frame : Frame)
    (state : CamC2.State) :
    (handleCommand device inbound frame).run state =
      ⟨(reply device inbound frame state).state,
        .executed frame.sender frame.seq (frame.plain.getD 0 CMD_NONE) (frame.plain.drop 1) ::
          (reply device inbound frame state).outputs, ()⟩ := by
  simp only [handleCommand, Program.run_bind, Program.run_read, Program.run_modifyEmit,
    List.nil_append, List.singleton_append]
  rfl

theorem emits_reply (device : Device) (inbound : Inbound) (frame : Frame)
    (state : CamC2.State) :
    Emits device { state with last := (carryOut inbound frame state.last).2.2 }
      (ackRequest state.config.ram.peer frame.sender (carryOut inbound frame state.last).2.1)
      (reply device inbound frame state).outputs (reply device inbound frame state).state :=
  emits_sendAck device inbound frame.sender _ _

end Handles

/-! ## What holds wherever a call is cut off -/

/-- The stored reservation is above every frame sent and no lower than where the device
started; what is fixed of the stored table and floors still holds. -/
structure Durable (base : UInt32) (fixed : Option (Slot → Peer) → (UInt32 → UInt32) → Prop)
    (sent : List UInt32) (state : CamC2.State) (outputs : List Output) : Prop where
  behind : Behind state.config.nvs.txseq (sent ++ seqsOf outputs)
  resumes : base ≤ (txResume state.config.nvs.txseq).next
  stored : fixed state.config.nvs.peers state.config.nvs.rx

section Cut

variable (device : Device) {fixed : Option (Slot → Peer) → (UInt32 → UInt32) → Prop}
  {state : CamC2.State} {base : UInt32} {sent : List UInt32} {history : List Output}

/-- Between two calls of `nextTxSeq` the counter in RAM is sound as well. -/
structure Settled (base : UInt32) (fixed : Option (Slot → Peer) → (UInt32 → UInt32) → Prop)
    (sent : List UInt32) (state : CamC2.State) (outputs : List Output) : Prop where
  numbered : Numbered base state (sent ++ seqsOf outputs)
  stored : fixed state.config.nvs.peers state.config.nvs.rx

theorem Settled.durable (hsettled : Settled base fixed sent state history) :
    Durable base fixed sent state history :=
  ⟨hsettled.numbered.sound.behind, hsettled.numbered.resumes, hsettled.stored⟩

theorem Settled.send (hsettled : Settled base fixed sent state history) (request : Request)
    (radioIdx : ℤ) (txWrite : Write) :
    Settled base fixed sent (state.afterSend txWrite)
      (history ++ request.sent device radioIdx txWrite state) where
  numbered := by
    rw [seqsOf_append, seqsOf_sent, ← List.append_assoc]
    exact hsettled.numbered.send txWrite _
  stored := hsettled.stored

/-- The state changes in nothing that the numbers depend on. -/
theorem Settled.of_eq (hsettled : Settled base fixed sent state history)
    (next : CamC2.State) (outputs : List Output)
    (htx : next.config.ram.tx = state.config.ram.tx)
    (htxseq : next.config.nvs.txseq = state.config.nvs.txseq)
    (hstored : fixed next.config.nvs.peers next.config.nvs.rx)
    (hframes : framesOf outputs = []) :
    Settled base fixed sent next (history ++ outputs) where
  numbered := by
    have hnumbered := hsettled.numbered
    rw [seqsOf_append, show seqsOf outputs = [] by rw [seqsOf, hframes]; rfl, List.append_nil]
    exact ⟨by rw [htxseq, htx]; exact hnumbered.sound, by rw [htx]; exact hnumbered.started,
      by rw [htxseq]; exact hnumbered.resumes, hnumbered.increasing, hnumbered.above⟩
  stored := hstored

theorem keeps_sendSealed (request : Request) (radioIdx : ℤ) (txWrite : Write) (queued : Bool)
    (hsettled : Settled base fixed sent state history) :
    (sendSealed device radioIdx request.type request.recip request.psk request.payload txWrite
      queued).Keeps (Durable base fixed sent) state history := by
  have hafter := (hsettled.send device request radioIdx txWrite).durable
  have hissue : ((nextTxSeq txWrite).within configPart).Keeps (Durable base fixed sent) state
      history := by
    refine Program.keeps_within configPart (keeps_nextTxSeq txWrite fun tx txseq htxseq => ?_)
    simp only [configPart] at htxseq
    rcases htxseq with hsame | habove
    · refine ⟨?_, ?_, hsettled.stored⟩
      · simpa only [configPart, State.setConfig, CamC2Config.State.setTx, hsame] using
          hsettled.numbered.sound.behind
      · simpa only [configPart, State.setConfig, CamC2Config.State.setTx, hsame] using
          hsettled.numbered.resumes
    · refine ⟨fun number hmem => ?_, ?_, hsettled.stored⟩
      · exact UInt32.lt_trans (hsettled.numbered.sound.ahead number hmem) habove
      · exact resumes_above (UInt32.lt_of_le_of_lt hsettled.numbered.started habove)
  have hend := hissue.run
  unfold sendSealed
  refine Program.keeps_bind hissue ?_
  simp only [Program.run_within, run_nextTxSeq, List.append_nil, configPart] at hend ⊢
  rw [Request.sent, State.afterSend, State.issue] at hafter
  cases hissued : (advance SEQ_RESERVE txWrite state.config.ram.tx
      state.config.nvs.txseq).issued with
  | none => exact hend
  | some seq =>
      by_cases hpayload : request.payload.length ≤ MAX_PAYLOAD
      · simp only [buildFrame_request, hpayload, if_true]
        have hdone : Durable base fixed sent (state.setConfig (state.config.setTx
            (advance SEQ_RESERVE txWrite state.config.ram.tx state.config.nvs.txseq).counter
            (advance SEQ_RESERVE txWrite state.config.ram.tx state.config.nvs.txseq).cell))
            (history ++ [.emitted radioIdx (request.frame device seq)]) := by
          simpa [hissued, hpayload, Option.filter] using hafter
        exact Program.keeps_bind (Program.keeps_emit hend hdone) hdone
      · simp only [buildFrame_request, hpayload, if_false]
        exact hend

/-- Every caller only turns the outcome into its own result. -/
theorem keeps_sendSealed_pure {Result : Type} (answer : Option Bool → Result) (type : UInt8)
    (recip : UInt32) (psk payload : List UInt8) (radioIdx : ℤ) (txWrite : Write)
    (queued : Bool) (hsettled : Settled base fixed sent state history) :
    (sendSealed device radioIdx type recip psk payload txWrite queued >>= fun outcome =>
      pure (answer outcome)).Keeps (Durable base fixed sent) state history := by
  have hsend := keeps_sendSealed device ⟨type, recip, psk, payload⟩ radioIdx
    txWrite queued hsettled
  exact Program.keeps_bind hsend hsend.run

theorem keeps_sendMessage (radioIdx : ℤ) (peerId : UInt32) (text : Option (List UInt8))
    (txWrite : Write) (queued : Bool) (hsettled : Settled base fixed sent state history) :
    (sendMessage device radioIdx peerId text txWrite queued).Keeps (Durable base fixed sent) state
      history := by
  have hstart := hsettled.durable
  unfold sendMessage
  cases text with
  | none => exact hstart
  | some bytes =>
      by_cases hclosed : (!device.ready || !device.emitWired) = true
      · simp only [hclosed, if_true]
        exact hstart
      · simp only [hclosed, Bool.false_eq_true, if_false]
        refine Program.keeps_bind (Program.keeps_read hstart) ?_
        simp only [Program.run_read, List.append_nil]
        split
        · exact hstart
        · exact keeps_sendSealed_pure device (·.getD false) _ _ _ _ _ _ _ hsettled

theorem keeps_sendCommand (radioIdx : ℤ) (camId : UInt32) (cmd : UInt8) (args : List UInt8)
    (txWrite : Write) (queued : Bool) (hsettled : Settled base fixed sent state history) :
    (sendCommand device radioIdx camId cmd args txWrite queued).Keeps (Durable base fixed sent)
      state history := by
  have hstart := hsettled.durable
  unfold sendCommand
  by_cases hclosed : (!device.ready || !device.emitWired) = true
  · simp only [hclosed, if_true]
    exact hstart
  · simp only [hclosed, Bool.false_eq_true, if_false]
    refine Program.keeps_bind (Program.keeps_read hstart) ?_
    simp only [Program.run_read, List.append_nil]
    split
    · exact hstart
    · split
      · exact hstart
      · exact keeps_sendSealed_pure device (·.getD false) _ _ _ _ _ _ _ hsettled

theorem keeps_sendAck (inbound : Inbound) (sender : UInt32) (ack : List UInt8)
    (hsettled : Settled base fixed sent state history) :
    (sendAck device inbound sender ack).Keeps (Durable base fixed sent) state history := by
  have hstart := hsettled.durable
  rw [sendAck_eq]
  refine Program.keeps_bind (Program.keeps_read hstart) ?_
  simp only [Program.run_read, List.append_nil]
  split
  · exact hstart
  · split
    · exact keeps_sendSealed_pure device (fun _ => ()) _ _ _ _ _ _ _ hsettled
    · exact hstart

theorem keeps_emitBeacon (radioIdx : ℤ) (camera : Camera) (txWrites : Slot → Write)
    (hsettled : Settled base fixed sent state history) :
    (emitBeacon device radioIdx camera txWrites).Keeps (Durable base fixed sent) state history := by
  have hstart := hsettled.durable
  unfold emitBeacon
  by_cases hclosed : (!device.ready || !device.emitWired) = true
  · simp only [hclosed, if_true]
    exact hstart
  · simp only [hclosed, Bool.false_eq_true, if_false]
    refine Program.keeps_bind (Program.keeps_read hstart) ?_
    simp only [Program.run_read, List.append_nil]
    refine Program.keeps_forEachWhile (Settled base fixed sent)
      (fun _ _ hsettled => hsettled.durable) (fun slot _ next outputs hnext => ?_) hsettled
    by_cases hslot : (next.config.ram.peer slot).configured = true
    · rw [run_beaconTo device radioIdx _ txWrites hslot]
      refine ⟨?_, hnext.send device _ radioIdx (txWrites slot)⟩
      unfold beaconTo
      refine Program.keeps_bind (Program.keeps_read hnext.durable) ?_
      simp only [Program.run_read, List.append_nil, hslot, if_true]
      exact keeps_sendSealed_pure device Option.isSome _ _ _ _ _ _ _ hnext
    · rw [run_beaconTo_skip device radioIdx _ txWrites hslot, List.append_nil]
      refine ⟨?_, hnext⟩
      unfold beaconTo
      refine Program.keeps_bind (Program.keeps_read hnext.durable) ?_
      simp only [Program.run_read, List.append_nil, hslot, Bool.false_eq_true, if_false]
      exact hnext.durable

/-- What `authInbound` writes is neither numbers nor the stored table. -/
theorem keeps_authInbound_durable (inbound : Inbound)
    (hfloors : ∀ peers rx rx', fixed peers rx → fixed peers rx')
    (hsettled : Settled base fixed sent state history) :
    (authInbound device inbound).Keeps (Settled base fixed sent) state history := by
  unfold authInbound
  refine Program.keeps_bind (Program.keeps_read hsettled) ?_
  simp only [Program.run_read, List.append_nil]
  cases authenticate device inbound.buf state.config.ram.peer with
  | none => exact hsettled
  | some found =>
      obtain ⟨slot, frame⟩ := found
      have hquiet : ∀ (next : CamC2Config.State) (outputs : List Output),
          next.ram.tx = state.config.ram.tx → next.nvs.txseq = state.config.nvs.txseq →
          fixed next.nvs.peers next.nvs.rx → framesOf outputs = [] →
          Settled base fixed sent (state.setConfig next) (history ++ outputs) :=
        fun next outputs htx htxseq hstored hframes =>
          hsettled.of_eq _ _ htx htxseq hstored hframes
      have hstored := fun rx => hfloors _ _ rx hsettled.stored
      have haccept : ((acceptInboundSeq slot frame.seq inbound.rxWrite
          fun peerId => Output.accepted peerId frame.seq).within configPart).Keeps
            (Settled base fixed sent) state history := by
        refine Program.keeps_within configPart (keeps_acceptInboundSeq (slotOf_slot slot)
          frame.seq inbound.rxWrite _ hsettled (fun _ _ => ?_) fun _ _ _ => ?_)
        · have hwritten := hquiet (state.config.setRx (state.config.ram.peer slot).peerId
            (inbound.rxWrite.apply (state.config.nvs.rx (state.config.ram.peer slot).peerId)
              frame.seq)) [] rfl rfl (hstored _) rfl
          rwa [List.append_nil] at hwritten
        · exact hquiet _ _ rfl rfl (hstored _) rfl
      refine Program.keeps_bind haccept ?_
      have hend := haccept.run
      split
      · exact hend
      · exact hend

theorem keeps_handleInbound_durable (inbound : Inbound)
    (hfloors : ∀ peers rx rx', fixed peers rx → fixed peers rx')
    (hsettled : Settled base fixed sent state history) :
    (handleInbound device inbound).Keeps (Durable base fixed sent) state history := by
  unfold handleInbound
  by_cases hready : device.ready = true
  · simp only [hready, Bool.not_true, Bool.false_eq_true, if_false]
    have hauth := keeps_authInbound_durable device inbound hfloors hsettled
    refine Program.keeps_bind (hauth.mono fun _ _ hkept => hkept.durable) ?_
    have hafter := hauth.run
    generalize (authInbound device inbound).run state = first at hafter ⊢
    obtain ⟨next, outputs, result⟩ := first
    cases result with
    | none => exact hafter.durable
    | some frame =>
        simp only
        split
        · have hcommand : (handleCommand device inbound frame).Keeps (Durable base fixed sent)
              next (history ++ outputs) := by
            unfold handleCommand
            refine Program.keeps_bind (Program.keeps_read hafter.durable) ?_
            simp only [Program.run_read, List.append_nil]
            have hdone := fun last cmd args => hafter.of_eq { next with last := last }
              [.executed frame.sender frame.seq cmd args] rfl rfl hafter.stored rfl
            refine Program.keeps_bind (Program.keeps_modifyEmit hafter.durable
              (hdone _ _ _).durable) ?_
            simp only [Program.run_modifyEmit]
            exact keeps_sendAck device inbound _ _ (hdone _ _ _)
          exact Program.keeps_bind hcommand hcommand.run
        · split
          · have hstored := hafter.of_eq { next with
              ring := storeMessage next.ring frame.sender inbound.camera.uptime frame.plain }
              [] rfl rfl hafter.stored rfl
            rw [List.append_nil] at hstored
            refine Program.keeps_bind (Program.keeps_modify hafter.durable hstored.durable) ?_
            rw [Program.run_modify, List.append_nil]
            exact hstored.durable
          · exact hafter.durable
  · simp only [hready, Bool.not_false, if_true]
    exact hsettled.durable

end Cut

end LoraBridge.CutCalls
