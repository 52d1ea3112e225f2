import LoraBridge.Control.Actuation

/-!
# Acknowledgements

What a call of `handleInbound` emits: nothing, or the acknowledgement of a command that a
camera has accepted, for the radio of the command.
-/

namespace LoraBridge.Acknowledgements

open LoraBridge.Actuation LoraBridge.CamC2 LoraBridge.CamC2Config LoraBridge.Program

/-- Nothing but acknowledgements for the radio of the frame. -/
def Acknowledges (inbound : Inbound) : Output → Prop
  | .emitted radioIdx frame =>
      radioIdx = inbound.radioIdx ∧ frame.getD 0 0 = MAGIC_VER ∧ frame.getD 1 0 = T_ACK
  | _ => True

variable (device : CamC2.Device) (inbound : Inbound)

theorem head_buildFrame {aes : Cipher.BlockCipher} {type : UInt8}
    {senderId recipientId seq : UInt32} {psk payload : List UInt8} {cap : ℕ}
    {frame : List UInt8}
    (hframe : buildFrame aes type senderId recipientId seq psk payload cap = some frame) :
    frame.getD 0 0 = MAGIC_VER ∧ frame.getD 1 0 = type := by
  rw [buildFrame] at hframe
  split at hframe
  · cases hframe
  · split at hframe
    · cases hframe
    · rw [← Option.some.inj hframe]
      exact ⟨rfl, rfl⟩

theorem acknowledges_sendAck (sender : UInt32) (ack : List UInt8) :
    (sendAck device inbound sender ack).Respects (.emitsOnly _ (Acknowledges inbound)) := by
  refine respects_bind (respects_read _) fun peer => ?_
  cases CamC2Config.resolve peer sender with
  | none => exact respects_pure ()
  | some idx =>
      refine respects_ite (fun _ => ?_) fun _ => respects_pure ()
      refine respects_bind (emitsOnly_within configPart fun state => ?_) fun txSeq => ?_
      · rw [run_nextTxSeq]
        exact emitsOnly_nil _ _ _ _
      · cases txSeq with
        | none => exact respects_pure ()
        | some seq =>
            cases hframe : buildFrame device.aes T_ACK device.myC2Id sender seq
                (peer idx).psk.toList ack MAX_FRAME with
            | none =>
                simp only [hframe]
                exact respects_pure ()
            | some frame =>
                simp only [hframe]
                refine emitsOnly_modifyEmit fun output hmem => ?_
                rw [List.mem_singleton.mp hmem]
                exact ⟨rfl, head_buildFrame hframe⟩

theorem acknowledges_handleCommand (frame : Frame) :
    (handleCommand device inbound frame).Respects (.emitsOnly _ (Acknowledges inbound)) := by
  refine respects_bind (respects_read _) fun last => ?_
  refine respects_bind (emitsOnly_modifyEmit fun output hmem => ?_) fun _ =>
    acknowledges_sendAck device inbound _ _
  rw [List.mem_singleton.mp hmem]
  trivial

/-- Only an accepted command of a camera emits anything. -/
theorem emitted_handleInbound (state : CamC2.State) {radioIdx : ℤ} {frame : List UInt8}
    (hemitted : .emitted radioIdx frame ∈ ((handleInbound device inbound).run state).outputs) :
    ((handleInbound device inbound).run state).result = true ∧
      (device.camera = true ∧ inbound.buf.getD 1 0 = T_CMD) ∧
      radioIdx = inbound.radioIdx ∧ frame.getD 0 0 = MAGIC_VER ∧ frame.getD 1 0 = T_ACK := by
  rw [handleInbound] at hemitted ⊢
  by_cases hready : device.ready = true
  · have hauth : Auth device inbound state ((authInbound device inbound).run state) :=
      auth_authInbound hready
    simp only [hready, Bool.not_true, Bool.false_eq_true, if_false, run_bind] at hemitted ⊢
    generalize (authInbound device inbound).run state = first at hauth hemitted ⊢
    cases hauth with
    | ignored => simp at hemitted
    | unstored slot found htrusted hwrite => simp at hemitted
    | accepted slot found htrusted hwrite =>
        have hack := acknowledges_handleCommand device inbound found
          (acceptedState state slot found)
        by_cases hcommand : device.camera ∧ found.type = T_CMD
        · simp only [if_pos hcommand, run_bind, run_pure, List.append_nil] at hemitted ⊢
          have hafter := (List.mem_cons.mp hemitted).resolve_left (by simp)
          have htype := (fields_of_verify htrusted.verified).1
          exact ⟨trivial, ⟨hcommand.1, htype ▸ hcommand.2⟩, hack _ hafter⟩
        · simp only [if_neg hcommand] at hemitted
          split at hemitted
          · simp at hemitted
          · simp at hemitted
  · simp [hready] at hemitted

end LoraBridge.Acknowledgements
