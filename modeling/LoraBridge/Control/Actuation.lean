import LoraBridge.Control.CamC2Codec
import LoraBridge.Core.Machine

/-!
# At-most-once actuation

Everything `handleInbound` can have done when it is cut off is one of three things:
nothing, a new floor in NVS, or the whole acceptance of one trusted frame and what
follows from it.  A floor that reaches NVS before it reaches RAM makes a frame that
was accepted once stale for good, also after a restart.
-/

namespace LoraBridge.Actuation

open LoraBridge.CamC2 LoraBridge.CamC2Config LoraBridge.Machine LoraBridge.ReserveAhead

/-- The frame decodes, is addressed to this device, and verifies under the key of
the enabled peer it names, whose floor it is above. -/
structure Trusted (device : Device) (inbound : Inbound) (state : CamC2.State)
    (slot : Slot) (frame : Frame) : Prop where
  ready : device.ready = true
  addressed : frame.recip = 0 ∨ frame.recip = device.myC2Id
  resolved : resolve state.config.ram.peer frame.sender = some slot
  verified : verifyAndDecrypt device.aes inbound.buf
    (state.config.ram.peer slot).psk.toList = some frame
  fresh : (state.config.ram.peer slot).rxHighWater < frame.seq

/-- What follows an acceptance: commands executed for this frame, and ACKs. -/
def Consequence (frame : Frame) : Output → Prop
  | .accepted _ _ => False
  | .executed sender seq _ _ => sender = frame.sender ∧ seq = frame.seq
  | .emitted _ _ => True

/-- The state right after the acceptance of a frame. -/
def acceptedState (state : CamC2.State) (slot : Slot) (frame : Frame) : CamC2.State :=
  state.setConfig ((state.config.setRx frame.sender frame.seq).setFloor slot frame.seq)

/-- The frame was accepted: its floor is in NVS and in RAM, and nothing but its
consequences was emitted after it. -/
structure Acted (state : CamC2.State) (slot : Slot) (frame : Frame)
    (next : CamC2.State) (outputs : List Output) : Prop where
  rx : next.config.nvs.rx = Function.update state.config.nvs.rx frame.sender frame.seq
  peer : next.config.ram.peer = Function.update state.config.ram.peer slot
    { state.config.ram.peer slot with rxHighWater := frame.seq }
  consequences : ∃ rest, outputs = .accepted frame.sender frame.seq :: rest ∧
    ∀ output ∈ rest, Consequence frame output

/-- Where `handleInbound` can be cut off, and what it has emitted by then. -/
inductive Point (device : Device) (inbound : Inbound) (state : CamC2.State) :
    CamC2.State → List Output → Prop
  | untouched : Point device inbound state state []
  | written (slot : Slot) (frame : Frame)
      (htrusted : Trusted device inbound state slot frame) :
      Point device inbound state
        (state.setConfig (state.config.setRx frame.sender
          (inbound.rxWrite.apply (state.config.nvs.rx frame.sender) frame.seq))) []
  | accepted (slot : Slot) (frame : Frame) (next : CamC2.State) (outputs : List Output)
      (htrusted : Trusted device inbound state slot frame)
      (hwrite : inbound.rxWrite = .confirmed)
      (hacted : Acted state slot frame next outputs) :
      Point device inbound state next outputs

/-! ## What authentication lets through -/

/-- How `authInbound` comes out. -/
inductive Auth (device : Device) (inbound : Inbound) (state : CamC2.State) :
    Program.Run CamC2.State Output (Option Frame) → Prop
  | ignored : Auth device inbound state ⟨state, [], none⟩
  | unstored (slot : Slot) (frame : Frame)
      (htrusted : Trusted device inbound state slot frame)
      (hwrite : inbound.rxWrite ≠ .confirmed) :
      Auth device inbound state
        ⟨state.setConfig (state.config.setRx frame.sender
          (inbound.rxWrite.apply (state.config.nvs.rx frame.sender) frame.seq)), [], none⟩
  | accepted (slot : Slot) (frame : Frame)
      (htrusted : Trusted device inbound state slot frame)
      (hwrite : inbound.rxWrite = .confirmed) :
      Auth device inbound state
        ⟨acceptedState state slot frame, [.accepted frame.sender frame.seq], some frame⟩

theorem fields_of_verify {aes : Cipher.BlockCipher} {buf psk : List UInt8} {frame : Frame}
    (hverify : verifyAndDecrypt aes buf psk = some frame) :
    frame.type = buf.getD 1 0 ∧ frame.sender = get32le buf 2 ∧ frame.recip = get32le buf 6 := by
  obtain ⟨-, rfl⟩ := verifyAndDecrypt_eq_some_iff.mp hverify
  exact ⟨rfl, rfl, rfl⟩

section Auth

variable {device : Device} {inbound : Inbound} {state : CamC2.State}

theorem authenticate_spec {buf : List UInt8} {peer : Slot → Peer} {slot : Slot}
    {frame : Frame} (hauth : authenticate device buf peer = some (slot, frame)) :
    (frame.recip = 0 ∨ frame.recip = device.myC2Id) ∧
      resolve peer frame.sender = some slot ∧
      verifyAndDecrypt device.aes buf (peer slot).psk.toList = some frame := by
  unfold authenticate at hauth
  split at hauth
  · cases hauth
  · split at hauth
    · cases hauth
    · simp only at hauth
      split at hauth
      · cases hauth
      · rename_i haddress
        obtain ⟨idx, hresolve, hauth⟩ := Option.bind_eq_some_iff.mp hauth
        obtain ⟨found, hverify, hauth⟩ := Option.bind_eq_some_iff.mp hauth
        obtain ⟨rfl, rfl⟩ := Prod.mk.inj (Option.some.inj hauth)
        obtain ⟨-, hsender, hrecip⟩ := fields_of_verify hverify
        refine ⟨?_, hsender ▸ hresolve, hverify⟩
        rw [hrecip]
        by_contra hother
        exact haddress (not_or.mp hother)

theorem auth_authInbound (hready : device.ready = true) :
    Auth device inbound state ((authInbound device inbound).run state) := by
  simp only [authInbound, Program.run_bind, Program.run_read, List.nil_append]
  cases hauth : authenticate device inbound.buf state.config.ram.peer with
  | none => exact .ignored
  | some found =>
      obtain ⟨slot, frame⟩ := found
      obtain ⟨haddressed, hresolved, hverified⟩ := authenticate_spec hauth
      obtain ⟨-, hid⟩ := resolve_spec hresolved
      have haccepts := accepts_acceptInboundSeq (slotOf_slot slot) frame.seq
        inbound.rxWrite (fun peerId => Output.accepted peerId frame.seq) state.config
      simp only [Program.run_bind, Program.run_within, configPart]
      generalize (acceptInboundSeq slot frame.seq inbound.rxWrite
        fun peerId => Output.accepted peerId frame.seq).run state.config = call at haccepts
      cases haccepts with
      | rejected _ => exact .ignored
      | unstored _ hfresh hwrite =>
          have htrusted : Trusted device inbound state slot frame :=
            ⟨hready, haddressed, hresolved, hverified, hfresh⟩
          simpa [hid] using Auth.unstored slot frame htrusted hwrite
      | stored _ hfresh hwrite =>
          have htrusted : Trusted device inbound state slot frame :=
            ⟨hready, haddressed, hresolved, hverified, hfresh⟩
          simpa [hid, acceptedState] using Auth.accepted slot frame htrusted hwrite

theorem acted_accept (slot : Slot) (frame : Frame) :
    Acted state slot frame (acceptedState state slot frame)
      [.accepted frame.sender frame.seq] :=
  ⟨rfl, rfl, [], rfl, by simp⟩

theorem keeps_authInbound (hready : device.ready = true) :
    (authInbound device inbound).Keeps (Point device inbound state) state [] := by
  unfold authInbound
  refine Program.keeps_bind (Program.keeps_read .untouched) ?_
  simp only [Program.run_read, List.append_nil]
  cases hauth : authenticate device inbound.buf state.config.ram.peer with
  | none => exact .untouched
  | some found =>
      obtain ⟨slot, frame⟩ := found
      obtain ⟨haddressed, hresolved, hverified⟩ := authenticate_spec hauth
      obtain ⟨-, hid⟩ := resolve_spec hresolved
      have htrusted : (state.config.ram.peer slot).rxHighWater < frame.seq →
          Trusted device inbound state slot frame :=
        fun hfresh => ⟨hready, haddressed, hresolved, hverified, hfresh⟩
      have haccept : ((acceptInboundSeq slot frame.seq inbound.rxWrite
          fun peerId => Output.accepted peerId frame.seq).within configPart).Keeps
            (Point device inbound state) state [] := by
        refine Program.keeps_within configPart (keeps_acceptInboundSeq (slotOf_slot slot)
          frame.seq inbound.rxWrite _ .untouched (fun _ hfresh => ?_)
          fun _ hfresh hwrite => ?_)
        · have hpoint := Point.written slot frame (htrusted hfresh)
          simpa only [configPart, hid] using hpoint
        · have hpoint := Point.accepted slot frame _ _ (htrusted hfresh) hwrite
            (acted_accept slot frame)
          simpa only [configPart, hid, acceptedState, List.nil_append] using hpoint
      refine Program.keeps_bind haccept ?_
      have hend := haccept.run
      split
      · exact hend
      · exact hend

end Auth

/-! ## What follows an acceptance -/

section Consequences

variable {device : Device} {inbound : Inbound} {invariant : CamC2.State → List Output → Prop}

theorem keeps_sendAck {state : CamC2.State} {history : List Output} (sender : UInt32)
    (ack : List UInt8) (hstart : invariant state history)
    (htx : ∀ tx txseq, invariant (state.setConfig (state.config.setTx tx txseq)) history)
    (hemit : ∀ next radioIdx frame, invariant next history →
      invariant next (history ++ [.emitted radioIdx frame])) :
    (sendAck device inbound sender ack).Keeps invariant state history := by
  unfold sendAck
  refine Program.keeps_bind (Program.keeps_read hstart) ?_
  simp only [Program.run_read, List.append_nil]
  split
  · exact hstart
  · split
    · have hnext : ((nextTxSeq inbound.txWrite).within configPart).Keeps invariant state
          history :=
        Program.keeps_within configPart (keeps_nextTxSeq inbound.txWrite
          fun tx txseq _ => htx tx txseq)
      have hend := hnext.run
      refine Program.keeps_bind hnext ?_
      split
      · exact hend
      · split
        · exact hend
        · simp only [Program.run_within, run_nextTxSeq, List.append_nil] at hend ⊢
          exact Program.keeps_emit hend (hemit _ _ _ hend)
    · exact hstart

theorem keeps_handleCommand {state : CamC2.State} {history : List Output} (frame : Frame)
    (hstart : invariant state history)
    (hexecute : ∀ last cmd args, invariant { state with last := last }
      (history ++ [.executed frame.sender frame.seq cmd args]))
    (htx : ∀ last tx txseq history', invariant { state with last := last } history' →
      invariant { state.setConfig (state.config.setTx tx txseq) with last := last } history')
    (hemit : ∀ next history' radioIdx frame, invariant next history' →
      invariant next (history' ++ [.emitted radioIdx frame])) :
    (handleCommand device inbound frame).Keeps invariant state history := by
  unfold handleCommand
  refine Program.keeps_bind (Program.keeps_read hstart) ?_
  simp only [Program.run_read, List.append_nil]
  have hdone := fun last => hexecute last (frame.plain.getD 0 CMD_NONE) (frame.plain.drop 1)
  refine Program.keeps_bind (Program.keeps_modifyEmit hstart (hdone _)) ?_
  simp only [Program.run_modifyEmit]
  exact keeps_sendAck _ _ (hdone _) (fun tx txseq => htx _ tx txseq _ (hdone _))
    fun next radioIdx frame hnext => hemit next _ radioIdx frame hnext

end Consequences

theorem Acted.emit {state next : CamC2.State} {slot : Slot} {frame : Frame}
    {outputs : List Output} (hacted : Acted state slot frame next outputs)
    (next' : CamC2.State) (hrx : next'.config.nvs.rx = next.config.nvs.rx)
    (hpeer : next'.config.ram.peer = next.config.ram.peer) (more : List Output)
    (hmore : ∀ output ∈ more, Consequence frame output) :
    Acted state slot frame next' (outputs ++ more) := by
  obtain ⟨rest, houtputs, hrest⟩ := hacted.consequences
  refine ⟨hrx.trans hacted.rx, hpeer.trans hacted.peer, rest ++ more, by simp [houtputs], ?_⟩
  intro output hmem
  rcases List.mem_append.mp hmem with hold | hnew
  · exact hrest output hold
  · exact hmore output hnew

/-- Wherever the handling of a frame is cut off, it has come to one of these points. -/
theorem keeps_handleInbound (device : Device) (inbound : Inbound) (state : CamC2.State) :
    (handleInbound device inbound).Keeps (Point device inbound state) state [] := by
  unfold handleInbound
  by_cases hready : device.ready = true
  · simp only [hready, Bool.not_true, Bool.false_eq_true, if_false]
    refine Program.keeps_bind (keeps_authInbound hready) ?_
    have hauth : Auth device inbound state ((authInbound device inbound).run state) :=
      auth_authInbound hready
    generalize (authInbound device inbound).run state = call at hauth
    cases hauth with
    | ignored => exact .untouched
    | unstored slot frame htrusted _ => exact .written slot frame htrusted
    | accepted slot frame htrusted hwrite =>
        have hacted : Acted state slot frame (acceptedState state slot frame)
            [.accepted frame.sender frame.seq] := acted_accept slot frame
        have hpoint := Point.accepted slot frame _ _ htrusted hwrite hacted
        simp only [List.nil_append]
        split
        · have hcommand : (handleCommand device inbound frame).Keeps
              (Point device inbound state) (acceptedState state slot frame)
              [.accepted frame.sender frame.seq] := by
            refine .mono (keeps_handleCommand frame hacted ?_ ?_ ?_) fun next outputs hnext =>
              .accepted slot frame next outputs htrusted hwrite hnext
            · exact fun last cmd args =>
                hacted.emit { acceptedState state slot frame with last := last } rfl rfl
                  [.executed frame.sender frame.seq cmd args] (by simp [Consequence])
            · exact fun last tx txseq outputs hlast =>
                ⟨hlast.rx, hlast.peer, hlast.consequences⟩
            · exact fun next outputs radioIdx reply hnext =>
                hnext.emit next rfl rfl [.emitted radioIdx reply] (by simp [Consequence])
          exact Program.keeps_bind hcommand hcommand.run
        · split
          · refine Program.keeps_bind (Program.keeps_modify hpoint ?_) ?_
            · exact .accepted slot frame _ _ htrusted hwrite
                ⟨hacted.rx, hacted.peer, hacted.consequences⟩
            · exact .accepted slot frame _ _ htrusted hwrite
                ⟨hacted.rx, hacted.peer, hacted.consequences⟩
          · exact hpoint
  · simp only [hready, Bool.not_false, if_true]
    exact .untouched

/-! ## What a rejected frame leaves behind -/

/-- Nothing has changed but perhaps, after a failed write, the stored floor of the
sender of a trusted frame. -/
structure Unchanged (device : Device) (inbound : Inbound) (state next : CamC2.State) :
    Prop where
  ram : next.config.ram = state.config.ram
  peers : next.config.nvs.peers = state.config.nvs.peers
  txseq : next.config.nvs.txseq = state.config.nvs.txseq
  ring : next.ring = state.ring
  last : next.last = state.last
  rx : ∀ sender, next.config.nvs.rx sender = state.config.nvs.rx sender ∨
    inbound.rxWrite ≠ .confirmed ∧ ∃ slot frame, Trusted device inbound state slot frame ∧
      sender = frame.sender ∧ next.config.nvs.rx sender = frame.seq

theorem Unchanged.refl (device : Device) (inbound : Inbound) (state : CamC2.State) :
    Unchanged device inbound state state :=
  ⟨rfl, rfl, rfl, rfl, rfl, fun _ => .inl rfl⟩

theorem unchanged_unstored {device : Device} {inbound : Inbound} {state : CamC2.State}
    {slot : Slot} {frame : Frame} (htrusted : Trusted device inbound state slot frame)
    (hwrite : inbound.rxWrite ≠ .confirmed) :
    Unchanged device inbound state (state.setConfig (state.config.setRx frame.sender
      (inbound.rxWrite.apply (state.config.nvs.rx frame.sender) frame.seq))) := by
  refine ⟨rfl, rfl, rfl, rfl, rfl, fun sender => ?_⟩
  by_cases hsender : sender = frame.sender
  · subst hsender
    cases hkind : inbound.rxWrite with
    | confirmed => exact absurd hkind hwrite
    | lost => exact .inl (by simp [State.setConfig, State.setRx, Write.apply])
    | unconfirmed =>
        exact .inr ⟨by simp, slot, frame, htrusted, rfl,
          by simp [State.setConfig, State.setRx, Write.apply]⟩
  · exact .inl (by simp [State.setConfig, State.setRx, hsender])

/-- A frame that is not consumed emits nothing and changes nothing else. -/
theorem unchanged_of_rejected {device : Device} {inbound : Inbound} {state : CamC2.State}
    (hrejected : ((handleInbound device inbound).run state).result = false) :
    Unchanged device inbound state ((handleInbound device inbound).run state).state ∧
      ((handleInbound device inbound).run state).outputs = [] := by
  unfold handleInbound at hrejected ⊢
  by_cases hready : device.ready = true
  · simp only [hready, Bool.not_true, Bool.false_eq_true, if_false, Program.run_bind]
      at hrejected ⊢
    have hauth : Auth device inbound state ((authInbound device inbound).run state) :=
      auth_authInbound hready
    generalize (authInbound device inbound).run state = call at hauth hrejected ⊢
    cases hauth with
    | ignored => exact ⟨.refl device inbound state, rfl⟩
    | unstored slot frame htrusted hwrite => exact ⟨unchanged_unstored htrusted hwrite, rfl⟩
    | accepted slot frame htrusted hwrite =>
        simp only at hrejected
        split at hrejected
        · simp at hrejected
        · split at hrejected
          · simp at hrejected
          · simp at hrejected
  · simp only [hready, Bool.not_false, if_true]
    exact ⟨.refl device inbound state, rfl⟩

end LoraBridge.Actuation
