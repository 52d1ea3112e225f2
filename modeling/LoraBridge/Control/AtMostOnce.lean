import LoraBridge.Control.Actuation

/-!
# Frames accepted over the life of a device

The device handles one frame after the other and may lose power inside any of them.
What it has accepted from a peer is never above the stored floor of the peer, nor
above the floor of the slot the peer resolves to.
-/

namespace LoraBridge.AtMostOnce

open LoraBridge.Actuation LoraBridge.CamC2 LoraBridge.CamC2Config LoraBridge.Machine
open LoraBridge.ReserveAhead

/-- A frame is handled; or the power goes, between frames or after some steps of the
handling of one, and the device starts again. -/
inductive Event where
  | frame (inbound : Inbound)
  | powerLoss (during : Option (Inbound × ℕ))

def step (device : Device) : CamC2.State → Event → CamC2.State × List Output
  | state, .frame inbound =>
      let call := (handleInbound device inbound).run state
      (call.state, call.outputs)
  | state, .powerLoss none => (CamC2.boot device state.config.nvs, [])
  | state, .powerLoss (some (inbound, steps)) =>
      let (cut, outputs) := (handleInbound device inbound).cut steps state
      (CamC2.boot device cut.config.nvs, outputs)

/-- The sequence numbers accepted from one sender, oldest first. -/
def acceptedOf (sender : UInt32) (history : List Output) : List UInt32 :=
  history.filterMap fun output =>
    match output with
    | .accepted peerId seq => if peerId = sender then some seq else none
    | _ => none

@[simp]
theorem acceptedOf_append (sender : UInt32) (before after : List Output) :
    acceptedOf sender (before ++ after) =
      acceptedOf sender before ++ acceptedOf sender after := by
  simp [acceptedOf]

theorem acceptedOf_consequences {frame : Frame} {rest : List Output}
    (hrest : ∀ output ∈ rest, Consequence frame output) (sender : UInt32) :
    acceptedOf sender rest = [] := by
  refine List.filterMap_eq_nil_iff.mpr fun output hmem => ?_
  cases output with
  | accepted peerId seq => exact (hrest _ hmem).elim
  | executed => rfl
  | emitted => rfl

theorem acceptedOf_of_acted {state next : CamC2.State} {slot : Slot} {frame : Frame}
    {outputs : List Output} (hacted : Acted state slot frame next outputs)
    (sender : UInt32) :
    acceptedOf sender outputs = if frame.sender = sender then [frame.seq] else [] := by
  obtain ⟨rest, rfl, hrest⟩ := hacted.consequences
  have hnone := acceptedOf_consequences hrest sender
  unfold acceptedOf at hnone ⊢
  by_cases hsender : frame.sender = sender
  · simp [hsender, hnone]
  · simp [hsender, hnone]

/-- What holds of a device and of everything it has accepted. -/
structure Inv (state : CamC2.State) (history : List Output) : Prop where
  increasing : ∀ sender, (acceptedOf sender history).Pairwise (· < ·)
  durable : ∀ sender, ∀ seq ∈ acceptedOf sender history,
    seq ≤ state.config.nvs.rx sender
  floor : ∀ sender slot, resolve state.config.ram.peer sender = some slot →
    ∀ seq ∈ acceptedOf sender history, seq ≤ (state.config.ram.peer slot).rxHighWater

section Step

variable {device : Device} {inbound : Inbound} {state next : CamC2.State}
  {history outputs : List Output}

theorem Inv.boot (hinv : Inv state history) : Inv (CamC2.boot device state.config.nvs) history where
  increasing := hinv.increasing
  durable := hinv.durable
  floor sender slot hresolve seq hmem := by
    obtain ⟨hconfigured, hid⟩ := resolve_spec hresolve
    have hzero : ((begin device.seed state.config.nvs).peer slot).peerId ≠ 0 := by
      simp only [Peer.configured, ne_eq, decide_eq_true_eq] at hconfigured
      exact hconfigured.2
    have hload := begin_floor device.seed state.config.nvs slot hzero
    have hdurable := hinv.durable sender seq hmem
    rw [← hid] at hdurable
    exact hload ▸ hdurable

/-- A frame that is trusted is newer than all that was accepted from its sender. -/
theorem Inv.below {slot : Slot} {frame : Frame} (hinv : Inv state history)
    (htrusted : Trusted device inbound state slot frame) :
    ∀ seq ∈ acceptedOf frame.sender history, seq < frame.seq := by
  intro seq hmem
  have hfloor := hinv.floor _ slot htrusted.resolved seq hmem
  have hfresh := htrusted.fresh
  grind

/-- The floor is written, whether it gets to NVS or not. -/
theorem Inv.written {slot : Slot} {frame : Frame} (hinv : Inv state history)
    (htrusted : Trusted device inbound state slot frame) (write : Write) :
    Inv (state.setConfig (state.config.setRx frame.sender
      (write.apply (state.config.nvs.rx frame.sender) frame.seq))) history where
  increasing := hinv.increasing
  durable sender seq hmem := by
    by_cases hsender : sender = frame.sender
    · subst hsender
      have hbelow := hinv.below htrusted seq hmem
      have hdurable := hinv.durable _ seq hmem
      simp only [State.setConfig, State.setRx, Function.update_self]
      exact write.apply_of (motive := fun cell => seq ≤ cell) hdurable (UInt32.le_of_lt hbelow)
    · simpa [State.setConfig, State.setRx, hsender] using hinv.durable sender seq hmem
  floor := hinv.floor

theorem Inv.increasing_acted {slot : Slot} {frame : Frame} (hinv : Inv state history)
    (htrusted : Trusted device inbound state slot frame)
    (hacted : Acted state slot frame next outputs) (sender : UInt32) :
    (acceptedOf sender (history ++ outputs)).Pairwise (· < ·) := by
  rw [acceptedOf_append, acceptedOf_of_acted hacted]
  by_cases hsender : frame.sender = sender
  · subst hsender
    rw [if_pos rfl, List.pairwise_append]
    refine ⟨hinv.increasing _, List.pairwise_singleton _ _, ?_⟩
    intro earlier hearlier later hlater
    obtain rfl : later = frame.seq := by simpa using hlater
    exact hinv.below htrusted earlier hearlier
  · rw [if_neg hsender, List.append_nil]
    exact hinv.increasing sender

/-- With the frame itself nothing above its number is accepted from its sender, and
from any other sender nothing new is. -/
theorem Inv.acceptedOf_acted {slot : Slot} {frame : Frame} (hinv : Inv state history)
    (htrusted : Trusted device inbound state slot frame)
    (hacted : Acted state slot frame next outputs) {sender seq : UInt32}
    (hmem : seq ∈ acceptedOf sender (history ++ outputs)) :
    (frame.sender = sender ∧ seq ≤ frame.seq) ∨
      (frame.sender ≠ sender ∧ seq ∈ acceptedOf sender history) := by
  rw [acceptedOf_append, acceptedOf_of_acted hacted] at hmem
  by_cases hsender : frame.sender = sender
  · subst hsender
    rw [if_pos rfl] at hmem
    left
    rcases List.mem_append.mp hmem with hold | hnew
    · have hbelow := hinv.below htrusted seq hold
      exact ⟨rfl, UInt32.le_of_lt hbelow⟩
    · exact ⟨rfl, UInt32.le_of_eq (List.mem_singleton.mp hnew)⟩
  · rw [if_neg hsender, List.append_nil] at hmem
    exact .inr ⟨hsender, hmem⟩

/-- The frame is accepted, and its number is the floor of its sender from then on. -/
theorem Inv.accepted {slot : Slot} {frame : Frame} (hinv : Inv state history)
    (htrusted : Trusted device inbound state slot frame)
    (hacted : Acted state slot frame next outputs) : Inv next (history ++ outputs) where
  increasing := hinv.increasing_acted htrusted hacted
  durable sender seq hmem := by
    rw [hacted.rx]
    rcases hinv.acceptedOf_acted htrusted hacted hmem with ⟨rfl, hle⟩ | ⟨hsender, hold⟩
    · rwa [Function.update_self]
    · rw [Function.update_of_ne (Ne.symm hsender)]
      exact hinv.durable sender seq hold
  floor sender other hresolve seq hmem := by
    rw [hacted.peer] at hresolve ⊢
    rw [resolve_floor] at hresolve
    rcases hinv.acceptedOf_acted htrusted hacted hmem with ⟨rfl, hle⟩ | ⟨hsender, hold⟩
    · obtain rfl : slot = other :=
        Option.some.inj (htrusted.resolved.symm.trans hresolve)
      rwa [Function.update_self]
    · have hother : other ≠ slot := by
        rintro rfl
        exact hsender ((resolve_spec htrusted.resolved).2.symm.trans (resolve_spec hresolve).2)
      rw [Function.update_of_ne hother]
      exact hinv.floor sender other hresolve seq hold

theorem Inv.point (hinv : Inv state history)
    (hpoint : Point device inbound state next outputs) : Inv next (history ++ outputs) := by
  cases hpoint with
  | untouched => simpa using hinv
  | written slot frame htrusted =>
      rw [List.append_nil]
      exact hinv.written htrusted inbound.rxWrite
  | accepted slot frame _ _ htrusted hwrite hacted => exact hinv.accepted htrusted hacted

theorem Inv.step (hinv : Inv state history) (event : Event) :
    Inv (step device state event).1 (history ++ (step device state event).2) := by
  cases event with
  | frame inbound => exact hinv.point (keeps_handleInbound device inbound state).run
  | powerLoss during =>
      cases during with
      | none => simpa [AtMostOnce.step] using hinv.boot
      | some call =>
          exact (hinv.point ((keeps_handleInbound device call.1 state).cut call.2)).boot

theorem inv_boot (device : Device) (nvs : Nvs) : Inv (CamC2.boot device nvs) [] where
  increasing _ := List.Pairwise.nil
  durable _ _ hmem := by simp [acceptedOf] at hmem
  floor _ _ _ _ hmem := by simp [acceptedOf] at hmem

end Step

/-- `executeCommand` is reached only for a trusted frame whose floor is in NVS. -/
theorem executed_only_when {device : Device} {inbound : Inbound} {state : CamC2.State}
    {steps : ℕ} {sender seq : UInt32} {cmd : UInt8} {args : List UInt8}
    (hexecuted : .executed sender seq cmd args ∈
      ((handleInbound device inbound).cut steps state).2) :
    ∃ slot frame, Trusted device inbound state slot frame ∧ frame.sender = sender ∧
      frame.seq = seq ∧
      ((handleInbound device inbound).cut steps state).1.config.nvs.rx sender = seq := by
  have hpoint := (keeps_handleInbound device inbound state).cut steps
  rw [List.nil_append] at hpoint
  generalize (handleInbound device inbound).cut steps state = cut at hexecuted hpoint
  obtain ⟨next, outputs⟩ := cut
  cases hpoint with
  | untouched => simp at hexecuted
  | written => simp at hexecuted
  | accepted slot frame _ _ htrusted hwrite hacted =>
      obtain ⟨rest, hrest, hconsequences⟩ := hacted.consequences
      simp only at hrest hexecuted
      rw [hrest] at hexecuted
      rcases List.mem_cons.mp hexecuted with heq | hmem
      · cases heq
      · obtain ⟨rfl, rfl⟩ := hconsequences _ hmem
        have hrx : next.config.nvs.rx = _ := hacted.rx
        refine ⟨slot, frame, htrusted, rfl, rfl, ?_⟩
        rw [hrx, Function.update_self]

/-- The state and all outputs of a device that starts on some NVS contents. -/
def life (device : Device) (nvs : Nvs) (events : List Event) :
    CamC2.State × List Output :=
  run (step device) (CamC2.boot device nvs) events

theorem inv_life (device : Device) (nvs : Nvs) (events : List Event) :
    Inv (life device nvs events).1 (life device nvs events).2 := by
  have hstep : ∀ state history event, Inv state history →
      Inv (step device state event).1 (history ++ (step device state event).2) :=
    fun _ _ event hinv => hinv.step event
  simpa [life] using invariant_run_always hstep events (inv_boot device nvs)

/-- Over the whole life of a device, with power losses inside the handling of frames
and with failing writes, the sequence numbers accepted from each sender strictly
increase; `executeCommand` is reached only for a trusted frame whose floor is already
stored; and a rejected frame changes nothing and emits nothing. -/
theorem at_most_once_actuation (device : Device) (nvs : Nvs) (events : List Event) :
    (∀ sender, (acceptedOf sender (life device nvs events).2).Pairwise (· < ·)) ∧
    ∀ inbound : Inbound,
      (∀ steps sender seq cmd args,
        .executed sender seq cmd args ∈
            ((handleInbound device inbound).cut steps (life device nvs events).1).2 →
          ∃ slot frame, Trusted device inbound (life device nvs events).1 slot frame ∧
            frame.sender = sender ∧ frame.seq = seq ∧
            ((handleInbound device inbound).cut steps
              (life device nvs events).1).1.config.nvs.rx sender = seq) ∧
      (((handleInbound device inbound).run (life device nvs events).1).result = false →
        Unchanged device inbound (life device nvs events).1
            ((handleInbound device inbound).run (life device nvs events).1).state ∧
          ((handleInbound device inbound).run (life device nvs events).1).outputs = []) :=
  ⟨(inv_life device nvs events).increasing, fun _ =>
    ⟨fun _ _ _ _ _ hexecuted => executed_only_when hexecuted, unchanged_of_rejected⟩⟩

/-- A camera on the identity cipher, whose stored table has commander 7. -/
def exampleDevice : Device := ⟨Cipher.identityCipher, true, 9, true, true, none⟩

def exampleNvs : Nvs where
  peers := some (Function.update (fun _ => Peer.empty) Slot.first
    { Peer.empty with inUse := 1, peerId := 7 })
  rx _ := 0
  txseq := 0

/-- A status command of the commander with sequence number 5. -/
def exampleInbound : Inbound where
  radioIdx := 0
  buf := (buildFrame Cipher.identityCipher T_CMD 7 9 5 (List.replicate 16 0)
    [CMD_GET_STATUS] MAX_FRAME).getD []
  camera := ⟨false, none, false, false, fun _ => none, 0xFF, 0⟩
  rxWrite := .confirmed
  txWrite := .confirmed

/-- Replayed at once and after a power loss, the command is executed once. -/
example : (acceptedOf 7 (life exampleDevice exampleNvs [.frame exampleInbound,
    .frame exampleInbound, .powerLoss none, .frame exampleInbound]).2) = [5] := by
  decide +kernel

end LoraBridge.AtMostOnce
