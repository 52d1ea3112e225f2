import LoraBridge.Control.C2Network

/-!
# A command and its acknowledgement

A floor is never above what its peer has sent: it came with a frame of that peer, or it
was there from the start.  So whatever was replayed or lost before, the next command of a
commander is carried out when it arrives, and the acknowledgement is taken when it comes
back.
-/

namespace LoraBridge.CommandTrip

open LoraBridge.Actuation LoraBridge.C2Network LoraBridge.CamC2 LoraBridge.CamC2Config
open LoraBridge.CutCalls LoraBridge.Machine LoraBridge.ReserveAhead LoraBridge.Station

/-! ## Where floors come from -/

/-- The floor was there from the start, or it came with a frame. -/
def Heard (device : Device) (nvs : Nvs) (received : List (List UInt8)) (sender floor : UInt32) :
    Prop :=
  floor = nvs.rx sender ∨
    ∃ type plain, Came device (begin device.seed nvs).peer received type sender floor plain

structure Floors (device : Device) (nvs : Nvs) (received : List (List UInt8))
    (state : CamC2.State) : Prop where
  stored : ∀ sender, Heard device nvs received sender (state.config.nvs.rx sender)
  ram : ∀ sender slot, resolve state.config.ram.peer sender = some slot →
    Heard device nvs received sender (state.config.ram.peer slot).rxHighWater

section Floors

variable {device : Device} {nvs : Nvs} {received more : List (List UInt8)}
  {state next : CamC2.State}

theorem Heard.mono {sender floor : UInt32} (hheard : Heard device nvs received sender floor)
    (hmore : ∀ buf ∈ received, buf ∈ more) : Heard device nvs more sender floor :=
  hheard.imp_right fun ⟨type, plain, hcame⟩ =>
    ⟨type, plain, hcame.mono (fun _ => rfl) hmore⟩

theorem Floors.mono (hfloors : Floors device nvs received state)
    (hmore : ∀ buf ∈ received, buf ∈ more) : Floors device nvs more state where
  stored sender := (hfloors.stored sender).mono hmore
  ram sender slot hresolve := (hfloors.ram sender slot hresolve).mono hmore

theorem Floors.boot (hfloors : Floors device nvs received state) :
    Floors device nvs received (CamC2.boot device state.config.nvs) where
  stored := hfloors.stored
  ram sender slot hresolve := by
    obtain ⟨hconfigured, hid⟩ := resolve_spec hresolve
    have hload := begin_floor device.seed state.config.nvs slot
      (Peer.configured_iff.mp hconfigured).2
    rw [show ((begin device.seed state.config.nvs).peer slot).peerId = sender from hid] at hload
    simp only [CamC2.boot, CamC2Config.boot, hload]
    exact hfloors.stored sender

theorem floors_boot (device : Device) (nvs : Nvs) (received : List (List UInt8)) :
    Floors device nvs received (CamC2.boot device nvs) where
  stored _ := .inl rfl
  ram sender slot hresolve := by
    obtain ⟨hconfigured, hid⟩ := resolve_spec hresolve
    have hload := begin_floor device.seed nvs slot (Peer.configured_iff.mp hconfigured).2
    rw [show ((begin device.seed nvs).peer slot).peerId = sender from hid] at hload
    exact .inl hload

/-- The number of a trusted frame is one that was heard. -/
theorem heard_of_trusted {inbound : Inbound} {slot : Slot} {frame : Frame}
    (htable : SameTable (begin device.seed nvs).peer state.config.ram.peer)
    (htrusted : Trusted device inbound state slot frame) :
    Heard device nvs (received ++ [inbound.buf]) frame.sender frame.seq :=
  .inr ⟨frame.type, frame.plain, (came_of_trusted htrusted).mono htable fun _ hmem =>
    List.mem_append_right _ hmem⟩

theorem Floors.point (hfloors : Floors device nvs received state) {inbound : Inbound}
    {outputs : List Output}
    (htable : SameTable (begin device.seed nvs).peer state.config.ram.peer)
    (hpoint : Point device inbound state next outputs) :
    Floors device nvs (received ++ [inbound.buf]) next := by
  have hkept : Floors device nvs (received ++ [inbound.buf]) state :=
    hfloors.mono fun _ hmem => List.mem_append_left _ hmem
  cases hpoint with
  | untouched => exact hkept
  | written slot frame htrusted =>
      refine ⟨fun sender => ?_, hkept.ram⟩
      simp only [State.setConfig, CamC2Config.State.setRx]
      by_cases hsender : sender = frame.sender
      · subst hsender
        rw [Function.update_self]
        exact inbound.rxWrite.apply_of (motive := Heard device nvs _ frame.sender)
          (hkept.stored _) (heard_of_trusted htable htrusted)
      · rw [Function.update_of_ne hsender]
        exact hkept.stored sender
  | accepted slot frame _ _ htrusted hwrite hacted =>
      have hheard : Heard device nvs (received ++ [inbound.buf]) frame.sender frame.seq :=
        heard_of_trusted htable htrusted
      constructor
      · intro sender
        rw [hacted.rx]
        by_cases hsender : sender = frame.sender
        · rw [hsender, Function.update_self]
          exact hheard
        · rw [Function.update_of_ne hsender]
          exact hkept.stored sender
      · intro sender other hresolve
        rw [hacted.peer, resolve_floor] at hresolve
        rw [hacted.peer]
        by_cases hother : other = slot
        · obtain rfl : sender = frame.sender :=
            (resolve_spec hresolve).2.symm.trans
              (hother ▸ (resolve_spec htrusted.resolved).2)
          rw [hother, Function.update_self]
          exact hheard
        · rw [Function.update_of_ne hother]
          exact hkept.ram sender other hresolve

/-- A call, to its end. -/
theorem Floors.call (hfloors : Floors device nvs received state) (call : Call)
    (htable : SameTable (begin device.seed nvs).peer state.config.ram.peer) :
    Floors device nvs (received ++ call.receives) ((call.program device).run state).state := by
  by_cases hcall : call.receives = []
  · obtain ⟨-, -, hrx, hpeer⟩ := onlyFrames_call device state hcall
    rw [hcall, List.append_nil]
    exact ⟨by rw [hrx]; exact hfloors.stored, by rw [hpeer]; exact hfloors.ram⟩
  · cases call with
    | receive inbound =>
        simp only [Call.program, Program.run_bind, Program.run_pure]
        exact hfloors.point htable (keeps_handleInbound device inbound state).run
    | message => exact absurd rfl hcall
    | command => exact absurd rfl hcall
    | beacon => exact absurd rfl hcall

/-- Some steps of a call, and the device starts again. -/
theorem Floors.cut (hfloors : Floors device nvs received state) (call : Call) (steps : ℕ)
    (htable : SameTable (begin device.seed nvs).peer state.config.ram.peer) {base : UInt32}
    {sent : List UInt32} (hnumbered : Numbered base state sent) :
    Floors device nvs (received ++ call.receives)
      (CamC2.boot device ((call.program device).cut steps state).1.config.nvs) := by
  by_cases hcall : call.receives = []
  · have hsettled : Settled base (fun _ rx => rx = state.config.nvs.rx) sent state [] :=
      ⟨by simpa [CamC2.seqsOf, framesOf] using hnumbered, rfl⟩
    have hrx := ((keeps_call device (.inl hcall) hsettled).cut steps).stored
    have hmiddle : Floors device nvs received { state with config :=
        ⟨((call.program device).cut steps state).1.config.nvs, state.config.ram⟩ } :=
      ⟨by rw [hrx]; exact hfloors.stored, hfloors.ram⟩
    rw [hcall, List.append_nil]
    exact hmiddle.boot
  · cases call with
    | receive inbound =>
        have hkeeps := keeps_handleInbound device inbound state
        have hcut : (Call.program device (.receive inbound)).Keeps
            (Point device inbound state) state [] := Program.keeps_bind hkeeps hkeeps.run
        exact (hfloors.point htable (hcut.cut steps)).boot
    | message => exact absurd rfl hcall
    | command => exact absurd rfl hcall
    | beacon => exact absurd rfl hcall

theorem floors_life (device : Device) (nvs : Nvs) (events : List Event) :
    Floors device nvs (receivedOf (life device nvs events).2) (life device nvs events).1 := by
  have hstep : ∀ state log event, Inv device nvs state log ∧
      Floors device nvs (receivedOf log) state →
      Inv device nvs (Station.step device state event).1
          (log ++ (Station.step device state event).2) ∧
        Floors device nvs (receivedOf (log ++ (Station.step device state event).2))
          (Station.step device state event).1 := by
    rintro state log event ⟨hinv, hfloors⟩
    refine ⟨hinv.step event, ?_⟩
    cases event with
    | call call =>
        simp only [Station.step, receivedOf_append, receivedOf_logged]
        exact hfloors.call call hinv.table
    | powerLoss during =>
        cases during with
        | none =>
            simp only [Station.step, List.append_nil]
            exact hfloors.boot
        | some cut =>
            simp only [Station.step, receivedOf_append, receivedOf_logged]
            exact hfloors.cut cut.1 cut.2 hinv.table hinv.numbered
  have hlife := invariant_run_always hstep events
    ⟨inv_boot device nvs, floors_boot device nvs (receivedOf [])⟩
  simpa [life] using hlife.2

end Floors

/-! ## A frame that arrives -/

section Arrival

variable {device : Device} {inbound : Inbound} {state : CamC2.State} {slot : Slot}
  {frame : Frame} {key : List UInt8}

/-- A frame sealed for this device under the key of its sender is authenticated. -/
theorem authenticate_encode {peer : Slot → Peer}
    (hfits : frame.plain.length ≤ MAX_PAYLOAD) (hrecip : frame.recip = device.myC2Id)
    (hresolve : resolve peer frame.sender = some slot) (hkey : (peer slot).psk.toList = key) :
    authenticate device (encode device.aes key frame) peer = some (slot, frame) := by
  have hlength : (encode device.aes key frame).length = HDR_LEN + frame.plain.length + TAG_LEN :=
    length_encode frame
  obtain ⟨-, hsender, hto, -⟩ := fields_encode device.aes key frame
  have hmagic : (encode device.aes key frame).getD 0 0 = MAGIC_VER := by
    rw [encode, frameBody, List.append_assoc]
    exact (header_fields frame.type frame.sender frame.recip frame.seq _).1
  have hform : ¬ ((encode device.aes key frame).length < MIN_FRAME ∨
      MAX_FRAME < (encode device.aes key frame).length) := by
    rw [hlength, MIN_FRAME, MAX_FRAME]
    omega
  have haddress : ¬ (frame.recip ≠ 0 ∧ frame.recip ≠ device.myC2Id) := fun hother =>
    hother.2 hrecip
  have hverify : verifyAndDecrypt device.aes (encode device.aes key frame) key = some frame :=
    verify_encode frame hfits
  simp only [authenticate, if_neg hform, hmagic, ne_eq, not_true_eq_false, if_false, hsender,
    hto, if_neg haddress, hresolve]
  simp [hkey, hverify]

/-- It is accepted if its number is above the floor and the floor can be stored. -/
theorem run_authInbound (hauth : authenticate device inbound.buf state.config.ram.peer =
      some (slot, frame))
    (hfresh : (state.config.ram.peer slot).rxHighWater < frame.seq)
    (hwrite : inbound.rxWrite = .confirmed) :
    (authInbound device inbound).run state =
      ⟨acceptedState state slot frame, [.accepted frame.sender frame.seq], some frame⟩ := by
  obtain ⟨-, hresolve, -⟩ := authenticate_spec hauth
  obtain ⟨hconfigured, hid⟩ := resolve_spec hresolve
  have haccepts := accepts_acceptInboundSeq (slotOf_slot slot) frame.seq inbound.rxWrite
    (fun peerId => Output.accepted peerId frame.seq) state.config
  simp only [authInbound, Program.run_bind, Program.run_read, List.nil_append, hauth,
    Program.run_within, configPart]
  generalize (acceptInboundSeq slot frame.seq inbound.rxWrite
    fun peerId => Output.accepted peerId frame.seq).run state.config = call at haccepts
  cases haccepts with
  | rejected hreason =>
      rcases hreason with hpeer | hfloor
      · exact absurd hconfigured (by simp [hpeer])
      · exact absurd hfresh (UInt32.not_lt.mpr hfloor)
  | unstored _ _ hfailed => exact absurd hwrite hfailed
  | stored _ _ _ => simp [hid, acceptedState]

/-- A command that is accepted is carried out. -/
theorem run_command (hready : device.ready = true) (hcamera : device.camera = true)
    (htype : frame.type = T_CMD)
    (hauth : authenticate device inbound.buf state.config.ram.peer = some (slot, frame))
    (hfresh : (state.config.ram.peer slot).rxHighWater < frame.seq)
    (hwrite : inbound.rxWrite = .confirmed) :
    (handleInbound device inbound).run state =
      ⟨(reply device inbound frame (acceptedState state slot frame)).state,
        .accepted frame.sender frame.seq ::
          .executed frame.sender frame.seq (frame.plain.getD 0 CMD_NONE) (frame.plain.drop 1) ::
            (reply device inbound frame (acceptedState state slot frame)).outputs, true⟩ := by
  simp only [handleInbound, hready, Bool.not_true, Bool.false_eq_true, if_false,
    Program.run_bind, run_authInbound hauth hfresh hwrite, hcamera, htype, and_self, if_true,
    run_handleCommand, Program.run_pure, List.append_nil, List.singleton_append]

/-- Any frame that is accepted is consumed. -/
theorem result_accepted (hready : device.ready = true)
    (hauth : authenticate device inbound.buf state.config.ram.peer = some (slot, frame))
    (hfresh : (state.config.ram.peer slot).rxHighWater < frame.seq)
    (hwrite : inbound.rxWrite = .confirmed) :
    ((handleInbound device inbound).run state).result = true := by
  simp only [handleInbound, hready, Bool.not_true, Bool.false_eq_true, if_false,
    Program.run_bind, run_authInbound hauth hfresh hwrite]
  split
  · rw [Program.run_bind]
    rfl
  · split
    · rfl
    · rfl

end Arrival

/-! ## A frame that leaves -/

/-- `nextTxSeq` gives the next number while there are numbers left and NVS takes the
reservation. -/
theorem issue_confirmed {state : CamC2.State}
    (hspace : state.config.ram.tx.next ≤ 0xFFFFFFFF - 1 - SEQ_RESERVE) :
    (state.issue .confirmed).issued = some state.config.ram.tx.next := by
  rw [State.issue, advance]
  split
  · rw [if_neg (UInt32.not_lt.mpr hspace)]
  · rfl

theorem outputs_sendSealed (device : Device) (radioIdx : ℤ) (type : UInt8) (recip : UInt32)
    (psk : List UInt8) {payload : List UInt8} (queued : Bool) {state : CamC2.State}
    (hspace : state.config.ram.tx.next ≤ 0xFFFFFFFF - 1 - SEQ_RESERVE)
    (hfits : payload.length ≤ MAX_PAYLOAD) :
    ((sendSealed device radioIdx type recip psk payload .confirmed queued).run state).outputs =
      [.emitted radioIdx (encode device.aes psk
        ⟨type, device.myC2Id, recip, state.config.ram.tx.next, payload⟩)] := by
  have hrun := congrArg Program.Run.outputs
    (run_sendSealed device ⟨type, recip, psk, payload⟩ radioIdx .confirmed queued state)
  refine hrun.trans ?_
  simp [Request.sent, issue_confirmed hspace, hfits, Option.filter, Request.frame]

theorem outputs_sendCommand {device : Device} {state : CamC2.State} {slot : Slot}
    (hready : device.ready = true) (hwired : device.emitWired = true) (radioIdx : ℤ)
    {camId : UInt32} (hresolve : resolve state.config.ram.peer camId = some slot) (cmd : UInt8)
    {args : List UInt8} (hfits : 1 + args.length ≤ MAX_PAYLOAD) (queued : Bool)
    (hspace : state.config.ram.tx.next ≤ 0xFFFFFFFF - 1 - SEQ_RESERVE) :
    ((sendCommand device radioIdx camId cmd args .confirmed queued).run state).outputs =
      [.emitted radioIdx (encode device.aes (state.config.ram.peer slot).psk.toList
        ⟨T_CMD, device.myC2Id, camId, state.config.ram.tx.next, cmd :: args⟩)] := by
  have hpayload : (cmd :: args).length ≤ MAX_PAYLOAD := by
    rw [List.length_cons]
    omega
  have hclosed : ¬ (!device.ready || !device.emitWired) = true := by simp [hready, hwired]
  simp only [sendCommand, hclosed, Bool.false_eq_true, if_false, Program.run_bind,
    Program.run_read, hresolve, if_neg (Nat.not_lt.mpr hfits), Program.run_pure,
    outputs_sendSealed device radioIdx T_CMD camId _ queued hspace hpayload, List.append_nil,
    List.nil_append]

theorem outputs_sendAck {device : Device} {inbound : Inbound} {state : CamC2.State} {slot : Slot}
    (hwired : device.emitWired = true) {sender : UInt32}
    (hresolve : resolve state.config.ram.peer sender = some slot) {ack : List UInt8}
    (hfits : ack.length ≤ MAX_PAYLOAD) (hwrite : inbound.txWrite = .confirmed)
    (hspace : state.config.ram.tx.next ≤ 0xFFFFFFFF - 1 - SEQ_RESERVE) :
    ((sendAck device inbound sender ack).run state).outputs =
      [.emitted inbound.radioIdx (encode device.aes (state.config.ram.peer slot).psk.toList
        ⟨T_ACK, device.myC2Id, sender, state.config.ram.tx.next, ack⟩)] := by
  rw [sendAck_eq]
  simp only [Program.run_bind, Program.run_read, hresolve, hwired, if_true, hwrite,
    outputs_sendSealed device inbound.radioIdx T_ACK sender _ true hspace hfits,
    Program.run_pure, List.append_nil, List.nil_append]

theorem length_fileName (fn : List UInt8) {ackCap : ℕ} (hcap : 1 ≤ ackCap) :
    1 + (fileName fn ackCap).length ≤ ackCap := by
  rw [fileName]
  split
  · assumption
  · simpa using hcap

theorem length_writeStatus (camera : Camera) (last : LastCommand) (cap : ℕ) :
    (writeStatus camera last cap).length ≤ cap := by
  rw [writeStatus]
  split
  · exact Nat.zero_le _
  · rename_i hcap
    have hlength : ([100, camera.sdFreePct] ++ Memory.wordBytes camera.uptime ++
        [last.cmd, last.res]).length = 8 := rfl
    rw [hlength]
    omega

/-- What stands behind the result fits the buffer of the acknowledgement. -/
theorem length_commandResult (camera : Camera) (cmd : UInt8) (args : List UInt8) (ackCap : ℕ)
    (hcap : 1 ≤ ackCap) (last : LastCommand) :
    1 + (commandResult camera cmd args ackCap last).2.length ≤ ackCap := by
  have hnothing : 1 + ([] : List UInt8).length ≤ ackCap := hcap
  rw [commandResult]
  split
  · have hstatus := length_writeStatus camera last (ackCap - 1)
    simp only
    omega
  · split
    · split
      · exact hnothing
      · exact length_fileName _ hcap
    · split
      · simp only
        split
        · exact hnothing
        · split
          · exact hnothing
          · split
            · exact hnothing
            · exact length_fileName _ hcap
      · split
        · exact length_fileName _ hcap
        · split
          · exact hnothing
          · exact hnothing

/-- The acknowledgement of a command fits a frame. -/
theorem length_ack (inbound : Inbound) (frame : Frame) (last : LastCommand) :
    (carryOut inbound frame last).2.1.length ≤ MAX_PAYLOAD := by
  have hresult := length_commandResult inbound.camera (frame.plain.getD 0 CMD_NONE)
    (frame.plain.drop 1) MAX_PAYLOAD (by decide) last
  rw [Nat.add_comm] at hresult
  exact hresult

/-! ## In a network -/

section Trip

variable {Party : Type} [DecidableEq Party] {net : Network Party}
  {events : List (Party × Event)} {receiver sender : Party} {key : List UInt8}

theorem network_floors (net : Network Party) (events : List (Party × Event)) (party : Party) :
    Floors (net.device party) (net.nvs party) (receivedOf (net.log events party))
      (net.state events party) := by
  obtain ⟨hstate, hlog⟩ := run_parallel (fun party => Station.step (net.device party))
    (fun party => CamC2.boot (net.device party) (net.nvs party)) events party
  rw [Network.state, Network.log, Network.run, hstate, hlog]
  exact floors_life (net.device party) (net.nvs party) (ofIndex party events)

/-- The floor of a paired device is below the next number of its peer. -/
theorem floor_below (hpaired : net.Paired receiver sender key)
    (hauthentic : net.Authentic events receiver sender key)
    (hstart : (net.nvs receiver).rx (net.id sender) < (txResume (net.nvs sender).txseq).next)
    {slot : Slot}
    (hresolve : resolve (net.state events receiver).config.ram.peer (net.id sender) = some slot) :
    ((net.state events receiver).config.ram.peer slot).rxHighWater <
      (net.state events sender).config.ram.tx.next := by
  have hnumbered := (net.inv events sender).numbered
  rcases (network_floors net events receiver).ram _ slot hresolve with
    hsame | ⟨type, plain, buf, hmem, key', recip, hkey, -, hverify⟩
  · rw [hsame]
    exact UInt32.lt_of_lt_of_le hstart hnumbered.started
  · obtain rfl : key' = key := Option.some.inj (hkey.symm.trans hpaired.accepts)
    rw [net.same] at hverify
    obtain ⟨party, hframe⟩ := hauthentic buf hmem _ hverify rfl
    have hsealed := (net.inv events party).said.frames buf hframe
    have hfrom := (fields_of_verify hverify).2.1
    obtain rfl : party = sender := net.distinct (hsealed.sender.symm.trans hfrom.symm)
    obtain ⟨-, hdecode⟩ := verifyAndDecrypt_eq_some_iff.mp hverify
    refine hnumbered.sound.ahead _ (List.mem_map.mpr ⟨buf, hframe, ?_⟩)
    exact congrArg Frame.seq hdecode

/-- A slot of the table as it is now, for a key of the table at the start. -/
theorem slot_of_key (events : List (Party × Event)) {party : Party} {id : UInt32}
    (hkey : keyOf (net.table party) id = some key) :
    ∃ slot, resolve (net.state events party).config.ram.peer id = some slot ∧
      ((net.state events party).config.ram.peer slot).psk.toList = key := by
  rw [show keyOf (net.table party) id = keyOf (net.state events party).config.ram.peer id from
    (net.inv events party).table.keyOf id, keyOf] at hkey
  exact Option.map_eq_some_iff.mp hkey

/-- A camera and a commander that share a key, and no forgery between them; neither starts
with a floor the other has not reached. -/
structure Linked (net : Network Party) (events : List (Party × Event)) (camera commander : Party)
    (key : List UInt8) : Prop where
  paired : net.Paired camera commander key
  toCamera : net.Authentic events camera commander key
  toCommander : net.Authentic events commander camera key
  cameraFloor :
    (net.nvs camera).rx (net.id commander) < (txResume (net.nvs commander).txseq).next
  commanderFloor :
    (net.nvs commander).rx (net.id camera) < (txResume (net.nvs camera).txseq).next

/-- A device that passed its self-test, is wired to a radio, and has numbers left. -/
structure Working (net : Network Party) (events : List (Party × Event)) (party : Party) :
    Prop where
  ready : (net.device party).ready = true
  wired : (net.device party).emitWired = true
  numbers : (net.state events party).config.ram.tx.next ≤ 0xFFFFFFFF - 1 - SEQ_RESERVE

/-- Whatever was replayed, repeated or lost before and wherever power was lost: the next
command is carried out when its frame arrives, its acknowledgement tells the result, and the
commander takes the acknowledgement when it comes back. -/
theorem command_round_trip {camera commander : Party}
    (hlinked : Linked net events camera commander key) (hcamera : Working net events camera)
    (hrole : (net.device camera).camera = true) (hcommander : Working net events commander)
    (radioIdx : ℤ) (cmd : UInt8) {args : List UInt8} (hfits : 1 + args.length ≤ MAX_PAYLOAD)
    (queued : Bool) {inbound back : Inbound} (hrx : inbound.rxWrite = .confirmed)
    (htx : inbound.txWrite = .confirmed) (hback : back.rxWrite = .confirmed) :
    let sent := (sendCommand (net.device commander) radioIdx (net.id camera) cmd args .confirmed
      queued).run (net.state events commander)
    ∃ frame, sent.outputs = [.emitted radioIdx frame] ∧
      (inbound.buf = frame →
        let handled := (handleInbound (net.device camera) inbound).run (net.state events camera)
        (∃ seq, .executed (net.id commander) seq cmd args ∈ handled.outputs) ∧
        ∃ seq ack, .emitted inbound.radioIdx ack ∈ handled.outputs ∧
          verifyAndDecrypt net.aes ack key = some ⟨T_ACK, net.id camera, net.id commander, seq,
            (executeCommand inbound.camera cmd args MAX_PAYLOAD
              (net.state events camera).last).2.1⟩ ∧
          (back.buf = ack →
            ((handleInbound (net.device commander) back).run sent.state).result = true)) := by
  intro sent
  obtain ⟨hpaired, hauthentic, hauthenticBack, hfloor, hfloorBack⟩ := hlinked
  obtain ⟨there, hthere, hthereKey⟩ := slot_of_key events hpaired.sends
  obtain ⟨here, hhere, hhereKey⟩ := slot_of_key events hpaired.accepts
  let frame : Frame := ⟨T_CMD, net.id commander, net.id camera,
    (net.state events commander).config.ram.tx.next, cmd :: args⟩
  have hsent : sent.outputs = [.emitted radioIdx (encode net.aes key frame)] := by
    have houtputs := outputs_sendCommand hcommander.ready hcommander.wired radioIdx hthere cmd
      hfits queued hcommander.numbers
    rw [net.same, hthereKey] at houtputs
    exact houtputs
  refine ⟨_, hsent, fun hbuf => ?_⟩
  have hpayload : frame.plain.length ≤ MAX_PAYLOAD := by
    rw [show frame.plain = cmd :: args from rfl, List.length_cons]
    omega
  have hauth : authenticate (net.device camera) inbound.buf
      (net.state events camera).config.ram.peer = some (here, frame) := by
    rw [hbuf, ← net.same camera]
    exact authenticate_encode hpayload rfl hhere hhereKey
  have hfresh := floor_below hpaired hauthentic hfloor hhere
  have hrun := run_command hcamera.ready hrole rfl hauth hfresh hrx
  simp only [hrun]
  refine ⟨⟨frame.seq, List.mem_cons_of_mem _ List.mem_cons_self⟩, ?_⟩
  let accepted := acceptedState (net.state events camera) here frame
  let ack := (carryOut inbound frame accepted.last).2.1
  have hresolve : resolve accepted.config.ram.peer (net.id commander) = some here :=
    (resolve_floor _ here frame.seq _).trans hhere
  have hkey : (accepted.config.ram.peer here).psk.toList = key := by
    simp only [accepted, acceptedState, State.setConfig, CamC2Config.State.setFloor,
      CamC2Config.State.setPeers, Function.update_self]
    exact hhereKey
  have hreply : (reply (net.device camera) inbound frame accepted).outputs =
      [.emitted inbound.radioIdx (encode net.aes key ⟨T_ACK, net.id camera, net.id commander,
        (net.state events camera).config.ram.tx.next, ack⟩)] := by
    let started : CamC2.State :=
      { accepted with last := (carryOut inbound frame accepted.last).2.2 }
    have hstarted : resolve started.config.ram.peer (net.id commander) = some here := hresolve
    have houtputs := outputs_sendAck hcamera.wired hstarted
      (length_ack inbound frame accepted.last) htx hcamera.numbers
    rw [net.same, hkey] at houtputs
    exact houtputs
  let answer : Frame := ⟨T_ACK, net.id camera, net.id commander,
    (net.state events camera).config.ram.tx.next, ack⟩
  have hanswer : answer.plain.length ≤ MAX_PAYLOAD := length_ack inbound frame accepted.last
  refine ⟨answer.seq, encode net.aes key answer, ?_, verify_encode answer hanswer, ?_⟩
  · rw [hreply]
    exact List.mem_cons_of_mem _ (List.mem_cons_of_mem _ List.mem_cons_self)
  · intro hackBuf
    have huntouched := (emits_sendCommand (net.device commander) radioIdx (net.id camera) cmd args
      .confirmed queued (net.state events commander)).untouched
    have hpeer : sent.state.config.ram.peer = (net.state events commander).config.ram.peer :=
      huntouched.peer
    have hauthBack : authenticate (net.device commander) back.buf sent.state.config.ram.peer =
        some (there, answer) := by
      rw [hackBuf, ← net.same commander, hpeer]
      exact authenticate_encode hanswer rfl hthere hthereKey
    have hfreshBack := floor_below ⟨hpaired.sends, hpaired.accepts⟩ hauthenticBack hfloorBack
      hthere
    rw [← hpeer] at hfreshBack
    exact result_accepted hcommander.ready hauthBack hfreshBack hback

end Trip

/-- The command after a replay, as the camera hears it. -/
def exampleSecond : Inbound :=
  ⟨0, encode Cipher.identityCipher exampleKey ⟨T_CMD, 7, 9, 2, [CMD_GET_STATUS]⟩,
    ⟨false, none, false, false, fun _ => none, 0xFF, 0⟩, .confirmed, .confirmed⟩

theorem exampleLinked : Linked exampleNetwork exampleReplay true false exampleKey where
  paired := examplePaired
  toCamera := authentic_of_subset false (by decide +kernel)
  toCommander := authentic_of_subset true (by decide +kernel)
  cameraFloor := by decide
  commanderFloor := by decide

theorem command_round_trip_replay :
    ∃ seq, Output.executed 7 seq CMD_GET_STATUS [] ∈
      ((handleInbound (exampleNetwork.device true) exampleSecond).run
        (exampleNetwork.state exampleReplay true)).outputs := by
  have hsends : ((sendCommand (exampleNetwork.device false) 0 9 CMD_GET_STATUS [] .confirmed
      true).run (exampleNetwork.state exampleReplay false)).outputs =
        [.emitted 0 exampleSecond.buf] := by
    decide +kernel
  have hfits : 1 + ([] : List UInt8).length ≤ MAX_PAYLOAD := by decide
  have hwrites : exampleSecond.rxWrite = .confirmed ∧ exampleSecond.txWrite = .confirmed :=
    ⟨rfl, rfl⟩
  obtain ⟨frame, hsent, hhandled⟩ := command_round_trip exampleLinked
    ⟨rfl, rfl, by decide +kernel⟩ rfl ⟨rfl, rfl, by decide +kernel⟩ 0 CMD_GET_STATUS hfits true
    hwrites.1 hwrites.2 hwrites.1
  obtain ⟨-, hbuf⟩ := Output.emitted.inj (List.singleton_inj.mp (hsends.symm.trans hsent))
  exact (hhandled hbuf).1

end LoraBridge.CommandTrip
