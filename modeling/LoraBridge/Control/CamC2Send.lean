import LoraBridge.Control.Actuation
import LoraBridge.Control.TxSequence

/-!
# Frames a device sends by itself

An operator message, a command of the commander, the status beacons of a camera: each
resolves its peer, takes a sequence number, and hands the sealed frame to `s_emit`.  The
acknowledgement of a command ends the same way.
-/

namespace LoraBridge.CamC2

open LoraBridge.CamC2Config LoraBridge.Memory LoraBridge.ReserveAhead

/-- What every sender ends with: `nextTxSeq`, `buildFrame`, `s_emit`.  There is no result
where the sequence numbers are used up or cannot be reserved; `queued` is what `s_emit`
would answer. -/
def sendSealed (device : Device) (radioIdx : ℤ) (type : UInt8) (recipientId : UInt32)
    (psk payload : List UInt8) (txWrite : Write) (queued : Bool) :
    Program State Output (Option Bool) := do
  let txSeq ← (nextTxSeq txWrite).within configPart
  match txSeq with
  | none => pure none
  | some seq =>
      match buildFrame device.aes type device.myC2Id recipientId seq psk payload MAX_FRAME with
      | none => pure (some false)
      | some frame => do
          Program.emit (.emitted radioIdx frame)
          pure (some queued)

/-- `sendMessage`: the text is a C string, or a null pointer. -/
def sendMessage (device : Device) (radioIdx : ℤ) (peerId : UInt32)
    (text : Option (List UInt8)) (txWrite : Write) (queued : Bool) :
    Program State Output Bool :=
  match text with
  | none => pure false
  | some bytes =>
      if !device.ready || !device.emitWired then pure false
      else do
        let peer ← Program.read fun state => state.config.ram.peer
        match resolve peer peerId with
        | none => pure false
        | some idx => do
            let sent ← sendSealed device radioIdx T_MSG peerId (peer idx).psk.toList
              ((cString bytes).take MSG_TEXT_MAX) txWrite queued
            pure (sent.getD false)

/-- `sendCommand`. -/
def sendCommand (device : Device) (radioIdx : ℤ) (camId : UInt32) (cmd : UInt8)
    (args : List UInt8) (txWrite : Write) (queued : Bool) : Program State Output Bool :=
  if !device.ready || !device.emitWired then pure false
  else do
    let peer ← Program.read fun state => state.config.ram.peer
    match resolve peer camId with
    | none => pure false
    | some idx =>
        if MAX_PAYLOAD < 1 + args.length then pure false
        else do
          let sent ← sendSealed device radioIdx T_CMD camId (peer idx).psk.toList
            (cmd :: args) txWrite queued
          pure (sent.getD false)

/-- The beacon for one slot, and whether the loop goes on. -/
def beaconTo (device : Device) (radioIdx : ℤ) (status : List UInt8) (txWrites : Slot → Write)
    (slot : Slot) : Program State Output Bool := do
  let peer ← Program.read fun state => state.config.ram.peer
  if (peer slot).configured then do
    let sent ← sendSealed device radioIdx T_BEACON (peer slot).peerId (peer slot).psk.toList
      status (txWrites slot) true
    pure sent.isSome
  else pure true

/-- `emitBeacon`: a frame for each peer of the table, until the sequence numbers run
out. -/
def emitBeacon (device : Device) (radioIdx : ℤ) (camera : Camera) (txWrites : Slot → Write) :
    Program State Output Unit :=
  if !device.ready || !device.emitWired then pure ()
  else do
    let last ← Program.read State.last
    Program.forEachWhile (List.finRange MAX_PEERS)
      (beaconTo device radioIdx (writeStatus camera last 8) txWrites)

/-- The acknowledgement is one more sealed frame. -/
theorem sendAck_eq (device : Device) (inbound : Inbound) (sender : UInt32) (ack : List UInt8) :
    sendAck device inbound sender ack = (do
      let peer ← Program.read fun state => state.config.ram.peer
      match resolve peer sender with
      | none => pure ()
      | some idx =>
          if device.emitWired then do
            let _ ← sendSealed device inbound.radioIdx T_ACK sender (peer idx).psk.toList ack
              inbound.txWrite true
            pure ()
          else pure ()) := by
  rw [sendAck]
  refine congrArg (Bind.bind (Program.read _)) (funext fun peer => ?_)
  cases resolve peer sender with
  | none => rfl
  | some idx =>
      refine congrArg (fun yes => if device.emitWired then yes else pure ()) ?_
      rw [sendSealed, Program.bind_assoc]
      refine congrArg (Bind.bind _) (funext fun txSeq => ?_)
      cases txSeq with
      | none => rfl
      | some seq =>
          cases hframe : buildFrame device.aes T_ACK device.myC2Id sender seq
              (peer idx).psk.toList ack MAX_FRAME with
          | none => simp only [hframe]; rfl
          | some frame => simp only [hframe]; rfl

/-! ## What a call sends -/

/-- A frame that a call is about to seal. -/
structure Request where
  type : UInt8
  recip : UInt32
  psk : List UInt8
  payload : List UInt8

def Request.frame (device : Device) (request : Request) (seq : UInt32) : List UInt8 :=
  encode device.aes request.psk
    ⟨request.type, device.myC2Id, request.recip, seq, request.payload⟩

/-- The number that `nextTxSeq` gives in this state, and the state behind it. -/
def State.issue (txWrite : Write) (state : State) : Advance :=
  advance SEQ_RESERVE txWrite state.config.ram.tx state.config.nvs.txseq

def State.afterSend (txWrite : Write) (state : State) : State :=
  state.setConfig (state.config.setTx (state.issue txWrite).counter (state.issue txWrite).cell)

/-- The frame that leaves, if there is a number for it and its payload fits. -/
def Request.sent (device : Device) (request : Request) (radioIdx : ℤ) (txWrite : Write)
    (state : State) : List Output :=
  ((state.issue txWrite).issued.filter fun _ => request.payload.length ≤ MAX_PAYLOAD).toList.map
    fun seq => .emitted radioIdx (request.frame device seq)

theorem buildFrame_request (device : Device) (request : Request) (seq : UInt32) :
    buildFrame device.aes request.type device.myC2Id request.recip seq request.psk
        request.payload MAX_FRAME =
      if request.payload.length ≤ MAX_PAYLOAD then some (request.frame device seq) else none := by
  by_cases hpayload : request.payload.length ≤ MAX_PAYLOAD
  · rw [if_pos hpayload]
    exact buildFrame_eq ⟨request.type, device.myC2Id, request.recip, seq, request.payload⟩
      hpayload (Nat.le_refl _)
  · rw [if_neg hpayload, buildFrame, if_pos (Nat.lt_of_not_le hpayload)]

theorem run_sendSealed (device : Device) (request : Request) (radioIdx : ℤ) (txWrite : Write)
    (queued : Bool) (state : State) :
    (sendSealed device radioIdx request.type request.recip request.psk request.payload txWrite
        queued).run state =
      ⟨state.afterSend txWrite, request.sent device radioIdx txWrite state,
        (state.issue txWrite).issued.map fun _ =>
          queued && decide (request.payload.length ≤ MAX_PAYLOAD)⟩ := by
  simp only [sendSealed, Program.run_bind, Program.run_within, run_nextTxSeq, configPart]
  rw [Request.sent, State.afterSend, State.issue]
  cases (advance SEQ_RESERVE txWrite state.config.ram.tx state.config.nvs.txseq).issued with
  | none => rfl
  | some seq =>
      by_cases hpayload : request.payload.length ≤ MAX_PAYLOAD
      · simp [buildFrame_request, hpayload, Option.filter]
      · simp [buildFrame_request, hpayload, Option.filter]

/-- The sends of a call: its requests in order, cut short where it gives up. -/
inductive Emits (device : Device) : State → List Request → List Output → State → Prop
  | done (state : State) (requests : List Request) : Emits device state requests [] state
  | send {state last : State} {request : Request} {rest : List Request}
      {outputs : List Output} (radioIdx : ℤ) (txWrite : Write)
      (hrest : Emits device (state.afterSend txWrite) rest outputs last) :
      Emits device state (request :: rest)
        (request.sent device radioIdx txWrite state ++ outputs) last

theorem emits_one (device : Device) (request : Request) (radioIdx : ℤ) (txWrite : Write)
    (state : State) :
    Emits device state [request] (request.sent device radioIdx txWrite state)
      (state.afterSend txWrite) := by
  have hsend : Emits device state [request]
      (request.sent device radioIdx txWrite state ++ []) (state.afterSend txWrite) :=
    .send radioIdx txWrite (.done _ [])
  rwa [List.append_nil] at hsend

/-- The message as it goes out, if the peer is known. -/
def messageRequest (peer : Slot → Peer) (peerId : UInt32) (text : Option (List UInt8)) :
    List Request :=
  match text, resolve peer peerId with
  | some bytes, some idx =>
      [⟨T_MSG, peerId, (peer idx).psk.toList, (cString bytes).take MSG_TEXT_MAX⟩]
  | _, _ => []

def commandRequest (peer : Slot → Peer) (camId : UInt32) (cmd : UInt8) (args : List UInt8) :
    List Request :=
  match resolve peer camId with
  | some idx => [⟨T_CMD, camId, (peer idx).psk.toList, cmd :: args⟩]
  | none => []

def ackRequest (peer : Slot → Peer) (sender : UInt32) (ack : List UInt8) : List Request :=
  match resolve peer sender with
  | some idx => [⟨T_ACK, sender, (peer idx).psk.toList, ack⟩]
  | none => []

def beaconRequest (pr : Peer) (status : List UInt8) : Request :=
  ⟨T_BEACON, pr.peerId, pr.psk.toList, status⟩

/-- A beacon for each configured slot. -/
def beaconRequests (peer : Slot → Peer) (status : List UInt8) (slots : List Slot) :
    List Request :=
  (slots.filter fun slot => (peer slot).configured).map fun slot =>
    beaconRequest (peer slot) status

theorem emits_sendMessage (device : Device) (radioIdx : ℤ) (peerId : UInt32)
    (text : Option (List UInt8)) (txWrite : Write) (queued : Bool) (state : State) :
    Emits device state (messageRequest state.config.ram.peer peerId text)
      ((sendMessage device radioIdx peerId text txWrite queued).run state).outputs
      ((sendMessage device radioIdx peerId text txWrite queued).run state).state := by
  unfold sendMessage messageRequest
  cases text with
  | none => exact .done state []
  | some bytes =>
      by_cases hclosed : (!device.ready || !device.emitWired) = true
      · simp only [hclosed, if_true]
        exact .done state _
      · simp only [hclosed, Bool.false_eq_true, if_false, Program.run_bind, Program.run_read]
        cases hresolve : resolve state.config.ram.peer peerId with
        | none => exact .done state []
        | some idx =>
            have hrun := run_sendSealed device ⟨T_MSG, peerId,
              (state.config.ram.peer idx).psk.toList, (cString bytes).take MSG_TEXT_MAX⟩
              radioIdx txWrite queued state
            simp only [Program.run_bind, hrun, Program.run_pure, List.append_nil,
              List.nil_append]
            exact emits_one device _ radioIdx txWrite state

theorem emits_sendCommand (device : Device) (radioIdx : ℤ) (camId : UInt32) (cmd : UInt8)
    (args : List UInt8) (txWrite : Write) (queued : Bool) (state : State) :
    Emits device state (commandRequest state.config.ram.peer camId cmd args)
      ((sendCommand device radioIdx camId cmd args txWrite queued).run state).outputs
      ((sendCommand device radioIdx camId cmd args txWrite queued).run state).state := by
  unfold sendCommand commandRequest
  by_cases hclosed : (!device.ready || !device.emitWired) = true
  · simp only [hclosed, if_true]
    exact .done state _
  · simp only [hclosed, Bool.false_eq_true, if_false, Program.run_bind, Program.run_read]
    cases hresolve : resolve state.config.ram.peer camId with
    | none => exact .done state []
    | some idx =>
        by_cases hlong : MAX_PAYLOAD < 1 + args.length
        · simp only [hlong, if_true]
          exact .done state _
        · have hrun := run_sendSealed device ⟨T_CMD, camId,
            (state.config.ram.peer idx).psk.toList, cmd :: args⟩ radioIdx txWrite queued state
          simp only [hlong, if_false, Program.run_bind, hrun, Program.run_pure,
            List.append_nil, List.nil_append]
          exact emits_one device _ radioIdx txWrite state

theorem emits_sendAck (device : Device) (inbound : Inbound) (sender : UInt32)
    (ack : List UInt8) (state : State) :
    Emits device state (ackRequest state.config.ram.peer sender ack)
      ((sendAck device inbound sender ack).run state).outputs
      ((sendAck device inbound sender ack).run state).state := by
  rw [sendAck_eq]
  unfold ackRequest
  simp only [Program.run_bind, Program.run_read]
  cases hresolve : resolve state.config.ram.peer sender with
  | none => exact .done state []
  | some idx =>
      by_cases hwired : device.emitWired = true
      · have hrun := run_sendSealed device ⟨T_ACK, sender,
          (state.config.ram.peer idx).psk.toList, ack⟩ inbound.radioIdx inbound.txWrite true
          state
        simp only [hwired, if_true, Program.run_bind, hrun, Program.run_pure, List.append_nil,
          List.nil_append]
        exact emits_one device _ inbound.radioIdx inbound.txWrite state
      · simp only [hwired, Bool.false_eq_true, if_false]
        exact .done state _

/-- What a send leaves alone. -/
structure Untouched (state last : State) : Prop where
  peers : last.config.nvs.peers = state.config.nvs.peers
  rx : last.config.nvs.rx = state.config.nvs.rx
  peer : last.config.ram.peer = state.config.ram.peer
  ring : last.ring = state.ring
  last : last.last = state.last

theorem untouched_afterSend (txWrite : Write) (state : State) :
    Untouched state (state.afterSend txWrite) := ⟨rfl, rfl, rfl, rfl, rfl⟩

theorem Untouched.trans {first middle last : State} (hbefore : Untouched first middle)
    (hafter : Untouched middle last) : Untouched first last :=
  ⟨hafter.peers.trans hbefore.peers, hafter.rx.trans hbefore.rx, hafter.peer.trans hbefore.peer,
    hafter.ring.trans hbefore.ring, hafter.last.trans hbefore.last⟩

theorem Emits.untouched {device : Device} {state last : State} {requests : List Request}
    {outputs : List Output} (hemits : Emits device state requests outputs last) :
    Untouched state last := by
  induction hemits with
  | done state requests => exact ⟨rfl, rfl, rfl, rfl, rfl⟩
  | send radioIdx txWrite hrest ih => exact (untouched_afterSend txWrite _).trans ih

theorem run_beaconTo (device : Device) (radioIdx : ℤ) (status : List UInt8)
    (txWrites : Slot → Write) {slot : Slot} {state : State}
    (hslot : (state.config.ram.peer slot).configured = true) :
    (beaconTo device radioIdx status txWrites slot).run state =
      ⟨state.afterSend (txWrites slot),
        (beaconRequest (state.config.ram.peer slot) status).sent device radioIdx
          (txWrites slot) state,
        (state.issue (txWrites slot)).issued.isSome⟩ := by
  have hrun := run_sendSealed device (beaconRequest (state.config.ram.peer slot) status)
    radioIdx (txWrites slot) true state
  simp only [beaconRequest] at hrun
  simp only [beaconTo, Program.run_bind, Program.run_read, hslot, if_true, hrun,
    Program.run_pure, List.append_nil, List.nil_append, Option.isSome_map]
  rfl

theorem run_beaconTo_skip (device : Device) (radioIdx : ℤ) (status : List UInt8)
    (txWrites : Slot → Write) {slot : Slot} {state : State}
    (hslot : ¬ (state.config.ram.peer slot).configured = true) :
    (beaconTo device radioIdx status txWrites slot).run state = ⟨state, [], true⟩ := by
  simp only [beaconTo, Program.run_bind, Program.run_read, hslot, Bool.false_eq_true, if_false,
    Program.run_pure, List.append_nil]

theorem emits_beacons (device : Device) (radioIdx : ℤ) (status : List UInt8)
    (txWrites : Slot → Write) (slots : List Slot) (state : State) :
    Emits device state (beaconRequests state.config.ram.peer status slots)
      ((Program.forEachWhile slots (beaconTo device radioIdx status txWrites)).run state).outputs
      ((Program.forEachWhile slots
        (beaconTo device radioIdx status txWrites)).run state).state := by
  induction slots generalizing state with
  | nil => exact .done state _
  | cons slot rest ih =>
      rw [Program.forEachWhile, Program.run_bind, beaconRequests]
      by_cases hslot : (state.config.ram.peer slot).configured = true
      · rw [run_beaconTo device radioIdx status txWrites hslot, List.filter_cons,
          if_pos hslot, List.map_cons]
        refine .send radioIdx (txWrites slot) ?_
        by_cases hissued : (state.issue (txWrites slot)).issued.isSome = true
        · simp only [hissued, if_true]
          exact ih (state.afterSend (txWrites slot))
        · simp only [hissued, Bool.false_eq_true, if_false]
          exact .done _ _
      · rw [run_beaconTo_skip device radioIdx status txWrites hslot, List.filter_cons,
          if_neg hslot]
        simp only [if_true, List.nil_append]
        exact ih state

theorem emits_emitBeacon (device : Device) (radioIdx : ℤ) (camera : Camera)
    (txWrites : Slot → Write) (state : State) :
    Emits device state
      (beaconRequests state.config.ram.peer (writeStatus camera state.last 8)
        (List.finRange MAX_PEERS))
      ((emitBeacon device radioIdx camera txWrites).run state).outputs
      ((emitBeacon device radioIdx camera txWrites).run state).state := by
  unfold emitBeacon
  by_cases hclosed : (!device.ready || !device.emitWired) = true
  · simp only [hclosed, if_true]
    exact .done state _
  · simp only [hclosed, Bool.false_eq_true, if_false, Program.run_bind, Program.run_read,
      List.nil_append]
    exact emits_beacons device radioIdx _ txWrites _ state

/-! ## The numbers of the frames -/

/-- The frames that were handed to `s_emit`. -/
def framesOf (outputs : List Output) : List (List UInt8) :=
  outputs.filterMap fun output =>
    match output with
    | .emitted _ frame => some frame
    | _ => none

@[simp]
theorem framesOf_append (before after : List Output) :
    framesOf (before ++ after) = framesOf before ++ framesOf after := by
  simp [framesOf]

/-- The sequence number in a frame's header. -/
def seqOf (frame : List UInt8) : UInt32 := get32le frame 10

def seqsOf (outputs : List Output) : List UInt32 := (framesOf outputs).map seqOf

@[simp]
theorem seqsOf_append (before after : List Output) :
    seqsOf (before ++ after) = seqsOf before ++ seqsOf after := by
  simp [seqsOf]

theorem fields_encode (aes : Cipher.BlockCipher) (psk : List UInt8) (frame : Frame) :
    (encode aes psk frame).getD 1 0 = frame.type ∧
      get32le (encode aes psk frame) 2 = frame.sender ∧
      get32le (encode aes psk frame) 6 = frame.recip ∧
      seqOf (encode aes psk frame) = frame.seq := by
  rw [encode, frameBody, List.append_assoc]
  exact (header_fields frame.type frame.sender frame.recip frame.seq _).2

theorem framesOf_sent (device : Device) (request : Request) (radioIdx : ℤ) (txWrite : Write)
    (state : State) :
    framesOf (request.sent device radioIdx txWrite state) =
      ((state.issue txWrite).issued.filter fun _ =>
        request.payload.length ≤ MAX_PAYLOAD).toList.map (request.frame device) := by
  rw [Request.sent]
  cases Option.filter (fun _ => decide (request.payload.length ≤ MAX_PAYLOAD))
      (state.issue txWrite).issued with
  | none => rfl
  | some seq => rfl

theorem seqsOf_sent (device : Device) (request : Request) (radioIdx : ℤ) (txWrite : Write)
    (state : State) :
    seqsOf (request.sent device radioIdx txWrite state) =
      ((state.issue txWrite).issued.filter fun _ =>
        request.payload.length ≤ MAX_PAYLOAD).toList := by
  rw [seqsOf, framesOf_sent, List.map_map]
  refine (List.map_congr_left fun seq _ => ?_).trans (List.map_id _)
  exact (fields_encode _ _ _).2.2.2

/-- The counter of a device that started at a number, and the numbers of the frames it has
sent. -/
structure Numbered (start : UInt32) (state : State) (sent : List UInt32) : Prop where
  sound : Sound state.config.nvs.txseq state.config.ram.tx sent
  started : start ≤ state.config.ram.tx.next
  resumes : start ≤ (txResume state.config.nvs.txseq).next
  increasing : sent.Pairwise (· < ·)
  above : ∀ number ∈ sent, start ≤ number

theorem resumes_above {start cell : UInt32} (habove : start < cell) :
    start ≤ (txResume cell).next := by
  unfold txResume
  grind

theorem sound_of_subset {cell : UInt32} {counter : Counter} {fewer issued : List UInt32}
    (hsound : Sound cell counter issued) (hsubset : ∀ number ∈ fewer, number ∈ issued) :
    Sound cell counter fewer :=
  ⟨hsound.durable, fun number hmem => hsound.ahead number (hsubset number hmem),
    fun number hmem => hsound.behind number (hsubset number hmem)⟩

theorem mem_filter_issued {issued : Option UInt32} {kept : UInt32 → Bool} {number : UInt32}
    (hmem : number ∈ (issued.filter kept).toList) : issued = some number := by
  rw [Option.mem_toList, Option.filter_eq_some_iff] at hmem
  exact hmem.1

/-- A call of `nextTxSeq`, whether a frame gets the number or not. -/
theorem Numbered.send {start : UInt32} {state : State} {sent : List UInt32}
    (hnumbered : Numbered start state sent) (txWrite : Write) (kept : UInt32 → Bool) :
    Numbered start (state.afterSend txWrite)
      (sent ++ ((state.issue txWrite).issued.filter kept).toList) where
  sound := by
    refine sound_of_subset (sound_advance TxSequence.reserve_small hnumbered.sound)
      fun number hmem => ?_
    rcases List.mem_append.mp hmem with hold | hnew
    · exact List.mem_append_left _ hold
    · exact List.mem_append_right _ (Option.mem_toList.mpr (mem_filter_issued hnew))
  started := by
    have hstarted := hnumbered.started
    simp only [State.afterSend, State.issue, State.setConfig, CamC2Config.State.setTx]
    rcases advance_cases txWrite state.config.ram.tx state.config.nvs.txseq
      TxSequence.reserve_small with
      ⟨hless, heq⟩ | ⟨reserved, hless, hsucc, hlimit, heq⟩ | heq | ⟨reserved, hless, hlimit, heq⟩
    · rw [heq]; grind
    · rw [heq]; grind
    · rw [heq]; exact hstarted
    · rw [heq]; exact hstarted
  resumes := by
    have hstarted := hnumbered.started
    have hresumes := hnumbered.resumes
    simp only [State.afterSend, State.issue, State.setConfig, CamC2Config.State.setTx]
    rcases advance_cases txWrite state.config.ram.tx state.config.nvs.txseq
      TxSequence.reserve_small with
      ⟨hless, heq⟩ | ⟨reserved, hless, hsucc, hlimit, heq⟩ | heq | ⟨reserved, hless, hlimit, heq⟩
    · rw [heq]; exact hresumes
    · rw [heq]; exact resumes_above (by grind)
    · rw [heq]; exact hresumes
    · rw [heq]; exact resumes_above (by grind)
  increasing := by
    rw [List.pairwise_append]
    refine ⟨hnumbered.increasing, ?_, fun earlier hearlier later hlater => ?_⟩
    · cases (state.issue txWrite).issued.filter kept with
      | none => exact .nil
      | some seq => exact List.pairwise_singleton _ _
    · exact (issued_advance TxSequence.reserve_small hnumbered.sound
        (mem_filter_issued hlater)).1 earlier hearlier
  above number hmem := by
    rcases List.mem_append.mp hmem with hold | hnew
    · exact hnumbered.above number hold
    · rw [(next_advance TxSequence.reserve_small (mem_filter_issued hnew)).1]
      exact hnumbered.started

theorem Emits.numbered {device : Device} {state last : State} {requests : List Request}
    {outputs : List Output} (hemits : Emits device state requests outputs last)
    {start : UInt32} {sent : List UInt32} (hnumbered : Numbered start state sent) :
    Numbered start last (sent ++ seqsOf outputs) := by
  induction hemits generalizing sent with
  | done state requests => simpa [seqsOf, framesOf] using hnumbered
  | send radioIdx txWrite hrest ih =>
      rw [seqsOf_append, seqsOf_sent, ← List.append_assoc]
      exact ih (hnumbered.send txWrite _)

/-- Every frame is that of a request with some number, in the order of the requests. -/
theorem Emits.frames {device : Device} {state last : State} {requests : List Request}
    {outputs : List Output} (hemits : Emits device state requests outputs last) :
    ∃ sends : List (Request × UInt32), (sends.map Prod.fst).Sublist requests ∧
      framesOf outputs = sends.map (fun send => send.1.frame device send.2) ∧
      ∀ send ∈ sends, send.1.payload.length ≤ MAX_PAYLOAD := by
  induction hemits with
  | done state requests => exact ⟨[], List.nil_sublist _, rfl, by simp⟩
  | @send state last request rest outputs radioIdx txWrite hrest ih =>
      obtain ⟨sends, hsublist, hframes, hfits⟩ := ih
      rw [framesOf_append, framesOf_sent, hframes]
      cases hissued : Option.filter (fun _ => decide (request.payload.length ≤ MAX_PAYLOAD))
          (state.issue txWrite).issued with
      | none => exact ⟨sends, hsublist.cons _, rfl, hfits⟩
      | some seq =>
          have hfit := (Option.filter_eq_some_iff.mp hissued).2
          refine ⟨(request, seq) :: sends, hsublist.cons_cons _, rfl, ?_⟩
          simpa using ⟨by simpa using hfit, fun other number hmem => hfits (other, number) hmem⟩

end LoraBridge.CamC2
