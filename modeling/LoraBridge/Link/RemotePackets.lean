import LoraBridge.Link.RemoteLink

/-!
# Packets across the link

Both ways every packet comes across once, whole and in order, or there is a place where it
was dropped: a full queue of the host, or a co-processor that answers at once.
-/

namespace LoraBridge.RemotePackets

open LoraBridge.ByteWire LoraBridge.LinkProtocol LoraBridge.RemoteLink
open LoraBridge.FrameParser (coprocFeedByte uartLinkFeedByte)
open LoraBridge.Coprocessor hiding Event step
open LoraBridge.Memory (wordBytes)

/-! ## What a run shows of a radio -/

section Readings

variable (i : LocalRadio) (log : List Output)

/-- The packets that were handed to the link. -/
def handed : List (List UInt8) :=
  log.filterMap fun output =>
    match output with
    | .handed j data => if j = i then some data else none
    | _ => none

/-- Those the co-processor took off it. -/
def taken : List (List UInt8) :=
  log.filterMap fun output =>
    match output with
    | .taken j data => if j = i then some data else none
    | _ => none

/-- Those the radio was given. -/
def onAir : List (List UInt8) :=
  log.filterMap fun output =>
    match output with
    | .onAir j data => if j = i then some data else none
    | _ => none

/-- How many were answered at once. -/
def rejections : ℕ :=
  log.countP fun output =>
    match output with
    | .rejected j => j = i
    | _ => false

/-- The packets the co-processor received and put on the link. -/
def forwarded : List RxPacket :=
  log.filterMap fun output =>
    match output with
    | .forwarded j packet => if j = i then some packet else none
    | _ => none

/-- Those the host took off it, and whether there was room for them. -/
def arrivals : List (RxPacket × Bool) :=
  log.filterMap fun output =>
    match output with
    | .arrived j packet kept => if j = i then some (packet, kept) else none
    | _ => none

/-- Those that `read` gave. -/
def reads : List RxPacket :=
  log.filterMap fun output =>
    match output with
    | .read j packet => if j = i then some packet else none
    | _ => none

variable {i log} {before after : List Output}

@[simp]
theorem handed_append : handed i (before ++ after) = handed i before ++ handed i after := by
  simp [handed]

@[simp]
theorem taken_append : taken i (before ++ after) = taken i before ++ taken i after := by
  simp [taken]

@[simp]
theorem onAir_append : onAir i (before ++ after) = onAir i before ++ onAir i after := by
  simp [onAir]

@[simp]
theorem rejections_append :
    rejections i (before ++ after) = rejections i before + rejections i after := by
  simp [rejections]

@[simp]
theorem forwarded_append :
    forwarded i (before ++ after) = forwarded i before ++ forwarded i after := by
  simp [forwarded]

@[simp]
theorem arrivals_append :
    arrivals i (before ++ after) = arrivals i before ++ arrivals i after := by
  simp [arrivals]

@[simp]
theorem reads_append : reads i (before ++ after) = reads i before ++ reads i after := by
  simp [reads]

end Readings

/-! ## Messages -/

/-- A MSG_TX for a radio, and a MSG_RX from it. -/
def txAt (i : LocalRadio) (frame : Message) : Option (List UInt8) :=
  if frame.type = MSG_TX ∧ localOf frame.radio = some i then some frame.payload else none

def rxAt (i : LocalRadio) (frame : Message) : Option RxPacket :=
  if frame.type = MSG_RX ∧ localOf frame.radio = some i then rxPacket frame.payload else none

theorem localOf_index (i : LocalRadio) : localOf (.ofNat i) = some i := by
  fin_cases i <;> rfl

theorem rxPacket_bytes (rssi snr : UInt32) (data : List UInt8) :
    rxPacket (wordBytes rssi ++ (wordBytes snr ++ data)) =
      some ⟨data.take LORA_MAX_PACKET, rssi, snr⟩ := by
  have hword : ∀ w : UInt32, word32 w.toUInt8 (w >>> 8).toUInt8 (w >>> 16).toUInt8
      (w >>> 24).toUInt8 = w := Memory.word_of_bytes
  simp [wordBytes, rxPacket, hword]

/-- A packet that is no larger than the co-processor's buffer. -/
def Short : Act → Prop
  | .rx _ _ _ data => data.length ≤ LORA_MAX
  | _ => True

theorem short_of_quiet {acts : List Act} (hquiet : acts.filterMap ofPass = []) :
    ∀ act ∈ acts, Short act := by
  intro act hact
  cases act with
  | rx i rssi snr data => cases List.filterMap_eq_nil_iff.mp hquiet _ hact
  | _ => trivial

theorem length_message {render : Act → List UInt8} {act : Act} {frame : Message}
    (hshort : Short act) (hmessage : message render act = some frame) :
    frame.payload.length ≤ MAX_PAYLOAD := by
  unfold MAX_PAYLOAD
  cases act with
  | txDone => cases hmessage; simp [word16Bytes]
  | rx i rssi snr data =>
      have hdata : data.length ≤ 256 := hshort
      cases hmessage
      simp [wordBytes]
      omega
  | ready info => cases hmessage; simp
  | pong => cases hmessage; simp [wordBytes]
  | log | logCfg | logRead | logIdle => cases hmessage; simp [LOG_MAX]
  | startReceive | startTransmit => cases hmessage

/-- The packets among the messages of acts. -/
theorem rxAt_messages (render : Act → List UInt8) (i : LocalRadio) (acts : List Act)
    (hshort : ∀ act ∈ acts, Short act) :
    (acts.filterMap (message render)).filterMap (rxAt i) =
      forwarded i (acts.filterMap ofPass) := by
  rw [forwarded, List.filterMap_filterMap, List.filterMap_filterMap]
  refine List.filterMap_congr fun act hmem => ?_
  have hact := hshort act hmem
  cases act with
  | rx j rssi snr data =>
      have htake : data.take LORA_MAX_PACKET = data := List.take_of_length_le hact
      by_cases hj : j = i
      · simp [message, ofPass, rxAt, localOf_index, rxPacket_bytes, htake, hj]
      · simp [message, ofPass, rxAt, localOf_index, hj]
  | _ => rfl

section Sending

variable {wire : Wire} {pending : List Message}

theorem pending_sendAll {messages : List Message} (hpending : wire.Pending pending)
    (hlen : ∀ frame ∈ messages, frame.payload.length ≤ MAX_PAYLOAD) :
    (sendAll messages wire).Pending (pending ++ messages) := by
  induction messages generalizing wire pending with
  | nil => simpa [sendAll] using hpending
  | cons frame rest ih =>
      have hnext := ih (hpending.send (hlen frame List.mem_cons_self)) fun other hmem =>
        hlen other (List.mem_cons_of_mem _ hmem)
      rwa [List.append_assoc] at hnext

theorem pending_acts (render : Act → List UInt8) (acts : List Act)
    (hpending : wire.Pending pending) (hshort : ∀ act ∈ acts, Short act) :
    (sendAll (acts.filterMap (message render)) wire).Pending
      (pending ++ acts.filterMap (message render)) := by
  refine pending_sendAll hpending fun frame hframe => ?_
  obtain ⟨act, hact, hmessage⟩ := List.mem_filterMap.mp hframe
  exact length_message (hshort act hact) hmessage

end Sending

/-! ## The co-processor's queues -/

/-- What waits to be sent. -/
def queued (txq : Ring TxJob TX_Q_DEPTH) : List (List UInt8) := txq.contents.map (·.data)

section Queues

variable {i : LocalRadio} {radios : Radios}

/-- A frame from the host: its packet, if it has one, is queued or answered. -/
structure Admits (i : LocalRadio) (frame : Message) (radios : Radios)
    (next : Radios × List Act) (accepted : List (List UInt8)) : Prop where
  queued : queued (next.1 i).txq = queued (radios i).txq ++ accepted
  whole : accepted.Sublist ((txAt i frame).toList.map (List.take LORA_MAX))
  counted : accepted.length + rejections i (next.2.filterMap ofHandle) =
    (txAt i frame).toList.length
  quiet : next.2.filterMap ofPass = []

theorem txAt_of_type {frame : Message} (htype : frame.type ≠ MSG_TX) : txAt i frame = none :=
  if_neg fun hboth => htype hboth.1

theorem queued_txqPush {txq next : Ring TxJob TX_Q_DEPTH} {data : List UInt8} {serial : ℕ}
    (hpush : txqPush txq data serial = some next) :
    queued next = queued txq ++ [data.take LORA_MAX] := by
  unfold txqPush at hpush
  split at hpush
  · cases hpush
    simp [queued, Ring.contents_append]
  · cases hpush

/-- What is neither a MSG_TX nor a reset leaves the queues as they are. -/
theorem handle_keeps {frame : Message} (serial : ℕ) (begun : LocalRadio → Bool) (up : UInt32)
    (htx : frame.type ≠ MSG_TX) (hlife : frame.type ≠ MSG_RESET) :
    Admits i frame radios (handleHostFrame frame serial begun up radios) [] := by
  suffices hsame : (((handleHostFrame frame serial begun up radios).1 i).txq = (radios i).txq) ∧
      (handleHostFrame frame serial begun up radios).2.filterMap ofHandle = [] ∧
      (handleHostFrame frame serial begun up radios).2.filterMap ofPass = [] by
    refine ⟨?_, List.nil_sublist _, ?_, hsame.2.2⟩
    · rw [List.append_nil, hsame.1]
    · rw [hsame.2.1, txAt_of_type htx]
      rfl
  unfold handleHostFrame
  by_cases hcfg : frame.type = MSG_CFG_RADIO
  · rw [if_pos hcfg]
    cases localOf frame.radio with
    | none => exact ⟨rfl, rfl, rfl⟩
    | some j =>
        cases CfgRadio.read frame.payload with
        | none => exact ⟨rfl, rfl, rfl⟩
        | some c =>
            by_cases hj : i = j
            · subst hj
              by_cases henable : c.enable = 0 <;> cases hbegun : begun i <;>
                simp [applyCfg, henable, hbegun, ofHandle, ofPass]
            · by_cases henable : c.enable = 0 <;> cases hbegun : begun j <;>
                simp [applyCfg, henable, hbegun, ofHandle, ofPass, hj]
  · rw [if_neg hcfg, if_neg htx]
    by_cases hstart : frame.type = MSG_START_RX
    · rw [if_pos hstart]
      cases localOf frame.radio with
      | none => exact ⟨rfl, rfl, rfl⟩
      | some j =>
          dsimp only
          split
          · exact ⟨rfl, rfl, rfl⟩
          · exact ⟨rfl, rfl, rfl⟩
    · rw [if_neg hstart]
      by_cases hping : frame.type = MSG_PING
      · rw [if_pos hping]
        exact ⟨rfl, rfl, rfl⟩
      · rw [if_neg hping, if_neg hlife]
        exact ⟨rfl, rfl, rfl⟩

theorem handle_tx {frame : Message} (serial : ℕ) (begun : LocalRadio → Bool) (up : UInt32)
    (htx : frame.type = MSG_TX) :
    ∃ accepted, Admits i frame radios (handleHostFrame frame serial begun up radios) accepted := by
  have hcfg : frame.type ≠ MSG_CFG_RADIO := by
    rw [htx]
    decide
  simp only [handleHostFrame, if_neg hcfg, if_pos htx]
  cases hlocal : localOf frame.radio with
  | none => exact ⟨[], by simp, List.nil_sublist _, by simp [txAt, hlocal, rejections], rfl⟩
  | some j =>
      have hat : txAt i frame = if j = i then some frame.payload else none := by
        simp [txAt, htx, hlocal]
      have hanswered : ∀ (text : String) (status : ℤ),
          Admits i frame radios (radios, [.log text, .txDone j status serial]) [] := by
        intro text status
        refine ⟨by simp, List.nil_sublist _, ?_, rfl⟩
        by_cases hj : j = i <;> simp [hat, hj, List.filterMap_cons, ofHandle, rejections]
      cases henabled : (radios j).enabled with
      | false =>
          simp only [henabled, Bool.false_eq_true, if_false]
          exact ⟨[], hanswered _ _⟩
      | true =>
          simp only [henabled, if_true]
          cases hpush : txqPush (radios j).txq frame.payload serial with
          | none => exact ⟨[], hanswered _ _⟩
          | some txq =>
              by_cases hj : j = i
              · subst hj
                refine ⟨[frame.payload.take LORA_MAX], ?_, ?_, ?_, rfl⟩
                · simpa using queued_txqPush hpush
                · simp [hat]
                · simp [hat, rejections]
              · refine ⟨[], ?_, List.nil_sublist _, ?_, rfl⟩
                · simp [Ne.symm hj]
                · simp [hat, hj, rejections]

theorem handle_admits (radios : Radios) {frame : Message} (serial : ℕ)
    (begun : LocalRadio → Bool) (up : UInt32) (hlife : frame.type ≠ MSG_RESET) :
    ∃ accepted, Admits i frame radios (handleHostFrame frame serial begun up radios) accepted := by
  by_cases htx : frame.type = MSG_TX
  · exact handle_tx serial begun up htx
  · exact ⟨[], handle_keeps serial begun up htx hlife⟩

theorem queued_eq_cons {txq : Ring TxJob TX_Q_DEPTH} {job : TxJob}
    (hpeek : txqPeek txq = some job) : queued txq = job.data :: queued (txqPop txq) := by
  unfold txqPeek at hpeek
  split at hpeek
  · rename_i hcount
    have hpos : 0 < txq.count := Nat.pos_of_ne_zero hcount
    cases hpeek
    rw [queued, Ring.contents_eq_cons _ hpos, queued, txqPop, dif_pos hpos]
    rfl
  · cases hpeek

/-- A turn of one radio passes on the packet it has, sends the first of its queue, or does
neither. -/
theorem serviceRadio_cases (turn : Turn) (radio : Radio) :
    ((serviceRadio i turn radio).1.txq = radio.txq ∧
        (serviceRadio i turn radio).2.filterMap ofPass = []) ∨
      (∃ packet, turn.available = some packet ∧ (serviceRadio i turn radio).1.txq = radio.txq ∧
        (serviceRadio i turn radio).2.filterMap ofPass =
          [.forwarded i ⟨packet.data, packet.rssi, packet.snr⟩]) ∨
      ∃ job, txqPeek radio.txq = some job ∧
        (serviceRadio i turn radio).1.txq = txqPop radio.txq ∧
        (serviceRadio i turn radio).2.filterMap ofPass = [.onAir i job.data] := by
  unfold serviceRadio
  cases radio.txActive with
  | some flight =>
      refine .inl ?_
      dsimp only [serviceFlight]
      split
      · exact ⟨rfl, rfl⟩
      · exact ⟨rfl, rfl⟩
  | none =>
      dsimp only
      split
      · cases havailable : turn.available with
        | some packet =>
            dsimp only [forward]
            split
            · exact .inr (.inl ⟨packet, rfl, rfl, rfl⟩)
            · refine .inl ⟨rfl, ?_⟩
              split
              · rfl
              · rfl
        | none =>
            cases hpeek : txqPeek radio.txq with
            | none => exact .inl ⟨rfl, rfl⟩
            | some job =>
                dsimp only [dispatch]
                split
                · exact .inl ⟨rfl, rfl⟩
                · refine .inr (.inr ⟨job, rfl, ?_⟩)
                  split
                  · exact ⟨rfl, rfl⟩
                  · exact ⟨rfl, rfl⟩
      · exact .inl ⟨rfl, rfl⟩

theorem serviceRadio_sends (turn : Turn) (radio : Radio) :
    queued radio.txq = onAir i ((serviceRadio i turn radio).2.filterMap ofPass) ++
      queued (serviceRadio i turn radio).1.txq := by
  obtain ⟨hsame, hquiet⟩ | ⟨packet, -, hsame, hpacket⟩ | ⟨job, hpeek, hpop, hsent⟩ :=
    serviceRadio_cases (i := i) turn radio
  · rw [hsame, hquiet]
    rfl
  · rw [hsame, hpacket]
    rfl
  · rw [hpop, hsent, queued_eq_cons hpeek]
    simp [onAir]

theorem serviceRadio_other {j : LocalRadio} (hne : j ≠ i) (turn : Turn) (radio : Radio) :
    onAir i ((serviceRadio j turn radio).2.filterMap ofPass) = [] := by
  obtain ⟨-, hquiet⟩ | ⟨packet, -, -, hpacket⟩ | ⟨job, -, -, hsent⟩ :=
    serviceRadio_cases (i := j) turn radio
  · rw [hquiet]
    rfl
  · rw [hpacket]
    rfl
  · rw [hsent]
    simp [onAir, hne]

theorem serviceRadio_short {turn : Turn} {radio : Radio} {act : Act}
    (hact : act ∈ (serviceRadio i (clip turn) radio).2) : Short act := by
  cases act with
  | rx j rssi snr data =>
      have hmem : Output.forwarded j ⟨data, rssi, snr⟩ ∈
          (serviceRadio i (clip turn) radio).2.filterMap ofPass :=
        List.mem_filterMap.mpr ⟨_, hact, rfl⟩
      obtain ⟨-, hquiet⟩ | ⟨packet, havailable, -, hpacket⟩ | ⟨job, -, -, hsent⟩ :=
        serviceRadio_cases (i := i) (clip turn) radio
      · simp [hquiet] at hmem
      · obtain ⟨whole, -, rfl⟩ := Option.map_eq_some_iff.mp havailable
        simp only [hpacket, List.mem_singleton, Output.forwarded.injEq,
          RxPacket.mk.injEq] at hmem
        rw [Short, hmem.2.1]
        exact List.length_take_le _ _
      · simp [hsent] at hmem
  | _ => trivial

theorem pass_sends (turns : LocalRadio → Turn) (radios : Radios) (i : LocalRadio) :
    queued (radios i).txq = onAir i ((Coprocessor.pass turns radios).2.filterMap ofPass) ++
      queued ((Coprocessor.pass turns radios).1 i).txq := by
  have hboth : List.finRange 2 = [0, 1] := rfl
  have hsends := serviceRadio_sends (i := i) (turns i) (radios i)
  simp only [Coprocessor.pass, hboth, List.flatMap_cons, List.flatMap_nil, List.append_nil,
    List.filterMap_append, onAir_append]
  have hradios : ∀ j : LocalRadio, j = 0 ∨ j = 1 := by decide
  obtain rfl | rfl := hradios i
  · rw [serviceRadio_other (i := 0) (j := 1) (by decide), List.append_nil]
    exact hsends
  · rw [serviceRadio_other (i := 1) (j := 0) (by decide), List.nil_append]
    exact hsends

theorem pass_short {turns : LocalRadio → Turn} {radios : Radios} {act : Act}
    (hact : act ∈ (Coprocessor.pass (fun i => clip (turns i)) radios).2) : Short act := by
  obtain ⟨i, -, hmem⟩ := List.mem_flatMap.mp hact
  exact serviceRadio_short hmem

end Queues

/-! ## Messages that are delivered -/

/-- The host puts what there is room for in the queues, and nothing else is seen. -/
structure Delivers (registered : LocalRadio → Bool) (host : Host) (delivered : List Message)
    (next : Host × List Output) : Prop where
  arrived : ∀ i, (arrivals i next.2).map Prod.fst = delivered.filterMap (rxAt i)
  queue : ∀ i, next.1.rxQueue i =
    host.rxQueue i ++ ((arrivals i next.2).filter Prod.snd).map Prod.fst
  only : ∀ output ∈ next.2, ∃ i packet kept, output = .arrived i packet kept

theorem handleFrame_quiet {registered : LocalRadio → Bool} {host : Host} {frame : Message}
    {next : Host × List Output} (hrx : ∀ i, rxAt i frame = none)
    (hqueue : next.1.rxQueue = host.rxQueue) (hnone : next.2 = []) :
    Delivers registered host [frame] next where
  arrived i := by simp [hnone, hrx, arrivals]
  queue i := by simp [hnone, hqueue, arrivals]
  only := by simp [hnone]

theorem handleFrame_delivers (registered : LocalRadio → Bool) (now : UInt32) (host : Host)
    (frame : Message) :
    Delivers registered host [frame] (handleFrame registered now host frame) := by
  unfold handleFrame
  by_cases hrx : frame.type = MSG_RX
  · rw [if_pos hrx]
    cases hlocal : localOf frame.radio with
    | none => exact handleFrame_quiet (by simp [rxAt, hlocal]) rfl rfl
    | some j =>
        cases hpacket : rxPacket frame.payload with
        | none => exact handleFrame_quiet (by simp [rxAt, hpacket]) rfl rfl
        | some packet =>
            have hat : ∀ i, rxAt i frame = if j = i then some packet else none := by
              simp [rxAt, hrx, hlocal, hpacket]
            dsimp only
            split
            · refine ⟨fun i => ?_, fun i => ?_, fun output hmem => ⟨j, packet, _,
                List.mem_singleton.mp hmem⟩⟩
              · by_cases hj : j = i <;> simp [hat, hj, arrivals]
              · by_cases hj : j = i
                · subst hj
                  simp [arrivals]
                · simp [arrivals, hj, Ne.symm hj]
            · refine ⟨fun i => ?_, fun i => ?_, fun output hmem => ⟨j, packet, _,
                List.mem_singleton.mp hmem⟩⟩
              · by_cases hj : j = i <;> simp [hat, hj, arrivals]
              · by_cases hj : j = i <;> simp [hj, arrivals]
  · have hquiet : ∀ i, rxAt i frame = none := fun i => if_neg fun hboth => hrx hboth.1
    rw [if_neg hrx]
    split
    · exact handleFrame_quiet hquiet rfl rfl
    · split
      · exact handleFrame_quiet hquiet rfl rfl
      · split
        · cases localOf frame.radio with
          | none => exact handleFrame_quiet hquiet rfl rfl
          | some j => exact handleFrame_quiet hquiet rfl rfl
        · exact handleFrame_quiet hquiet rfl rfl

theorem run_delivers (registered : LocalRadio → Bool) (now : UInt32) (host : Host)
    (delivered : List Message) :
    Delivers registered host delivered
      (Machine.run (handleFrame registered now) host delivered) := by
  induction delivered generalizing host with
  | nil => exact ⟨fun i => rfl, fun i => by simp [Machine.run, arrivals], by simp [Machine.run]⟩
  | cons frame rest ih =>
      have hfirst := handleFrame_delivers registered now host frame
      have hrest := ih (handleFrame registered now host frame).1
      refine ⟨fun i => ?_, fun i => ?_, fun output hmem => ?_⟩
      · have harrived := hfirst.arrived i
        simp only [Machine.run, arrivals_append, List.map_append, hrest.arrived, harrived]
        rw [← List.filterMap_append, List.singleton_append]
      · simp only [Machine.run, arrivals_append, List.filter_append, List.map_append,
          hrest.queue, hfirst.queue, List.append_assoc]
      · rcases List.mem_append.mp hmem with hbefore | hafter
        · exact hfirst.only output hbefore
        · exact hrest.only output hafter

/-- The co-processor queues or answers every packet, and puts no packet on the link. -/
structure Handles (board : Radios × Wire) (delivered : List Message)
    (next : (Radios × Wire) × List Output) : Prop where
  taken : ∀ i, taken i next.2 = delivered.filterMap (txAt i)
  queues : ∀ i, ∃ accepted, queued (next.1.1 i).txq = queued (board.1 i).txq ++ accepted ∧
    accepted.Sublist ((RemotePackets.taken i next.2).map (List.take LORA_MAX)) ∧
    accepted.length + rejections i next.2 = (RemotePackets.taken i next.2).length
  answers : ∀ later, board.2.Pending later → ∃ answers, next.1.2.Pending (later ++ answers) ∧
    ∀ i, answers.filterMap (rxAt i) = []
  only : ∀ output ∈ next.2, (∃ i data, output = .taken i data) ∨ ∃ i, output = .rejected i

theorem taken_takenBy (i : LocalRadio) (frame : Message) :
    taken i (takenBy frame) = (txAt i frame).toList := by
  unfold takenBy txAt
  by_cases htx : frame.type = MSG_TX
  · cases hlocal : localOf frame.radio with
    | none => simp [htx, taken]
    | some j => by_cases hj : j = i <;> simp [htx, hj, taken]
  · simp [htx, taken]

theorem taken_ofHandle (i : LocalRadio) (acts : List Act) :
    taken i (acts.filterMap ofHandle) = [] := by
  rw [taken, List.filterMap_filterMap]
  exact List.filterMap_eq_nil_iff.mpr fun act _ => by cases act <;> rfl

theorem rejections_takenBy (i : LocalRadio) (frame : Message) :
    rejections i (takenBy frame) = 0 := by
  refine List.countP_eq_zero.mpr fun output hmem => ?_
  unfold takenBy at hmem
  split at hmem
  · obtain ⟨j, -, rfl⟩ := List.mem_map.mp hmem
    simp
  · simp at hmem

theorem coprocHandles_handles (render : Act → List UInt8) (begun : LocalRadio → Bool)
    (up : UInt32) (board : Radios × Wire) {frame : Message} (hlife : frame.type ≠ MSG_RESET) :
    Handles board [frame] (coprocHandles render begun up board frame) := by
  have htaken : ∀ i, taken i (coprocHandles render begun up board frame).2 =
      (txAt i frame).toList := fun i => by
    rw [coprocHandles, taken_append, taken_takenBy, taken_ofHandle, List.append_nil]
  obtain ⟨_, hfirst⟩ := handle_admits (i := 0) board.1 0 begun up hlife
  refine ⟨fun i => ?_, fun i => ?_, fun later hlater => ?_, fun output hmem => ?_⟩
  · rw [htaken]
    cases htx : txAt i frame <;> simp [htx]
  · obtain ⟨accepted, hadmits⟩ := handle_admits (i := i) board.1 0 begun up hlife
    refine ⟨accepted, hadmits.queued, htaken i ▸ hadmits.whole, ?_⟩
    rw [htaken, ← hadmits.counted, coprocHandles, rejections_append, rejections_takenBy,
      Nat.zero_add]
  · have hshort := short_of_quiet hfirst.quiet
    refine ⟨_, pending_acts render _ hlater hshort, fun i => ?_⟩
    rw [rxAt_messages render i _ hshort, hfirst.quiet]
    rfl
  · rcases List.mem_append.mp hmem with hby | hof
    · unfold takenBy at hby
      split at hby
      · obtain ⟨i, -, rfl⟩ := List.mem_map.mp hby
        exact .inl ⟨i, frame.payload, rfl⟩
      · simp at hby
    · obtain ⟨act, -, hact⟩ := List.mem_filterMap.mp hof
      cases act with
      | txDone i status serial => exact .inr ⟨i, (Option.some.inj hact).symm⟩
      | _ => cases hact

theorem run_handles (render : Act → List UInt8) (begun : LocalRadio → Bool) (up : UInt32)
    (board : Radios × Wire) {delivered : List Message}
    (hlife : ∀ frame ∈ delivered, frame.type ≠ MSG_RESET) :
    Handles board delivered (Machine.run (coprocHandles render begun up) board delivered) := by
  induction delivered generalizing board with
  | nil =>
      exact ⟨fun i => rfl, fun i => ⟨[], by simp [Machine.run], List.nil_sublist _, rfl⟩,
        fun later hlater => ⟨[], by simpa [Machine.run] using hlater, fun i => rfl⟩,
        by simp [Machine.run]⟩
  | cons frame rest ih =>
      have hfirst := coprocHandles_handles render begun up board (hlife _ List.mem_cons_self)
      have hrest := ih (coprocHandles render begun up board frame).1 fun other hmem =>
        hlife other (List.mem_cons_of_mem _ hmem)
      refine ⟨fun i => ?_, fun i => ?_, fun later hlater => ?_, fun output hmem => ?_⟩
      · simp only [Machine.run, taken_append, hfirst.taken i, hrest.taken i]
        rw [← List.filterMap_append, List.singleton_append]
      · obtain ⟨first, hqueue, hwhole, hcount⟩ := hfirst.queues i
        obtain ⟨others, hqueues, hwholes, hcounts⟩ := hrest.queues i
        refine ⟨first ++ others, ?_, ?_, ?_⟩
        · simp only [Machine.run, hqueues, hqueue, List.append_assoc]
        · simpa only [Machine.run, taken_append, List.map_append] using
            hwhole.append hwholes
        · simp only [Machine.run, taken_append, rejections_append, List.length_append,
            ← hcount, ← hcounts]
          omega
      · obtain ⟨first, hpending, hnone⟩ := hfirst.answers later hlater
        obtain ⟨others, hpendings, hnones⟩ := hrest.answers _ hpending
        refine ⟨first ++ others, by rwa [← List.append_assoc], fun i => ?_⟩
        rw [List.filterMap_append, hnone, hnones, List.append_nil]
      · rcases List.mem_append.mp hmem with hbefore | hafter
        · exact hfirst.only output hbefore
        · exact hrest.only output hafter

/-! ## Over a run -/

/-- Up the link: what arrived and what is in flight is what was forwarded, and what was
kept was read or waits. -/
structure Upward (up : Wire) (rxQueue : LocalRadio → List RxPacket) (log : List Output) :
    Prop where
  inFlight : ∃ later, up.Pending later ∧
    ∀ i, forwarded i log = (arrivals i log).map Prod.fst ++ later.filterMap (rxAt i)
  kept : ∀ i, ((arrivals i log).filter Prod.snd).map Prod.fst = reads i log ++ rxQueue i
  short : ∀ i, ∀ packet ∈ rxQueue i, packet.data.length ≤ LORA_MAX_PACKET

/-- Down the link: what was taken and what is in flight is what was handed over, and what
was taken is on the air, queued or answered. -/
structure Downward (down : Wire) (radios : Radios) (log : List Output) : Prop where
  inFlight : ∃ later, down.Pending later ∧ (∀ frame ∈ later, frame.type ≠ MSG_RESET) ∧
    ∀ i, handed i log = taken i log ++ later.filterMap (txAt i)
  jobs : ∀ i, (onAir i log ++ queued (radios i).txq).Sublist
    ((taken i log).map (List.take LORA_MAX))
  counted : ∀ i, (taken i log).length =
    (onAir i log).length + (queued (radios i).txq).length + rejections i log

section Upward

variable {up next : Wire} {rxQueue : LocalRadio → List RxPacket} {log outputs : List Output}

/-- The co-processor put messages on the link. -/
theorem Upward.sends (hup : Upward up rxQueue log)
    (hnext : ∀ later, up.Pending later → ∃ messages, next.Pending (later ++ messages) ∧
      ∀ i, messages.filterMap (rxAt i) = forwarded i outputs)
    (harrivals : ∀ i, arrivals i outputs = []) (hreads : ∀ i, reads i outputs = []) :
    Upward next rxQueue (log ++ outputs) where
  inFlight := by
    obtain ⟨later, hlater, hall⟩ := hup.inFlight
    obtain ⟨messages, hpending, hforwarded⟩ := hnext later hlater
    refine ⟨later ++ messages, hpending, fun i => ?_⟩
    rw [forwarded_append, arrivals_append, harrivals, ← hforwarded, hall, List.append_nil,
      List.filterMap_append, List.append_assoc]
  kept i := by
    rw [arrivals_append, harrivals, reads_append, hreads, List.append_nil, List.append_nil,
      hup.kept]
  short := hup.short

theorem Upward.frame (hup : Upward up rxQueue log) (hforwarded : ∀ i, forwarded i outputs = [])
    (harrivals : ∀ i, arrivals i outputs = []) (hreads : ∀ i, reads i outputs = []) :
    Upward up rxQueue (log ++ outputs) :=
  hup.sends (fun later hlater => ⟨[], by rwa [List.append_nil], fun i => (hforwarded i).symm⟩)
    harrivals hreads

theorem length_rxPacket {payload : List UInt8} {packet : RxPacket}
    (hpacket : rxPacket payload = some packet) : packet.data.length ≤ LORA_MAX_PACKET := by
  unfold rxPacket at hpacket
  split at hpacket
  · cases hpacket
    exact List.length_take_le _ _
  · cases hpacket

/-- The host read a byte. -/
theorem Upward.feed {host : Host} (hup : Upward up host.rxQueue log)
    (registered : LocalRadio → Bool) (now : UInt32) :
    ∃ after delivered, up.feed uartLinkFeedByte = some (after, delivered) ∧
      Upward after (Machine.run (handleFrame registered now) host delivered).1.rxQueue
        (log ++ (Machine.run (handleFrame registered now) host delivered).2) ∧
      ∀ output ∈ (Machine.run (handleFrame registered now) host delivered).2,
        ∃ i packet kept, output = .arrived i packet kept := by
  obtain ⟨later, hlater, hall⟩ := hup.inFlight
  obtain ⟨after, delivered, still, hfeed, rfl, hstill⟩ := hlater.feed Framing.uartLinkFeedByte_mem
  have hdelivers := run_delivers registered now host delivered
  have hnone : ∀ i, forwarded i (Machine.run (handleFrame registered now) host delivered).2 = [] ∧
      reads i (Machine.run (handleFrame registered now) host delivered).2 = [] := by
    intro i
    constructor
    all_goals
      refine List.filterMap_eq_nil_iff.mpr fun output hmem => ?_
      obtain ⟨j, packet, kept, rfl⟩ := hdelivers.only output hmem
      rfl
  refine ⟨after, delivered, hfeed, ⟨⟨still, hstill, ?_⟩, ?_, ?_⟩, hdelivers.only⟩
  · intro i
    rw [forwarded_append, (hnone i).1, List.append_nil, hall, arrivals_append, List.map_append,
      hdelivers.arrived, List.filterMap_append, List.append_assoc]
  · intro i
    rw [arrivals_append, List.filter_append, List.map_append, hup.kept, reads_append,
      (hnone i).2, List.append_nil, hdelivers.queue, List.append_assoc]
  · intro i packet hmem
    rw [hdelivers.queue] at hmem
    rcases List.mem_append.mp hmem with hold | hnew
    · exact hup.short i packet hold
    · obtain ⟨arrival, harrival, rfl⟩ := List.mem_map.mp hnew
      have hmem' := List.mem_map_of_mem (f := Prod.fst) (List.mem_of_mem_filter harrival)
      rw [hdelivers.arrived] at hmem'
      obtain ⟨frame, -, hat⟩ := List.mem_filterMap.mp hmem'
      unfold rxAt at hat
      split at hat
      · exact length_rxPacket hat
      · cases hat

/-- The bridge read a packet. -/
theorem Upward.read {host : Host} (hup : Upward up host.rxQueue log) (i : LocalRadio) :
    Upward up (RemoteLink.read i LORA_MAX_PACKET host).1.rxQueue
      (log ++ (RemoteLink.read i LORA_MAX_PACKET host).2.toList.map (.read i)) := by
  unfold RemoteLink.read
  cases hqueue : host.rxQueue i with
  | nil => simpa using hup
  | cons packet rest =>
      have hshort := hup.short i
      rw [hqueue] at hshort
      have hwhole : { packet with data := packet.data.take LORA_MAX_PACKET } = packet := by
        rw [List.take_of_length_le (hshort packet List.mem_cons_self)]
      simp only [hwhole, Option.toList_some, List.map_cons, List.map_nil]
      refine ⟨?_, fun j => ?_, fun j other hmem => ?_⟩
      · obtain ⟨later, hlater, hall⟩ := hup.inFlight
        refine ⟨later, hlater, fun j => ?_⟩
        simpa [forwarded, arrivals] using hall j
      · have hkept := hup.kept j
        by_cases hj : i = j
        · subst hj
          simpa [arrivals, reads, hqueue] using hkept
        · simpa [arrivals, reads, hj, Ne.symm hj] using hkept
      · by_cases hj : i = j
        · subst hj
          rw [Function.update_self] at hmem
          exact hshort other (List.mem_cons_of_mem _ hmem)
        · rw [Function.update_of_ne (Ne.symm hj)] at hmem
          exact hup.short j other hmem

end Upward

section Downward

variable {down next : Wire} {radios : Radios} {log outputs : List Output}

/-- The host put messages on the link. -/
theorem Downward.sends (hdown : Downward down radios log)
    (hnext : ∀ later, down.Pending later → ∃ messages, next.Pending (later ++ messages) ∧
      (∀ frame ∈ messages, frame.type ≠ MSG_RESET) ∧
        ∀ i, messages.filterMap (txAt i) = handed i outputs)
    (htaken : ∀ i, taken i outputs = []) (honAir : ∀ i, onAir i outputs = [])
    (hrejections : ∀ i, rejections i outputs = 0) : Downward next radios (log ++ outputs) where
  inFlight := by
    obtain ⟨later, hlater, hlives, hall⟩ := hdown.inFlight
    obtain ⟨messages, hpending, hlife, hhanded⟩ := hnext later hlater
    refine ⟨later ++ messages, hpending, fun frame hmem => ?_, fun i => ?_⟩
    · rcases List.mem_append.mp hmem with hold | hnew
      · exact hlives frame hold
      · exact hlife frame hnew
    · rw [handed_append, hall, ← hhanded, taken_append, htaken, List.append_nil,
        List.filterMap_append, List.append_assoc]
  jobs i := by
    rw [onAir_append, honAir, taken_append, htaken, List.append_nil, List.append_nil]
    exact hdown.jobs i
  counted i := by
    rw [onAir_append, honAir, taken_append, htaken, List.append_nil, List.append_nil,
      rejections_append, hrejections, Nat.add_zero]
    exact hdown.counted i

theorem Downward.frame (hdown : Downward down radios log) (hhanded : ∀ i, handed i outputs = [])
    (htaken : ∀ i, taken i outputs = []) (honAir : ∀ i, onAir i outputs = [])
    (hrejections : ∀ i, rejections i outputs = 0) : Downward down radios (log ++ outputs) :=
  hdown.sends (fun later hlater =>
    ⟨[], by rwa [List.append_nil], by simp, fun i => (hhanded i).symm⟩) htaken honAir hrejections

/-- The co-processor read a byte. -/
theorem Downward.feed (hdown : Downward down radios log) (render : Act → List UInt8)
    (begun : LocalRadio → Bool) (uptime : UInt32) (up : Wire) :
    ∃ after delivered, down.feed coprocFeedByte = some (after, delivered) ∧
      Downward after (Machine.run (coprocHandles render begun uptime) (radios, up) delivered).1.1
        (log ++ (Machine.run (coprocHandles render begun uptime) (radios, up) delivered).2) ∧
      Handles (radios, up) delivered
        (Machine.run (coprocHandles render begun uptime) (radios, up) delivered) := by
  obtain ⟨later, hlater, hlives, hall⟩ := hdown.inFlight
  obtain ⟨after, delivered, still, hfeed, rfl, hstill⟩ := hlater.feed Framing.coprocFeedByte_mem
  have hhandles := run_handles render begun uptime (radios, up) fun frame hmem =>
    hlives frame (List.mem_append_left _ hmem)
  have hnone : ∀ i,
      handed i (Machine.run (coprocHandles render begun uptime) (radios, up) delivered).2 = [] ∧
      onAir i (Machine.run (coprocHandles render begun uptime) (radios, up) delivered).2 = [] := by
    intro i
    constructor
    all_goals
      refine List.filterMap_eq_nil_iff.mpr fun output hmem => ?_
      obtain ⟨j, data, rfl⟩ | ⟨j, rfl⟩ := hhandles.only output hmem
      · rfl
      · rfl
  refine ⟨after, delivered, hfeed, ⟨⟨still, hstill, ?_, ?_⟩, ?_, ?_⟩, hhandles⟩
  · exact fun frame hmem => hlives frame (List.mem_append_right _ hmem)
  · intro i
    rw [handed_append, (hnone i).1, List.append_nil, hall, taken_append, hhandles.taken,
      List.filterMap_append, List.append_assoc]
  · intro i
    obtain ⟨accepted, hqueue, hwhole, -⟩ := hhandles.queues i
    rw [onAir_append, (hnone i).2, List.append_nil, hqueue, taken_append, List.map_append,
      ← List.append_assoc]
    exact (hdown.jobs i).append hwhole
  · intro i
    obtain ⟨accepted, hqueue, -, hcount⟩ := hhandles.queues i
    have hbefore := hdown.counted i
    simp only [onAir_append, (hnone i).2, List.append_nil, hqueue, taken_append,
      rejections_append, List.length_append, ← hcount]
    omega

/-- A pass of the co-processor's loop. -/
theorem Downward.pass (hdown : Downward down radios log) (turns : LocalRadio → Turn) :
    Downward down (Coprocessor.pass turns radios).1
      (log ++ (Coprocessor.pass turns radios).2.filterMap ofPass) := by
  have hnone : ∀ i, handed i ((Coprocessor.pass turns radios).2.filterMap ofPass) = [] ∧
      taken i ((Coprocessor.pass turns radios).2.filterMap ofPass) = [] := by
    intro i
    constructor
    all_goals
      refine List.filterMap_eq_nil_iff.mpr fun output hmem => ?_
      obtain ⟨act, -, hact⟩ := List.mem_filterMap.mp hmem
      cases act <;> cases hact <;> rfl
  have hrejections : ∀ i,
      rejections i ((Coprocessor.pass turns radios).2.filterMap ofPass) = 0 := by
    intro i
    refine List.countP_eq_zero.mpr fun output hmem => ?_
    obtain ⟨act, -, hact⟩ := List.mem_filterMap.mp hmem
    cases act <;> cases hact <;> simp
  refine ⟨?_, fun i => ?_, fun i => ?_⟩
  · obtain ⟨later, hlater, hlives, hall⟩ := hdown.inFlight
    refine ⟨later, hlater, hlives, fun i => ?_⟩
    rw [handed_append, (hnone i).1, taken_append, (hnone i).2, List.append_nil, List.append_nil,
      hall]
  · have hjobs := hdown.jobs i
    rwa [pass_sends turns radios i, ← List.append_assoc, ← onAir_append,
      ← List.append_nil (taken i log), ← (hnone i).2, ← taken_append] at hjobs
  · have hbefore := hdown.counted i
    have hsends := congrArg List.length (pass_sends turns radios i)
    rw [List.length_append] at hsends
    simp only [onAir_append, taken_append, (hnone i).2, rejections_append, hrejections,
      List.append_nil, List.length_append]
    omega

end Downward

/-- What holds of both boards after every step. -/
structure Crosses (s : System) (log : List Output) : Prop where
  upward : Upward s.up s.host.rxQueue log
  downward : Downward s.down s.radios log
  noFault : .fault ∉ log

section Steps

variable {registered : LocalRadio → Bool} {render : Act → List UInt8} {s : System}
  {log : List Output}

/-- A request of the host without a packet. -/
theorem Crosses.asks (hcrosses : Crosses s log) (messages : List Message)
    (hlen : ∀ frame ∈ messages, frame.payload.length ≤ MAX_PAYLOAD)
    (hlife : ∀ frame ∈ messages, frame.type ≠ MSG_RESET)
    (htx : ∀ frame ∈ messages, frame.type ≠ MSG_TX) :
    Crosses { s with down := sendAll messages s.down } (log ++ []) where
  upward := hcrosses.upward.frame (fun i => rfl) (fun i => rfl) fun i => rfl
  downward := by
    refine hcrosses.downward.sends (fun later hlater =>
      ⟨messages, pending_sendAll hlater hlen, hlife, fun i => ?_⟩) (fun i => rfl)
      (fun i => rfl) fun i => rfl
    exact List.filterMap_eq_nil_iff.mpr fun frame hmem => txAt_of_type (htx frame hmem)
  noFault := by simpa using hcrosses.noFault

theorem crosses_transmit (hcrosses : Crosses s log) (i : LocalRadio) (data : List UInt8) :
    Crosses (step registered render s (.transmit i data)).1
      (log ++ (step registered render s (.transmit i data)).2) := by
  have hnothing : Crosses s (log ++ []) := by simpa using hcrosses
  by_cases hready : s.host.ready
  · by_cases hlen : data.length ≤ MAX_PAYLOAD
    · simp only [step, if_pos hready, if_pos hlen]
      refine ⟨?_, ?_, by simpa using hcrosses.noFault⟩
      · exact hcrosses.upward.frame (fun j => rfl) (fun j => rfl) fun j => rfl
      · refine hcrosses.downward.sends (fun later hlater =>
          ⟨[⟨MSG_TX, .ofNat i, data⟩], hlater.send hlen, ?_, fun j => ?_⟩) (fun j => rfl)
          (fun j => rfl) fun j => rfl
        · simp only [List.mem_singleton, forall_eq]
          decide
        · by_cases hi : i = j <;> simp [handed, txAt, localOf_index, hi]
    · simp only [step, if_pos hready, if_neg hlen]
      exact ⟨hnothing.upward, hnothing.downward, hnothing.noFault⟩
  · simp only [step, if_neg hready]
    exact hnothing

theorem crosses_coprocFeeds (hcrosses : Crosses s log) (begun : LocalRadio → Bool)
    (uptime : UInt32) :
    Crosses (step registered render s (.coprocFeeds begun uptime)).1
      (log ++ (step registered render s (.coprocFeeds begun uptime)).2) := by
  obtain ⟨after, delivered, hfeed, hdown, hhandles⟩ :=
    hcrosses.downward.feed render begun uptime s.up
  simp only [step, hfeed]
  refine ⟨?_, hdown, ?_⟩
  · have hnone : ∀ i, forwarded i
        (Machine.run (coprocHandles render begun uptime) (s.radios, s.up) delivered).2 = [] ∧
        arrivals i
          (Machine.run (coprocHandles render begun uptime) (s.radios, s.up) delivered).2 = [] ∧
        reads i
          (Machine.run (coprocHandles render begun uptime) (s.radios, s.up) delivered).2 = [] := by
      intro i
      refine ⟨?_, ?_, ?_⟩
      all_goals
        refine List.filterMap_eq_nil_iff.mpr fun output hmem => ?_
        obtain ⟨j, data, rfl⟩ | ⟨j, rfl⟩ := hhandles.only output hmem
        · rfl
        · rfl
    refine hcrosses.upward.sends (fun later hlater => ?_) (fun i => (hnone i).2.1)
      fun i => (hnone i).2.2
    obtain ⟨answers, hpending, hnopacket⟩ := hhandles.answers later hlater
    exact ⟨answers, hpending, fun i => (hnopacket i).trans (hnone i).1.symm⟩
  · intro hmem
    rcases List.mem_append.mp hmem with hold | hnew
    · exact hcrosses.noFault hold
    · obtain ⟨j, data, heq⟩ | ⟨j, heq⟩ := hhandles.only _ hnew
      · cases heq
      · cases heq

theorem crosses_hostFeeds (hcrosses : Crosses s log) (now : UInt32) :
    Crosses (step registered render s (.hostFeeds now)).1
      (log ++ (step registered render s (.hostFeeds now)).2) := by
  obtain ⟨after, delivered, hfeed, hup, honly⟩ :=
    hcrosses.upward.feed registered now
  simp only [step, hfeed]
  refine ⟨hup, hcrosses.downward.frame ?_ ?_ ?_ ?_, ?_⟩
  · exact fun i => List.filterMap_eq_nil_iff.mpr fun output hmem => by
      obtain ⟨j, packet, kept, rfl⟩ := honly output hmem
      rfl
  · exact fun i => List.filterMap_eq_nil_iff.mpr fun output hmem => by
      obtain ⟨j, packet, kept, rfl⟩ := honly output hmem
      rfl
  · exact fun i => List.filterMap_eq_nil_iff.mpr fun output hmem => by
      obtain ⟨j, packet, kept, rfl⟩ := honly output hmem
      rfl
  · exact fun i => List.countP_eq_zero.mpr fun output hmem => by
      obtain ⟨j, packet, kept, rfl⟩ := honly output hmem
      simp
  · intro hmem
    rcases List.mem_append.mp hmem with hold | hnew
    · exact hcrosses.noFault hold
    · obtain ⟨j, packet, kept, heq⟩ := honly _ hnew
      cases heq

theorem crosses_read (hcrosses : Crosses s log) (i : LocalRadio) :
    Crosses (step registered render s (.read i)).1
      (log ++ (step registered render s (.read i)).2) := by
  simp only [step]
  refine ⟨hcrosses.upward.read i, hcrosses.downward.frame ?_ ?_ ?_ ?_, ?_⟩
  all_goals
    cases (RemoteLink.read i LORA_MAX_PACKET s.host).2
  all_goals
    first
    | exact fun j => rfl
    | simpa using hcrosses.noFault

theorem crosses_pass (hcrosses : Crosses s log) (turns : LocalRadio → Turn) :
    Crosses (step registered render s (.pass turns)).1
      (log ++ (step registered render s (.pass turns)).2) := by
  simp only [step]
  refine ⟨?_, hcrosses.downward.pass _, ?_⟩
  · refine hcrosses.upward.sends (fun later hlater => ⟨_, pending_acts render _ hlater
      fun act => pass_short, fun i => rxAt_messages render i _ fun act => pass_short⟩) ?_ ?_
    · refine fun i => List.filterMap_eq_nil_iff.mpr fun output hmem => ?_
      obtain ⟨act, -, hact⟩ := List.mem_filterMap.mp hmem
      cases act <;> cases hact <;> rfl
    · refine fun i => List.filterMap_eq_nil_iff.mpr fun output hmem => ?_
      obtain ⟨act, -, hact⟩ := List.mem_filterMap.mp hmem
      cases act <;> cases hact <;> rfl
  · intro hmem
    rcases List.mem_append.mp hmem with hold | hnew
    · exact hcrosses.noFault hold
    · obtain ⟨act, -, hact⟩ := List.mem_filterMap.mp hnew
      cases act <;> cases hact

theorem crosses_step (hcrosses : Crosses s log) (event : RemoteLink.Event) :
    Crosses (step registered render s event).1
      (log ++ (step registered render s event).2) := by
  cases event with
  | begin i config =>
      exact hcrosses.asks [⟨ MSG_CFG_RADIO, .ofNat i, CfgRadio.bytes (cfgOf config)⟩]
        (by simp [CfgRadio.bytes, wordBytes, word16Bytes, MAX_PAYLOAD]) (by simp; decide)
        (by simp; decide)
  | startReceive i =>
      exact hcrosses.asks [⟨MSG_START_RX, .ofNat i, []⟩] (by simp) (by simp; decide)
        (by simp; decide)
  | transmit i data => exact crosses_transmit hcrosses i data
  | read i => exact crosses_read hcrosses i
  | hostFeeds now => exact crosses_hostFeeds hcrosses now
  | coprocFeeds begun uptime => exact crosses_coprocFeeds hcrosses begun uptime
  | pass turns => exact crosses_pass hcrosses turns

theorem setup_quiet (begun : LocalRadio → Bool) : (setup begun).2.filterMap ofPass = [] := by
  cases h0 : begun 0 <;> cases h1 : begun 1 <;> simp [setup, h0, h1, List.filterMap_cons, ofPass]

theorem crosses_boot (render : Act → List UInt8) (begun : LocalRadio → Bool) :
    Crosses (boot render begun) [] := by
  have hquiet := setup_quiet begun
  have hup := pending_acts render _ pending_idle (short_of_quiet hquiet)
  refine ⟨⟨⟨_, hup, fun i => ?_⟩, fun i => rfl, by simp [boot]⟩,
    ⟨⟨[], pending_idle, by simp, fun i => rfl⟩, fun i => ?_, fun i => ?_⟩, by simp⟩
  · rw [List.nil_append, rxAt_messages render i _ (short_of_quiet hquiet), hquiet]
    rfl
  · simp [boot, setup, queued, onAir]
  · simp [boot, setup, queued, onAir, taken, rejections]

end Steps

/-- Whatever the order of the boards' steps, no access leaves its array.  Up the link every
packet the co-processor received arrives, once and in order, and one that the queue has room
for is read; down the link every packet the radio is given or has queued was handed over, in
the order in which they were, and the others were answered. -/
theorem packets_cross (registered : LocalRadio → Bool) (render : Act → List UInt8)
    (begun : LocalRadio → Bool) (events : List RemoteLink.Event) :
    let after := life registered render begun events
    .fault ∉ after.2 ∧ ∀ i,
      (∃ inFlight, forwarded i after.2 = (arrivals i after.2).map Prod.fst ++ inFlight ∧
        (after.1.up.bytes = [] → inFlight = [])) ∧
      ((arrivals i after.2).filter Prod.snd).map Prod.fst =
        reads i after.2 ++ after.1.host.rxQueue i ∧
      (∃ inFlight, handed i after.2 = taken i after.2 ++ inFlight ∧
        (after.1.down.bytes = [] → inFlight = [])) ∧
      (onAir i after.2 ++ queued (after.1.radios i).txq).Sublist
        ((taken i after.2).map (List.take LORA_MAX)) ∧
      (taken i after.2).length = (onAir i after.2).length +
        (queued (after.1.radios i).txq).length + rejections i after.2 := by
  have hcrosses : Crosses (life registered render begun events).1
      (life registered render begun events).2 := by
    have hstep : ∀ s log event, Crosses s log →
        Crosses (step registered render s event).1
          (log ++ (step registered render s event).2) :=
      fun s log event hinv => crosses_step hinv event
    have hrun := Machine.invariant_run_always hstep events (crosses_boot render begun)
    rwa [List.nil_append] at hrun
  refine ⟨hcrosses.noFault, fun i => ⟨?_, hcrosses.upward.kept i, ?_, hcrosses.downward.jobs i,
    hcrosses.downward.counted i⟩⟩
  · obtain ⟨later, hlater, hall⟩ := hcrosses.upward.inFlight
    refine ⟨later.filterMap (rxAt i), hall i, fun hbytes => ?_⟩
    rw [hlater.eq_nil hbytes]
    rfl
  · obtain ⟨later, hlater, -, hall⟩ := hcrosses.downward.inFlight
    refine ⟨later.filterMap (txAt i), hall i, fun hbytes => ?_⟩
    rw [hlater.eq_nil hbytes]
    rfl

end LoraBridge.RemotePackets
