import LoraBridge.Control.CutCalls
import LoraBridge.Control.MessageRing

/-!
# The life of a C2 device

A device handles frames, sends messages, commands and beacons, and may lose power inside
any of these calls.  Over its whole life the frames it hands out carry increasing sequence
numbers, those of a message or a command are what was asked for, in that order, and what
it carries out came in a frame under the key of its peer.
-/

namespace LoraBridge.Station

open LoraBridge.Actuation LoraBridge.CamC2 LoraBridge.CamC2Config LoraBridge.CutCalls
open LoraBridge.Machine LoraBridge.ReserveAhead

/-! ## The calls into the module -/

inductive Call where
  | receive (inbound : Inbound)
  | message (radioIdx : ℤ) (peerId : UInt32) (text : Option (List UInt8)) (txWrite : Write)
      (queued : Bool)
  | command (radioIdx : ℤ) (camId : UInt32) (cmd : UInt8) (args : List UInt8) (txWrite : Write)
      (queued : Bool)
  | beacon (radioIdx : ℤ) (camera : Camera) (txWrites : Slot → Write)

def Call.program (device : Device) : Call → Program CamC2.State Output Unit
  | .receive inbound => do
      let _ ← handleInbound device inbound
      pure ()
  | .message radioIdx peerId text txWrite queued => do
      let _ ← sendMessage device radioIdx peerId text txWrite queued
      pure ()
  | .command radioIdx camId cmd args txWrite queued => do
      let _ ← sendCommand device radioIdx camId cmd args txWrite queued
      pure ()
  | .beacon radioIdx camera txWrites => emitBeacon device radioIdx camera txWrites

/-- What an operator asks for: a command or a message for a peer. -/
structure Asked where
  type : UInt8
  recip : UInt32
  payload : List UInt8

def Call.asks : Call → List Asked
  | .receive _ => []
  | .message _ peerId text _ _ =>
      text.toList.map fun bytes => ⟨T_MSG, peerId, (Memory.cString bytes).take MSG_TEXT_MAX⟩
  | .command _ camId cmd args _ _ => [⟨T_CMD, camId, cmd :: args⟩]
  | .beacon _ _ _ => []

def Call.receives : Call → List (List UInt8)
  | .receive inbound => [inbound.buf]
  | _ => []

/-- What can be seen at a device: what it is asked for, the frames it hears, and what
leaves the module. -/
inductive Entry where
  | asked (asked : Asked)
  | received (buf : List UInt8)
  | output (output : Output)

def logged (call : Call) (outputs : List Output) : List Entry :=
  call.asks.map .asked ++ call.receives.map .received ++ outputs.map .output

/-- A call is made; or the power goes, between calls or after some steps of one, and the
device starts again. -/
inductive Event where
  | call (call : Call)
  | powerLoss (during : Option (Call × ℕ))

def step (device : Device) : CamC2.State → Event → CamC2.State × List Entry
  | state, .call call =>
      let done := (call.program device).run state
      (done.state, logged call done.outputs)
  | state, .powerLoss none => (CamC2.boot device state.config.nvs, [])
  | state, .powerLoss (some (call, steps)) =>
      let (cut, outputs) := (call.program device).cut steps state
      (CamC2.boot device cut.config.nvs, logged call outputs)

/-! ## Reading the log -/

def outputsOf (log : List Entry) : List Output :=
  log.filterMap fun entry =>
    match entry with
    | .output output => some output
    | _ => none

def receivedOf (log : List Entry) : List (List UInt8) :=
  log.filterMap fun entry =>
    match entry with
    | .received buf => some buf
    | _ => none

/-- The payloads asked for of one type and for one recipient. -/
def Asked.wanted (type : UInt8) (recip : UInt32) (asked : Asked) : Option (List UInt8) :=
  if asked.type = type ∧ asked.recip = recip then some asked.payload else none

def askedOf (type : UInt8) (recip : UInt32) (log : List Entry) : List (List UInt8) :=
  log.filterMap fun entry =>
    match entry with
    | .asked asked => asked.wanted type recip
    | _ => none

section Log

variable (call : Call) (outputs : List Output) (before after : List Entry)

@[simp]
theorem outputsOf_append : outputsOf (before ++ after) = outputsOf before ++ outputsOf after := by
  simp [outputsOf]

@[simp]
theorem receivedOf_append :
    receivedOf (before ++ after) = receivedOf before ++ receivedOf after := by
  simp [receivedOf]

@[simp]
theorem askedOf_append (type : UInt8) (recip : UInt32) :
    askedOf type recip (before ++ after) =
      askedOf type recip before ++ askedOf type recip after := by
  simp [askedOf]

@[simp]
theorem outputsOf_logged : outputsOf (logged call outputs) = outputs := by
  simp [outputsOf, logged, List.filterMap_append, List.filterMap_map]

@[simp]
theorem receivedOf_logged : receivedOf (logged call outputs) = call.receives := by
  simp [receivedOf, logged, List.filterMap_append, List.filterMap_map]

@[simp]
theorem askedOf_logged (type : UInt8) (recip : UInt32) :
    askedOf type recip (logged call outputs) =
      call.asks.filterMap (Asked.wanted type recip) := by
  simp [askedOf, logged, List.filterMap_append, List.filterMap_map]

end Log

/-! ## Tables that differ in their floors alone -/

def SameTable (left right : Slot → Peer) : Prop :=
  ∀ slot, (left slot).identity = (right slot).identity

/-- The key a table has for an id. -/
def keyOf (peer : Slot → Peer) (peerId : UInt32) : Option (List UInt8) :=
  (resolve peer peerId).map fun slot => (peer slot).psk.toList

section Table

variable {left middle right : Slot → Peer}

theorem SameTable.trans (hbefore : SameTable left middle) (hafter : SameTable middle right) :
    SameTable left right := fun slot => (hbefore slot).trans (hafter slot)

theorem SameTable.fields (hsame : SameTable left right) (slot : Slot) :
    (left slot).inUse = (right slot).inUse ∧ (left slot).peerId = (right slot).peerId ∧
      (left slot).psk = (right slot).psk := by
  have hidentity := hsame slot
  unfold Peer.identity at hidentity
  obtain ⟨huse, -, hid, hpsk, -⟩ := Peer.mk.injEq .. ▸ hidentity
  exact ⟨huse, hid, hpsk⟩

theorem SameTable.resolve (hsame : SameTable left right) (peerId : UInt32) :
    resolve left peerId = resolve right peerId := by
  have hnames : ∀ slot, (left slot).Names peerId ↔ (right slot).Names peerId := by
    intro slot
    obtain ⟨huse, hid, -⟩ := hsame.fields slot
    rw [Peer.Names, Peer.Names, huse, hid]
  refine Option.ext fun slot => ?_
  rw [resolve_eq_some_iff, resolve_eq_some_iff]
  simp only [hnames]

theorem SameTable.keyOf (hsame : SameTable left right) (peerId : UInt32) :
    keyOf left peerId = keyOf right peerId := by
  have hpsk : ∀ slot, (left slot).psk.toList = (right slot).psk.toList :=
    fun slot => congrArg List.Vector.toList (hsame.fields slot).2.2
  rw [Station.keyOf, Station.keyOf, hsame.resolve]
  exact congrArg (Option.map · _) (funext hpsk)

theorem sameTable_floor (peer : Slot → Peer) (slot : Slot) (floor : UInt32) :
    SameTable peer (Function.update peer slot { peer slot with rxHighWater := floor }) := by
  intro other
  by_cases hother : other = slot
  · rw [hother, Function.update_self]
    rfl
  · rw [Function.update_of_ne hother]

end Table

/-! ## The sends of a call -/

/-- The requests a call makes, on the table it finds. -/
def Call.Requests (peer : Slot → Peer) : Call → List Request → Prop
  | .receive _, requests => requests = [] ∨ ∃ sender ack, requests = ackRequest peer sender ack
  | .message _ peerId text _ _, requests => requests = messageRequest peer peerId text
  | .command _ camId cmd args _ _, requests => requests = commandRequest peer camId cmd args
  | .beacon _ _ _, requests =>
      ∃ status, requests = beaconRequests peer status (List.finRange MAX_PEERS)

/-- Two states with the same numbers and tables, but for floors. -/
structure Alike (state next : CamC2.State) : Prop where
  tx : next.config.ram.tx = state.config.ram.tx
  txseq : next.config.nvs.txseq = state.config.nvs.txseq
  peers : next.config.nvs.peers = state.config.nvs.peers
  table : SameTable state.config.ram.peer next.config.ram.peer

/-- A call hands out no frame, and then the frames of its requests. -/
inductive Turn (device : Device) (call : Call) (state : CamC2.State) :
    CamC2.State → List Output → Prop
  | intro {middle last : CamC2.State} {before after : List Output} {requests : List Request}
      (halike : Alike state middle) (hquiet : framesOf before = [])
      (hrequests : call.Requests middle.config.ram.peer requests)
      (hemits : Emits device middle requests after last) :
      Turn device call state last (before ++ after)

section Turn

variable {device : Device} {state last : CamC2.State} {outputs : List Output} {call : Call}

theorem turn_of_emits (call : Call) {requests : List Request}
    (hrequests : call.Requests state.config.ram.peer requests)
    (hemits : Emits device state requests outputs last) : Turn device call state last outputs :=
  @Turn.intro device call state state last [] outputs requests ⟨rfl, rfl, rfl, fun _ => rfl⟩ rfl
    hrequests hemits

theorem turn_of_quiet {inbound : Inbound} (halike : Alike state last)
    (hquiet : framesOf outputs = []) : Turn device (.receive inbound) state last outputs := by
  have hturn : Turn device (.receive inbound) state last (outputs ++ []) :=
    .intro halike hquiet (.inl rfl) (.done last [])
  rwa [List.append_nil] at hturn

theorem alike_accepted (state : CamC2.State) (slot : Slot) (frame : Frame) :
    Alike state (acceptedState state slot frame) :=
  ⟨rfl, rfl, rfl, sameTable_floor _ slot frame.seq⟩

theorem turn_receive (device : Device) (inbound : Inbound) (state : CamC2.State) :
    Turn device (.receive inbound) state ((handleInbound device inbound).run state).state
      ((handleInbound device inbound).run state).outputs := by
  have hhandles : Handles device inbound state ((handleInbound device inbound).run state) :=
    handles_handleInbound device inbound state
  generalize (handleInbound device inbound).run state = call at hhandles ⊢
  cases hhandles with
  | ignored => exact turn_of_quiet ⟨rfl, rfl, rfl, fun _ => rfl⟩ rfl
  | unstored slot frame htrusted hwrite =>
      exact turn_of_quiet ⟨rfl, rfl, rfl, fun _ => rfl⟩ rfl
  | message slot frame htrusted hwrite hcamera htype =>
      have halike := alike_accepted state slot frame
      exact turn_of_quiet ⟨halike.tx, halike.txseq, halike.peers, halike.table⟩ rfl
  | consumed slot frame htrusted hwrite =>
      exact turn_of_quiet (alike_accepted state slot frame) rfl
  | command slot frame htrusted hwrite hcamera htype =>
      have halike := alike_accepted state slot frame
      have hturn : Turn device (.receive inbound) state
          (reply device inbound frame (acceptedState state slot frame)).state
          ([.accepted frame.sender frame.seq, .executed frame.sender frame.seq
              (frame.plain.getD 0 CMD_NONE) (frame.plain.drop 1)] ++
            (reply device inbound frame (acceptedState state slot frame)).outputs) := by
        refine .intro ?_ rfl (.inr ⟨_, _, rfl⟩)
          (emits_reply device inbound frame (acceptedState state slot frame))
        exact ⟨halike.tx, halike.txseq, halike.peers, halike.table⟩
      rwa [run_handleCommand]

theorem turn_call (device : Device) (call : Call) (state : CamC2.State) :
    Turn device call state ((call.program device).run state).state
      ((call.program device).run state).outputs := by
  cases call with
  | receive inbound =>
      simpa only [Call.program, Program.run_bind, Program.run_pure, List.append_nil] using
        turn_receive device inbound state
  | message radioIdx peerId text txWrite queued =>
      simpa only [Call.program, Program.run_bind, Program.run_pure, List.append_nil] using
        turn_of_emits (.message radioIdx peerId text txWrite queued) rfl
          (emits_sendMessage device radioIdx peerId text txWrite queued state)
  | command radioIdx camId cmd args txWrite queued =>
      simpa only [Call.program, Program.run_bind, Program.run_pure, List.append_nil] using
        turn_of_emits (.command radioIdx camId cmd args txWrite queued) rfl
          (emits_sendCommand device radioIdx camId cmd args txWrite queued state)
  | beacon radioIdx camera txWrites =>
      exact turn_of_emits (.beacon radioIdx camera txWrites) ⟨_, rfl⟩
        (emits_emitBeacon device radioIdx camera txWrites state)

end Turn

/-! ## What the frames of a device say -/

/-- A frame of one type for one recipient, read with the key that the two share: its number
and its payload. -/
def readAs (aes : Cipher.BlockCipher) (key : List UInt8) (type : UInt8) (recip : UInt32)
    (buf : List UInt8) : Option (UInt32 × List UInt8) :=
  if buf.getD 1 0 = type ∧ get32le buf 6 = recip then
    (verifyAndDecrypt aes buf key).map fun frame => (frame.seq, frame.plain)
  else none

/-- The frames of one type for one recipient. -/
def sentTo (aes : Cipher.BlockCipher) (key : List UInt8) (type : UInt8) (recip : UInt32)
    (outputs : List Output) : List (UInt32 × List UInt8) :=
  (framesOf outputs).filterMap (readAs aes key type recip)

def wantedOf (type : UInt8) (recip : UInt32) (request : Request) : Option (List UInt8) :=
  if request.type = type ∧ request.recip = recip then some request.payload else none

/-- What an operator can ask for. -/
def Asks (type : UInt8) : Prop := type = T_CMD ∨ type = T_MSG

section Contents

variable {device : Device} {peer : Slot → Peer} {call : Call} {requests : List Request}
  {type : UInt8} {recip : UInt32}

@[simp]
theorem sentTo_append (aes : Cipher.BlockCipher) (key : List UInt8) (before after : List Output) :
    sentTo aes key type recip (before ++ after) =
      sentTo aes key type recip before ++ sentTo aes key type recip after := by
  simp [sentTo]

theorem asks_ne (htype : Asks type) : T_ACK ≠ type ∧ T_BEACON ≠ type := by
  rcases htype with rfl | rfl
  · decide
  · decide

/-- No request is made but those that were asked for, acknowledgements and beacons. -/
theorem Call.Requests.wanted (hrequests : call.Requests peer requests) (htype : Asks type)
    (recip : UInt32) :
    (requests.filterMap (wantedOf type recip)).Sublist
      (call.asks.filterMap (Asked.wanted type recip)) := by
  obtain ⟨hack, hbeacon⟩ := asks_ne htype
  cases call with
  | receive inbound =>
      rcases hrequests with rfl | ⟨sender, ack, rfl⟩
      · exact List.nil_sublist _
      · unfold ackRequest
        cases resolve peer sender with
        | none => exact List.nil_sublist _
        | some slot => simp [wantedOf, hack]
  | message radioIdx peerId text txWrite queued =>
      obtain rfl : requests = messageRequest peer peerId text := hrequests
      unfold messageRequest
      cases text with
      | none => exact List.nil_sublist _
      | some bytes =>
          cases resolve peer peerId with
          | none => exact List.nil_sublist _
          | some slot => exact List.Sublist.refl _
  | command radioIdx camId cmd args txWrite queued =>
      obtain rfl : requests = commandRequest peer camId cmd args := hrequests
      unfold commandRequest
      cases resolve peer camId with
      | none => exact List.nil_sublist _
      | some slot => exact List.Sublist.refl _
  | beacon radioIdx camera txWrites =>
      obtain ⟨status, rfl⟩ := hrequests
      have hnone : ∀ request ∈ beaconRequests peer status (List.finRange MAX_PEERS),
          wantedOf type recip request = none := by
        intro request hmem
        obtain ⟨slot, -, rfl⟩ := List.mem_map.mp hmem
        exact if_neg fun hboth => hbeacon hboth.1
      rw [List.filterMap_eq_nil_iff.mpr hnone]
      exact List.nil_sublist _

/-- A command that is asked for is not empty. -/
theorem Call.names_command (call : Call) (recip : UInt32) :
    [] ∉ call.asks.filterMap (Asked.wanted T_CMD recip) := by
  intro hmem
  obtain ⟨asked, hasked, hwanted⟩ := List.mem_filterMap.mp hmem
  unfold Asked.wanted at hwanted
  split at hwanted
  · rename_i hboth
    cases call with
    | receive inbound => exact List.not_mem_nil hasked
    | message radioIdx peerId text txWrite queued =>
        obtain ⟨bytes, -, rfl⟩ := List.mem_map.mp hasked
        exact absurd hboth.1 (show T_MSG ≠ T_CMD by decide)
    | command radioIdx camId cmd args txWrite queued =>
        obtain rfl := List.mem_singleton.mp hasked
        cases hwanted
    | beacon radioIdx camera txWrites => exact List.not_mem_nil hasked
  · cases hwanted

/-- They are sealed under the key the table has for their recipient. -/
theorem Call.Requests.key (hrequests : call.Requests peer requests) {request : Request}
    (hmem : request ∈ requests) (htype : Asks request.type) :
    keyOf peer request.recip = some request.psk := by
  obtain ⟨hack, hbeacon⟩ := asks_ne htype
  cases call with
  | receive inbound =>
      rcases hrequests with rfl | ⟨sender, ack, rfl⟩
      · simp at hmem
      · unfold ackRequest at hmem
        cases hresolve : resolve peer sender with
        | none => simp [hresolve] at hmem
        | some slot =>
            obtain rfl : request = _ := by simpa [hresolve] using hmem
            exact absurd rfl hack
  | message radioIdx peerId text txWrite queued =>
      obtain rfl : requests = messageRequest peer peerId text := hrequests
      unfold messageRequest at hmem
      cases text with
      | none => simp at hmem
      | some bytes =>
          cases hresolve : resolve peer peerId with
          | none => simp [hresolve] at hmem
          | some slot =>
              obtain rfl : request = _ := by simpa [hresolve] using hmem
              simp [keyOf, hresolve]
  | command radioIdx camId cmd args txWrite queued =>
      obtain rfl : requests = commandRequest peer camId cmd args := hrequests
      unfold commandRequest at hmem
      cases hresolve : resolve peer camId with
      | none => simp [hresolve] at hmem
      | some slot =>
          obtain rfl : request = _ := by simpa [hresolve] using hmem
          simp [keyOf, hresolve]
  | beacon radioIdx camera txWrites =>
      obtain ⟨status, rfl⟩ := hrequests
      obtain ⟨slot, -, rfl⟩ := List.mem_map.mp hmem
      exact absurd rfl hbeacon

theorem verify_request (device : Device) (request : Request) (seq : UInt32)
    (hfits : request.payload.length ≤ MAX_PAYLOAD) :
    verifyAndDecrypt device.aes (request.frame device seq) request.psk =
      some ⟨request.type, device.myC2Id, request.recip, seq, request.payload⟩ :=
  verify_encode _ hfits

theorem readAs_request (device : Device) (request : Request) (seq : UInt32)
    (hfits : request.payload.length ≤ MAX_PAYLOAD) {key : List UInt8}
    (hkey : request.type = type → request.recip = recip → request.psk = key) :
    readAs device.aes key type recip (request.frame device seq) =
      (wantedOf type recip request).map fun payload => (seq, payload) := by
  obtain ⟨htype, -, hrecip, -⟩ := fields_encode device.aes request.psk
    ⟨request.type, device.myC2Id, request.recip, seq, request.payload⟩
  rw [readAs, wantedOf, Request.frame, htype, hrecip]
  by_cases hboth : request.type = type ∧ request.recip = recip
  · rw [if_pos hboth, if_pos hboth, ← hkey hboth.1 hboth.2]
    exact congrArg (Option.map _) (verify_request device request seq hfits)
  · rw [if_neg hboth, if_neg hboth]
    rfl

/-- The frames of a call are what was asked for, or part of it. -/
theorem Turn.wanted {state last : CamC2.State} {outputs : List Output}
    (hturn : Turn device call state last outputs) (htype : Asks type) {key : List UInt8}
    (hkey : keyOf state.config.ram.peer recip = some key) :
    ((sentTo device.aes key type recip outputs).map Prod.snd).Sublist
      (call.asks.filterMap (Asked.wanted type recip)) := by
  cases hturn with
  | @intro middle _ before after requests halike hquiet hrequests hemits =>
      obtain ⟨sends, hsublist, hframes, hfits⟩ := hemits.frames
      rw [halike.table.keyOf] at hkey
      have hread : ∀ send ∈ sends, readAs device.aes key type recip
          (send.1.frame device send.2) =
            (wantedOf type recip send.1).map fun payload => (send.2, payload) := by
        intro send hmem
        have hin : send.1 ∈ requests := hsublist.subset (List.mem_map_of_mem hmem)
        refine readAs_request device send.1 send.2 (hfits send hmem) fun hsame hto => ?_
        have hown := hrequests.key hin (hsame ▸ htype)
        rw [hto, hkey] at hown
        exact (Option.some.inj hown).symm
      have hsent : sentTo device.aes key type recip (before ++ after) =
          sends.filterMap fun send =>
            (wantedOf type recip send.1).map fun payload => (send.2, payload) := by
        rw [sentTo, framesOf_append, hquiet, List.nil_append, hframes, List.filterMap_map]
        exact List.filterMap_congr hread
      have hpayloads : (sentTo device.aes key type recip (before ++ after)).map Prod.snd =
          (sends.map Prod.fst).filterMap (wantedOf type recip) := by
        rw [hsent, List.map_filterMap, List.filterMap_map]
        refine List.filterMap_congr fun send _ => ?_
        simp
      rw [hpayloads]
      exact (hsublist.filterMap _).trans (hrequests.wanted htype recip)

theorem Turn.numbered {state last : CamC2.State} {outputs : List Output} {base : UInt32}
    {sent : List UInt32} (hturn : Turn device call state last outputs)
    (hnumbered : Numbered base state sent) : Numbered base last (sent ++ seqsOf outputs) := by
  cases hturn with
  | @intro middle _ before after requests halike hquiet hrequests hemits =>
      have hmiddle : Numbered base middle sent :=
        ⟨by rw [halike.tx, halike.txseq]; exact hnumbered.sound,
          by rw [halike.tx]; exact hnumbered.started,
          by rw [halike.txseq]; exact hnumbered.resumes, hnumbered.increasing,
          hnumbered.above⟩
      rw [seqsOf_append, show seqsOf before = [] by rw [seqsOf, hquiet]; rfl, List.nil_append]
      exact hemits.numbered hmiddle

theorem Turn.tables {state last : CamC2.State} {outputs : List Output}
    (hturn : Turn device call state last outputs) :
    SameTable state.config.ram.peer last.config.ram.peer ∧
      last.config.nvs.peers = state.config.nvs.peers := by
  cases hturn with
  | intro halike hquiet hrequests hemits =>
      have huntouched := hemits.untouched
      exact ⟨by rw [huntouched.peer]; exact halike.table, huntouched.peers.trans halike.peers⟩

/-- A frame that a device hands out names the device, and if it was asked for, it is sealed
under the key of its recipient. -/
structure Sealed (device : Device) (peer : Slot → Peer) (buf : List UInt8) : Prop where
  sender : get32le buf 2 = device.myC2Id
  asked : Asks (buf.getD 1 0) → ∃ key seq payload, keyOf peer (get32le buf 6) = some key ∧
    verifyAndDecrypt device.aes buf key =
      some ⟨buf.getD 1 0, device.myC2Id, get32le buf 6, seq, payload⟩

theorem SameTable.sealed {left right : Slot → Peer} (hsame : SameTable left right)
    {buf : List UInt8} (hsealed : Sealed device right buf) : Sealed device left buf where
  sender := hsealed.sender
  asked htype := by
    rw [hsame.keyOf]
    exact hsealed.asked htype

theorem Turn.sealed {state last : CamC2.State} {outputs : List Output}
    (hturn : Turn device call state last outputs) :
    ∀ buf ∈ framesOf outputs, Sealed device state.config.ram.peer buf := by
  cases hturn with
  | @intro middle _ before after requests halike hquiet hrequests hemits =>
      obtain ⟨sends, hsublist, hframes, hfits⟩ := hemits.frames
      rw [framesOf_append, hquiet, List.nil_append, hframes]
      intro buf hmem
      obtain ⟨send, hsend, rfl⟩ := List.mem_map.mp hmem
      have hin : send.1 ∈ requests := hsublist.subset (List.mem_map_of_mem hsend)
      obtain ⟨htype, hsender, hrecip, -⟩ := fields_encode device.aes send.1.psk
        ⟨send.1.type, device.myC2Id, send.1.recip, send.2, send.1.payload⟩
      refine halike.table.sealed ⟨hsender, fun hasks => ?_⟩
      rw [Request.frame, htype, hrecip] at *
      exact ⟨send.1.psk, send.2, send.1.payload, hrequests.key hin hasks,
        verify_request device send.1 send.2 (hfits send hsend)⟩

end Contents

/-! ## What a device carries out -/

/-- The commands carried out for one sender, with their numbers. -/
def executedOf (sender : UInt32) (outputs : List Output) : List (UInt32 × List UInt8) :=
  outputs.filterMap fun output =>
    match output with
    | .executed peerId seq cmd args => if peerId = sender then some (seq, cmd :: args) else none
    | _ => none

@[simp]
theorem executedOf_append (sender : UInt32) (before after : List Output) :
    executedOf sender (before ++ after) = executedOf sender before ++ executedOf sender after := by
  simp [executedOf]

/-- A frame that was received says this, under the key the table has for its sender. -/
def Came (device : Device) (peer : Slot → Peer) (received : List (List UInt8)) (type : UInt8)
    (sender seq : UInt32) (plain : List UInt8) : Prop :=
  ∃ buf ∈ received, ∃ key recip, keyOf peer sender = some key ∧
    (recip = 0 ∨ recip = device.myC2Id) ∧
    verifyAndDecrypt device.aes buf key = some ⟨type, sender, recip, seq, plain⟩

theorem came_of_trusted {device : Device} {inbound : Inbound} {state : CamC2.State} {slot : Slot}
    {frame : Frame} (htrusted : Trusted device inbound state slot frame) :
    Came device state.config.ram.peer [inbound.buf] frame.type frame.sender frame.seq
      frame.plain := by
  refine ⟨inbound.buf, List.mem_singleton_self _, _, frame.recip, ?_, htrusted.addressed,
    htrusted.verified⟩
  rw [keyOf, htrusted.resolved]
  rfl

theorem Came.mono {device : Device} {left right : Slot → Peer} {received more : List (List UInt8)}
    {type : UInt8} {sender seq : UInt32} {plain : List UInt8}
    (hcame : Came device right received type sender seq plain) (hsame : SameTable left right)
    (hmore : ∀ buf ∈ received, buf ∈ more) : Came device left more type sender seq plain := by
  obtain ⟨buf, hmem, key, recip, hkey, hrecip, hverify⟩ := hcame
  exact ⟨buf, hmore buf hmem, key, recip, by rw [hsame.keyOf]; exact hkey, hrecip, hverify⟩

/-- Nothing but frames. -/
def OnlyFrames (outputs : List Output) : Prop :=
  ∀ output ∈ outputs, ∃ radioIdx frame, output = .emitted radioIdx frame

theorem Emits.onlyFrames {device : Device} {state last : CamC2.State} {requests : List Request}
    {outputs : List Output} (hemits : Emits device state requests outputs last) :
    OnlyFrames outputs := by
  induction hemits with
  | done state requests => exact fun output hmem => absurd hmem List.not_mem_nil
  | send radioIdx txWrite hrest ih =>
      intro output hmem
      rcases List.mem_append.mp hmem with hsent | hlater
      · obtain ⟨seq, -, rfl⟩ := List.mem_map.mp hsent
        exact ⟨_, _, rfl⟩
      · exact ih output hlater

theorem OnlyFrames.silent {outputs : List Output} (honly : OnlyFrames outputs)
    (sender : UInt32) :
    AtMostOnce.acceptedOf sender outputs = [] ∧ executedOf sender outputs = [] := by
  constructor
  · refine List.filterMap_eq_nil_iff.mpr fun output hmem => ?_
    obtain ⟨radioIdx, frame, rfl⟩ := honly output hmem
    rfl
  · refine List.filterMap_eq_nil_iff.mpr fun output hmem => ?_
    obtain ⟨radioIdx, frame, rfl⟩ := honly output hmem
    rfl

theorem onlyFrames_call (device : Device) {call : Call} (state : CamC2.State)
    (hcall : call.receives = []) :
    OnlyFrames ((call.program device).run state).outputs ∧
      ((call.program device).run state).state.ring = state.ring ∧
      ((call.program device).run state).state.config.nvs.rx = state.config.nvs.rx ∧
      ((call.program device).run state).state.config.ram.peer = state.config.ram.peer := by
  have hemits : ∃ requests, Emits device state requests
      ((call.program device).run state).outputs ((call.program device).run state).state := by
    cases call with
    | receive inbound => simp [Call.receives] at hcall
    | message radioIdx peerId text txWrite queued =>
        simpa only [Call.program, Program.run_bind, Program.run_pure, List.append_nil] using
          ⟨_, emits_sendMessage device radioIdx peerId text txWrite queued state⟩
    | command radioIdx camId cmd args txWrite queued =>
        simpa only [Call.program, Program.run_bind, Program.run_pure, List.append_nil] using
          ⟨_, emits_sendCommand device radioIdx camId cmd args txWrite queued state⟩
    | beacon radioIdx camera txWrites =>
        exact ⟨_, emits_emitBeacon device radioIdx camera txWrites state⟩
  obtain ⟨requests, hemits⟩ := hemits
  exact ⟨Emits.onlyFrames hemits, hemits.untouched.ring, hemits.untouched.rx,
    hemits.untouched.peer⟩

/-- What a received frame makes the device do: it is accepted before anything is carried
out, and at most one command is. -/
structure Orderly (device : Device) (peer : Slot → Peer) (received : List (List UInt8))
    (outputs : List Output) : Prop where
  follows : ∀ before, before <+: outputs → ∀ sender,
    ((executedOf sender before).map Prod.fst).Sublist (AtMostOnce.acceptedOf sender before)
  came : ∀ sender, ∀ done ∈ executedOf sender outputs, ∃ plain,
    Came device peer received T_CMD sender done.1 plain ∧
      done.2 = plain.getD 0 CMD_NONE :: plain.drop 1

theorem OnlyFrames.orderly {outputs : List Output} (honly : OnlyFrames outputs) (device : Device)
    (peer : Slot → Peer) (received : List (List UInt8)) :
    Orderly device peer received outputs where
  follows before hstart sender := by
    have hbefore : OnlyFrames before := fun output hmem => honly output (hstart.subset hmem)
    rw [(hbefore.silent sender).2]
    exact List.nil_sublist _
  came sender done hdone := by
    rw [(honly.silent sender).2] at hdone
    exact absurd hdone List.not_mem_nil

theorem orderly_command {device : Device} {peer : Slot → Peer} {received : List (List UInt8)}
    {sender seq : UInt32} {plain : List UInt8} {frames : List Output}
    (hcame : Came device peer received T_CMD sender seq plain) (honly : OnlyFrames frames) :
    Orderly device peer received (.accepted sender seq ::
      .executed sender seq (plain.getD 0 CMD_NONE) (plain.drop 1) :: frames) where
  follows before hstart id := by
    rcases List.prefix_cons_iff.mp hstart with rfl | ⟨first, rfl, hfirst⟩
    · exact List.nil_sublist _
    · rcases List.prefix_cons_iff.mp hfirst with rfl | ⟨later, rfl, hlater⟩
      · exact List.nil_sublist _
      · have hsilent : OnlyFrames later := fun output hmem =>
          honly output (hlater.subset hmem)
        obtain ⟨hnone, hdone⟩ := hsilent.silent id
        simp only [executedOf, AtMostOnce.acceptedOf] at hnone hdone ⊢
        by_cases hid : sender = id
        · simp [hid, hnone, hdone]
        · simp [hid, hnone, hdone]
  came id done hdone := by
    have hlater := (honly.silent id).2
    simp only [executedOf] at hdone hlater
    by_cases hid : sender = id
    · subst hid
      obtain rfl : done = (seq, plain.getD 0 CMD_NONE :: plain.drop 1) := by
        simpa [hlater] using hdone
      exact ⟨plain, hcame, rfl⟩
    · simp [hid, hlater] at hdone

theorem orderly_accepted (device : Device) (peer : Slot → Peer) (received : List (List UInt8))
    (sender seq : UInt32) : Orderly device peer received [.accepted sender seq] where
  follows before hstart id := by
    rcases List.prefix_cons_iff.mp hstart with rfl | ⟨first, rfl, hfirst⟩
    · exact List.nil_sublist _
    · rw [List.prefix_nil.mp hfirst]
      exact List.nil_sublist _
  came id done hdone := absurd hdone List.not_mem_nil

/-- The messages in the ring since the device started, with the numbers of their frames. -/
structure Mailbox (device : Device) (peer : Slot → Peer) (received : List (List UInt8))
    (outputs : List Output) (ring : Ring) (kept : List (UInt32 × MessageRing.Call)) : Prop where
  ring : ring = MessageRing.stored (kept.map Prod.snd)
  accepted : ∀ sender, ((kept.filter fun entry => entry.2.fromId = sender).map Prod.fst).Sublist
    (AtMostOnce.acceptedOf sender outputs)
  came : ∀ entry ∈ kept, Came device peer received T_MSG entry.2.fromId entry.1 entry.2.txt

theorem Mailbox.silent {device : Device} {peer : Slot → Peer} {received : List (List UInt8)}
    {outputs : List Output} {ring : Ring} {kept : List (UInt32 × MessageRing.Call)}
    (hmailbox : Mailbox device peer received outputs ring kept) (more : List (List UInt8))
    (later : List Output) :
    Mailbox device peer (received ++ more) (outputs ++ later) ring kept where
  ring := hmailbox.ring
  accepted sender := by
    rw [AtMostOnce.acceptedOf_append]
    exact (hmailbox.accepted sender).trans (List.sublist_append_left _ _)
  came entry hmem := (hmailbox.came entry hmem).mono (fun _ => rfl) fun _ hbuf =>
    List.mem_append_left _ hbuf

/-- A new message is kept with the number of its frame. -/
theorem Mailbox.store {device : Device} {peer : Slot → Peer} {received : List (List UInt8)}
    {outputs : List Output} {ring : Ring} {kept : List (UInt32 × MessageRing.Call)}
    (hmailbox : Mailbox device peer received outputs ring kept) {buf : List UInt8}
    {sender seq : UInt32} {plain : List UInt8} (atSec : UInt32)
    (hcame : Came device peer [buf] T_MSG sender seq plain) :
    Mailbox device peer (received ++ [buf]) (outputs ++ [.accepted sender seq])
      (storeMessage ring sender atSec plain) (kept ++ [(seq, ⟨sender, atSec, plain⟩)]) where
  ring := by
    rw [List.map_append, MessageRing.stored, List.foldl_append, hmailbox.ring]
    rfl
  accepted id := by
    have hold := hmailbox.accepted id
    rw [List.filter_append, List.map_append, AtMostOnce.acceptedOf_append]
    refine hold.append ?_
    by_cases hid : sender = id
    · simp [hid, AtMostOnce.acceptedOf]
    · simp [hid]
  came entry hmem := by
    rcases List.mem_append.mp hmem with hold | hnew
    · exact (hmailbox.came entry hold).mono (fun _ => rfl) fun _ hbuf =>
        List.mem_append_left _ hbuf
    · obtain rfl := List.mem_singleton.mp hnew
      exact hcame.mono (fun _ => rfl) fun _ hbuf => List.mem_append_right _ hbuf

theorem mailbox_empty (device : Device) (peer : Slot → Peer) (received : List (List UInt8))
    (outputs : List Output) : Mailbox device peer received outputs Ring.empty [] where
  ring := rfl
  accepted _ := List.nil_sublist _
  came _ hmem := absurd hmem List.not_mem_nil

section Calls

variable (device : Device) {state : CamC2.State}

theorem orderly_call (call : Call) (state : CamC2.State) :
    Orderly device state.config.ram.peer call.receives
      ((call.program device).run state).outputs := by
  by_cases hcall : call.receives = []
  · exact (onlyFrames_call device state hcall).1.orderly device _ _
  · cases call with
    | receive inbound =>
        simp only [Call.program, Program.run_bind, Program.run_pure, List.append_nil,
          Call.receives]
        have hhandles : Handles device inbound state ((handleInbound device inbound).run state) :=
          handles_handleInbound device inbound state
        generalize (handleInbound device inbound).run state = done at hhandles ⊢
        have hnothing : OnlyFrames [] := fun output hmem => absurd hmem List.not_mem_nil
        cases hhandles with
        | ignored => exact hnothing.orderly device _ _
        | unstored slot frame htrusted hwrite => exact hnothing.orderly device _ _
        | message slot frame htrusted hwrite hcamera htype =>
            exact orderly_accepted device _ _ frame.sender frame.seq
        | consumed slot frame htrusted hwrite =>
            exact orderly_accepted device _ _ frame.sender frame.seq
        | command slot frame htrusted hwrite hcamera htype =>
            rw [run_handleCommand]
            refine orderly_command (htype ▸ came_of_trusted htrusted) ?_
            exact Emits.onlyFrames (emits_reply device inbound frame _)
    | message => exact absurd rfl hcall
    | command => exact absurd rfl hcall
    | beacon => exact absurd rfl hcall

theorem mailbox_call {peer : Slot → Peer} (hsame : SameTable peer state.config.ram.peer)
    {received : List (List UInt8)} {outputs : List Output}
    {kept : List (UInt32 × MessageRing.Call)}
    (hmailbox : Mailbox device peer received outputs state.ring kept) (call : Call) :
    ∃ kept', Mailbox device peer (received ++ call.receives)
      (outputs ++ ((call.program device).run state).outputs)
      ((call.program device).run state).state.ring kept' := by
  by_cases hcall : call.receives = []
  · rw [(onlyFrames_call device state hcall).2.1]
    exact ⟨kept, hmailbox.silent _ _⟩
  · cases call with
    | receive inbound =>
        simp only [Call.program, Program.run_bind, Program.run_pure, List.append_nil,
          Call.receives]
        have hhandles : Handles device inbound state ((handleInbound device inbound).run state) :=
          handles_handleInbound device inbound state
        generalize (handleInbound device inbound).run state = done at hhandles ⊢
        cases hhandles with
        | ignored => exact ⟨kept, hmailbox.silent _ _⟩
        | unstored slot frame htrusted hwrite => exact ⟨kept, hmailbox.silent _ _⟩
        | consumed slot frame htrusted hwrite => exact ⟨kept, hmailbox.silent _ _⟩
        | message slot frame htrusted hwrite hcamera htype =>
            exact ⟨_, hmailbox.store inbound.camera.uptime
              ((htype ▸ came_of_trusted htrusted).mono hsame fun _ hbuf => hbuf)⟩
        | command slot frame htrusted hwrite hcamera htype =>
            rw [run_handleCommand]
            have hring := (emits_reply device inbound frame
              (acceptedState state slot frame)).untouched.ring
            simp only [hring]
            exact ⟨kept, hmailbox.silent _ _⟩
    | message => exact absurd rfl hcall
    | command => exact absurd rfl hcall
    | beacon => exact absurd rfl hcall

/-- What was accepted and the floors, after a call or some steps of one. -/
theorem accepts_call {history : List Output} (hinv : AtMostOnce.Inv state history)
    (call : Call) :
    AtMostOnce.Inv ((call.program device).run state).state
      (history ++ ((call.program device).run state).outputs) := by
  by_cases hcall : call.receives = []
  · obtain ⟨honly, -, hrx, hpeer⟩ := onlyFrames_call device state hcall
    have hnone := fun sender => (honly.silent sender).1
    constructor
    · intro sender
      rw [AtMostOnce.acceptedOf_append, hnone, List.append_nil]
      exact hinv.increasing sender
    · intro sender
      rw [AtMostOnce.acceptedOf_append, hnone, List.append_nil, hrx]
      exact hinv.durable sender
    · intro sender
      rw [AtMostOnce.acceptedOf_append, hnone, List.append_nil, hpeer]
      exact hinv.floor sender
  · cases call with
    | receive inbound =>
        simp only [Call.program, Program.run_bind, Program.run_pure, List.append_nil]
        exact hinv.point (keeps_handleInbound device inbound state).run
    | message => exact absurd rfl hcall
    | command => exact absurd rfl hcall
    | beacon => exact absurd rfl hcall

theorem keeps_call {call : Call} {base : UInt32} {sent : List UInt32}
    {fixed : Option (Slot → Peer) → (UInt32 → UInt32) → Prop}
    (hfloors : call.receives = [] ∨ ∀ peers rx rx', fixed peers rx → fixed peers rx')
    (hsettled : Settled base fixed sent state []) :
    (call.program device).Keeps (Durable base fixed sent) state [] := by
  cases call with
  | receive inbound =>
      have hany := hfloors.resolve_left (List.cons_ne_nil _ _)
      have hkeeps := keeps_handleInbound_durable device inbound hany hsettled
      exact Program.keeps_bind hkeeps hkeeps.run
  | message radioIdx peerId text txWrite queued =>
      have hkeeps := keeps_sendMessage device radioIdx peerId text txWrite queued hsettled
      exact Program.keeps_bind hkeeps hkeeps.run
  | command radioIdx camId cmd args txWrite queued =>
      have hkeeps := keeps_sendCommand device radioIdx camId cmd args txWrite queued hsettled
      exact Program.keeps_bind hkeeps hkeeps.run
  | beacon radioIdx camera txWrites =>
      exact keeps_emitBeacon device radioIdx camera txWrites hsettled

theorem accepts_cut {history : List Output} (hinv : AtMostOnce.Inv state history) (call : Call)
    (steps : ℕ) {base : UInt32} {sent : List UInt32} (hnumbered : Numbered base state sent) :
    AtMostOnce.Inv (CamC2.boot device ((call.program device).cut steps state).1.config.nvs)
      (history ++ ((call.program device).cut steps state).2) := by
  by_cases hcall : call.receives = []
  · have hsettled : Settled base (fun _ rx => rx = state.config.nvs.rx) sent state [] :=
      ⟨by simpa [CamC2.seqsOf, framesOf] using hnumbered, rfl⟩
    have hrx := ((keeps_call device (.inl hcall) hsettled).cut steps).stored
    have honly : OnlyFrames ((call.program device).cut steps state).2 := fun output hmem =>
      (onlyFrames_call device state hcall).1 output
        ((Program.outputs_cut_isPrefix _ steps state).subset hmem)
    have hnone := fun sender => (honly.silent sender).1
    have hmiddle : AtMostOnce.Inv { state with config :=
        ⟨((call.program device).cut steps state).1.config.nvs, state.config.ram⟩ }
        (history ++ ((call.program device).cut steps state).2) := by
      constructor
      · intro sender
        rw [AtMostOnce.acceptedOf_append, hnone, List.append_nil]
        exact hinv.increasing sender
      · intro sender
        rw [AtMostOnce.acceptedOf_append, hnone, List.append_nil, hrx]
        exact hinv.durable sender
      · intro sender
        rw [AtMostOnce.acceptedOf_append, hnone, List.append_nil]
        exact hinv.floor sender
    exact hmiddle.boot
  · cases call with
    | receive inbound =>
        have hkeeps := keeps_handleInbound device inbound state
        have hcut : (Call.program device (.receive inbound)).Keeps
            (Point device inbound state) state [] := Program.keeps_bind hkeeps hkeeps.run
        exact (hinv.point (hcut.cut steps)).boot
    | message => exact absurd rfl hcall
    | command => exact absurd rfl hcall
    | beacon => exact absurd rfl hcall

end Calls

/-! ## Over the whole life -/

/-- What the log of a device says, for the table the device started with: its messages and
commands are what was asked for, every frame is sealed for its recipient, and what was
carried out was received. -/
structure Said (device : Device) (peer : Slot → Peer) (log : List Entry) : Prop where
  asked : ∀ type recip key, Asks type → keyOf peer recip = some key →
    ((sentTo device.aes key type recip (outputsOf log)).map Prod.snd).Sublist
      (askedOf type recip log)
  commands : ∀ recip, [] ∉ askedOf T_CMD recip log
  frames : ∀ buf ∈ framesOf (outputsOf log), Sealed device peer buf
  follows : ∀ sender, ((executedOf sender (outputsOf log)).map Prod.fst).Sublist
    (AtMostOnce.acceptedOf sender (outputsOf log))
  came : ∀ sender, ∀ done ∈ executedOf sender (outputsOf log), ∃ plain,
    Came device peer (receivedOf log) T_CMD sender done.1 plain ∧
      done.2 = plain.getD 0 CMD_NONE :: plain.drop 1

/-- What holds of a device and of all that was seen at it. -/
structure Inv (device : Device) (nvs : Nvs) (state : CamC2.State) (log : List Entry) : Prop where
  accepts : AtMostOnce.Inv state (outputsOf log)
  numbered : Numbered (txResume nvs.txseq).next state (CamC2.seqsOf (outputsOf log))
  table : SameTable (begin device.seed nvs).peer state.config.ram.peer
  stored : state.config.nvs.peers = nvs.peers
  said : Said device (begin device.seed nvs).peer log
  mailbox : ∃ kept, Mailbox device (begin device.seed nvs).peer (receivedOf log) (outputsOf log)
    state.ring kept

theorem sentTo_isPrefix {aes : Cipher.BlockCipher} {key : List UInt8} {type : UInt8}
    {recip : UInt32} {before outputs : List Output} (hstart : before <+: outputs) :
    (sentTo aes key type recip before).Sublist (sentTo aes key type recip outputs) :=
  (hstart.sublist.filterMap _).filterMap _

section Life

variable {device : Device} {nvs : Nvs} {state : CamC2.State} {log : List Entry}

theorem said_nil (device : Device) (peer : Slot → Peer) : Said device peer [] where
  asked _ _ _ _ _ := List.nil_sublist _
  commands _ := List.not_mem_nil
  frames _ hmem := absurd hmem List.not_mem_nil
  follows _ := List.nil_sublist _
  came _ _ hmem := absurd hmem List.not_mem_nil

/-- The log after part of a call. -/
theorem Said.call {peer : Slot → Peer} (hsaid : Said device peer log)
    (htable : SameTable peer state.config.ram.peer) (call : Call) {outputs : List Output}
    (hstart : outputs <+: ((call.program device).run state).outputs) :
    Said device peer (log ++ logged call outputs) := by
  have hturn := turn_call device call state
  have horderly := orderly_call device call state
  constructor
  · intro type recip key htype hkey
    have hold := hsaid.asked type recip key htype hkey
    rw [htable.keyOf] at hkey
    simp only [outputsOf_append, outputsOf_logged, askedOf_append, askedOf_logged,
      sentTo_append, List.map_append]
    exact hold.append (((sentTo_isPrefix hstart).map _).trans (hturn.wanted htype hkey))
  · intro recip hmem
    rw [askedOf_append, askedOf_logged] at hmem
    rcases List.mem_append.mp hmem with hold | hnew
    · exact hsaid.commands recip hold
    · exact call.names_command recip hnew
  · intro buf hmem
    rw [outputsOf_append, outputsOf_logged, framesOf_append] at hmem
    rcases List.mem_append.mp hmem with hold | hnew
    · exact hsaid.frames buf hold
    · exact htable.sealed (hturn.sealed buf ((hstart.sublist.filterMap _).subset hnew))
  · intro sender
    rw [outputsOf_append, outputsOf_logged, executedOf_append, AtMostOnce.acceptedOf_append,
      List.map_append]
    exact (hsaid.follows sender).append (horderly.follows outputs hstart sender)
  · intro sender done hmem
    rw [outputsOf_append, outputsOf_logged, executedOf_append] at hmem
    rw [receivedOf_append, receivedOf_logged]
    rcases List.mem_append.mp hmem with hold | hnew
    · obtain ⟨plain, hcame, hdone⟩ := hsaid.came sender done hold
      exact ⟨plain, hcame.mono (fun _ => rfl) fun _ hbuf => List.mem_append_left _ hbuf, hdone⟩
    · obtain ⟨plain, hcame, hdone⟩ := horderly.came sender done
        ((hstart.sublist.filterMap _).subset hnew)
      exact ⟨plain, hcame.mono htable fun _ hbuf => List.mem_append_right _ hbuf, hdone⟩

theorem inv_boot (device : Device) (nvs : Nvs) : Inv device nvs (CamC2.boot device nvs) [] where
  accepts := AtMostOnce.inv_boot device nvs
  numbered := ⟨TxSequence.sound_txResume fun _ hmem => absurd hmem List.not_mem_nil,
    UInt32.le_refl _, UInt32.le_refl _, .nil, fun _ hmem => absurd hmem List.not_mem_nil⟩
  table _ := rfl
  stored := rfl
  said := said_nil device _
  mailbox := ⟨[], mailbox_empty device _ _ _⟩

/-- A call that runs to its end. -/
theorem Inv.call (hinv : Inv device nvs state log) (call : Call) :
    Inv device nvs ((call.program device).run state).state
      (log ++ logged call ((call.program device).run state).outputs) := by
  have hturn := turn_call device call state
  obtain ⟨htable, hpeers⟩ := hturn.tables
  obtain ⟨kept, hmailbox⟩ := hinv.mailbox
  refine ⟨?_, ?_, hinv.table.trans htable, hpeers.trans hinv.stored,
    hinv.said.call hinv.table call List.prefix_rfl, ?_⟩
  · simpa using accepts_call device hinv.accepts call
  · simpa using hturn.numbered hinv.numbered
  · simpa using mailbox_call device hinv.table hmailbox call

/-- The device starts again on a table that is still the stored one. -/
theorem inv_restart {stored : Nvs}
    (haccepts : AtMostOnce.Inv (CamC2.boot device stored) (outputsOf log))
    (hbehind : Behind stored.txseq (CamC2.seqsOf (outputsOf log)))
    (hresumes : (txResume nvs.txseq).next ≤ (txResume stored.txseq).next)
    (hincreasing : (CamC2.seqsOf (outputsOf log)).Pairwise (· < ·))
    (habove : ∀ number ∈ CamC2.seqsOf (outputsOf log), (txResume nvs.txseq).next ≤ number)
    (hpeers : stored.peers = nvs.peers) (hsaid : Said device (begin device.seed nvs).peer log) :
    Inv device nvs (CamC2.boot device stored) log where
  accepts := haccepts
  numbered := ⟨TxSequence.sound_txResume hbehind, hresumes, hresumes, hincreasing, habove⟩
  table slot := (begin_identity device.seed hpeers slot).symm
  stored := hpeers
  said := hsaid
  mailbox := ⟨[], mailbox_empty device _ _ _⟩

theorem Inv.step (hinv : Inv device nvs state log) (event : Event) :
    Inv device nvs (Station.step device state event).1
      (log ++ (Station.step device state event).2) := by
  cases event with
  | call call => exact hinv.call call
  | powerLoss during =>
      cases during with
      | none =>
          simp only [Station.step, List.append_nil]
          exact inv_restart hinv.accepts.boot hinv.numbered.sound.behind hinv.numbered.resumes
            hinv.numbered.increasing hinv.numbered.above hinv.stored hinv.said
      | some cut =>
          obtain ⟨call, steps⟩ := cut
          have hstart := Program.outputs_cut_isPrefix (call.program device) steps state
          have hsettled : Settled (txResume nvs.txseq).next (fun peers _ => peers = nvs.peers)
              (CamC2.seqsOf (outputsOf log)) state [] :=
            ⟨by simpa [CamC2.seqsOf, framesOf] using hinv.numbered, hinv.stored⟩
          have hkeeps : (call.program device).Keeps _ state [] :=
            keeps_call device (.inr fun _ _ _ hpeers => hpeers) hsettled
          have hdurable := hkeeps.cut steps
          have hrun := (turn_call device call state).numbered hinv.numbered
          have hseqs : (CamC2.seqsOf (outputsOf (log ++
              logged call ((call.program device).cut steps state).2))).Sublist
              (CamC2.seqsOf (outputsOf log) ++
                CamC2.seqsOf ((call.program device).run state).outputs) := by
            rw [outputsOf_append, outputsOf_logged, CamC2.seqsOf_append]
            exact List.Sublist.append (List.Sublist.refl _)
              ((hstart.sublist.filterMap _).map _)
          simp only [Station.step]
          refine inv_restart ?_ ?_ hdurable.resumes (hrun.increasing.sublist hseqs)
            (fun number hmem => hrun.above number (hseqs.subset hmem)) hdurable.stored
            (hinv.said.call hinv.table call hstart)
          · simpa using accepts_cut device hinv.accepts call steps hinv.numbered
          · simpa using hdurable.behind

/-- The state and the log of a device that starts on some NVS contents. -/
def life (device : Device) (nvs : Nvs) (events : List Event) : CamC2.State × List Entry :=
  run (Station.step device) (CamC2.boot device nvs) events

theorem inv_life (device : Device) (nvs : Nvs) (events : List Event) :
    Inv device nvs (life device nvs events).1 (life device nvs events).2 := by
  have hstep : ∀ state log event, Inv device nvs state log →
      Inv device nvs (Station.step device state event).1
        (log ++ (Station.step device state event).2) :=
    fun _ _ event hinv => hinv.step event
  simpa [life] using invariant_run_always hstep events (inv_boot device nvs)

/-- Over the whole life of a device, whatever calls are made, with power lost anywhere and
any write failing: every frame it hands out, be it an acknowledgement, a message, a command
or a beacon, names the device and carries a number of at least 1, and the numbers strictly
increase.  No two frames share a keystream. -/
theorem frames_share_no_keystream (device : Device) (nvs : Nvs) (events : List Event) :
    let frames := framesOf (outputsOf (life device nvs events).2)
    (∀ frame ∈ frames, get32le frame 2 = device.myC2Id ∧ 1 ≤ seqOf frame) ∧
      (frames.map seqOf).Pairwise (· < ·) := by
  intro frames
  have hinv := inv_life device nvs events
  refine ⟨fun frame hmem => ⟨(hinv.said.frames frame hmem).sender, ?_⟩,
    hinv.numbered.increasing⟩
  exact UInt32.le_trans (TxSequence.one_le_txResume nvs.txseq)
    (hinv.numbered.above _ (List.mem_map_of_mem hmem))

end Life

end LoraBridge.Station
