import LoraBridge.Control.CamC2Config
import LoraBridge.Core.Machine
import LoraBridge.Portal.FormText

/-!
# The peer form and the radio task

`handlePeersPost` runs in the portal's task while a radio task accepts frames.  The
handler visits the slots in turn: it clears one, or copies it, edits the copy, and
writes it back.  `setPeer` writes the copy first and then, for another id, loads the
floor.  An acceptance reads the slot, writes the floor to NVS, and then to the slot.
-/

namespace LoraBridge.PeerPortal

open LoraBridge.CamC2Config LoraBridge.FormText LoraBridge.ReserveAhead

/-- The arguments `p<i>en`, `p<i>id`, `p<i>key` and `p<i>pri` of one slot. -/
structure PeerForm where
  en : Text
  id : Text
  key : Text
  pri : Text

/-- The edited copy of a slot. -/
def peerOf (form : PeerForm) (current : Peer) : Except String Peer := do
  let idStr := stripHexMark (trim form.id)
  if idStr.length ≠ 8 then throw "Master C2 id must be 8 hex characters."
  let id := strtoul16 idStr
  if id = 0 then throw "Master C2 id cannot be zero."
  let sameId := current.inUse ≠ 0 ∧ current.peerId = id
  let flags := if form.pri = ['1'] then FLAG_PRIMARY_MASTER else 0
  let rxHighWater := if sameId then current.rxHighWater else 0
  let keyStr := trim form.key
  if keyStr.length = 0 then
    if sameId then return ⟨1, flags, id, current.psk, rxHighWater⟩
    else throw "A new slot needs a 32-hex PSK."
  else
    match hexToBytes keyStr 16 with
    | some psk => return ⟨1, flags, id, psk, rxHighWater⟩
    | none => throw "PSK must be exactly 32 hex characters."

/-! ## The two tasks -/

abbrev Forms := Slot → PeerForm

/-- Where the handler is: waiting for a request, about to handle a slot, holding an
edited copy, or inside `setPeer` with the copy written and the floor to be loaded. -/
inductive Portal where
  | idle
  | visiting (forms : Forms) (slot : Slot)
  | saving
  | copied (forms : Forms) (slot : Slot) (p : Peer)
  | loading (forms : Forms) (slot : Slot) (peerId : UInt32)

/-- Where the radio task is in `acceptInboundSeq`: not in it, called for the slot that
an id resolved to, about to write the floor to NVS, about to write it to the slot. -/
inductive Radio where
  | idle
  | called (slot : Slot) (peerId seq : UInt32)
  | checked (slot : Slot) (peerId seq : UInt32)
  | stored (slot : Slot) (peerId seq : UInt32)

structure State where
  config : CamC2Config.State
  portal : Portal
  radio : Radio

/-- A frame was accepted from a peer. -/
structure Accepted where
  peerId : UInt32
  seq : UInt32
  deriving DecidableEq

def start (seed : Option Peer) (nvs : Nvs) : State := ⟨boot seed nvs, .idle, .idle⟩

/-- The loop's next slot; after the last one the table is saved. -/
def nextSlot (forms : Forms) (slot : Slot) : Portal :=
  match slotOf (slot + 1) with
  | some next => .visiting forms next
  | none => .saving

/-- `s_peer[slot] = p`. -/
def assign (slot : Slot) (p : Peer) (config : CamC2Config.State) : CamC2Config.State :=
  config.setPeers (Function.update config.ram.peer slot p)

/-- The handler's next step.  An error ends it with the earlier slots changed. -/
def portalStep (write : Write) (state : State) : State :=
  let config := state.config
  match state.portal with
  | .idle => state
  | .visiting forms slot =>
      if (forms slot).en = ['1'] then
        match peerOf (forms slot) (config.ram.peer slot) with
        | .ok p => { state with portal := .copied forms slot p }
        | .error _ => { state with portal := .idle }
      else { state with config := clearPeer slot config, portal := nextSlot forms slot }
  | .copied forms slot p =>
      { state with
        config := assign slot p config
        portal := if p.peerId ≠ (config.ram.peer slot).peerId then
          .loading forms slot p.peerId else nextSlot forms slot }
  | .loading forms slot peerId =>
      { state with
        config := config.setFloor slot (loadRxForPeer config.nvs peerId)
        portal := nextSlot forms slot }
  | .saving => { state with config := saveTable write config, portal := .idle }

/-- The radio task's next step in `acceptInboundSeq`. -/
def radioStep (write : Write) (state : State) : State × List Accepted :=
  let config := state.config
  match state.radio with
  | .idle => (state, [])
  | .called slot _ seq =>
      let pr := config.ram.peer slot
      if pr.inUse = 0 ∨ pr.peerId = 0 ∨ seq ≤ pr.rxHighWater then
        ({ state with radio := .idle }, [])
      else ({ state with radio := .checked slot pr.peerId seq }, [])
  | .checked slot peerId seq =>
      ({ state with
        config := persistRx slot seq write config
        radio := if persistRxOk slot write config then .stored slot peerId seq else .idle },
        [])
  | .stored slot peerId seq =>
      ({ state with config := config.setFloor slot seq, radio := .idle }, [⟨peerId, seq⟩])

/-- A form is posted, a frame that verified under the key of the peer it names comes
to `acceptInboundSeq`, either task makes a step, or the device restarts. -/
inductive Event where
  | post (forms : Forms)
  | portal (write : Write)
  | receive (peerId seq : UInt32)
  | radio (write : Write)
  | reboot

def step (seed : Option Peer) : State → Event → State × List Accepted
  | state, .post forms =>
      match state.portal with
      | .idle => ({ state with portal := .visiting forms Slot.first }, [])
      | _ => (state, [])
  | state, .portal write => (portalStep write state, [])
  | state, .receive peerId seq =>
      match state.radio, resolve state.config.ram.peer peerId with
      | .idle, some slot => ({ state with radio := .called slot peerId seq }, [])
      | _, _ => (state, [])
  | state, .radio write => radioStep write state
  | state, .reboot => (start seed state.config.nvs, [])

/-- The slot whose floor `setPeer` has yet to load. -/
def Portal.loadingSlot : Portal → Option Slot
  | .loading _ slot _ => some slot
  | _ => none

/-- The slot and the peer id of the acceptance in flight. -/
def Radio.inFlight : Radio → Option (Slot × UInt32)
  | .idle => none
  | .called slot peerId _ | .checked slot peerId _ | .stored slot peerId _ =>
      some (slot, peerId)

@[simp]
theorem loadingSlot_nextSlot (forms : Forms) (slot : Slot) :
    (nextSlot forms slot).loadingSlot = none := by
  unfold nextSlot
  split <;> rfl

/-! ## Without interleaving, the steps are the calls -/

/-- The one or two writes of `setPeer` make the call. -/
theorem setPeer_steps (write : Write) (state : State) (forms : Forms) (slot : Slot)
    (p : Peer) (hcopied : state.portal = .copied forms slot p) :
    (if (portalStep write state).portal.loadingSlot = some slot then
        (portalStep write (portalStep write state)).config
      else (portalStep write state).config) = setPeer slot p state.config := by
  unfold setPeer
  rw [slotOf_slot]
  by_cases hid : p.peerId ≠ (state.config.ram.peer slot).peerId
  · simp [portalStep, hcopied, hid, assign, CamC2Config.State.setFloor,
      CamC2Config.State.setPeers, Portal.loadingSlot]
  · simp [portalStep, hcopied, hid, assign]

/-- The first step of an acceptance reads the slot. -/
theorem radioStep_called (write : Write) {state : State} {slot : Slot}
    {peerId seq : UInt32} (hcalled : state.radio = .called slot peerId seq) :
    ((state.config.ram.peer slot).configured = false ∨
        seq ≤ (state.config.ram.peer slot).rxHighWater) ∧
      radioStep write state = ({ state with radio := .idle }, []) ∨
    ((state.config.ram.peer slot).configured = true ∧
        (state.config.ram.peer slot).rxHighWater < seq) ∧
      radioStep write state = ({ state with
        radio := .checked slot (state.config.ram.peer slot).peerId seq }, []) := by
  by_cases hreject : (state.config.ram.peer slot).inUse = 0 ∨
      (state.config.ram.peer slot).peerId = 0 ∨
        seq ≤ (state.config.ram.peer slot).rxHighWater
  · refine .inl ⟨?_, by simp only [radioStep, hcalled, hreject, if_true]⟩
    rcases hreject with huse | hid | hfloor
    · exact .inl (by simp [Peer.configured, huse])
    · exact .inl (by simp [Peer.configured, hid])
    · exact .inr hfloor
  · refine .inr ⟨?_, by simp only [radioStep, hcalled, hreject, if_false]⟩
    obtain ⟨huse, hrest⟩ := not_or.mp hreject
    obtain ⟨hid, hfloor⟩ := not_or.mp hrest
    exact ⟨by simp [Peer.configured, huse, hid], by grind⟩

/-- The steps of the radio task make the call of `acceptInboundSeq`. -/
theorem acceptInboundSeq_steps (write : Write) (state : State) (slot : Slot)
    (peerId seq : UInt32) (hcalled : state.radio = .called slot peerId seq) :
    let first := radioStep write state
    let second := radioStep write first.1
    let third := radioStep write second.1
    let call := (acceptInboundSeq slot seq write fun peerId => Accepted.mk peerId seq).run
      state.config
    third.1.config = call.state ∧ first.2 ++ second.2 ++ third.2 = call.outputs := by
  have haccepts := accepts_acceptInboundSeq (slotOf_slot slot) seq write
    (fun peerId => Accepted.mk peerId seq) state.config
  simp only
  generalize (acceptInboundSeq slot seq write fun peerId => Accepted.mk peerId seq).run
    state.config = call at haccepts
  rcases radioStep_called write hcalled with
    ⟨hreject, hfirst⟩ | ⟨⟨hpeer, hfloor⟩, hfirst⟩
  · rw [hfirst]
    cases haccepts with
    | rejected _ => exact ⟨rfl, rfl⟩
    | unstored hpeer hfloor _ | stored hpeer hfloor _ =>
        rcases hreject with hnone | hstale
        · rw [hpeer] at hnone
          cases hnone
        · exact absurd hstale (by grind)
  · have hid : (state.config.ram.peer slot).peerId ≠ 0 := by
      simp only [Peer.configured, decide_eq_true_eq] at hpeer
      exact hpeer.2
    rw [hfirst]
    cases haccepts with
    | rejected hreason =>
        rcases hreason with hnone | hstale
        · rw [hpeer] at hnone
          cases hnone
        · exact absurd hstale (by grind)
    | unstored _ _ hwrite =>
        simp [radioStep, persistRxOk_of_id rfl hid, persistRx_of_id rfl hid, hwrite]
    | stored _ _ hwrite =>
        simp [radioStep, persistRxOk_of_id rfl hid, persistRx_of_id rfl hid, hwrite]

end LoraBridge.PeerPortal
