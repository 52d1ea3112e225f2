import LoraBridge.Control.PeerPortal
import LoraBridge.Core.SlotEdits

/-!
# Rejected peer forms

`handlePeersPost` in one piece: it edits the live whitelist slot by slot and stops at the
first row it does not accept.  A rejected form has changed the whitelist, unless the rows in
front of the bad one ask for what their slots hold already.
-/

namespace LoraBridge.PeerRejection

open LoraBridge.CamC2Config LoraBridge.FormText LoraBridge.PeerPortal LoraBridge.ReserveAhead
open LoraBridge.SlotEdits

/-- The rows in turn; the first error ends the loop. -/
def applySlots (forms : Forms) : List Slot → CamC2Config.State →
    CamC2Config.State × Option String
  | [], config => (config, none)
  | slot :: rest, config =>
      if (forms slot).en = ['1'] then
        match peerOf (forms slot) (config.ram.peer slot) with
        | .ok p => applySlots forms rest (setPeer slot p config)
        | .error message => (config, some message)
      else applySlots forms rest (clearPeer slot config)

/-- `handlePeersPost`, once the request is authenticated. -/
def handlePeersPost (forms : Forms) (write : Write) (config : CamC2Config.State) :
    CamC2Config.State × Option String :=
  match applySlots forms (List.finRange MAX_PEERS) config with
  | (next, none) => (saveTable write next, none)
  | (next, some message) => (next, some message)

/-- What a row makes of its slot. -/
def editOf (nvs : Nvs) (forms : Forms) (slot : Slot) (current : Peer) : Except String Peer :=
  if (forms slot).en = ['1'] then
    (peerOf (forms slot) current).map fun p =>
      if p.peerId ≠ current.peerId then { p with rxHighWater := loadRxForPeer nvs p.peerId }
      else p
  else .ok Peer.empty

/-- An enabled row writes its edited copy. -/
theorem setPeer_eq (slot : Slot) (p : Peer) (config : CamC2Config.State) :
    setPeer slot p config = config.setPeers (Function.update config.ram.peer slot
      (if p.peerId ≠ (config.ram.peer slot).peerId then
        { p with rxHighWater := loadRxForPeer config.nvs p.peerId } else p)) := by
  unfold setPeer
  rw [slotOf_slot]
  dsimp only
  split <;> rfl

theorem clearPeer_eq (slot : Slot) (config : CamC2Config.State) :
    clearPeer slot config =
      config.setPeers (Function.update config.ram.peer slot Peer.empty) := by
  rw [clearPeer, slotOf_slot]

/-- The calls of the loop are edits of the whitelist. -/
theorem applySlots_eq (forms : Forms) (slots : List Slot) (config : CamC2Config.State) :
    applySlots forms slots config =
      (config.setPeers (editAll (editOf config.nvs forms) slots config.ram.peer).1,
        (editAll (editOf config.nvs forms) slots config.ram.peer).2) := by
  induction slots generalizing config with
  | nil => rfl
  | cons slot rest ih =>
      rw [applySlots, editAll, editOf]
      by_cases hen : (forms slot).en = ['1']
      · rw [if_pos hen, if_pos hen]
        cases peerOf (forms slot) (config.ram.peer slot) with
        | error message => rfl
        | ok p =>
            dsimp only [Except.map]
            rw [ih, setPeer_eq]
            rfl
      · rw [if_neg hen, if_neg hen]
        dsimp only
        rw [ih, clearPeer_eq]
        rfl

/-- Answered with an error, the whitelist is as it was. -/
def RejectsAtomically (forms : Forms) (write : Write) (config : CamC2Config.State) : Prop :=
  ∀ message, (handlePeersPost forms write config).2 = some message →
    (handlePeersPost forms write config).1.ram.peer = config.ram.peer

theorem handlePeersPost_error (forms : Forms) (write : Write) (config : CamC2Config.State) :
    (handlePeersPost forms write config).2 = (List.finRange MAX_PEERS).findSome? fun slot =>
      errorOf (editOf config.nvs forms slot (config.ram.peer slot)) := by
  rw [← editAll_error (List.nodup_finRange MAX_PEERS), handlePeersPost, applySlots_eq]
  cases (editAll (editOf config.nvs forms) (List.finRange MAX_PEERS) config.ram.peer).2 <;> rfl

theorem handlePeersPost_peer (forms : Forms) (write : Write) (config : CamC2Config.State) :
    (handlePeersPost forms write config).1.ram.peer =
      (editAll (editOf config.nvs forms) (List.finRange MAX_PEERS) config.ram.peer).1 := by
  rw [handlePeersPost, applySlots_eq]
  cases (editAll (editOf config.nvs forms) (List.finRange MAX_PEERS) config.ram.peer).2 <;> rfl

/-! ## The fields of a row and its slot -/

/-- The digits of a row's id. -/
def idDigits (form : PeerForm) : Text := stripHexMark (trim form.id)

/-- The row has the id that its slot has. -/
def SameId (form : PeerForm) (current : Peer) : Prop :=
  current.inUse ≠ 0 ∧ current.peerId = strtoul16 (idDigits form)

/-- A ticked row is in order: an id of eight characters that is not zero, and a key of 32
digits, or no key and the slot's own id. -/
def RowInOrder (form : PeerForm) (current : Peer) : Prop :=
  form.en = ['1'] → (idDigits form).length = 8 ∧ strtoul16 (idDigits form) ≠ 0 ∧
    (trim form.key = [] ∧ SameId form current ∨
      trim form.key ≠ [] ∧ (hexToBytes (trim form.key) 16).isSome)

/-- The row asks for what the slot holds: for nothing, or for its id, flag and key. -/
def AsksForStored (form : PeerForm) (current : Peer) : Prop :=
  (form.en ≠ ['1'] → current = Peer.empty) ∧
  (form.en = ['1'] → current.inUse = 1 ∧ current.peerId = strtoul16 (idDigits form) ∧
    current.flags = (if form.pri = ['1'] then FLAG_PRIMARY_MASTER else 0) ∧
    (trim form.key = [] ∨ hexToBytes (trim form.key) 16 = some current.psk))

section Rows

variable {form : PeerForm} {current : Peer}

/-- A row that is in order is accepted. -/
theorem peerOf_accepts_iff (hen : form.en = ['1']) :
    (∃ p, peerOf form current = .ok p) ↔ RowInOrder form current := by
  unfold peerOf RowInOrder SameId idDigits
  dsimp only [bind, Except.bind, pure, Except.pure]
  generalize stripHexMark (trim form.id) = digits
  generalize trim form.key = key
  by_cases hlength : digits.length = 8
  · by_cases hid : strtoul16 digits = 0
    · simp [hen, hlength, hid]
    · by_cases hkey : key = []
      · by_cases hsame : ¬ current.inUse = 0 ∧ current.peerId = strtoul16 digits
        · simp [hen, hlength, hid, hkey, hsame]
        · simp [hen, hlength, hid, hkey, hsame]
      · cases hexToBytes key 16 with
        | none => simp [hen, hlength, hid, hkey]
        | some psk => simp [hen, hlength, hid, hkey]
  · simp [hen, hlength]

/-- The copy of a row that is in order is the slot as it was, if that is what it asks for. -/
theorem peerOf_eq_self_iff (hen : form.en = ['1']) (horder : RowInOrder form current) :
    peerOf form current = .ok current ↔ AsksForStored form current := by
  obtain ⟨hlength, hid, hkey⟩ := horder hen
  obtain ⟨inUse, flags, peerId, psk, rxHighWater⟩ := current
  unfold peerOf AsksForStored
  unfold SameId at hkey
  unfold idDigits at hlength hid hkey ⊢
  dsimp only [bind, Except.bind, pure, Except.pure]
  generalize stripHexMark (trim form.id) = digits at *
  generalize trim form.key = key at *
  rcases hkey with ⟨rfl, huse, hsame⟩ | ⟨hkey, hbytes⟩
  · dsimp only at huse hsame
    subst hsame
    simp [hen, hlength, hid, huse, eq_comm]
  · obtain ⟨bytes, hbytes⟩ := Option.isSome_iff_exists.mp hbytes
    by_cases hsame : peerId = strtoul16 digits
    · subst hsame
      by_cases huse : inUse = 1
      · subst huse
        simp [hen, hlength, hid, hkey, hbytes, eq_comm]
      · simp [hen, hlength, hid, hkey, hbytes, huse, Ne.symm huse]
    · simp [hen, hlength, hid, hkey, hbytes, hsame, Ne.symm hsame]

variable {nvs : Nvs} {forms : Forms} {slot : Slot}

theorem editOf_accepts_iff :
    (∃ p, editOf nvs forms slot current = .ok p) ↔ RowInOrder (forms slot) current := by
  unfold editOf
  by_cases hen : (forms slot).en = ['1']
  · rw [if_pos hen, ← peerOf_accepts_iff hen]
    cases peerOf (forms slot) current with
    | error message => simp [Except.map]
    | ok p => simp [Except.map]
  · rw [if_neg hen]
    exact iff_of_true ⟨_, rfl⟩ fun hticked => absurd hticked hen

theorem editOf_eq_self_iff (horder : RowInOrder (forms slot) current) :
    editOf nvs forms slot current = .ok current ↔ AsksForStored (forms slot) current := by
  unfold editOf
  by_cases hen : (forms slot).en = ['1']
  · rw [if_pos hen, ← peerOf_eq_self_iff hen horder]
    cases peerOf (forms slot) current with
    | error message => simp [Except.map]
    | ok p =>
        dsimp only [Except.map]
        constructor
        · intro hsame
          have hp := Except.ok.inj hsame
          have hid : p.peerId = current.peerId := by
            rw [← hp]
            split <;> rfl
          rw [if_neg (not_not.mpr hid)] at hp
          rw [hp]
        · intro hsame
          obtain rfl := Except.ok.inj hsame
          rw [if_neg (not_not.mpr rfl)]
  · rw [if_neg hen]
    constructor
    · intro hsame
      exact ⟨fun _ => (Except.ok.inj hsame).symm, fun hticked => absurd hticked hen⟩
    · intro hstored
      rw [hstored.1 hen]

end Rows

/-- A rejected form changes nothing exactly when every row is in order, or every row up to
which all are in order asks for what its slot holds. -/
theorem rejectsAtomically_iff (forms : Forms) (write : Write) (config : CamC2Config.State) :
    RejectsAtomically forms write config ↔
      (∀ slot, RowInOrder (forms slot) (config.ram.peer slot)) ∨
        ∀ slot, (∀ earlier ≤ slot, RowInOrder (forms earlier) (config.ram.peer earlier)) →
          AsksForStored (forms slot) (config.ram.peer slot) := by
  have hstored : (editAll (editOf config.nvs forms) (List.finRange MAX_PEERS)
      config.ram.peer).1 = config.ram.peer ↔
        ∀ slot, (∀ earlier ≤ slot, RowInOrder (forms earlier) (config.ram.peer earlier)) →
          AsksForStored (forms slot) (config.ram.peer slot) := by
    rw [editAll_eq_self_iff (List.nodup_finRange MAX_PEERS)]
    refine forall_congr' fun slot => ?_
    rw [mem_reached_finRange_iff]
    simp only [editOf_accepts_iff]
    exact forall_congr' fun hrows => editOf_eq_self_iff (hrows slot le_rfl)
  rw [RejectsAtomically, handlePeersPost_error, handlePeersPost_peer, hstored]
  constructor
  · intro hatomic
    cases herror : (List.finRange MAX_PEERS).findSome? fun slot =>
        errorOf (editOf config.nvs forms slot (config.ram.peer slot)) with
    | some message => exact .inr (hatomic message herror)
    | none =>
        refine .inl fun slot => ?_
        have hslot := List.findSome?_eq_none_iff.mp herror slot (List.mem_finRange slot)
        exact editOf_accepts_iff.mp (errorOf_eq_none_iff.mp hslot)
  · rintro (hall | hsame) message herror
    · obtain ⟨slot, -, hslot⟩ := List.exists_of_findSome?_eq_some herror
      obtain ⟨p, hp⟩ : ∃ p, editOf config.nvs forms slot (config.ram.peer slot) = .ok p :=
        editOf_accepts_iff.mpr (hall slot)
      rw [hp] at hslot
      cases hslot
    · exact hsame

/-! ## A master that a rejected form removes -/

/-- Slot 0 trusts the master C0DE. -/
def exampleConfig : CamC2Config.State where
  nvs := ⟨none, fun _ => 0, 0⟩
  ram :=
    { peer := fun slot =>
        if slot = Slot.first then ⟨1, FLAG_PRIMARY_MASTER, 0xC0DE, List.Vector.replicate 16 7, 5⟩
        else Peer.empty
      tx := ⟨1, 0⟩ }

/-- Slot 0 is not ticked, and slot 1 has no id. -/
def exampleForms : Forms := fun slot =>
  if slot = Slot.first then ⟨[], [], [], []⟩ else ⟨['1'], [], [], []⟩

theorem master_removed_by_rejected_form :
    ¬ RejectsAtomically exampleForms .confirmed exampleConfig := by
  intro hatomic
  have hsame := hatomic "Master C2 id must be 8 hex characters." (by decide)
  exact absurd (congrFun hsame Slot.first) (by decide)

end LoraBridge.PeerRejection
