import LoraBridge.Counter.LoRaWANConfig
import LoraBridge.Portal.FormText

/-!
# The LoRaWAN device form

`applyLoRaWANDevices`: the portal's form handler checks and stores one slot after
the other, and saves the table when all of them were accepted.
-/

namespace LoraBridge.LoRaWANDevices

open LoraBridge.FormText LoraBridge.LoRaWANConfig LoraBridge.ReserveAhead

/-- The arguments `lw<i>en`, `lw<i>sel`, … of one slot; a missing one is empty. -/
structure DeviceForm where
  en : Text
  sel : Text
  «match» : Text
  addr : Text
  nwk : Text
  app : Text
  port : Text
  tag : Text

/-- The match value of a form, read as the source selector asks. -/
def srcMatchOf (srcSel : UInt8) (form : DeviceForm) : Except String UInt32 :=
  let mv := trim form.match
  if srcSel = SRC_MT_NODE then
    let mv := stripHexMark mv
    if isHexString mv 8 then .ok (strtoul16 mv)
    else .error "ABP node-id match must be 8 hex chars."
  else if srcSel = SRC_PROTO then
    let value := UInt32.ofNat ((toInt mv) % 2 ^ 32).toNat
    if value < 1 ∨ 4 < value then .error "ABP protocol match must be 1-4."
    else .ok value
  else .ok 0

/-- The device of an enabled slot. -/
def deviceOf (form : DeviceForm) : Except String Device := do
  let srcSel := UInt8.ofNat ((toInt form.sel) % 2 ^ 8).toNat
  let srcMatch ← srcMatchOf srcSel form
  let addr := stripHexMark (trim form.addr)
  if !isHexString addr 8 then throw "ABP DevAddr must be 8 hex chars."
  let some nwkSKey := lwHexToBytes (trim form.nwk) 16
    | throw "ABP NwkSKey must be 32 hex chars."
  let some appSKey := lwHexToBytes (trim form.app) 16
    | throw "ABP AppSKey must be 32 hex chars."
  let fp := toInt form.port
  if fp < 1 ∨ 223 < fp then throw "ABP FPort must be 1-223."
  return {
    inUse := 1
    srcSel := srcSel
    fport := UInt8.ofNat fp.toNat
    flags := if form.tag = ['1'] then FLAG_TAG_SRC else 0
    srcMatch := srcMatch
    devAddr := strtoul16 addr
    nwkSKey := nwkSKey
    appSKey := appSKey }

/-- The slots in turn; the first error ends the loop with the earlier slots
already changed. -/
def applySlots (forms : Slot → DeviceForm) : List Slot → State → State × Option String
  | [], state => (state, none)
  | slot :: rest, state =>
      if (forms slot).en = ['1'] then
        match deviceOf (forms slot) with
        | .ok device => applySlots forms rest (setDevice slot device state)
        | .error message => (state, some message)
      else applySlots forms rest (clearDevice slot state)

def applyLoRaWANDevices (forms : Slot → DeviceForm) (write : Write) (state : State) :
    State × Option String :=
  match applySlots forms (List.finRange MAX_DEVICES) state with
  | (next, none) => (saveTable write next, none)
  | (next, some message) => (next, some message)

theorem applySlots_reloads (forms : Slot → DeviceForm) (slots : List Slot)
    (state : State) : Reloads state (applySlots forms slots state).1 := by
  induction slots generalizing state with
  | nil => exact Reloads.refl state
  | cons slot rest ih =>
      rw [applySlots]
      split
      · split
        · exact (setDevice_reloads _ _ state).trans (ih _)
        · exact Reloads.refl state
      · exact (clearDevice_reloads _ state).trans (ih _)

/-- A save, accepted or not, only loads counters. -/
theorem applyLoRaWANDevices_reloads (forms : Slot → DeviceForm) (write : Write)
    (state : State) : Reloads state (applyLoRaWANDevices forms write state).1 := by
  have hslots := applySlots_reloads forms (List.finRange MAX_DEVICES) state
  unfold applyLoRaWANDevices
  generalize applySlots forms (List.finRange MAX_DEVICES) state = result at hslots
  obtain ⟨next, message | _⟩ := result
  · exact hslots.trans (saveTable_reloads write next)
  · exact hslots

end LoraBridge.LoRaWANDevices
