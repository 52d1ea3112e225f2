import LoraBridge.Config.Migration
import LoraBridge.Core.Base64Coder
import LoraBridge.Core.SlotEdits
import LoraBridge.Portal.LoRaWANDevices
import LoraBridge.Portal.RadioForm

/-!
# The configuration form

`handleSave`: the radios are edited in the live configuration one after the other, the guard
looks at what they have become, and the identity is committed before the ABP devices are
read.  The camera serves the same handler behind its login.
-/

namespace LoraBridge.ConfigForm

open LoraBridge.Base64 LoraBridge.BridgeConfig LoraBridge.CharArray LoraBridge.FormText
open LoraBridge.LoRaWANDevices LoraBridge.RadioForm LoraBridge.ReserveAhead LoraBridge.SlotEdits

/-- The live configuration and the ABP devices, each with what NVS holds of it. -/
structure State where
  config : Migration.State
  lorawan : LoRaWANConfig.State

/-- The arguments of `/save`. -/
structure Form where
  mtNodeId : Text
  mtNodeIdStr : Text
  mtLongName : Text
  mtShortName : Text
  region : Text
  positionEnabled : Text
  telemetryEnabled : Text
  radio : Radio → Fields
  device : LoRaWANConfig.Slot → DeviceForm

/-- What a build fixes: its flags, its float operations and base64 coder, and whether it
encodes LoRaWAN. -/
structure Portal where
  flags : BuildFlags
  floats : Floats
  base64 : Coder
  lwEncode : Bool

variable (portal : Portal)

/-! ## The checks -/

/-- The Meshtastic node id. -/
def mtNodeIdOf (form : Form) : Except String UInt32 := do
  let raw := stripHexMark (trim form.mtNodeId)
  if !isHexString raw 8 then throw "Node ID must be exactly 8 hex characters."
  let mtNodeId := strtoul16 raw
  let str := trim form.mtNodeIdStr
  if str.length ≠ 9 ∨ str.head? ≠ some '!' ∨ !isHexString str.tail 8 then
    throw "Node ID string must be \"!\" followed by 8 hex chars."
  if strtoul16 str.tail ≠ mtNodeId then
    throw "Node ID and Node ID string must encode the same 32-bit value."
  if form.mtLongName.length = 0 ∨ form.mtShortName.length = 0 then
    throw "Long name and short name cannot be empty."
  return mtNodeId

def regionOf (form : Form) : UInt8 :=
  let region := byteOf form.region
  if kRegionCount ≤ region.toNat then REGION_UNSET else region

/-- `df < 0.001f`. -/
def near (floats : Floats) (f g : UInt32) : Bool :=
  let df := floats.sub f g
  floats.lt (if floats.lt df 0 then floats.neg df else df) 0x3A83126F

/-- The bit of a radio in a route mask. -/
def routes (mask : UInt8) (j : Radio) : Bool := mask &&& (1 : UInt8) <<< UInt8.ofNat j.val ≠ 0

/-- The guard's condition on one pair. -/
def selfBridge (floats : Floats) (radio : Radio → RadioSlot) (i j : Radio) : Bool :=
  ((radio i).protocol = PROTO_MT ∨ (radio i).protocol = PROTO_MC) ∧ j ≠ i ∧
    routes (radio i).routeMask j ∧ (radio j).protocol = (radio i).protocol ∧
    near floats (radio i).frequency (radio j).frequency ∧
    (radio i).channelName.text = (radio j).channelName.text ∧
    (radio i).channelKey.text = (radio j).channelKey.text

/-- `sbMsg`. -/
def sbMsg (i j : Radio) : String :=
  let source := toString (i.val + 1)
  let dest := toString (j.val + 1)
  "Radio " ++ source ++ " routes to Radio " ++ dest ++ " on the same channel AND frequency — " ++
    "that bridges a channel to itself."

/-- The first pair in the order of the loops. -/
def selfBridgePair (floats : Floats) (radio : Radio → RadioSlot) : Option (Radio × Radio) :=
  (List.finRange NUM_RADIOS).findSome? fun i =>
    ((List.finRange NUM_RADIOS).find? fun j => selfBridge floats radio i j).map fun j => (i, j)

/-- The checks of the edited radios. -/
def radiosError (floats : Floats) (radio : Radio → RadioSlot) : Option String :=
  if ∀ i, (radio i).protocol = PROTO_NONE then
    some "At least one radio must have a protocol (all set to None)."
  else (selfBridgePair floats radio).map fun pair => sbMsg pair.1 pair.2

/-! ## The handler -/

/-- The fields that are committed behind the checks. -/
def commit (form : Form) (mtNodeId : UInt32) (cfg : PersistedV5) : PersistedV5 :=
  { cfg with
    mtNodeId := mtNodeId
    mtNodeIdStr := copyStr MT_NODE_ID_STR_MAX (bytesOf (trim form.mtNodeIdStr))
    mtLongName := copyStr MT_LONG_NAME_MAX (bytesOf form.mtLongName)
    mtShortName := copyStr MT_SHORT_NAME_MAX (bytesOf form.mtShortName)
    region := regionOf form
    positionEnabled := if form.positionEnabled = ['1'] then 1 else 0
    telemetryEnabled := if form.telemetryEnabled = ['1'] then 1 else 0 }

/-- `for (n = 1..NUM_RADIOS) applyRadio(n, region)` on the live configuration. -/
def applyRadios (form : Form) (cfg : PersistedV5) : PersistedV5 × Option String :=
  let result := editAll
    (fun i => applyRadio portal.base64 portal.floats (regionOf form) i (form.radio i))
    (List.finRange NUM_RADIOS) cfg.radio
  ({ cfg with radio := result.1 }, result.2)

def State.withLive (state : State) (cfg : PersistedV5) : State :=
  { state with config := { state.config with live := cfg } }

/-- `applyLoRaWANDevices`, in a build that has it. -/
def applyDevices (form : Form) (write : Write) (lorawan : LoRaWANConfig.State) :
    LoRaWANConfig.State × Option String :=
  if portal.lwEncode then applyLoRaWANDevices form.device write lorawan else (lorawan, none)

/-- `handleSave`: the state it leaves, and the error it answers with, if any. -/
def handleSave (form : Form) (opened : Bool) (writeDevices writeConfig : Write)
    (state : State) : State × Option String :=
  match mtNodeIdOf form with
  | .error message => (state, some message)
  | .ok mtNodeId =>
      match applyRadios portal form state.config.live with
      | (cfg, some message) => (state.withLive cfg, some message)
      | (cfg, none) =>
          match radiosError portal.floats cfg.radio with
          | some message => (state.withLive cfg, some message)
          | none =>
              let committed := state.withLive (commit form mtNodeId cfg)
              match applyDevices portal form writeDevices committed.lorawan with
              | (lorawan, some message) => ({ committed with lorawan := lorawan }, some message)
              | (lorawan, none) =>
                  (⟨Migration.save portal.flags opened writeConfig committed.config, lorawan⟩, none)

/-! ## Accepted forms -/

section Accepted

variable {portal : Portal} {form : Form} {opened : Bool} {writeDevices writeConfig : Write}
  {state : State}

/-- The radios of an accepted form, the identity it was committed with, and the save. -/
theorem handleSave_accepted
    (haccepted : (handleSave portal form opened writeDevices writeConfig state).2 = none) :
    ∃ (mtNodeId : UInt32) (radio : Radio → RadioSlot),
      (∀ i, applyRadio portal.base64 portal.floats (regionOf form) i (form.radio i)
        (state.config.live.radio i) = .ok (radio i)) ∧
      radiosError portal.floats radio = none ∧
      (handleSave portal form opened writeDevices writeConfig state).1.config =
        Migration.save portal.flags opened writeConfig { state.config with
          live := commit form mtNodeId { state.config.live with radio := radio } } := by
  unfold handleSave at haccepted ⊢
  cases hid : mtNodeIdOf form with
  | error message =>
      rw [hid] at haccepted
      cases haccepted
  | ok mtNodeId =>
      rw [hid] at haccepted
      dsimp only at haccepted ⊢
      rw [applyRadios] at haccepted ⊢
      cases hresult : editAll
          (fun i => applyRadio portal.base64 portal.floats (regionOf form) i (form.radio i))
          (List.finRange NUM_RADIOS) state.config.live.radio with
      | mk radio radiosRejected =>
          rw [hresult] at haccepted
          cases radiosRejected with
          | some message => cases haccepted
          | none =>
              refine ⟨mtNodeId, radio, fun i => ?_, ?_⟩
              · exact edit_eq_ok_of_none (List.nodup_finRange NUM_RADIOS) hresult
                  (List.mem_finRange i)
              · dsimp only at haccepted ⊢
                cases hguard : radiosError portal.floats radio with
                | some message =>
                    rw [hguard] at haccepted
                    cases haccepted
                | none =>
                    rw [hguard] at haccepted
                    dsimp only at haccepted ⊢
                    refine ⟨rfl, ?_⟩
                    split
                    · rename_i hdevices
                      rw [hdevices] at haccepted
                      cases haccepted
                    · rfl

/-- The configuration that is live behind a form. -/
def saved (portal : Portal) (form : Form) (opened : Bool) (writeDevices writeConfig : Write)
    (state : State) : PersistedV5 :=
  (handleSave portal form opened writeDevices writeConfig state).1.config.live

/-- A radio that is active behind an accepted form is one the form asked for. -/
theorem radio_saved
    (haccepted : (handleSave portal form opened writeDevices writeConfig state).2 = none)
    {i : Radio}
    (hactive : ((saved portal form opened writeDevices writeConfig state).radio i).protocol ≠
      PROTO_NONE) :
    byteOf (form.radio i).proto ≠ PROTO_NONE ∧ ∃ modem variant lwRegion,
      modemOf portal.floats (byteOf (form.radio i).proto) (form.radio i) = .ok modem ∧
      variantOf portal.base64 (byteOf (form.radio i).proto) (form.radio i) modem lwRegion =
        .ok variant ∧
      (saved portal form opened writeDevices writeConfig state).radio i =
        activeSlot portal.floats (regionOf form) i (form.radio i) variant := by
  obtain ⟨mtNodeId, radio, hradios, -, hconfig⟩ := handleSave_accepted haccepted
  unfold saved at hactive ⊢
  rw [hconfig] at hactive ⊢
  have hslot := Migration.radio_save_of_active hactive
  rw [hslot] at hactive ⊢
  have hradio := hradios i
  have hproto : byteOf (form.radio i).proto ≠ PROTO_NONE := by
    intro hnone
    have hoff : (radio i).protocol = PROTO_NONE := by rw [applyRadio_none hnone hradio]
    exact hactive hoff
  obtain ⟨modem, variant, hmodem, hvariant, hnext⟩ := applyRadio_active hproto hradio
  exact ⟨hproto, modem, variant, _, hmodem, hvariant, hnext⟩

theorem region_saved
    (haccepted : (handleSave portal form opened writeDevices writeConfig state).2 = none) :
    (saved portal form opened writeDevices writeConfig state).region = regionOf form := by
  obtain ⟨mtNodeId, radio, -, -, hconfig⟩ := handleSave_accepted haccepted
  rw [saved, hconfig, Migration.live_save]
  rfl

end Accepted

/-! ## A stock bridge -/

/-- A stock build without devices.  Its forms have the floats 125 and 906.875, and words of
positive floats are ordered as the floats are. -/
def stockPortal : Portal where
  flags := Migration.stockFlags
  floats :=
    { toFloat := fun text => if text = ['1', '2', '5'] then 0x42FA0000 else 0x4462B800
      lt := fun v w => decide (v < w)
      sub := fun v w => if v = w then 0 else 0x7F800000
      neg := id }
  base64 := Base64Coder.coder
  lwEncode := false

def stockState : State where
  config := ⟨none, loadDefaults Migration.stockFlags⟩
  lorawan := LoRaWANConfig.boot ⟨none, fun _ => 0⟩

/-- A radio on the channel `A`. -/
def fieldsOf (proto channelKey : Text) (routeTo : Radio → Text) : Fields where
  proto := proto
  channelName := ['A']
  channelKey := channelKey
  freq := ['9', '0', '6', '.', '8', '7', '5']
  tx := ['2', '0']
  bw := ['1', '2', '5']
  sf := ['8']
  cr := ['5']
  sync := []
  preset := ['5']
  lwreg := []
  routeTo := routeTo

def radiosForm (radio : Radio → Fields) : Form where
  mtNodeId := ['b', '1', '6', 'b', '0', '0', 'b', '5']
  mtNodeIdStr := ['!', 'b', '1', '6', 'b', '0', '0', 'b', '5']
  mtLongName := ['A']
  mtShortName := ['A']
  region := ['1']
  positionEnabled := []
  telemetryEnabled := []
  radio := radio
  device _ := ⟨[], [], [], [], [], [], [], []⟩

/-- R1 has a protocol and a key, the other radios are off. -/
def r1Form (proto channelKey : Text) : Form :=
  radiosForm fun i => if i.val = 0 then fieldsOf proto channelKey fun _ => []
    else fieldsOf ['0'] [] fun _ => []

/-- What the stock bridge keeps of a form. -/
abbrev stored (form : Form) : PersistedV5 :=
  saved stockPortal form true .confirmed .confirmed stockState

end LoraBridge.ConfigForm
