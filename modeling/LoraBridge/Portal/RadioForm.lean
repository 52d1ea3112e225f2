import LoraBridge.Config.BridgeConfig
import LoraBridge.Core.Base64
import LoraBridge.Portal.FormText

/-!
# The radios of the configuration form

`applyRadio`: what the portal makes of the fields of one radio.  It checks all of them before
it calls a setter, so that it is an edit of the radio's slot.
-/

namespace LoraBridge.RadioForm

open LoraBridge.Base64 LoraBridge.BridgeConfig LoraBridge.CharArray LoraBridge.FormText

/-- The float operations of the handlers, on 32-bit words. -/
structure Floats where
  toFloat : Text → UInt32
  lt : UInt32 → UInt32 → Bool
  sub : UInt32 → UInt32 → UInt32
  neg : UInt32 → UInt32

/-- `fabsf`. -/
def fabsf (v : UInt32) : UInt32 := v &&& 0x7FFFFFFF

def SX1262_FREQ_MIN : UInt32 := 0x43160000

def SX1262_FREQ_MAX : UInt32 := 0x44700000

def SX1262_TX_MIN : ℤ := -9

def SX1262_TX_MAX : ℤ := 22

/-- 7.8, 10.4, 15.6, 20.8, 31.25, 41.7, 62.5, 125, 250 and 500 kHz. -/
def ALLOWED_BW : List UInt32 :=
  [0x40F9999A, 0x41266666, 0x4179999A, 0x41A66666, 0x41FA0000, 0x4226CCCD, 0x427A0000,
    0x42FA0000, 0x437A0000, 0x43FA0000]

/-- Within 0.05 kHz of one of them. -/
def bwAllowed (floats : Floats) (bw : UInt32) : Bool :=
  ALLOWED_BW.any fun v => floats.lt (fabsf (floats.sub bw v)) 0x3D4CCCCD

/-! ## Regions and presets -/

/-- A row of `kRegions`, the band in kHz. -/
structure RegionInfo where
  freqStart : ℕ
  freqEnd : ℕ
  powerLimit : ℤ

def kRegions : List RegionInfo :=
  [⟨0, 0, 0⟩, ⟨902000, 928000, 30⟩, ⟨869400, 869650, 27⟩, ⟨433000, 434000, 10⟩,
    ⟨915000, 928000, 30⟩, ⟨470000, 510000, 19⟩, ⟨920500, 923500, 13⟩, ⟨865000, 867000, 30⟩,
    ⟨920000, 923000, 23⟩, ⟨868700, 869200, 20⟩, ⟨0, 0, 0⟩]

def kRegionCount : ℕ := kRegions.length

def regionInfo (region : UInt8) : RegionInfo :=
  kRegions.getD (if kRegionCount ≤ region.toNat then 0 else region.toNat) ⟨0, 0, 0⟩

def regionHasBand (region : UInt8) : Bool :=
  (regionInfo region).freqStart < (regionInfo region).freqEnd

/-- Bandwidth, spreading factor and coding rate. -/
structure Modem where
  bw : UInt32
  sf : UInt8
  cr : UInt8

def modemPresetParams (preset : UInt8) : Modem :=
  if preset = 0 then ⟨0x43FA0000, 7, 5⟩
  else if preset = 1 then ⟨0x437A0000, 7, 5⟩
  else if preset = 2 then ⟨0x437A0000, 8, 5⟩
  else if preset = 3 then ⟨0x437A0000, 9, 5⟩
  else if preset = 4 then ⟨0x437A0000, 10, 5⟩
  else if preset = 6 then ⟨0x42FA0000, 11, 8⟩
  else if preset = 7 then ⟨0x42FA0000, 12, 8⟩
  else if preset = 8 then ⟨0x43FA0000, 11, 8⟩
  else ⟨0x437A0000, 11, 5⟩

/-! ## The fields -/

/-- The arguments `r<n>proto`, `r<n>ChannelName`, … of one radio; a missing one is empty. -/
structure Fields where
  proto : Text
  channelName : Text
  channelKey : Text
  freq : Text
  tx : Text
  bw : Text
  sf : Text
  cr : Text
  sync : Text
  preset : Text
  lwreg : Text
  routeTo : Radio → Text

/-- `(uint8_t)text.toInt()`. -/
def byteOf (text : Text) : UInt8 := UInt8.ofNat ((toInt text) % 2 ^ 8).toNat

/-- The characters of a text as bytes. -/
def bytesOf (text : Text) : List UInt8 := text.map fun c => UInt8.ofNat c.toNat

/-- `toLower`. -/
def toLower (text : Text) : Text := text.map Char.toLower

/-- The protocols whose bandwidth, spreading factor and coding rate are typed. -/
def takesModem (proto : UInt8) : Bool :=
  proto = PROTO_CUSTOM ∨ proto = PROTO_MC ∨ proto = PROTO_LORAWAN ∨ proto = PROTO_RNS

def modemOf (floats : Floats) (proto : UInt8) (form : Fields) : Except String Modem :=
  if takesModem proto then
    let bw := floats.toFloat form.bw
    let sf := byteOf form.sf
    let cr := byteOf form.cr
    if !bwAllowed floats bw then .error "Bandwidth is not a valid SX1262 value."
    else if sf < 5 ∨ 12 < sf then .error "SF must be 5-12."
    else if cr < 5 ∨ 8 < cr then .error "CR must be 5-8."
    else .ok ⟨bw, sf, cr⟩
  else .ok ⟨0x437A0000, 11, 5⟩

/-- `uint8_t dec[48]`. -/
def pskAccepted (base64 : Coder) (chKey : Text) : Bool :=
  match base64.decode 48 (bytesOf chKey) with
  | some dec => dec.length = 1 ∨ dec.length = 16 ∨ dec.length = 32
  | none => false

/-- What the branch of a protocol makes of the modem, the sync word, the key and the LoRaWAN
region. -/
structure Variant where
  modem : Modem
  sync : UInt8
  chKey : Text
  lwRegion : UInt8

/-- The branches of the protocols; the last is Reticulum's. -/
def variantOf (base64 : Coder) (proto : UInt8) (form : Fields) (modem : Modem)
    (lwRegion : UInt8) : Except String Variant :=
  let chName := trim form.channelName
  let chKey := trim form.channelKey
  if proto = PROTO_CUSTOM then
    let syncStr := trim form.sync
    if !isHexString syncStr 2 then
      .error "Custom sync word must be exactly 2 hex characters."
    else .ok ⟨modem, (strtoul16 syncStr).toUInt8, chKey, lwRegion⟩
  else if proto = PROTO_MT then
    if chName.length = 0 then .error "Meshtastic channel name cannot be empty."
    else if 0 < chKey.length ∧ !pskAccepted base64 chKey then
      .error "Meshtastic PSK must be blank or base64 of 1/16/32 bytes."
    else .ok ⟨modemPresetParams (byteOf form.preset), 0x2B, chKey, lwRegion⟩
  else if proto = PROTO_MC then
    let chKey := toLower chKey
    if chName.length = 0 then .error "MeshCore channel name cannot be empty."
    else if !isHexString chKey 32 then
      .error "MeshCore channel key must be exactly 32 hex characters."
    else .ok ⟨modem, 0x12, chKey, lwRegion⟩
  else if proto = PROTO_LORAWAN then
    let lwReg := byteOf form.lwreg
    .ok ⟨modem, 0x34, [], if LW_REGION_EU868 < lwReg then LW_REGION_UNSET else lwReg⟩
  else .ok ⟨modem, 0x42, chKey, lwRegion⟩

/-- The region-aware TX power cap. -/
def txCap (region : UInt8) : ℤ :=
  if regionHasBand region ∧ (regionInfo region).powerLimit < SX1262_TX_MAX then
    (regionInfo region).powerLimit
  else SX1262_TX_MAX

def txPowerOf (region : UInt8) (form : Fields) : ℤ :=
  max (min (toInt form.tx) (txCap region)) SX1262_TX_MIN

/-- The bits of the ticked radios, without the radio itself. -/
def routeMaskOf (i : Radio) (form : Fields) : UInt8 :=
  (List.finRange NUM_RADIOS).foldl (fun mask j =>
    if j = i then mask
    else if form.routeTo j = ['1'] then mask ||| (1 : UInt8) <<< UInt8.ofNat j.val
    else mask) 0

/-- What the setters make of the slot of an active radio. -/
def activeSlot (floats : Floats) (region : UInt8) (i : Radio) (form : Fields)
    (variant : Variant) : RadioSlot where
  protocol := byteOf form.proto
  sf := variant.modem.sf
  cr := variant.modem.cr
  syncWord := variant.sync
  txPower := Int8.ofInt (txPowerOf region form)
  lwRegion := variant.lwRegion
  routeMask := routeMaskOf i form
  frequency := floats.toFloat form.freq
  bandwidth := variant.modem.bw
  channelName := copyStr RADIO_CHANNEL_NAME_MAX (bytesOf (trim form.channelName))
  channelKey := copyStr RADIO_CHANNEL_KEY_MAX (bytesOf variant.chKey)

/-- `applyRadio`: an error, or what becomes of the slot. -/
def applyRadio (base64 : Coder) (floats : Floats) (region : UInt8) (i : Radio)
    (form : Fields) (slot : RadioSlot) : Except String RadioSlot := do
  let proto := byteOf form.proto
  if proto = PROTO_NONE then return { slot with protocol := PROTO_NONE }
  let freq := floats.toFloat form.freq
  if floats.lt freq SX1262_FREQ_MIN ∨ floats.lt SX1262_FREQ_MAX freq then
    throw "Frequency out of the SX1262 range (150-960 MHz)."
  let modem ← modemOf floats proto form
  let variant ← variantOf base64 proto form modem slot.lwRegion
  return activeSlot floats region i form variant

/-! ## Accepted radios -/

section Accepted

variable {base64 : Coder} {floats : Floats} {region : UInt8} {i : Radio} {form : Fields}
  {slot next : RadioSlot}

/-- An active radio has a modem and the branch of its protocol. -/
theorem applyRadio_active (hactive : byteOf form.proto ≠ PROTO_NONE)
    (hok : applyRadio base64 floats region i form slot = .ok next) :
    ∃ modem variant, modemOf floats (byteOf form.proto) form = .ok modem ∧
      variantOf base64 (byteOf form.proto) form modem slot.lwRegion = .ok variant ∧
      next = activeSlot floats region i form variant := by
  unfold applyRadio at hok
  dsimp only [bind, Except.bind, pure, Except.pure] at hok
  rw [if_neg hactive] at hok
  split at hok
  · cases hok
  split at hok
  · cases hok
  rename_i modem hmodem
  split at hok
  · cases hok
  rename_i variant hvariant
  exact ⟨modem, variant, hmodem, hvariant, (Except.ok.inj hok).symm⟩

theorem applyRadio_none (hnone : byteOf form.proto = PROTO_NONE)
    (hok : applyRadio base64 floats region i form slot = .ok next) :
    next = { slot with protocol := PROTO_NONE } := by
  unfold applyRadio at hok
  rw [if_pos hnone] at hok
  exact (Except.ok.inj hok).symm

/-- A typed modem is in range. -/
theorem modemOf_typed {proto : UInt8} {modem : Modem} (htyped : takesModem proto = true)
    (hok : modemOf floats proto form = .ok modem) :
    modem = ⟨floats.toFloat form.bw, byteOf form.sf, byteOf form.cr⟩ ∧
      bwAllowed floats modem.bw = true ∧ (5 ≤ modem.sf ∧ modem.sf ≤ 12) ∧
      5 ≤ modem.cr ∧ modem.cr ≤ 8 := by
  unfold modemOf at hok
  rw [if_pos htyped] at hok
  dsimp only at hok
  split at hok
  · cases hok
  split at hok
  · cases hok
  split at hok
  · cases hok
  rename_i hbw hsf hcr
  rw [Bool.not_eq_true', Bool.not_eq_false] at hbw
  rw [not_or, UInt8.not_lt, UInt8.not_lt] at hsf hcr
  obtain rfl := Except.ok.inj hok
  exact ⟨rfl, hbw, hsf, hcr⟩

end Accepted

end LoraBridge.RadioForm
