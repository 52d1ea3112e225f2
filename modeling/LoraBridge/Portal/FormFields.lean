import LoraBridge.Portal.ConfigForm
import LoraBridge.Portal.DeviceRoundTrip

/-!
# What the fields of a configuration form ask for

Which fields are in order, and what the live configuration and the devices hold when a form
asks for nothing new, each said of the submitted fields.
-/

namespace LoraBridge.FormFields

open LoraBridge.Base64 LoraBridge.BridgeConfig LoraBridge.CharArray LoraBridge.ConfigForm
open LoraBridge.FormText LoraBridge.LoRaWANConfig LoraBridge.LoRaWANDevices
open LoraBridge.Memory LoraBridge.RadioForm LoraBridge.ReserveAhead LoraBridge.SlotEdits

/-! ## One radio -/

section Radio

variable (base64 : Coder) (floats : Floats) (region : UInt8) (i : Radio) (fields : Fields)

/-- A typed modem is one of the chip's. -/
def ModemInOrder : Prop :=
  takesModem (byteOf fields.proto) = true → bwAllowed floats (floats.toFloat fields.bw) = true ∧
    (5 ≤ byteOf fields.sf ∧ byteOf fields.sf ≤ 12) ∧
      5 ≤ byteOf fields.cr ∧ byteOf fields.cr ≤ 8

/-- The sync word, the name and the key are what the protocol needs. -/
structure ChannelInOrder : Prop where
  sync : byteOf fields.proto = PROTO_CUSTOM → isHexString (trim fields.sync) 2 = true
  name : byteOf fields.proto = PROTO_MT ∨ byteOf fields.proto = PROTO_MC →
    trim fields.channelName ≠ []
  psk : byteOf fields.proto = PROTO_MT → trim fields.channelKey = [] ∨
    pskAccepted base64 (trim fields.channelKey) = true
  key : byteOf fields.proto = PROTO_MC →
    isHexString (toLower (trim fields.channelKey)) 32 = true

/-- The fields of an active radio are in order. -/
structure ActiveInOrder : Prop where
  frequency : floats.lt (floats.toFloat fields.freq) SX1262_FREQ_MIN = false ∧
    floats.lt SX1262_FREQ_MAX (floats.toFloat fields.freq) = false
  modem : ModemInOrder floats fields
  channel : ChannelInOrder base64 fields

/-- No field of the radio is rejected. -/
def RadioInOrder : Prop :=
  byteOf fields.proto ≠ PROTO_NONE → ActiveInOrder base64 floats fields

/-- The bandwidth, spreading factor and coding rate of the fields: typed, of a preset, or
what Reticulum's branch gives an unknown protocol. -/
def modemAsked : Modem :=
  if takesModem (byteOf fields.proto) then
    ⟨floats.toFloat fields.bw, byteOf fields.sf, byteOf fields.cr⟩
  else if byteOf fields.proto = PROTO_MT then modemPresetParams (byteOf fields.preset)
  else ⟨0x437A0000, 11, 5⟩

def syncAsked : UInt8 :=
  if byteOf fields.proto = PROTO_CUSTOM then (strtoul16 (trim fields.sync)).toUInt8
  else if byteOf fields.proto = PROTO_MT then 0x2B
  else if byteOf fields.proto = PROTO_MC then 0x12
  else if byteOf fields.proto = PROTO_LORAWAN then 0x34
  else 0x42

/-- MeshCore keys are put in lower case, LoRaWAN has none. -/
def keyAsked : Text :=
  if byteOf fields.proto = PROTO_MC then toLower (trim fields.channelKey)
  else if byteOf fields.proto = PROTO_LORAWAN then []
  else trim fields.channelKey

/-- A region that is out of range counts as none. -/
def lwRegionAsked : UInt8 :=
  if LW_REGION_EU868 < byteOf fields.lwreg then LW_REGION_UNSET else byteOf fields.lwreg

/-- The slot of an active radio holds what the fields ask for. -/
structure ActiveStored (slot : RadioSlot) : Prop where
  protocol : slot.protocol = byteOf fields.proto
  frequency : slot.frequency = floats.toFloat fields.freq
  bandwidth : slot.bandwidth = (modemAsked floats fields).bw
  sf : slot.sf = (modemAsked floats fields).sf
  cr : slot.cr = (modemAsked floats fields).cr
  syncWord : slot.syncWord = syncAsked fields
  txPower : slot.txPower = Int8.ofInt (txPowerOf region fields)
  lwRegion : byteOf fields.proto = PROTO_LORAWAN → slot.lwRegion = lwRegionAsked fields
  routeMask : slot.routeMask = routeMaskOf i fields
  channelName : slot.channelName =
    copyStr RADIO_CHANNEL_NAME_MAX (bytesOf (trim fields.channelName))
  channelKey : slot.channelKey = copyStr RADIO_CHANNEL_KEY_MAX (bytesOf (keyAsked fields))

/-- The radio's slot holds what the fields ask for: a radio that is off asks for that alone. -/
def RadioStored (slot : RadioSlot) : Prop :=
  (byteOf fields.proto = PROTO_NONE → slot.protocol = PROTO_NONE) ∧
    (byteOf fields.proto ≠ PROTO_NONE → ActiveStored floats region i fields slot)

end Radio

section Radio

variable {base64 : Coder} {floats : Floats} {region : UInt8} {i : Radio} {fields : Fields}
  {slot next : RadioSlot}

/-- The modem in front of the branches of the protocols. -/
theorem modemOf_of_inOrder (horder : ModemInOrder floats fields) :
    modemOf floats (byteOf fields.proto) fields =
      .ok (if takesModem (byteOf fields.proto) then
        ⟨floats.toFloat fields.bw, byteOf fields.sf, byteOf fields.cr⟩
      else ⟨0x437A0000, 11, 5⟩) := by
  unfold modemOf
  by_cases htyped : takesModem (byteOf fields.proto) = true
  · obtain ⟨hbw, hsf, hcr⟩ := horder htyped
    rw [← UInt8.not_lt, ← UInt8.not_lt, ← not_or] at hsf hcr
    rw [if_pos htyped, if_pos htyped]
    dsimp only
    rw [hbw, Bool.not_true, if_neg Bool.false_ne_true, if_neg hsf, if_neg hcr]
  · rw [if_neg htyped, if_neg htyped]

theorem modemInOrder_of_ok {modem : Modem}
    (hok : modemOf floats (byteOf fields.proto) fields = .ok modem) :
    ModemInOrder floats fields := by
  intro htyped
  obtain ⟨rfl, hbw, hsf, hcr⟩ := modemOf_typed htyped hok
  exact ⟨hbw, hsf, hcr⟩

/-- The branch of the protocol. -/
theorem variantOf_of_inOrder (horder : ChannelInOrder base64 fields) (modem : Modem)
    (lwRegion : UInt8) :
    variantOf base64 (byteOf fields.proto) fields modem lwRegion =
      .ok ⟨if byteOf fields.proto = PROTO_MT then modemPresetParams (byteOf fields.preset)
          else modem, syncAsked fields, keyAsked fields,
        if byteOf fields.proto = PROTO_LORAWAN then lwRegionAsked fields else lwRegion⟩ := by
  obtain ⟨hsync, hname, hpsk, hkey⟩ := horder
  unfold variantOf syncAsked keyAsked
  generalize byteOf fields.proto = proto at *
  dsimp only
  by_cases hcustom : proto = PROTO_CUSTOM
  · subst hcustom
    rw [if_pos rfl, hsync rfl, Bool.not_true, if_neg Bool.false_ne_true]
    rfl
  · rw [if_neg hcustom, if_neg hcustom]
    by_cases hmeshtastic : proto = PROTO_MT
    · subst hmeshtastic
      have hlength : (trim fields.channelName).length ≠ 0 :=
        fun hzero => hname (.inl rfl) (List.eq_nil_of_length_eq_zero hzero)
      have haccepted : ¬ (0 < (trim fields.channelKey).length ∧
          !pskAccepted base64 (trim fields.channelKey)) := by
        rcases hpsk rfl with hblank | hpsk
        · simp [hblank]
        · simp [hpsk]
      rw [if_pos rfl, if_pos rfl, if_neg hlength, if_neg haccepted]
      rfl
    · rw [if_neg hmeshtastic, if_neg hmeshtastic, if_neg hmeshtastic]
      by_cases hmeshcore : proto = PROTO_MC
      · subst hmeshcore
        have hlength : (trim fields.channelName).length ≠ 0 :=
          fun hzero => hname (.inr rfl) (List.eq_nil_of_length_eq_zero hzero)
        rw [if_pos rfl, if_pos rfl, if_pos rfl, if_neg hlength, hkey rfl,
          Bool.not_true, if_neg Bool.false_ne_true]
        rfl
      · rw [if_neg hmeshcore, if_neg hmeshcore, if_neg hmeshcore]
        by_cases hlorawan : proto = PROTO_LORAWAN
        · rw [if_pos hlorawan, if_pos hlorawan, if_pos hlorawan, if_pos hlorawan]
          rfl
        · rw [if_neg hlorawan, if_neg hlorawan, if_neg hlorawan, if_neg hlorawan]

section Variant

variable {modem : Modem} {lwRegion : UInt8} {variant : Variant}

theorem sync_of_variantOf
    (hok : variantOf base64 PROTO_CUSTOM fields modem lwRegion = .ok variant) :
    isHexString (trim fields.sync) 2 = true := by
  unfold variantOf at hok
  dsimp only at hok
  rw [if_pos rfl] at hok
  split at hok
  · cases hok
  · rename_i hsync
    simpa using hsync

theorem psk_of_variantOf
    (hok : variantOf base64 PROTO_MT fields modem lwRegion = .ok variant) :
    trim fields.channelName ≠ [] ∧
      (trim fields.channelKey = [] ∨ pskAccepted base64 (trim fields.channelKey) = true) := by
  unfold variantOf at hok
  dsimp only at hok
  rw [if_neg (by decide), if_pos rfl] at hok
  split at hok
  · cases hok
  rename_i hname
  split at hok
  · cases hok
  rename_i hpsk
  refine ⟨fun hempty => hname (congrArg List.length hempty), ?_⟩
  rw [not_and_or, Nat.pos_iff_ne_zero, not_not, List.length_eq_zero_iff] at hpsk
  simpa using hpsk

theorem key_of_variantOf
    (hok : variantOf base64 PROTO_MC fields modem lwRegion = .ok variant) :
    trim fields.channelName ≠ [] ∧
      isHexString (toLower (trim fields.channelKey)) 32 = true := by
  unfold variantOf at hok
  dsimp only at hok
  rw [if_neg (by decide), if_neg (by decide), if_pos rfl] at hok
  split at hok
  · cases hok
  rename_i hname
  split at hok
  · cases hok
  rename_i hkey
  exact ⟨fun hempty => hname (congrArg List.length hempty), by simpa using hkey⟩

theorem channelInOrder_of_ok
    (hok : variantOf base64 (byteOf fields.proto) fields modem lwRegion = .ok variant) :
    ChannelInOrder base64 fields := by
  constructor
  · intro hproto
    rw [hproto] at hok
    exact sync_of_variantOf hok
  · rintro (hproto | hproto)
    · rw [hproto] at hok
      exact (psk_of_variantOf hok).1
    · rw [hproto] at hok
      exact (key_of_variantOf hok).1
  · intro hproto
    rw [hproto] at hok
    exact (psk_of_variantOf hok).2
  · intro hproto
    rw [hproto] at hok
    exact (key_of_variantOf hok).2

/-- A branch is passed by a channel that is in order, and gives what its fields ask for. -/
theorem variantOf_eq_ok_iff :
    variantOf base64 (byteOf fields.proto) fields modem lwRegion = .ok variant ↔
      ChannelInOrder base64 fields ∧
        variant = ⟨if byteOf fields.proto = PROTO_MT then modemPresetParams (byteOf fields.preset)
            else modem, syncAsked fields, keyAsked fields,
          if byteOf fields.proto = PROTO_LORAWAN then lwRegionAsked fields else lwRegion⟩ := by
  constructor
  · intro hok
    have horder := channelInOrder_of_ok hok
    rw [variantOf_of_inOrder horder] at hok
    exact ⟨horder, (Except.ok.inj hok).symm⟩
  · rintro ⟨horder, rfl⟩
    exact variantOf_of_inOrder horder modem lwRegion

end Variant

/-- The slot as the fields ask for it. -/
def askedSlot (floats : Floats) (region : UInt8) (i : Radio) (fields : Fields)
    (slot : RadioSlot) : RadioSlot :=
  if byteOf fields.proto = PROTO_NONE then { slot with protocol := PROTO_NONE }
  else activeSlot floats region i fields ⟨modemAsked floats fields, syncAsked fields,
    keyAsked fields,
    if byteOf fields.proto = PROTO_LORAWAN then lwRegionAsked fields else slot.lwRegion⟩

/-- A preset is Meshtastic's, which types no modem. -/
theorem modemAsked_eq (floats : Floats) (fields : Fields) :
    modemAsked floats fields =
      if byteOf fields.proto = PROTO_MT then modemPresetParams (byteOf fields.preset)
      else if takesModem (byteOf fields.proto) then
        ⟨floats.toFloat fields.bw, byteOf fields.sf, byteOf fields.cr⟩
      else ⟨0x437A0000, 11, 5⟩ := by
  unfold modemAsked
  by_cases hmeshtastic : byteOf fields.proto = PROTO_MT
  · have huntyped : takesModem (byteOf fields.proto) = false := by
      rw [hmeshtastic]
      rfl
    rw [huntyped, if_neg Bool.false_ne_true, if_pos hmeshtastic, if_pos hmeshtastic]
  · rw [if_neg hmeshtastic, if_neg hmeshtastic]

theorem applyRadio_of_inOrder (horder : RadioInOrder base64 floats fields) :
    applyRadio base64 floats region i fields slot =
      .ok (askedSlot floats region i fields slot) := by
  unfold applyRadio askedSlot
  dsimp only [bind, Except.bind, pure, Except.pure]
  by_cases hnone : byteOf fields.proto = PROTO_NONE
  · rw [if_pos hnone, if_pos hnone]
  · obtain ⟨⟨hlow, hhigh⟩, hmodem, hchannel⟩ := horder hnone
    have hband : ¬ (floats.lt (floats.toFloat fields.freq) SX1262_FREQ_MIN = true ∨
        floats.lt SX1262_FREQ_MAX (floats.toFloat fields.freq) = true) := by
      simp [hlow, hhigh]
    rw [if_neg hnone, if_neg hnone, if_neg hband, modemOf_of_inOrder hmodem]
    dsimp only
    rw [variantOf_of_inOrder hchannel, modemAsked_eq]

theorem radioInOrder_of_ok (hok : applyRadio base64 floats region i fields slot = .ok next) :
    RadioInOrder base64 floats fields := by
  intro hactive
  obtain ⟨modem, variant, hmodem, hvariant, -⟩ := applyRadio_active hactive hok
  refine ⟨?_, modemInOrder_of_ok hmodem, (variantOf_eq_ok_iff.mp hvariant).1⟩
  unfold applyRadio at hok
  dsimp only [bind, Except.bind, pure, Except.pure] at hok
  rw [if_neg hactive] at hok
  split at hok
  · cases hok
  rename_i hband
  simpa [not_or] using hband

theorem applyRadio_accepts_iff :
    (∃ next, applyRadio base64 floats region i fields slot = .ok next) ↔
      RadioInOrder base64 floats fields := by
  constructor
  · rintro ⟨next, hok⟩
    exact radioInOrder_of_ok hok
  · intro horder
    exact ⟨_, applyRadio_of_inOrder horder⟩

theorem askedSlot_eq_self_iff :
    askedSlot floats region i fields slot = slot ↔ RadioStored floats region i fields slot := by
  unfold askedSlot RadioStored
  by_cases hnone : byteOf fields.proto = PROTO_NONE
  · rw [if_pos hnone]
    constructor
    · intro hsame
      exact ⟨fun _ => (congrArg RadioSlot.protocol hsame).symm, fun hactive => absurd hnone hactive⟩
    · intro hstored
      rw [← hstored.1 hnone]
  · rw [if_neg hnone]
    constructor
    · intro hsame
      refine ⟨fun hoff => absurd hoff hnone, fun _ => ?_⟩
      have hfield : ∀ {Value : Type} (field : RadioSlot → Value), field slot =
          field (activeSlot floats region i fields ⟨modemAsked floats fields, syncAsked fields,
            keyAsked fields, if byteOf fields.proto = PROTO_LORAWAN then lwRegionAsked fields
              else slot.lwRegion⟩) := fun field => (congrArg field hsame).symm
      refine ⟨hfield RadioSlot.protocol, hfield RadioSlot.frequency, hfield RadioSlot.bandwidth,
        hfield RadioSlot.sf, hfield RadioSlot.cr, hfield RadioSlot.syncWord,
        hfield RadioSlot.txPower, fun hlorawan => ?_, hfield RadioSlot.routeMask,
        hfield RadioSlot.channelName, hfield RadioSlot.channelKey⟩
      have hregion := hfield RadioSlot.lwRegion
      rwa [activeSlot, if_pos hlorawan] at hregion
    · intro hstored
      obtain ⟨hprotocol, hfrequency, hbandwidth, hsf, hcr, hsync, hpower, hregion, hmask, hname,
        hkey⟩ := hstored.2 hnone
      have hlwRegion : (if byteOf fields.proto = PROTO_LORAWAN then lwRegionAsked fields
          else slot.lwRegion) = slot.lwRegion := by
        split
        · rename_i hlorawan
          exact (hregion hlorawan).symm
        · rfl
      unfold activeSlot
      rw [hlwRegion, ← hprotocol, ← hfrequency, ← hbandwidth, ← hsf, ← hcr, ← hsync, ← hpower,
        ← hmask, ← hname, ← hkey]

/-- A radio that is in order keeps its slot exactly when the slot holds what it asks for. -/
theorem applyRadio_eq_self_iff (horder : RadioInOrder base64 floats fields) :
    applyRadio base64 floats region i fields slot = .ok slot ↔
      RadioStored floats region i fields slot := by
  rw [applyRadio_of_inOrder horder, Except.ok.injEq, askedSlot_eq_self_iff]

end Radio

/-! ## The radios together -/

section Radios

/-- What a slot keeps of the name and of the key. -/
def nameKept (fields : Fields) : List UInt8 :=
  (cString (bytesOf (trim fields.channelName))).take RADIO_CHANNEL_NAME_MAX

def keyKept (fields : Fields) : List UInt8 :=
  (cString (bytesOf (keyAsked fields))).take RADIO_CHANNEL_KEY_MAX

/-- The form routes radio `i` to radio `j`, both Meshtastic or both MeshCore, on one frequency
and with one name and one key. -/
def LoopsBack (floats : Floats) (form : Form) (i j : Radio) : Prop :=
  (byteOf (form.radio i).proto = PROTO_MT ∨ byteOf (form.radio i).proto = PROTO_MC) ∧
    j ≠ i ∧ (form.radio i).routeTo j = ['1'] ∧
    byteOf (form.radio j).proto = byteOf (form.radio i).proto ∧
    near floats (floats.toFloat (form.radio i).freq) (floats.toFloat (form.radio j).freq) ∧
    nameKept (form.radio i) = nameKept (form.radio j) ∧
    keyKept (form.radio i) = keyKept (form.radio j)

/-- No radio is rejected, one has a protocol, and none loops back to another. -/
structure RadiosInOrder (base64 : Coder) (floats : Floats) (form : Form) : Prop where
  radio : ∀ i, RadioInOrder base64 floats (form.radio i)
  active : ∃ i, byteOf (form.radio i).proto ≠ PROTO_NONE
  noLoop : ∀ i j, ¬ LoopsBack floats form i j

/-- A ticked box is a bit of the mask, but for the radio's own. -/
theorem routes_routeMaskOf (i j : Radio) (fields : Fields) :
    routes (routeMaskOf i fields) j = true ↔ j ≠ i ∧ fields.routeTo j = ['1'] := by
  have htable : ∀ (i j : Radio) (ticked : Radio → Bool),
      routes ((List.finRange NUM_RADIOS).foldl (fun mask j => if j = i then mask
        else if ticked j then mask ||| (1 : UInt8) <<< UInt8.ofNat j.val else mask) 0) j =
          decide (j ≠ i ∧ ticked j = true) := by
    decide +kernel
  have hradio := htable i j fun j => decide (fields.routeTo j = ['1'])
  simp only [decide_eq_true_eq] at hradio
  rw [routeMaskOf, hradio, decide_eq_true_eq]

variable {base64 : Coder} {floats : Floats} {region : UInt8} {form : Form}

theorem askedSlot_protocol (i : Radio) (fields : Fields) (slot : RadioSlot) :
    (askedSlot floats region i fields slot).protocol = byteOf fields.proto := by
  unfold askedSlot
  split
  · rename_i hnone
    exact hnone.symm
  · rfl

theorem askedSlot_of_active (floats : Floats) (region : UInt8) (i : Radio) (slot : RadioSlot)
    {fields : Fields} (hactive : byteOf fields.proto ≠ PROTO_NONE) :
    (askedSlot floats region i fields slot).routeMask = routeMaskOf i fields ∧
      (askedSlot floats region i fields slot).frequency = floats.toFloat fields.freq ∧
      (askedSlot floats region i fields slot).channelName.text = nameKept fields ∧
      (askedSlot floats region i fields slot).channelKey.text = keyKept fields := by
  unfold askedSlot
  rw [if_neg hactive]
  exact ⟨rfl, rfl, text_copyStr _ _, text_copyStr _ _⟩

/-- The guard looks at what the form asks for. -/
theorem selfBridge_asked_iff (slot : Radio → RadioSlot) (i j : Radio) :
    selfBridge floats (fun k => askedSlot floats region k (form.radio k) (slot k)) i j = true ↔
      LoopsBack floats form i j := by
  rw [selfBridge, decide_eq_true_eq, LoopsBack, askedSlot_protocol, askedSlot_protocol]
  refine and_congr_right fun hmesh => and_congr_right fun hne => ?_
  have hactive : byteOf (form.radio i).proto ≠ PROTO_NONE := by
    rcases hmesh with hproto | hproto <;> rw [hproto] <;> decide
  obtain ⟨hmask, hfreq, hname, hkey⟩ := askedSlot_of_active floats region i (slot i) hactive
  rw [hmask, hfreq, hname, hkey, routes_routeMaskOf, and_iff_right hne]
  refine and_congr_right fun _ => and_congr_right fun hproto => ?_
  obtain ⟨-, hfreq', hname', hkey'⟩ := askedSlot_of_active floats region j (slot j)
    (hproto.trans_ne hactive)
  rw [hfreq', hname', hkey']

theorem selfBridgePair_eq_none_iff (floats : Floats) (radio : Radio → RadioSlot) :
    selfBridgePair floats radio = none ↔ ∀ i j, ¬ selfBridge floats radio i j = true := by
  simp only [selfBridgePair, List.findSome?_eq_none_iff, Option.map_eq_none_iff,
    List.find?_eq_none, List.mem_finRange, true_imp_iff]

/-- The checks of the radios together, on what the form asks for. -/
theorem radiosError_asked_iff (region : UInt8) (slot : Radio → RadioSlot) :
    radiosError floats (fun k => askedSlot floats region k (form.radio k) (slot k)) = none ↔
      (∃ i, byteOf (form.radio i).proto ≠ PROTO_NONE) ∧ ∀ i j, ¬ LoopsBack floats form i j := by
  have hguard := selfBridgePair_eq_none_iff floats fun k =>
    askedSlot floats region k (form.radio k) (slot k)
  simp only [selfBridge_asked_iff] at hguard
  simp only [radiosError, askedSlot_protocol]
  by_cases hnone : ∀ i, byteOf (form.radio i).proto = PROTO_NONE
  · rw [if_pos hnone]
    exact iff_of_false (Option.some_ne_none _) fun hboth => hboth.1.elim fun i hi => hi (hnone i)
  · rw [if_neg hnone, Option.map_eq_none_iff, hguard, ← not_forall]
    exact (and_iff_right hnone).symm

end Radios

/-! ## The fields of the bridge -/

section Bridge

variable (form : Form)

/-- The digits of the node id. -/
def idDigits : Text := stripHexMark (trim form.mtNodeId)

/-- The two spellings of the node id are in order and agree, and the node has names. -/
structure IdentityInOrder : Prop where
  id : isHexString (idDigits form) 8 = true
  str : (trim form.mtNodeIdStr).length = 9 ∧ (trim form.mtNodeIdStr).head? = some '!' ∧
    isHexString (trim form.mtNodeIdStr).tail 8 = true
  same : strtoul16 (trim form.mtNodeIdStr).tail = strtoul16 (idDigits form)
  names : form.mtLongName ≠ [] ∧ form.mtShortName ≠ []

/-- The bridge has the identity, the region and the two switches of the form. -/
structure BridgeStored (cfg : PersistedV5) : Prop where
  mtNodeId : cfg.mtNodeId = strtoul16 (idDigits form)
  mtNodeIdStr : cfg.mtNodeIdStr =
    copyStr MT_NODE_ID_STR_MAX (bytesOf (trim form.mtNodeIdStr))
  mtLongName : cfg.mtLongName = copyStr MT_LONG_NAME_MAX (bytesOf form.mtLongName)
  mtShortName : cfg.mtShortName = copyStr MT_SHORT_NAME_MAX (bytesOf form.mtShortName)
  region : cfg.region = regionOf form
  positionEnabled : cfg.positionEnabled = if form.positionEnabled = ['1'] then 1 else 0
  telemetryEnabled : cfg.telemetryEnabled = if form.telemetryEnabled = ['1'] then 1 else 0

end Bridge

section Bridge

variable {form : Form} {cfg : PersistedV5} {mtNodeId : UInt32}

theorem mtNodeIdOf_eq_ok_iff :
    mtNodeIdOf form = .ok mtNodeId ↔
      IdentityInOrder form ∧ mtNodeId = strtoul16 (idDigits form) := by
  constructor
  · intro hok
    unfold mtNodeIdOf at hok
    dsimp only [bind, Except.bind, pure, Except.pure] at hok
    split at hok
    · cases hok
    rename_i hid
    split at hok
    · cases hok
    rename_i hstr
    split at hok
    · cases hok
    rename_i hsame
    split at hok
    · cases hok
    rename_i hnames
    rw [Bool.not_eq_true', Bool.not_eq_false] at hid
    simp only [ne_eq, Bool.not_eq_true', not_or, not_not, Bool.not_eq_false] at hstr
    rw [not_or, List.length_eq_zero_iff, List.length_eq_zero_iff] at hnames
    exact ⟨⟨hid, hstr, not_not.mp hsame, hnames⟩, (Except.ok.inj hok).symm⟩
  · rintro ⟨⟨hid, hstr, hsame, hnames⟩, rfl⟩
    unfold idDigits at hid hsame ⊢
    simp [mtNodeIdOf, hid, hstr, hsame, hnames, pure, Except.pure]

theorem commit_eq_self_iff :
    commit form (strtoul16 (idDigits form)) cfg = cfg ↔ BridgeStored form cfg := by
  constructor
  · intro hsame
    have hfield : ∀ {Value : Type} (field : PersistedV5 → Value), field cfg =
        field (commit form (strtoul16 (idDigits form)) cfg) :=
      fun field => (congrArg field hsame).symm
    exact ⟨hfield PersistedV5.mtNodeId, hfield PersistedV5.mtNodeIdStr,
      hfield PersistedV5.mtLongName, hfield PersistedV5.mtShortName, hfield PersistedV5.region,
      hfield PersistedV5.positionEnabled, hfield PersistedV5.telemetryEnabled⟩
  · rintro ⟨hid, hstr, hlong, hshort, hregion, hposition, htelemetry⟩
    unfold commit
    rw [← hid, ← hstr, ← hlong, ← hshort, ← hregion, ← hposition, ← htelemetry]

end Bridge

/-! ## One device -/

section Device

variable (form : DeviceForm)

/-- The source selector of a device. -/
def selAsked : UInt8 := UInt8.ofNat ((toInt form.sel) % 2 ^ 8).toNat

/-- The number of a match value, as 32 bits. -/
def matchNumber : UInt32 := UInt32.ofNat ((toInt (trim form.match)) % 2 ^ 32).toNat

/-- The digits of a match value. -/
def matchDigits : Text := stripHexMark (trim form.match)

/-- The digits of a device address. -/
def addrDigits : Text := stripHexMark (trim form.addr)

/-- The fields of an enabled device are in order. -/
structure EnabledInOrder : Prop where
  node : selAsked form = SRC_MT_NODE → isHexString (matchDigits form) 8 = true
  proto : selAsked form = SRC_PROTO → 1 ≤ matchNumber form ∧ matchNumber form ≤ 4
  addr : isHexString (addrDigits form) 8 = true
  nwk : (lwHexToBytes (trim form.nwk) 16).isSome = true
  app : (lwHexToBytes (trim form.app) 16).isSome = true
  port : 1 ≤ toInt form.port ∧ toInt form.port ≤ 223

/-- No field of the device is rejected. -/
def DeviceInOrder : Prop := form.en = ['1'] → EnabledInOrder form

/-- The match value of the fields; other selectors have none. -/
def matchAsked : UInt32 :=
  if selAsked form = SRC_MT_NODE then strtoul16 (matchDigits form)
  else if selAsked form = SRC_PROTO then matchNumber form
  else 0

/-- The slot of an enabled device holds what the fields ask for. -/
structure EnabledStored (d : Device) : Prop where
  inUse : d.inUse = 1
  srcSel : d.srcSel = selAsked form
  fport : d.fport = UInt8.ofNat (toInt form.port).toNat
  flags : d.flags = if form.tag = ['1'] then FLAG_TAG_SRC else 0
  srcMatch : d.srcMatch = matchAsked form
  devAddr : d.devAddr = strtoul16 (addrDigits form)
  nwkSKey : lwHexToBytes (trim form.nwk) 16 = some d.nwkSKey
  appSKey : lwHexToBytes (trim form.app) 16 = some d.appSKey

/-- The slot holds what the fields ask for: a box that is not ticked asks for an empty slot with
a new counter. -/
def DeviceStored (d : Device) (counter : Counter) : Prop :=
  (form.en ≠ ['1'] → d = Device.empty ∧ counter = resume 0) ∧
    (form.en = ['1'] → EnabledStored form d)

end Device

section Device

variable {form : DeviceForm} {d : Device}

theorem srcMatchOf_eq_ok_iff {srcMatch : UInt32} :
    srcMatchOf (selAsked form) form = .ok srcMatch ↔
      (selAsked form = SRC_MT_NODE → isHexString (matchDigits form) 8 = true) ∧
      (selAsked form = SRC_PROTO → 1 ≤ matchNumber form ∧ matchNumber form ≤ 4) ∧
      srcMatch = matchAsked form := by
  unfold srcMatchOf matchAsked
  dsimp only
  rw [← matchDigits, ← matchNumber]
  constructor
  · intro hok
    split at hok
    · rename_i hnode
      have hproto : selAsked form ≠ SRC_PROTO := by
        rw [hnode]
        decide
      split at hok
      · rename_i hdigits
        rw [if_pos hnode]
        exact ⟨fun _ => hdigits, fun hother => absurd hother hproto, (Except.ok.inj hok).symm⟩
      · cases hok
    · rename_i hnode
      rw [if_neg hnode]
      split at hok
      · rename_i hproto
        rw [if_pos hproto]
        split at hok
        · cases hok
        rename_i hrange
        rw [not_or, UInt32.not_lt, UInt32.not_lt] at hrange
        exact ⟨fun hother => absurd hother hnode, fun _ => hrange, (Except.ok.inj hok).symm⟩
      · rename_i hproto
        rw [if_neg hproto]
        exact ⟨fun hother => absurd hother hnode, fun hother => absurd hother hproto,
          (Except.ok.inj hok).symm⟩
  · rintro ⟨hnode, hproto, rfl⟩
    split
    · rename_i hsel
      rw [if_pos (hnode hsel)]
    · split
      · rename_i hsel
        have hrange := hproto hsel
        rw [← UInt32.not_lt, ← UInt32.not_lt, ← not_or] at hrange
        rw [if_neg hrange]
      · rfl

/-- The device of an enabled form is what its fields ask for. -/
theorem deviceOf_eq_ok_iff_stored :
    deviceOf form = .ok d ↔ EnabledInOrder form ∧ EnabledStored form d := by
  rw [DeviceRoundTrip.deviceOf_eq_ok_iff]
  constructor
  · rintro ⟨hinUse, hsel, hmatch, haddr, hdevAddr, hnwk, happ, hport, hfport, hflags⟩
    obtain ⟨hnode, hproto, hsrcMatch⟩ := srcMatchOf_eq_ok_iff.mp (hsel ▸ hmatch)
    exact ⟨⟨hnode, hproto, haddr, Option.isSome_of_eq_some hnwk, Option.isSome_of_eq_some happ,
      hport⟩, hinUse, hsel, hfport, hflags, hsrcMatch, hdevAddr, hnwk, happ⟩
  · rintro ⟨⟨hnode, hproto, haddr, -, -, hport⟩, hinUse, hsel, hfport, hflags, hsrcMatch,
      hdevAddr, hnwk, happ⟩
    have hmatch := srcMatchOf_eq_ok_iff.mpr ⟨hnode, hproto, hsrcMatch⟩
    rw [← hsel] at hmatch
    exact ⟨hinUse, hsel, hmatch, haddr, hdevAddr, hnwk, happ, hport, hfport, hflags⟩

/-- A device that is in order is accepted. -/
theorem deviceOf_accepts_iff : (∃ d, deviceOf form = .ok d) ↔ EnabledInOrder form := by
  constructor
  · rintro ⟨d, hd⟩
    exact (deviceOf_eq_ok_iff_stored.mp hd).1
  · intro horder
    obtain ⟨nwkSKey, hnwk⟩ := Option.isSome_iff_exists.mp horder.nwk
    obtain ⟨appSKey, happ⟩ := Option.isSome_iff_exists.mp horder.app
    exact ⟨⟨1, selAsked form, UInt8.ofNat (toInt form.port).toNat,
      if form.tag = ['1'] then FLAG_TAG_SRC else 0, matchAsked form, strtoul16 (addrDigits form),
      nwkSKey, appSKey⟩, deviceOf_eq_ok_iff_stored.mpr
        ⟨horder, rfl, rfl, rfl, rfl, rfl, rfl, hnwk, happ⟩⟩

end Device

end LoraBridge.FormFields
