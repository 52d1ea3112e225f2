import LoraBridge.Config.BridgeConfig
import LoraBridge.Core.Print

/-!
# Stored configurations of earlier versions

`BridgeConfig::begin` and `save`.  A stored blob is told apart by its size; one of an earlier
schema is copied over the defaults and stored back as the current schema.
-/

namespace LoraBridge.Migration

open LoraBridge.BridgeConfig LoraBridge.CharArray LoraBridge.Print LoraBridge.ReserveAhead

/-- A stored blob by its size; `other` has the size of no schema. -/
inductive Blob where
  | v2 (blob : PersistedV2)
  | v3 (blob : PersistedV3)
  | v4 (blob : PersistedV4)
  | v5 (blob : PersistedV5)
  | other (size : ℕ)

/-- What NVS holds, and `s_cfg`. -/
structure State where
  nvs : Option Blob
  live : PersistedV5

/-! ## The copies -/

def terminateAll (cfg : PersistedV5) : PersistedV5 :=
  { cfg with
    mtNodeIdStr := cfg.mtNodeIdStr.terminate
    mtLongName := cfg.mtLongName.terminate
    mtShortName := cfg.mtShortName.terminate
    radio := fun i => { cfg.radio i with
      channelName := (cfg.radio i).channelName.terminate
      channelKey := (cfg.radio i).channelKey.terminate } }

/-- A slot with another channel. -/
def withChannel (slot : RadioSlot) (name key : List UInt8) : RadioSlot :=
  { slot with
    channelName := copyStr RADIO_CHANNEL_NAME_MAX name
    channelKey := copyStr RADIO_CHANNEL_KEY_MAX key }

/-- The channel of a radio, chosen by its build-flag sync word. -/
def migrateV2Channel (syncWord : UInt8) (v2 : PersistedV2) (slot : RadioSlot) : RadioSlot :=
  if syncWord = 0x2B then withChannel slot v2.mtChannelName.toList v2.mtPskBase64.toList
  else if syncWord = 0x12 then withChannel slot v2.mcChannelName.toList v2.mcKeyHex.toList
  else withChannel slot [] []

/-- The branch of `begin` for schema 2. -/
def migrateV2 (flags : BuildFlags) (v2 : PersistedV2) (cfg : PersistedV5) : PersistedV5 :=
  { cfg with
    configured := v2.configured
    positionEnabled := v2.positionEnabled
    telemetryEnabled := v2.telemetryEnabled
    mtNodeId := v2.mtNodeId
    mtNodeIdStr := copyStr MT_NODE_ID_STR_MAX v2.mtNodeIdStr.toList
    mtLongName := copyStr MT_LONG_NAME_MAX v2.mtLongName.toList
    mtShortName := copyStr MT_SHORT_NAME_MAX v2.mtShortName.toList
    radio := fun
      | 0 => migrateV2Channel (flags.radio 0).syncWord v2 (cfg.radio 0)
      | 1 => migrateV2Channel (flags.radio 1).syncWord v2 (cfg.radio 1)
      | 2 => cfg.radio 2
      | 3 => cfg.radio 3 }

/-- The branch of `begin` for schema 3. -/
def migrateV3 (v3 : PersistedV3) (cfg : PersistedV5) : PersistedV5 :=
  { cfg with
    configured := v3.configured
    positionEnabled := v3.positionEnabled
    telemetryEnabled := v3.telemetryEnabled
    mtNodeId := v3.mtNodeId
    mtNodeIdStr := copyStr MT_NODE_ID_STR_MAX v3.mtNodeIdStr.toList
    mtLongName := copyStr MT_LONG_NAME_MAX v3.mtLongName.toList
    mtShortName := copyStr MT_SHORT_NAME_MAX v3.mtShortName.toList
    radio := fun
      | 0 => withChannel (cfg.radio 0) v3.r1ChannelName.toList v3.r1ChannelKey.toList
      | 1 => withChannel (cfg.radio 1) v3.r2ChannelName.toList v3.r2ChannelKey.toList
      | 2 => cfg.radio 2
      | 3 => cfg.radio 3 }

/-- The radio of an earlier version in its slot. -/
def withRf (slot : RadioSlot) (rf : RadioRfV4) (routeMask : UInt8) : RadioSlot :=
  { slot with
    protocol := rf.protocol
    sf := rf.sf
    cr := rf.cr
    syncWord := rf.syncWord
    txPower := rf.txPower
    lwRegion := rf.lwRegion
    routeMask := routeMask
    frequency := rf.frequency
    bandwidth := rf.bandwidth }

def migrateV4toV5 (v4 : PersistedV4) (cfg : PersistedV5) : PersistedV5 :=
  { cfg with
    configured := v4.configured
    positionEnabled := v4.positionEnabled
    telemetryEnabled := v4.telemetryEnabled
    region := v4.region
    mtNodeId := v4.mtNodeId
    mtNodeIdStr := copyStr MT_NODE_ID_STR_MAX v4.mtNodeIdStr.toList
    mtLongName := copyStr MT_LONG_NAME_MAX v4.mtLongName.toList
    mtShortName := copyStr MT_SHORT_NAME_MAX v4.mtShortName.toList
    radio := fun
      | 0 => withChannel (withRf (cfg.radio 0) (v4.radio 0) ((1 : UInt8) <<< 1))
          v4.r1ChannelName.toList v4.r1ChannelKey.toList
      | 1 => withChannel (withRf (cfg.radio 1) (v4.radio 1) ((1 : UInt8) <<< 0))
          v4.r2ChannelName.toList v4.r2ChannelKey.toList
      | 2 => cfg.radio 2
      | 3 => cfg.radio 3 }

/-- A radio without its bus is off. -/
def disable (off : Bool) (slot : RadioSlot) : RadioSlot :=
  if off then { slot with protocol := PROTO_NONE } else slot

def applyBuildDisables (flags : BuildFlags) (cfg : PersistedV5) : PersistedV5 :=
  { cfg with
    radio := fun
      | 0 => disable flags.radio1Disable (cfg.radio 0)
      | 1 => disable flags.radio2Disable (cfg.radio 1)
      | 2 => cfg.radio 2
      | 3 => cfg.radio 3 }

/-! ## The calls -/

/-- A migrated configuration is stored back. -/
def upgrade (flags : BuildFlags) (write : Write) (nvs : Option Blob) (migrated : PersistedV5) :
    State :=
  let cfg := { terminateAll migrated with version := SCHEMA_VERSION }
  ⟨write.apply nvs (some (.v5 cfg)), applyBuildDisables flags cfg⟩

/-- Nothing usable is stored. -/
def keepDefaults (flags : BuildFlags) (nvs : Option Blob) : State :=
  ⟨nvs, applyBuildDisables flags (loadDefaults flags)⟩

/-- `begin`, once the namespace is open. -/
def load (flags : BuildFlags) (write : Write) (nvs : Option Blob) : State :=
  match nvs with
  | some (.v5 tmp) =>
      if tmp.version = 5 then ⟨nvs, applyBuildDisables flags (terminateAll tmp)⟩
      else keepDefaults flags nvs
  | some (.v4 v4) =>
      if v4.version = 4 then upgrade flags write nvs (migrateV4toV5 v4 (loadDefaults flags))
      else keepDefaults flags nvs
  | some (.v3 v3) =>
      if v3.version = 3 then upgrade flags write nvs (migrateV3 v3 (loadDefaults flags))
      else keepDefaults flags nvs
  | some (.v2 v2) =>
      if v2.version = 2 then upgrade flags write nvs (migrateV2 flags v2 (loadDefaults flags))
      else keepDefaults flags nvs
  | some (.other _) => keepDefaults flags nvs
  | none => keepDefaults flags nvs

def begin (flags : BuildFlags) (opened : Bool) (write : Write) (nvs : Option Blob) : State :=
  if opened then load flags write nvs else ⟨nvs, loadDefaults flags⟩

def save (flags : BuildFlags) (opened : Bool) (write : Write) (state : State) : State :=
  let cfg :=
    { applyBuildDisables flags state.live with version := SCHEMA_VERSION, configured := 1 }
  if opened then ⟨write.apply state.nvs (some (.v5 cfg)), cfg⟩ else ⟨state.nvs, cfg⟩

def resetToDefaults (flags : BuildFlags) (opened : Bool) (state : State) : State :=
  ⟨if opened then none else state.nvs, loadDefaults flags⟩

@[simp]
theorem live_save (flags : BuildFlags) (opened : Bool) (write : Write) (state : State) :
    (save flags opened write state).live =
      { applyBuildDisables flags state.live with version := SCHEMA_VERSION, configured := 1 } := by
  cases opened <;> rfl

theorem disable_of_active {off : Bool} {slot : RadioSlot}
    (hactive : (disable off slot).protocol ≠ PROTO_NONE) : disable off slot = slot := by
  cases off with
  | true => exact absurd rfl hactive
  | false => rfl

/-- A radio that is on behind a save was not switched off. -/
theorem radio_save_of_active {flags : BuildFlags} {opened : Bool} {write : Write} {state : State}
    {i : Radio} (hactive : ((save flags opened write state).live.radio i).protocol ≠ PROTO_NONE) :
    (save flags opened write state).live.radio i = state.live.radio i := by
  rw [live_save] at hactive ⊢
  match i with
  | 0 => exact disable_of_active hactive
  | 1 => exact disable_of_active hactive
  | 2 => rfl
  | 3 => rfl

/-- The states of a running bridge. -/
inductive Reachable (flags : BuildFlags) : State → Prop
  | begin (opened : Bool) (write : Write) (nvs : Option Blob) :
      Reachable flags (begin flags opened write nvs)
  | edit (edit : Edit) {state : State} (hstate : Reachable flags state) :
      Reachable flags { state with live := edit.apply state.live }
  | save (opened : Bool) (write : Write) {state : State} (hstate : Reachable flags state) :
      Reachable flags (save flags opened write state)
  | resetToDefaults (opened : Bool) {state : State} (hstate : Reachable flags state) :
      Reachable flags (resetToDefaults flags opened state)

/-! ## Terminators -/

theorem live_terminateAll {cfg : PersistedV5} (hversion : cfg.version = SCHEMA_VERSION) :
    (terminateAll cfg).Live where
  version := hversion
  mtNodeIdStr := sealed_terminate _
  mtLongName := sealed_terminate _
  mtShortName := sealed_terminate _
  radio _ := ⟨sealed_terminate _, sealed_terminate _⟩

theorem terminateAll_of_live {cfg : PersistedV5} (hlive : cfg.Live) : terminateAll cfg = cfg := by
  have hradio : (fun i => { cfg.radio i with
      channelName := (cfg.radio i).channelName.terminate
      channelKey := (cfg.radio i).channelKey.terminate }) = cfg.radio := by
    funext i
    rw [terminate_of_sealed (hlive.radio i).channelName,
      terminate_of_sealed (hlive.radio i).channelKey]
  rw [terminateAll, hradio, terminate_of_sealed hlive.mtNodeIdStr,
    terminate_of_sealed hlive.mtLongName, terminate_of_sealed hlive.mtShortName]

theorem terminated_disable {slot : RadioSlot} (off : Bool) (hslot : slot.Terminated) :
    (disable off slot).Terminated := by
  cases off with
  | true => exact ⟨hslot.channelName, hslot.channelKey⟩
  | false => exact hslot

theorem live_applyBuildDisables {cfg : PersistedV5} (flags : BuildFlags) (hlive : cfg.Live) :
    (applyBuildDisables flags cfg).Live where
  version := hlive.version
  mtNodeIdStr := hlive.mtNodeIdStr
  mtLongName := hlive.mtLongName
  mtShortName := hlive.mtShortName
  radio
    | 0 => terminated_disable _ (hlive.radio 0)
    | 1 => terminated_disable _ (hlive.radio 1)
    | 2 => hlive.radio 2
    | 3 => hlive.radio 3

theorem live_upgrade (flags : BuildFlags) (write : Write) (nvs : Option Blob)
    (migrated : PersistedV5) : (upgrade flags write nvs migrated).live.Live :=
  have hstamped : ({ migrated with version := SCHEMA_VERSION } : PersistedV5).version =
      SCHEMA_VERSION := rfl
  live_applyBuildDisables flags (live_terminateAll hstamped)

theorem live_load (flags : BuildFlags) (write : Write) (nvs : Option Blob) :
    (load flags write nvs).live.Live := by
  have hdefaults : ∀ nvs, (keepDefaults flags nvs).live.Live :=
    fun _ => live_applyBuildDisables flags (live_loadDefaults flags)
  unfold load
  split
  · split
    · rename_i hversion
      exact live_applyBuildDisables flags (live_terminateAll hversion)
    · exact hdefaults _
  · split
    · exact live_upgrade flags write _ _
    · exact hdefaults _
  · split
    · exact live_upgrade flags write _ _
    · exact hdefaults _
  · split
    · exact live_upgrade flags write _ _
    · exact hdefaults _
  · exact hdefaults _
  · exact hdefaults _

theorem Reachable.live {flags : BuildFlags} {state : State} (hreachable : Reachable flags state) :
    state.live.Live := by
  induction hreachable with
  | begin opened write nvs =>
      cases opened with
      | true => exact live_load flags write nvs
      | false => exact live_loadDefaults flags
  | edit edit _ ih => exact edit.live ih
  | save opened write _ ih =>
      have hsaved := live_applyBuildDisables flags ih
      cases opened with
      | true =>
          exact ⟨rfl, hsaved.mtNodeIdStr, hsaved.mtLongName, hsaved.mtShortName, hsaved.radio⟩
      | false =>
          exact ⟨rfl, hsaved.mtNodeIdStr, hsaved.mtLongName, hsaved.mtShortName, hsaved.radio⟩
  | resetToDefaults opened _ _ => exact live_loadDefaults flags

/-! ## What an earlier schema carries -/

/-- The settings of the bridge itself, as strings and numbers. -/
structure Identity where
  configured : UInt8
  positionEnabled : UInt8
  telemetryEnabled : UInt8
  mtNodeId : UInt32
  mtNodeIdStr : List UInt8
  mtLongName : List UInt8
  mtShortName : List UInt8

structure Channel where
  name : List UInt8
  key : List UInt8
  deriving DecidableEq

/-- What a blob says of a configuration; what it does not say is `none`. -/
structure Carried where
  identity : Identity
  region : Option UInt8
  rf : Radio → Option RadioRfV4
  channel : Radio → Option Channel

def identityOf (cfg : PersistedV5) : Identity where
  configured := cfg.configured
  positionEnabled := cfg.positionEnabled
  telemetryEnabled := cfg.telemetryEnabled
  mtNodeId := cfg.mtNodeId
  mtNodeIdStr := cfg.mtNodeIdStr.text
  mtLongName := cfg.mtLongName.text
  mtShortName := cfg.mtShortName.text

def rfOf (slot : RadioSlot) : RadioRfV4 where
  protocol := slot.protocol
  sf := slot.sf
  cr := slot.cr
  syncWord := slot.syncWord
  txPower := slot.txPower
  lwRegion := slot.lwRegion
  frequency := slot.frequency
  bandwidth := slot.bandwidth

def channelOf (slot : RadioSlot) : Channel := ⟨slot.channelName.text, slot.channelKey.text⟩

/-- Something for each of the two local radios. -/
def locals {Value : Type} (r1 r2 : Value) : Radio → Option Value
  | 0 => some r1
  | 1 => some r2
  | 2 => none
  | 3 => none

/-- The channel that schema 2 has for a sync word. -/
def v2Channel (v2 : PersistedV2) (syncWord : UInt8) : Channel :=
  if syncWord = 0x2B then ⟨v2.mtChannelName.text, v2.mtPskBase64.text⟩
  else if syncWord = 0x12 then ⟨v2.mcChannelName.text, v2.mcKeyHex.text⟩
  else ⟨[], []⟩

def carriedV2 (flags : BuildFlags) (v2 : PersistedV2) : Carried where
  identity := ⟨v2.configured, v2.positionEnabled, v2.telemetryEnabled, v2.mtNodeId,
    v2.mtNodeIdStr.text, v2.mtLongName.text, v2.mtShortName.text⟩
  region := none
  rf _ := none
  channel := locals (v2Channel v2 (flags.radio 0).syncWord) (v2Channel v2 (flags.radio 1).syncWord)

def carriedV3 (v3 : PersistedV3) : Carried where
  identity := ⟨v3.configured, v3.positionEnabled, v3.telemetryEnabled, v3.mtNodeId,
    v3.mtNodeIdStr.text, v3.mtLongName.text, v3.mtShortName.text⟩
  region := none
  rf _ := none
  channel := locals ⟨v3.r1ChannelName.text, v3.r1ChannelKey.text⟩
    ⟨v3.r2ChannelName.text, v3.r2ChannelKey.text⟩

def carriedV4 (v4 : PersistedV4) : Carried where
  identity := ⟨v4.configured, v4.positionEnabled, v4.telemetryEnabled, v4.mtNodeId,
    v4.mtNodeIdStr.text, v4.mtLongName.text, v4.mtShortName.text⟩
  region := some v4.region
  rf := locals (v4.radio 0) (v4.radio 1)
  channel := locals ⟨v4.r1ChannelName.text, v4.r1ChannelKey.text⟩
    ⟨v4.r2ChannelName.text, v4.r2ChannelKey.text⟩

/-- A blob of an earlier schema with its version byte, all strings terminated. -/
inductive Stored (flags : BuildFlags) : Blob → Carried → Prop
  | v2 (blob : PersistedV2) (hversion : blob.version = 2)
      (hidentity : blob.mtNodeIdStr.Terminated ∧ blob.mtLongName.Terminated ∧
        blob.mtShortName.Terminated)
      (hmeshtastic : blob.mtChannelName.Terminated ∧ blob.mtPskBase64.Terminated)
      (hmeshcore : blob.mcChannelName.Terminated ∧ blob.mcKeyHex.Terminated) :
      Stored flags (.v2 blob) (carriedV2 flags blob)
  | v3 (blob : PersistedV3) (hversion : blob.version = 3)
      (hidentity : blob.mtNodeIdStr.Terminated ∧ blob.mtLongName.Terminated ∧
        blob.mtShortName.Terminated)
      (hr1 : blob.r1ChannelName.Terminated ∧ blob.r1ChannelKey.Terminated)
      (hr2 : blob.r2ChannelName.Terminated ∧ blob.r2ChannelKey.Terminated) :
      Stored flags (.v3 blob) (carriedV3 blob)
  | v4 (blob : PersistedV4) (hversion : blob.version = 4)
      (hidentity : blob.mtNodeIdStr.Terminated ∧ blob.mtLongName.Terminated ∧
        blob.mtShortName.Terminated)
      (hr1 : blob.r1ChannelName.Terminated ∧ blob.r1ChannelKey.Terminated)
      (hr2 : blob.r2ChannelName.Terminated ∧ blob.r2ChannelKey.Terminated) :
      Stored flags (.v4 blob) (carriedV4 blob)

/-- The current schema with all that a blob carries, and the defaults for the rest. -/
structure Upgrades (flags : BuildFlags) (carried : Carried) (cfg : PersistedV5) : Prop where
  version : cfg.version = SCHEMA_VERSION
  identity : identityOf cfg = carried.identity
  region : cfg.region = carried.region.getD (loadDefaults flags).region
  rf : ∀ i, rfOf (cfg.radio i) = (carried.rf i).getD (rfOf ((loadDefaults flags).radio i))
  channel : ∀ i, channelOf (cfg.radio i) =
    (carried.channel i).getD (channelOf ((loadDefaults flags).radio i))

/-- R1 and R2 route to each other; R3 and R4 are off and route nowhere. -/
structure Crossover (cfg : PersistedV5) : Prop where
  r1 : (cfg.radio 0).routeMask = (1 : UInt8) <<< 1
  r2 : (cfg.radio 1).routeMask = (1 : UInt8) <<< 0
  r3 : (cfg.radio 2).protocol = PROTO_NONE ∧ (cfg.radio 2).routeMask = 0
  r4 : (cfg.radio 3).protocol = PROTO_NONE ∧ (cfg.radio 3).routeMask = 0

/-- No radio is switched or routed by an override flag. -/
structure NoOverrides (flags : BuildFlags) : Prop where
  radio1Disable : flags.radio1Disable = false
  radio2Disable : flags.radio2Disable = false
  radio3Enable : flags.radio3Enable = false
  radio4Enable : flags.radio4Enable = false
  routeMask : ∀ i, (flags.radio i).routeMask = none

/-! ## Migrated configurations -/

section Copies

variable {nameSize keySize : ℕ} {name : CharArray nameSize} {key : CharArray keySize}

theorem terminated_withChannel (slot : RadioSlot) (name key : List UInt8) :
    (withChannel slot name key).Terminated :=
  ⟨sealed_copyStr _ _, sealed_copyStr _ _⟩

/-- A channel that fits keeps its strings. -/
theorem channelOf_withChannel (slot : RadioSlot) (hname : name.Terminated)
    (hkey : key.Terminated) (hnameSize : nameSize ≤ RADIO_CHANNEL_NAME_MAX + 1)
    (hkeySize : keySize ≤ RADIO_CHANNEL_KEY_MAX + 1) :
    channelOf (withChannel slot name.toList key.toList) = ⟨name.text, key.text⟩ := by
  rw [channelOf, withChannel]
  dsimp only
  rw [text_copyStr_toList hname hnameSize, text_copyStr_toList hkey hkeySize]

theorem channelOf_migrateV2Channel (slot : RadioSlot) {v2 : PersistedV2} (syncWord : UInt8)
    (hmeshtastic : v2.mtChannelName.Terminated ∧ v2.mtPskBase64.Terminated)
    (hmeshcore : v2.mcChannelName.Terminated ∧ v2.mcKeyHex.Terminated) :
    channelOf (migrateV2Channel syncWord v2 slot) = v2Channel v2 syncWord := by
  unfold migrateV2Channel v2Channel
  split
  · exact channelOf_withChannel slot hmeshtastic.1 hmeshtastic.2 (by decide) (by decide)
  · split
    · exact channelOf_withChannel slot hmeshcore.1 hmeshcore.2 (by decide) (by decide)
    · rfl

theorem rfOf_migrateV2Channel (slot : RadioSlot) (v2 : PersistedV2) (syncWord : UInt8) :
    rfOf (migrateV2Channel syncWord v2 slot) = rfOf slot := by
  unfold migrateV2Channel
  split
  · rfl
  · split <;> rfl

theorem routeMask_migrateV2Channel (slot : RadioSlot) (v2 : PersistedV2) (syncWord : UInt8) :
    (migrateV2Channel syncWord v2 slot).routeMask = slot.routeMask := by
  unfold migrateV2Channel
  split
  · rfl
  · split <;> rfl

theorem terminated_migrateV2Channel (slot : RadioSlot) (v2 : PersistedV2) (syncWord : UInt8) :
    (migrateV2Channel syncWord v2 slot).Terminated := by
  unfold migrateV2Channel
  split
  · exact terminated_withChannel _ _ _
  · split <;> exact terminated_withChannel _ _ _

end Copies

section Blobs

variable {flags : BuildFlags}

/-- A migration copies the strings of the bridge over the defaults, and leaves R3 and R4. -/
structure Migrates (flags : BuildFlags) (idStr : CharArray (MT_NODE_ID_STR_MAX + 1))
    (longName : CharArray (MT_LONG_NAME_MAX + 1)) (shortName : CharArray (MT_SHORT_NAME_MAX + 1))
    (cfg : PersistedV5) : Prop where
  version : cfg.version = SCHEMA_VERSION
  idStr : cfg.mtNodeIdStr = copyStr MT_NODE_ID_STR_MAX idStr.toList
  longName : cfg.mtLongName = copyStr MT_LONG_NAME_MAX longName.toList
  shortName : cfg.mtShortName = copyStr MT_SHORT_NAME_MAX shortName.toList
  r3 : cfg.radio 2 = defaultRadio flags 2
  r4 : cfg.radio 3 = defaultRadio flags 3

theorem migrates_migrateV2 (v2 : PersistedV2) :
    Migrates flags v2.mtNodeIdStr v2.mtLongName v2.mtShortName
      (migrateV2 flags v2 (loadDefaults flags)) :=
  ⟨rfl, rfl, rfl, rfl, rfl, rfl⟩

theorem migrates_migrateV3 (v3 : PersistedV3) :
    Migrates flags v3.mtNodeIdStr v3.mtLongName v3.mtShortName
      (migrateV3 v3 (loadDefaults flags)) :=
  ⟨rfl, rfl, rfl, rfl, rfl, rfl⟩

theorem migrates_migrateV4toV5 (v4 : PersistedV4) :
    Migrates flags v4.mtNodeIdStr v4.mtLongName v4.mtShortName
      (migrateV4toV5 v4 (loadDefaults flags)) :=
  ⟨rfl, rfl, rfl, rfl, rfl, rfl⟩

/-- Without overrides the defaults are the crossover. -/
theorem crossover_defaultRadio (hplain : NoOverrides flags) (i : Radio) :
    (defaultRadio flags i).routeMask = crossover i := by
  rw [defaultRadio, hplain.routeMask i]
  rfl

theorem remote_defaultRadio (hplain : NoOverrides flags) :
    (defaultRadio flags 2).protocol = PROTO_NONE ∧ (defaultRadio flags 3).protocol = PROTO_NONE :=
  ⟨if_neg (by rw [hplain.radio3Enable]; decide), if_neg (by rw [hplain.radio4Enable]; decide)⟩

section Migrates

variable {idStr : CharArray (MT_NODE_ID_STR_MAX + 1)}
  {longName : CharArray (MT_LONG_NAME_MAX + 1)} {shortName : CharArray (MT_SHORT_NAME_MAX + 1)}
  {cfg : PersistedV5}

theorem Migrates.live (hmigrates : Migrates flags idStr longName shortName cfg)
    (hr1 : (cfg.radio 0).Terminated) (hr2 : (cfg.radio 1).Terminated) : cfg.Live where
  version := hmigrates.version
  mtNodeIdStr := hmigrates.idStr ▸ sealed_copyStr _ _
  mtLongName := hmigrates.longName ▸ sealed_copyStr _ _
  mtShortName := hmigrates.shortName ▸ sealed_copyStr _ _
  radio
    | 0 => hr1
    | 1 => hr2
    | 2 => hmigrates.r3 ▸ terminated_defaultRadio flags 2
    | 3 => hmigrates.r4 ▸ terminated_defaultRadio flags 3

/-- The three strings of the bridge are copied. -/
theorem Migrates.identity (hmigrates : Migrates flags idStr longName shortName cfg)
    (hidentity : idStr.Terminated ∧ longName.Terminated ∧ shortName.Terminated) :
    identityOf cfg = ⟨cfg.configured, cfg.positionEnabled, cfg.telemetryEnabled, cfg.mtNodeId,
      idStr.text, longName.text, shortName.text⟩ := by
  rw [identityOf, hmigrates.idStr, hmigrates.longName, hmigrates.shortName,
    text_copyStr_toList hidentity.1 le_rfl, text_copyStr_toList hidentity.2.1 le_rfl,
    text_copyStr_toList hidentity.2.2 le_rfl]

/-- R3 and R4 are off, as by default. -/
theorem Migrates.crossover (hmigrates : Migrates flags idStr longName shortName cfg)
    (hplain : NoOverrides flags) (hr1 : (cfg.radio 0).routeMask = crossover 0)
    (hr2 : (cfg.radio 1).routeMask = crossover 1) : Crossover cfg where
  r1 := hr1
  r2 := hr2
  r3 := by
    rw [hmigrates.r3]
    exact ⟨(remote_defaultRadio hplain).1, crossover_defaultRadio hplain 2⟩
  r4 := by
    rw [hmigrates.r4]
    exact ⟨(remote_defaultRadio hplain).2, crossover_defaultRadio hplain 3⟩

end Migrates

theorem live_migrateV2 (v2 : PersistedV2) : (migrateV2 flags v2 (loadDefaults flags)).Live :=
  (migrates_migrateV2 v2).live (terminated_migrateV2Channel _ _ _)
    (terminated_migrateV2Channel _ _ _)

theorem live_migrateV3 (v3 : PersistedV3) : (migrateV3 v3 (loadDefaults flags)).Live :=
  (migrates_migrateV3 v3).live (terminated_withChannel _ _ _) (terminated_withChannel _ _ _)

theorem live_migrateV4toV5 (v4 : PersistedV4) :
    (migrateV4toV5 v4 (loadDefaults flags)).Live :=
  (migrates_migrateV4toV5 v4).live (terminated_withChannel _ _ _) (terminated_withChannel _ _ _)

theorem upgrades_migrateV2 {v2 : PersistedV2}
    (hidentity : v2.mtNodeIdStr.Terminated ∧ v2.mtLongName.Terminated ∧
      v2.mtShortName.Terminated)
    (hmeshtastic : v2.mtChannelName.Terminated ∧ v2.mtPskBase64.Terminated)
    (hmeshcore : v2.mcChannelName.Terminated ∧ v2.mcKeyHex.Terminated) :
    Upgrades flags (carriedV2 flags v2) (migrateV2 flags v2 (loadDefaults flags)) where
  version := rfl
  identity := (migrates_migrateV2 v2).identity hidentity
  region := rfl
  rf
    | 0 => rfOf_migrateV2Channel _ _ _
    | 1 => rfOf_migrateV2Channel _ _ _
    | 2 => rfl
    | 3 => rfl
  channel
    | 0 => channelOf_migrateV2Channel _ _ hmeshtastic hmeshcore
    | 1 => channelOf_migrateV2Channel _ _ hmeshtastic hmeshcore
    | 2 => rfl
    | 3 => rfl

theorem upgrades_migrateV3 {v3 : PersistedV3}
    (hidentity : v3.mtNodeIdStr.Terminated ∧ v3.mtLongName.Terminated ∧
      v3.mtShortName.Terminated)
    (hr1 : v3.r1ChannelName.Terminated ∧ v3.r1ChannelKey.Terminated)
    (hr2 : v3.r2ChannelName.Terminated ∧ v3.r2ChannelKey.Terminated) :
    Upgrades flags (carriedV3 v3) (migrateV3 v3 (loadDefaults flags)) where
  version := rfl
  identity := (migrates_migrateV3 v3).identity hidentity
  region := rfl
  rf
    | 0 => rfl
    | 1 => rfl
    | 2 => rfl
    | 3 => rfl
  channel
    | 0 => channelOf_withChannel _ hr1.1 hr1.2 le_rfl le_rfl
    | 1 => channelOf_withChannel _ hr2.1 hr2.2 le_rfl le_rfl
    | 2 => rfl
    | 3 => rfl

theorem upgrades_migrateV4toV5 {v4 : PersistedV4}
    (hidentity : v4.mtNodeIdStr.Terminated ∧ v4.mtLongName.Terminated ∧
      v4.mtShortName.Terminated)
    (hr1 : v4.r1ChannelName.Terminated ∧ v4.r1ChannelKey.Terminated)
    (hr2 : v4.r2ChannelName.Terminated ∧ v4.r2ChannelKey.Terminated) :
    Upgrades flags (carriedV4 v4) (migrateV4toV5 v4 (loadDefaults flags)) where
  version := rfl
  identity := (migrates_migrateV4toV5 v4).identity hidentity
  region := rfl
  rf
    | 0 => rfl
    | 1 => rfl
    | 2 => rfl
    | 3 => rfl
  channel
    | 0 => channelOf_withChannel _ hr1.1 hr1.2 le_rfl le_rfl
    | 1 => channelOf_withChannel _ hr2.1 hr2.2 le_rfl le_rfl
    | 2 => rfl
    | 3 => rfl

/-- What `begin` makes of a blob of an earlier schema. -/
theorem load_of_stored (hplain : NoOverrides flags) {blob : Blob} {carried : Carried}
    (hstored : Stored flags blob carried) : ∃ migrated : PersistedV5,
      migrated.Live ∧ Upgrades flags carried migrated ∧ Crossover migrated ∧
        ∀ write, load flags write (some blob) = upgrade flags write (some blob) migrated := by
  cases hstored with
  | v2 v2 hversion hidentity hmeshtastic hmeshcore =>
      have hmigrates : Migrates flags v2.mtNodeIdStr v2.mtLongName v2.mtShortName
          (migrateV2 flags v2 (loadDefaults flags)) := migrates_migrateV2 v2
      refine ⟨migrateV2 flags v2 (loadDefaults flags), live_migrateV2 v2,
        upgrades_migrateV2 hidentity hmeshtastic hmeshcore, hmigrates.crossover hplain ?_ ?_,
        fun write => if_pos hversion⟩
      · exact (routeMask_migrateV2Channel _ _ _).trans (crossover_defaultRadio hplain 0)
      · exact (routeMask_migrateV2Channel _ _ _).trans (crossover_defaultRadio hplain 1)
  | v3 v3 hversion hidentity hr1 hr2 =>
      exact ⟨migrateV3 v3 (loadDefaults flags), live_migrateV3 v3,
        upgrades_migrateV3 hidentity hr1 hr2,
        (migrates_migrateV3 v3).crossover hplain (crossover_defaultRadio hplain 0)
          (crossover_defaultRadio hplain 1),
        fun write => if_pos hversion⟩
  | v4 v4 hversion hidentity hr1 hr2 =>
      exact ⟨migrateV4toV5 v4 (loadDefaults flags), live_migrateV4toV5 v4,
        upgrades_migrateV4toV5 hidentity hr1 hr2,
        (migrates_migrateV4toV5 v4).crossover hplain rfl rfl,
        fun write => if_pos hversion⟩

theorem applyBuildDisables_eq (hplain : NoOverrides flags) (cfg : PersistedV5) :
    applyBuildDisables flags cfg = cfg := by
  have hradio : (applyBuildDisables flags cfg).radio = cfg.radio := by
    funext i
    match i with
    | 0 => exact if_neg (by rw [hplain.radio1Disable]; decide)
    | 1 => exact if_neg (by rw [hplain.radio2Disable]; decide)
    | 2 => rfl
    | 3 => rfl
  exact congrArg (fun radio => { cfg with radio := radio }) hradio

theorem upgrade_eq (hplain : NoOverrides flags) (write : Write) (nvs : Option Blob)
    {migrated : PersistedV5} (hlive : migrated.Live) :
    upgrade flags write nvs migrated = ⟨write.apply nvs (some (.v5 migrated)), migrated⟩ := by
  have hversion : { migrated with version := SCHEMA_VERSION } = migrated := by
    rw [← hlive.version]
  rw [upgrade, terminateAll_of_live hlive]
  dsimp only
  rw [hversion, applyBuildDisables_eq hplain]

/-- A live configuration is loaded as it was stored. -/
theorem load_v5 (hplain : NoOverrides flags) (write : Write) {cfg : PersistedV5}
    (hlive : cfg.Live) : (load flags write (some (.v5 cfg))).live = cfg := by
  have hversion : cfg.version = 5 := hlive.version
  rw [load, if_pos hversion, terminateAll_of_live hlive, applyBuildDisables_eq hplain]

/-- The blob is one that `begin` takes over. -/
def Known : Option Blob → Prop
  | some (.v2 blob) => blob.version = 2
  | some (.v3 blob) => blob.version = 3
  | some (.v4 blob) => blob.version = 4
  | some (.v5 blob) => blob.version = 5
  | some (.other _) => False
  | none => False

theorem load_of_not_known (hplain : NoOverrides flags) (write : Write) {nvs : Option Blob}
    (hunknown : ¬ Known nvs) : (load flags write nvs).live = loadDefaults flags := by
  have hdefaults : ∀ nvs, (keepDefaults flags nvs).live = loadDefaults flags :=
    fun _ => applyBuildDisables_eq hplain _
  match nvs with
  | some (.v5 _) => exact (congrArg State.live (if_neg hunknown)).trans (hdefaults _)
  | some (.v4 _) => exact (congrArg State.live (if_neg hunknown)).trans (hdefaults _)
  | some (.v3 _) => exact (congrArg State.live (if_neg hunknown)).trans (hdefaults _)
  | some (.v2 _) => exact (congrArg State.live (if_neg hunknown)).trans (hdefaults _)
  | some (.other _) => exact hdefaults _
  | none => exact hdefaults _

/-- A configuration of an earlier schema is upgraded, and the upgrade, stored or not, is
loaded as the same configuration; a live configuration is restored from its save; and nothing
else is taken from NVS. -/
theorem migration (hplain : NoOverrides flags) :
    (∀ blob carried, Stored flags blob carried → ∀ write again,
      Upgrades flags carried (begin flags true write (some blob)).live ∧
      Crossover (begin flags true write (some blob)).live ∧
      (begin flags true again (begin flags true write (some blob)).nvs).live =
        (begin flags true write (some blob)).live) ∧
    (∀ state, Reachable flags state → ∀ write,
      (begin flags true write (save flags true .confirmed state).nvs).live =
        { state.live with configured := 1 }) ∧
    ∀ nvs, ¬ Known nvs → ∀ write, (begin flags true write nvs).live = loadDefaults flags := by
  refine ⟨fun blob carried hstored write again => ?_, fun state hreachable write => ?_,
    fun nvs hunknown write => load_of_not_known hplain write hunknown⟩
  · obtain ⟨migrated, hlive, hupgrades, hcrossover, hload⟩ := load_of_stored hplain hstored
    have hbegin : begin flags true write (some blob) =
        ⟨write.apply (some blob) (some (.v5 migrated)), migrated⟩ :=
      (hload write).trans (upgrade_eq hplain write _ hlive)
    have hagain : (load flags again (some blob)).live = migrated := by
      rw [hload again, upgrade_eq hplain again _ hlive]
    rw [hbegin]
    refine ⟨hupgrades, hcrossover, ?_⟩
    cases write with
    | confirmed => exact load_v5 hplain again hlive
    | unconfirmed => exact load_v5 hplain again hlive
    | lost => exact hagain
  · have hlive := hreachable.live
    have hsaved : save flags true .confirmed state =
        ⟨some (.v5 { state.live with configured := 1 }), { state.live with configured := 1 }⟩ := by
      rw [save, applyBuildDisables_eq hplain, ← hlive.version]
      rfl
    have hlive' : PersistedV5.Live { state.live with configured := 1 } :=
      ⟨hlive.version, hlive.mtNodeIdStr, hlive.mtLongName, hlive.mtShortName, hlive.radio⟩
    rw [hsaved]
    exact load_v5 hplain write hlive'

end Blobs

/-! ## A remote radio that had no place in schema 2 -/

/-- The flags of a stock build, with R1 and R3 on Meshtastic and R2 and R4 on MeshCore. -/
def stockFlags : BuildFlags where
  region := 0
  mtNodeId := 0xB16B00B5
  mtPosition := true
  mtTelemetry := true
  mtNodeIdStr := ascii "!b16b00b5"
  mtLongName := ascii "LoRa Bridge"
  mtShortName := ascii "BR"
  mtChannelName := ascii "LongFast"
  mtPskB64 := []
  mcChannelName := ascii "public"
  mcKeyHex := ascii "8b3387e9c5cdea6ac9e5edbaa115cd72"
  radio i := {
    syncWord := if i.val % 2 = 0 then 0x2B else 0x12
    frequency := if i.val % 2 = 0 then 0x4462B800 else 0x4463A19A
    bandwidth := 0x437A0000
    spreadFactor := 11
    codingRate := 5
    txPower := 20
    channelName := none
    channelKey := none
    routeMask := none }
  radio1Disable := false
  radio2Disable := false
  radio3Enable := false
  radio4Enable := false

theorem noOverrides_stockFlags : NoOverrides stockFlags := ⟨rfl, rfl, rfl, rfl, fun _ => rfl⟩

/-- A configured bridge whose Meshtastic channel has the name `A`. -/
def storedV2 : PersistedV2 where
  version := 2
  configured := 1
  positionEnabled := 1
  telemetryEnabled := 0
  mtNodeId := 0xB16B00B5
  mtNodeIdStr := copyStr 15 [0x21]
  mtLongName := copyStr 39 [0x4C]
  mtShortName := copyStr 8 [0x53]
  mcKeyHex := copyStr 32 (List.replicate 32 0x61)
  mcChannelName := copyStr 23 [0x42]
  mtChannelName := copyStr 23 [0x41]
  mtPskBase64 := copyStr 47 []

theorem stored_storedV2 : Stored stockFlags (.v2 storedV2) (carriedV2 stockFlags storedV2) :=
  .v2 storedV2 rfl (by decide) (by decide) (by decide)

theorem migration_stock :
    Upgrades stockFlags (carriedV2 stockFlags storedV2)
      (begin stockFlags true .confirmed (some (.v2 storedV2))).live :=
  ((migration noOverrides_stockFlags).1 _ _ stored_storedV2 .confirmed .confirmed).1

/-- R3 is a Meshtastic radio by its sync word, and keeps the default channel. -/
theorem remote_radio_keeps_default :
    ¬ ∀ flags, NoOverrides flags → ∀ v2 : PersistedV2,
      Stored flags (.v2 v2) (carriedV2 flags v2) → ∀ i : Radio,
        channelOf ((begin flags true .confirmed (some (.v2 v2))).live.radio i) =
          v2Channel v2 (flags.radio i).syncWord := by
  intro hall
  have hr3 := hall stockFlags noOverrides_stockFlags storedV2 stored_storedV2 2
  exact absurd (congrArg Channel.name hr3) (by decide)

end LoraBridge.Migration
