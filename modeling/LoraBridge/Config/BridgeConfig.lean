import LoraBridge.Codec.Protocol
import LoraBridge.Core.CharArray
import LoraBridge.Core.ReserveAhead
import Mathlib.Data.Fintype.Basic

/-!
# The configuration and its schemas

`BridgeConfig`: the live configuration, what earlier versions stored, the build-flag
defaults, and the setters of the portal.  A `float` is its 32-bit word.
-/

namespace LoraBridge.BridgeConfig

open LoraBridge.CharArray

abbrev NUM_RADIOS : ℕ := 4

scoped instance numRadiosNeZero : NeZero NUM_RADIOS := ⟨by decide⟩

abbrev Radio := Fin NUM_RADIOS

def MT_NODE_ID_STR_MAX : ℕ := 15

def MT_LONG_NAME_MAX : ℕ := 39

def MT_SHORT_NAME_MAX : ℕ := 8

def RADIO_CHANNEL_NAME_MAX : ℕ := 23

def RADIO_CHANNEL_KEY_MAX : ℕ := 47

def SCHEMA_VERSION : UInt8 := 5

def REGION_UNSET : UInt8 := 0

def LW_REGION_UNSET : UInt8 := 0

def LW_REGION_EU868 : UInt8 := 4

/-! ## The schemas -/

structure PersistedV2 where
  version : UInt8
  configured : UInt8
  positionEnabled : UInt8
  telemetryEnabled : UInt8
  mtNodeId : UInt32
  mtNodeIdStr : CharArray (15 + 1)
  mtLongName : CharArray (39 + 1)
  mtShortName : CharArray (8 + 1)
  mcKeyHex : CharArray (32 + 1)
  mcChannelName : CharArray (23 + 1)
  mtChannelName : CharArray (23 + 1)
  mtPskBase64 : CharArray (47 + 1)

structure PersistedV3 where
  version : UInt8
  configured : UInt8
  positionEnabled : UInt8
  telemetryEnabled : UInt8
  mtNodeId : UInt32
  mtNodeIdStr : CharArray (MT_NODE_ID_STR_MAX + 1)
  mtLongName : CharArray (MT_LONG_NAME_MAX + 1)
  mtShortName : CharArray (MT_SHORT_NAME_MAX + 1)
  r1ChannelName : CharArray (RADIO_CHANNEL_NAME_MAX + 1)
  r1ChannelKey : CharArray (RADIO_CHANNEL_KEY_MAX + 1)
  r2ChannelName : CharArray (RADIO_CHANNEL_NAME_MAX + 1)
  r2ChannelKey : CharArray (RADIO_CHANNEL_KEY_MAX + 1)

structure RadioRfV4 where
  protocol : UInt8
  sf : UInt8
  cr : UInt8
  syncWord : UInt8
  txPower : Int8
  lwRegion : UInt8
  frequency : UInt32
  bandwidth : UInt32
  deriving DecidableEq

structure PersistedV4 where
  version : UInt8
  configured : UInt8
  positionEnabled : UInt8
  telemetryEnabled : UInt8
  region : UInt8
  mtNodeId : UInt32
  mtNodeIdStr : CharArray (MT_NODE_ID_STR_MAX + 1)
  mtLongName : CharArray (MT_LONG_NAME_MAX + 1)
  mtShortName : CharArray (MT_SHORT_NAME_MAX + 1)
  r1ChannelName : CharArray (RADIO_CHANNEL_NAME_MAX + 1)
  r1ChannelKey : CharArray (RADIO_CHANNEL_KEY_MAX + 1)
  r2ChannelName : CharArray (RADIO_CHANNEL_NAME_MAX + 1)
  r2ChannelKey : CharArray (RADIO_CHANNEL_KEY_MAX + 1)
  radio : Fin 2 → RadioRfV4

structure RadioSlot where
  protocol : UInt8
  sf : UInt8
  cr : UInt8
  syncWord : UInt8
  txPower : Int8
  lwRegion : UInt8
  routeMask : UInt8
  frequency : UInt32
  bandwidth : UInt32
  channelName : CharArray (RADIO_CHANNEL_NAME_MAX + 1)
  channelKey : CharArray (RADIO_CHANNEL_KEY_MAX + 1)
  deriving DecidableEq

structure PersistedV5 where
  version : UInt8
  configured : UInt8
  positionEnabled : UInt8
  telemetryEnabled : UInt8
  region : UInt8
  mtNodeId : UInt32
  mtNodeIdStr : CharArray (MT_NODE_ID_STR_MAX + 1)
  mtLongName : CharArray (MT_LONG_NAME_MAX + 1)
  mtShortName : CharArray (MT_SHORT_NAME_MAX + 1)
  radio : Radio → RadioSlot
  deriving DecidableEq

/-! ## Build-flag defaults -/

/-- The flags of one radio; an override that is not defined is `none`. -/
structure RadioFlags where
  syncWord : UInt8
  frequency : UInt32
  bandwidth : UInt32
  spreadFactor : UInt8
  codingRate : UInt8
  txPower : Int8
  channelName : Option (List UInt8)
  channelKey : Option (List UInt8)
  routeMask : Option UInt8

structure BuildFlags where
  region : UInt8
  mtNodeId : UInt32
  mtPosition : Bool
  mtTelemetry : Bool
  mtNodeIdStr : List UInt8
  mtLongName : List UInt8
  mtShortName : List UInt8
  mtChannelName : List UInt8
  mtPskB64 : List UInt8
  mcChannelName : List UInt8
  mcKeyHex : List UInt8
  radio : Radio → RadioFlags
  radio1Disable : Bool
  radio2Disable : Bool
  radio3Enable : Bool
  radio4Enable : Bool

variable (flags : BuildFlags)

def protocolFromSync (sync : UInt8) : UInt8 := protoOf sync

/-- `radioDefaultChannel`: the name. -/
def defaultChannelName (syncWord : UInt8) : List UInt8 :=
  if syncWord = 0x2B then flags.mtChannelName
  else if syncWord = 0x12 then flags.mcChannelName
  else []

/-- `radioDefaultChannel`: the key. -/
def defaultChannelKey (syncWord : UInt8) : List UInt8 :=
  if syncWord = 0x2B then flags.mtPskB64
  else if syncWord = 0x12 then flags.mcKeyHex
  else []

/-- `seedRadio`. -/
def seedRadio (radio : RadioFlags) (proto : UInt8) : RadioSlot where
  protocol := proto
  sf := radio.spreadFactor
  cr := radio.codingRate
  syncWord := radio.syncWord
  txPower := radio.txPower
  lwRegion := LW_REGION_UNSET
  routeMask := 0
  frequency := radio.frequency
  bandwidth := radio.bandwidth
  channelName := copyStr RADIO_CHANNEL_NAME_MAX (defaultChannelName flags radio.syncWord)
  channelKey := copyStr RADIO_CHANNEL_KEY_MAX (defaultChannelKey flags radio.syncWord)

/-- The protocol a radio starts with: the remote radios are off unless they are enabled,
and the local ones on unless they are disabled. -/
def defaultProtocol : Radio → UInt8
  | 0 => if flags.radio1Disable then PROTO_NONE else protocolFromSync (flags.radio 0).syncWord
  | 1 => if flags.radio2Disable then PROTO_NONE else protocolFromSync (flags.radio 1).syncWord
  | 2 => if flags.radio3Enable then protocolFromSync (flags.radio 2).syncWord else PROTO_NONE
  | 3 => if flags.radio4Enable then protocolFromSync (flags.radio 3).syncWord else PROTO_NONE

/-- The crossover of the two local radios. -/
def crossover : Radio → UInt8
  | 0 => (1 : UInt8) <<< 1
  | 1 => (1 : UInt8) <<< 0
  | 2 => 0
  | 3 => 0

/-- A radio with the overrides that are defined. -/
def defaultRadio (i : Radio) : RadioSlot :=
  let seeded := seedRadio flags (flags.radio i) (defaultProtocol flags i)
  { seeded with
    channelName := ((flags.radio i).channelName.map (copyStr RADIO_CHANNEL_NAME_MAX)).getD
      seeded.channelName
    channelKey := ((flags.radio i).channelKey.map (copyStr RADIO_CHANNEL_KEY_MAX)).getD
      seeded.channelKey
    routeMask := (flags.radio i).routeMask.getD (crossover i) }

def loadDefaults : PersistedV5 where
  version := SCHEMA_VERSION
  configured := 0
  positionEnabled := if flags.mtPosition then 1 else 0
  telemetryEnabled := if flags.mtTelemetry then 1 else 0
  region := flags.region
  mtNodeId := flags.mtNodeId
  mtNodeIdStr := copyStr MT_NODE_ID_STR_MAX flags.mtNodeIdStr
  mtLongName := copyStr MT_LONG_NAME_MAX flags.mtLongName
  mtShortName := copyStr MT_SHORT_NAME_MAX flags.mtShortName
  radio := defaultRadio flags

/-! ## The setters -/

/-- One slot of the live configuration is changed. -/
def PersistedV5.setRadio (cfg : PersistedV5) (i : Radio) (slot : RadioSlot) : PersistedV5 :=
  { cfg with radio := Function.update cfg.radio i slot }

/-- `clampRadio`. -/
def clampRadio (radio : ℤ) : Radio :=
  if radio < 0 then 0
  else if h : radio.toNat < NUM_RADIOS then ⟨radio.toNat, h⟩
  else 3

/-- A field of a radio. -/
inductive RadioEdit where
  | channelName (s : List UInt8)
  | channelKey (s : List UInt8)
  | protocol (v : UInt8)
  | frequency (v : UInt32)
  | bandwidth (v : UInt32)
  | sf (v : UInt8)
  | cr (v : UInt8)
  | syncWord (v : UInt8)
  | txPower (v : Int8)
  | lwRegion (v : UInt8)
  | routeMask (v : UInt8)

def RadioEdit.apply (slot : RadioSlot) : RadioEdit → RadioSlot
  | .channelName s => { slot with channelName := copyStr RADIO_CHANNEL_NAME_MAX s }
  | .channelKey s => { slot with channelKey := copyStr RADIO_CHANNEL_KEY_MAX s }
  | .protocol v => { slot with protocol := v }
  | .frequency v => { slot with frequency := v }
  | .bandwidth v => { slot with bandwidth := v }
  | .sf v => { slot with sf := v }
  | .cr v => { slot with cr := v }
  | .syncWord v => { slot with syncWord := v }
  | .txPower v => { slot with txPower := v }
  | .lwRegion v => { slot with lwRegion := v }
  | .routeMask v => { slot with routeMask := v }

/-- The calls of the setters. -/
inductive Edit where
  | mtNodeId (v : UInt32)
  | mtNodeIdStr (s : List UInt8)
  | mtLongName (s : List UInt8)
  | mtShortName (s : List UInt8)
  | positionEnabled (v : Bool)
  | telemetryEnabled (v : Bool)
  | region (v : UInt8)
  | radio (i : ℤ) (edit : RadioEdit)

def Edit.apply (cfg : PersistedV5) : Edit → PersistedV5
  | .mtNodeId v => { cfg with mtNodeId := v }
  | .mtNodeIdStr s => { cfg with mtNodeIdStr := copyStr MT_NODE_ID_STR_MAX s }
  | .mtLongName s => { cfg with mtLongName := copyStr MT_LONG_NAME_MAX s }
  | .mtShortName s => { cfg with mtShortName := copyStr MT_SHORT_NAME_MAX s }
  | .positionEnabled v => { cfg with positionEnabled := if v then 1 else 0 }
  | .telemetryEnabled v => { cfg with telemetryEnabled := if v then 1 else 0 }
  | .region v => { cfg with region := v }
  | .radio i edit => cfg.setRadio (clampRadio i) (edit.apply (cfg.radio (clampRadio i)))

/-! ## What holds of a live configuration -/

/-- The strings of a slot end with terminators. -/
structure RadioSlot.Terminated (slot : RadioSlot) : Prop where
  channelName : slot.channelName.Sealed
  channelKey : slot.channelKey.Sealed

/-- The live configuration has the current schema, and its strings end with terminators. -/
structure PersistedV5.Live (cfg : PersistedV5) : Prop where
  version : cfg.version = SCHEMA_VERSION
  mtNodeIdStr : cfg.mtNodeIdStr.Sealed
  mtLongName : cfg.mtLongName.Sealed
  mtShortName : cfg.mtShortName.Sealed
  radio : ∀ i, (cfg.radio i).Terminated

theorem terminated_defaultRadio (i : Radio) : (defaultRadio flags i).Terminated where
  channelName := by
    unfold defaultRadio
    cases (flags.radio i).channelName with
    | none => exact sealed_copyStr _ _
    | some name => exact sealed_copyStr _ _
  channelKey := by
    unfold defaultRadio
    cases (flags.radio i).channelKey with
    | none => exact sealed_copyStr _ _
    | some key => exact sealed_copyStr _ _

theorem live_loadDefaults : (loadDefaults flags).Live where
  version := rfl
  mtNodeIdStr := sealed_copyStr _ _
  mtLongName := sealed_copyStr _ _
  mtShortName := sealed_copyStr _ _
  radio := terminated_defaultRadio flags

theorem PersistedV5.Live.setRadio {cfg : PersistedV5} (hlive : cfg.Live) (i : Radio)
    {slot : RadioSlot} (hslot : slot.Terminated) : (cfg.setRadio i slot).Live where
  version := hlive.version
  mtNodeIdStr := hlive.mtNodeIdStr
  mtLongName := hlive.mtLongName
  mtShortName := hlive.mtShortName
  radio j := by
    unfold PersistedV5.setRadio
    rcases eq_or_ne j i with rfl | hne
    · simpa using hslot
    · simpa [Function.update_of_ne hne] using hlive.radio j

theorem RadioEdit.terminated {slot : RadioSlot} (hslot : slot.Terminated) (edit : RadioEdit) :
    (edit.apply slot).Terminated := by
  cases edit with
  | channelName s => exact ⟨sealed_copyStr _ _, hslot.channelKey⟩
  | channelKey s => exact ⟨hslot.channelName, sealed_copyStr _ _⟩
  | _ => exact ⟨hslot.channelName, hslot.channelKey⟩

/-- No setter breaks it. -/
theorem Edit.live {cfg : PersistedV5} (hlive : cfg.Live) (edit : Edit) :
    (edit.apply cfg).Live := by
  cases edit with
  | mtNodeIdStr s => exact { hlive with mtNodeIdStr := sealed_copyStr _ _ }
  | mtLongName s => exact { hlive with mtLongName := sealed_copyStr _ _ }
  | mtShortName s => exact { hlive with mtShortName := sealed_copyStr _ _ }
  | radio i edit => exact hlive.setRadio _ (edit.terminated (hlive.radio _))
  | _ => exact ⟨hlive.version, hlive.mtNodeIdStr, hlive.mtLongName, hlive.mtShortName,
      hlive.radio⟩

end LoraBridge.BridgeConfig
