import LoraBridge.Portal.FormFields

/-!
# The ranges of accepted radios

The fields of a radio are parsed as numbers and cut to bytes before they are checked.  A
number that wraps into its range is accepted, and so is a protocol that does not exist.
-/

namespace LoraBridge.RadioRanges

open LoraBridge.Base64 LoraBridge.BridgeConfig LoraBridge.ConfigForm LoraBridge.FormFields
open LoraBridge.FormText LoraBridge.RadioForm LoraBridge.ReserveAhead

/-- `syncForProtocol`. -/
def syncForProtocol (proto : UInt8) : UInt8 :=
  if proto = PROTO_MT then 0x2B
  else if proto = PROTO_MC then 0x12
  else if proto = PROTO_RNS then 0x42
  else if proto = PROTO_LORAWAN then 0x34
  else 0x00

/-- The spreading factor a radio is submitted with: a number, or that of its preset. -/
def submittedSf (form : Fields) (proto : UInt8) : ℤ :=
  if proto = PROTO_MT then (modemPresetParams (byteOf form.preset)).sf.toNat else toInt form.sf

def submittedCr (form : Fields) (proto : UInt8) : ℤ :=
  if proto = PROTO_MT then (modemPresetParams (byteOf form.preset)).cr.toNat else toInt form.cr

/-- What an active radio is expected to be. -/
structure Valid (region : UInt8) (i : Radio) (form : Fields) (slot : RadioSlot) : Prop where
  protocol : 1 ≤ slot.protocol ∧ slot.protocol ≤ 5
  sync : slot.protocol ≠ PROTO_CUSTOM → slot.syncWord = syncForProtocol slot.protocol
  sf : (slot.sf.toNat : ℤ) = submittedSf form slot.protocol ∧ 5 ≤ slot.sf ∧ slot.sf ≤ 12
  cr : (slot.cr.toNat : ℤ) = submittedCr form slot.protocol ∧ 5 ≤ slot.cr ∧ slot.cr ≤ 8
  txPower : SX1262_TX_MIN ≤ slot.txPower.toInt ∧ slot.txPower.toInt ≤ SX1262_TX_MAX ∧
    (regionHasBand region = true → slot.txPower.toInt ≤ (regionInfo region).powerLimit)
  routeMask : routes slot.routeMask i = false ∧ slot.routeMask < 16

/-! ## TX power and routes -/

theorem powerLimit_range (region : UInt8) :
    SX1262_TX_MIN ≤ (regionInfo region).powerLimit := by
  have hrows : ∀ n < kRegionCount, SX1262_TX_MIN ≤ (kRegions.getD n ⟨0, 0, 0⟩).powerLimit := by
    decide
  rw [regionInfo]
  split
  · exact hrows 0 (by decide)
  · exact hrows _ (by omega)

theorem txPowerOf_range (region : UInt8) (form : Fields) :
    SX1262_TX_MIN ≤ txPowerOf region form ∧ txPowerOf region form ≤ SX1262_TX_MAX ∧
      (regionHasBand region = true → txPowerOf region form ≤ (regionInfo region).powerLimit) := by
  have hcap : SX1262_TX_MIN ≤ txCap region ∧ txCap region ≤ SX1262_TX_MAX := by
    unfold txCap
    split
    · rename_i hband
      exact ⟨powerLimit_range region, hband.2.le⟩
    · exact ⟨by decide, le_rfl⟩
  have hlimit : regionHasBand region = true → txCap region ≤ (regionInfo region).powerLimit := by
    intro hband
    unfold txCap
    split
    · exact le_rfl
    · rename_i hlarge
      exact not_lt.mp fun hsmall => hlarge ⟨hband, hsmall⟩
  rw [txPowerOf]
  refine ⟨le_max_right _ _, max_le ((min_le_right _ _).trans hcap.2) (by decide), ?_⟩
  exact fun hband => (max_le (min_le_right _ _) hcap.1).trans (hlimit hband)

theorem toInt_txPower (region : UInt8) (form : Fields) :
    (Int8.ofInt (txPowerOf region form)).toInt = txPowerOf region form := by
  obtain ⟨hmin, hmax, -⟩ := txPowerOf_range region form
  exact Int8.toInt_ofInt_of_le (le_trans (by decide) hmin) (lt_of_le_of_lt hmax (by decide))

theorem routeMaskOf_range (i : Radio) (form : Fields) :
    routes (routeMaskOf i form) i = false ∧ routeMaskOf i form < 16 := by
  have htable : ∀ (i : Radio) (ticked : Radio → Bool),
      (List.finRange NUM_RADIOS).foldl (fun mask j => if j = i then mask
        else if ticked j then mask ||| (1 : UInt8) <<< UInt8.ofNat j.val else mask) 0 < 16 := by
    decide +kernel
  have hradio := htable i fun j => decide (form.routeTo j = ['1'])
  simp only [decide_eq_true_eq] at hradio
  refine ⟨?_, hradio⟩
  rw [Bool.eq_false_iff, ne_eq, routes_routeMaskOf]
  exact fun hself => hself.1 rfl

/-! ## The branch of a protocol -/

theorem known_cases {proto : UInt8} (hknown : 1 ≤ proto ∧ proto ≤ 5) :
    proto = PROTO_MT ∨ proto = PROTO_MC ∨ proto = PROTO_RNS ∨ proto = PROTO_CUSTOM ∨
      proto = PROTO_LORAWAN := by
  have hlow := UInt8.le_iff_toNat_le.mp hknown.1
  have hhigh := UInt8.le_iff_toNat_le.mp hknown.2
  have heq : ∀ other : UInt8, proto.toNat = other.toNat → proto = other :=
    fun other => UInt8.toNat_inj.mp
  have hvalues : proto.toNat = 1 ∨ proto.toNat = 2 ∨ proto.toNat = 3 ∨ proto.toNat = 4 ∨
      proto.toNat = 5 := by
    simp only [UInt8.toNat_ofNat] at hlow hhigh
    omega
  exact hvalues.imp (heq 1) (Or.imp (heq 2) (Or.imp (heq 3) (Or.imp (heq 4) (heq 5))))

/-- The sync word of a known protocol, but for Custom's, is the table's. -/
theorem syncAsked_of_known {form : Fields} (hknown : 1 ≤ byteOf form.proto ∧ byteOf form.proto ≤ 5)
    (hcustom : byteOf form.proto ≠ PROTO_CUSTOM) :
    syncAsked form = syncForProtocol (byteOf form.proto) := by
  unfold syncAsked
  rw [if_neg hcustom]
  rcases known_cases hknown with hproto | hproto | hproto | hproto | hproto
  case inr.inr.inr.inl => exact absurd hproto hcustom
  all_goals
    rw [hproto]
    rfl

theorem preset_range (preset : UInt8) :
    (5 ≤ (modemPresetParams preset).sf ∧ (modemPresetParams preset).sf ≤ 12) ∧
      5 ≤ (modemPresetParams preset).cr ∧ (modemPresetParams preset).cr ≤ 8 := by
  unfold modemPresetParams
  split_ifs <;> decide

/-! ## Accepted radios -/

/-- The numbers of a radio are bytes: its protocol one of the five behind the cast, and what
its protocol takes from the form a byte before it. -/
def InBytes (form : Fields) : Prop :=
  byteOf form.proto ≤ 5 ∧ (byteOf form.proto ≠ PROTO_MT →
    (0 ≤ toInt form.sf ∧ toInt form.sf < 256) ∧ 0 ≤ toInt form.cr ∧ toInt form.cr < 256)

/-- A byte is the number it was cut from exactly when that is a byte. -/
theorem byteOf_eq_iff (text : Text) :
    ((byteOf text).toNat : ℤ) = toInt text ↔ 0 ≤ toInt text ∧ toInt text < 256 := by
  rw [byteOf, UInt8.toNat_ofNat']
  omega

theorem takesModem_of_known {proto : UInt8} (hknown : 1 ≤ proto ∧ proto ≤ 5)
    (hmeshtastic : proto ≠ PROTO_MT) : takesModem proto = true := by
  rcases known_cases hknown with rfl | rfl | rfl | rfl | rfl
  · exact absurd rfl hmeshtastic
  all_goals rfl

theorem one_le_of_active {proto : UInt8} (hactive : proto ≠ PROTO_NONE) : 1 ≤ proto := by
  have hpos : proto.toNat ≠ 0 := fun hzero => hactive (UInt8.toNat_inj.mp hzero)
  exact UInt8.le_iff_toNat_le.mpr (by simp only [UInt8.toNat_ofNat]; omega)

/-- One accepted radio. -/
theorem valid_activeSlot_iff {base64 : Coder} {floats : Floats} {region : UInt8} {i : Radio}
    {form : Fields} {modem : Modem} {variant : Variant} {lwRegion : UInt8}
    (hactive : byteOf form.proto ≠ PROTO_NONE)
    (hmodem : modemOf floats (byteOf form.proto) form = .ok modem)
    (hvariant : variantOf base64 (byteOf form.proto) form modem lwRegion = .ok variant) :
    Valid region i form (activeSlot floats region i form variant) ↔ InBytes form := by
  have hone := one_le_of_active hactive
  obtain ⟨-, hasked⟩ := variantOf_eq_ok_iff.mp hvariant
  have hvariantModem := congrArg Variant.modem hasked
  dsimp only at hvariantModem
  constructor
  · intro hvalid
    refine ⟨hvalid.protocol.2, fun hmeshtastic => ?_⟩
    have htyped := modemOf_typed (takesModem_of_known ⟨hone, hvalid.protocol.2⟩ hmeshtastic) hmodem
    rw [if_neg hmeshtastic, htyped.1] at hvariantModem
    have hsf := hvalid.sf.1
    have hcr := hvalid.cr.1
    rw [activeSlot, hvariantModem] at hsf hcr
    dsimp only at hsf hcr
    rw [submittedSf, if_neg hmeshtastic] at hsf
    rw [submittedCr, if_neg hmeshtastic] at hcr
    exact ⟨(byteOf_eq_iff _).mp hsf, (byteOf_eq_iff _).mp hcr⟩
  · rintro ⟨hknown, hbytes⟩
    have hmodems : ((variant.modem.sf.toNat : ℤ) = submittedSf form (byteOf form.proto) ∧
        5 ≤ variant.modem.sf ∧ variant.modem.sf ≤ 12) ∧
        ((variant.modem.cr.toNat : ℤ) = submittedCr form (byteOf form.proto) ∧
          5 ≤ variant.modem.cr ∧ variant.modem.cr ≤ 8) := by
      by_cases hmeshtastic : byteOf form.proto = PROTO_MT
      · have hpreset := preset_range (byteOf form.preset)
        rw [if_pos hmeshtastic] at hvariantModem
        rw [hvariantModem, submittedSf, if_pos hmeshtastic, submittedCr, if_pos hmeshtastic]
        exact ⟨⟨rfl, hpreset.1⟩, rfl, hpreset.2⟩
      · obtain ⟨hform, -, hsf, hcr⟩ :=
          modemOf_typed (takesModem_of_known ⟨hone, hknown⟩ hmeshtastic) hmodem
        obtain ⟨hsfByte, hcrByte⟩ := hbytes hmeshtastic
        rw [if_neg hmeshtastic] at hvariantModem
        rw [hvariantModem, submittedSf, if_neg hmeshtastic, submittedCr, if_neg hmeshtastic]
        refine ⟨⟨?_, hsf⟩, ?_, hcr⟩
        · rw [hform]
          exact (byteOf_eq_iff _).mpr hsfByte
        · rw [hform]
          exact (byteOf_eq_iff _).mpr hcrByte
    exact {
      protocol := ⟨hone, hknown⟩
      sync := fun hcustom =>
        (congrArg Variant.sync hasked).trans (syncAsked_of_known ⟨hone, hknown⟩ hcustom)
      sf := hmodems.1
      cr := hmodems.2
      txPower := by
        have hpower := toInt_txPower region form
        rw [activeSlot]
        dsimp only
        rw [hpower]
        exact txPowerOf_range region form
      routeMask := routeMaskOf_range i form }

section Saved

variable {portal : Portal} {form : Form} {opened : Bool} {writeDevices writeConfig : Write}
  {state : State}

/-- An active radio of an accepted form is valid exactly when its protocol is one of the five
behind the cast and no number of its modem wraps. -/
theorem active_radio_valid_iff
    (haccepted : (handleSave portal form opened writeDevices writeConfig state).2 = none)
    (i : Radio)
    (hactive : ((saved portal form opened writeDevices writeConfig state).radio i).protocol ≠
      PROTO_NONE) :
    Valid (saved portal form opened writeDevices writeConfig state).region i (form.radio i)
        ((saved portal form opened writeDevices writeConfig state).radio i) ↔
      InBytes (form.radio i) := by
  obtain ⟨hproto, modem, variant, lwRegion, hmodem, hvariant, hslot⟩ :=
    radio_saved haccepted hactive
  rw [region_saved haccepted, hslot]
  exact valid_activeSlot_iff hproto hmodem hvariant

end Saved

/-! ## A protocol that does not exist -/

theorem active_radio_valid_meshtastic :
    Valid (stored (r1Form ['1'] [])).region 0 ((r1Form ['1'] []).radio 0)
        ((stored (r1Form ['1'] [])).radio 0) ↔ InBytes ((r1Form ['1'] []).radio 0) :=
  active_radio_valid_iff (by decide) 0 (by decide)

/-- Protocol 6 is stored as a Reticulum radio of that number. -/
theorem protocol_six_accepted :
    ¬ ∀ form : Form, (handleSave stockPortal form true .confirmed .confirmed stockState).2 = none →
      ∀ i, ((stored form).radio i).protocol ≠ PROTO_NONE →
        Valid (stored form).region i (form.radio i) ((stored form).radio i) := by
  intro hall
  have hvalid := hall (r1Form ['6'] []) (by decide) 0 (by decide)
  exact absurd hvalid.protocol.2 (by decide)

end LoraBridge.RadioRanges
