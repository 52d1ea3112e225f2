import LoraBridge.Portal.FormFields

/-!
# Rejected configuration forms

A form that is rejected has changed the live configuration, unless what stands ahead of the
rejected field asks for what is there already.  NVS is written only for an accepted form.
-/

namespace LoraBridge.ConfigRejection

open LoraBridge.BridgeConfig LoraBridge.ConfigForm LoraBridge.FormFields LoraBridge.LoRaWANConfig
open LoraBridge.LoRaWANDevices LoraBridge.RadioForm LoraBridge.ReserveAhead LoraBridge.SlotEdits

/-! ## The devices as edits -/

/-- The slots with their counters. -/
def slotsOf (lorawan : LoRaWANConfig.State) (slot : Slot) : Device × Counter :=
  (lorawan.ram.dev slot, lorawan.ram.counter slot)

def setSlots (lorawan : LoRaWANConfig.State) (table : Slot → Device × Counter) :
    LoRaWANConfig.State :=
  { lorawan with ram := { lorawan.ram with
      dev := fun slot => (table slot).1
      counter := fun slot => (table slot).2 } }

/-- What a form makes of a slot and its counter. -/
def deviceEdit (nvs : Nvs) (forms : Slot → DeviceForm) (slot : Slot)
    (current : Device × Counter) : Except String (Device × Counter) :=
  if (forms slot).en = ['1'] then
    (deviceOf (forms slot)).map fun d =>
      (d, if d.devAddr ≠ current.1.devAddr then counterFor nvs d.devAddr else current.2)
  else .ok (Device.empty, resume 0)

theorem setSlots_slotsOf (lorawan : LoRaWANConfig.State) :
    setSlots lorawan (slotsOf lorawan) = lorawan := rfl

theorem setSlots_eq_self_iff {lorawan : LoRaWANConfig.State} {table : Slot → Device × Counter} :
    setSlots lorawan table = lorawan ↔ table = slotsOf lorawan := by
  constructor
  · intro hsame
    funext slot
    have hslot := congrArg (fun state => slotsOf state slot) hsame
    exact hslot
  · rintro rfl
    exact setSlots_slotsOf lorawan

/-- One slot is set. -/
theorem setSlots_update (lorawan : LoRaWANConfig.State) (slot : Slot) (d : Device)
    (counter : Counter) :
    setSlots lorawan (Function.update (slotsOf lorawan) slot (d, counter)) =
      { lorawan with ram := { lorawan.ram with
          dev := Function.update lorawan.ram.dev slot d
          counter := Function.update lorawan.ram.counter slot counter } } := by
  have hdev := Function.comp_update Prod.fst (slotsOf lorawan) slot (d, counter)
  have hcounter := Function.comp_update Prod.snd (slotsOf lorawan) slot (d, counter)
  exact congrArg₂ (fun dev counter => { lorawan with ram := { lorawan.ram with
    dev := dev, counter := counter } }) hdev hcounter

theorem setDevice_eq (slot : Slot) (d : Device) (lorawan : LoRaWANConfig.State) :
    setDevice slot d lorawan = setSlots lorawan (Function.update (slotsOf lorawan) slot
      (d, if d.devAddr ≠ (lorawan.ram.dev slot).devAddr then counterFor lorawan.nvs d.devAddr
        else lorawan.ram.counter slot)) := by
  rw [setSlots_update, setDevice, slotOf_slot]
  dsimp only
  split
  · rfl
  · rw [Function.update_eq_self]

theorem clearDevice_eq (slot : Slot) (lorawan : LoRaWANConfig.State) :
    clearDevice slot lorawan = setSlots lorawan
      (Function.update (slotsOf lorawan) slot (Device.empty, resume 0)) := by
  rw [setSlots_update, clearDevice, slotOf_slot]

/-- The calls of the loop are edits of the slots. -/
theorem applySlots_eq (forms : Slot → DeviceForm) (slots : List Slot)
    (lorawan : LoRaWANConfig.State) :
    applySlots forms slots lorawan =
      (setSlots lorawan (editAll (deviceEdit lorawan.nvs forms) slots (slotsOf lorawan)).1,
        (editAll (deviceEdit lorawan.nvs forms) slots (slotsOf lorawan)).2) := by
  induction slots generalizing lorawan with
  | nil => rfl
  | cons slot rest ih =>
      rw [applySlots, editAll, deviceEdit]
      by_cases hen : (forms slot).en = ['1']
      · rw [if_pos hen, if_pos hen]
        cases deviceOf (forms slot) with
        | error message => rfl
        | ok d =>
            dsimp only [Except.map]
            rw [ih, setDevice_eq]
            rfl
      · rw [if_neg hen, if_neg hen]
        dsimp only
        rw [ih, clearDevice_eq]
        rfl

section Device

variable {nvs : Nvs} {forms : Slot → DeviceForm} {slot : Slot} {current : Device × Counter}

theorem deviceEdit_accepts_iff :
    (∃ next, deviceEdit nvs forms slot current = .ok next) ↔ DeviceInOrder (forms slot) := by
  unfold deviceEdit DeviceInOrder
  by_cases hen : (forms slot).en = ['1']
  · rw [if_pos hen, ← deviceOf_accepts_iff]
    cases deviceOf (forms slot) with
    | error message => simp [Except.map, hen]
    | ok d => simp [Except.map]
  · rw [if_neg hen]
    exact iff_of_true ⟨_, rfl⟩ fun hticked => absurd hticked hen

/-- A device that is in order keeps its slot and counter exactly when the slot holds what it
asks for: its address is then the present one. -/
theorem deviceEdit_eq_self_iff (horder : DeviceInOrder (forms slot)) :
    deviceEdit nvs forms slot current = .ok current ↔
      DeviceStored (forms slot) current.1 current.2 := by
  unfold deviceEdit DeviceStored
  by_cases hen : (forms slot).en = ['1']
  · obtain ⟨d, hd⟩ := deviceOf_accepts_iff.mpr (horder hen)
    have hstored : EnabledStored (forms slot) current.1 ↔ d = current.1 := by
      have hdevice := @deviceOf_eq_ok_iff_stored (forms slot) current.1
      rw [hd, Except.ok.injEq, and_iff_right (horder hen)] at hdevice
      exact hdevice.symm
    rw [if_pos hen, hd]
    simp only [Except.map, Except.ok.injEq, hen, ne_eq, not_true_eq_false, false_imp_iff, true_and,
      true_imp_iff, hstored, Prod.ext_iff]
    constructor
    · exact And.left
    · rintro rfl
      exact ⟨rfl, if_neg (not_not.mpr rfl)⟩
  · rw [if_neg hen, Except.ok.injEq, Prod.ext_iff]
    simp [hen, eq_comm]

end Device

/-! ## The fields ahead of a rejection -/

section Portal

variable (portal : Portal) (form : Form) (state : ConfigForm.State)

/-- What the form makes of a radio. -/
def radioEdit (i : Radio) (slot : RadioSlot) : Except String RadioSlot :=
  applyRadio portal.base64 portal.floats (regionOf form) i (form.radio i) slot

/-- No field is rejected. -/
structure Accepted : Prop where
  identity : IdentityInOrder form
  radios : RadiosInOrder portal.base64 portal.floats form
  device : portal.lwEncode = true → ∀ slot, DeviceInOrder (form.device slot)

/-- What stands ahead of the rejected field asks for what is there: the radios up to which all
are in order and, once the radios are passed, the fields of the bridge and the devices up to
which all are in order. -/
structure AsksForStored : Prop where
  radio : ∀ i, (∀ j ≤ i, RadioInOrder portal.base64 portal.floats (form.radio j)) →
    RadioStored portal.floats (regionOf form) i (form.radio i) (state.config.live.radio i)
  bridge : RadiosInOrder portal.base64 portal.floats form → BridgeStored form state.config.live
  device : RadiosInOrder portal.base64 portal.floats form → portal.lwEncode = true →
    ∀ slot, (∀ earlier ≤ slot, DeviceInOrder (form.device earlier)) →
      DeviceStored (form.device slot) (state.lorawan.ram.dev slot)
        (state.lorawan.ram.counter slot)

/-- Answered with an error, nothing has changed, neither in memory nor in NVS. -/
def RejectsAtomically : Prop :=
  ∀ (opened : Bool) (writeDevices writeConfig : Write) (message : String),
    (handleSave portal form opened writeDevices writeConfig state).2 = some message →
      (handleSave portal form opened writeDevices writeConfig state).1 = state

end Portal

section Proofs

variable {portal : Portal} {form : Form} {state : ConfigForm.State}

theorem applyRadios_eq (cfg : PersistedV5) :
    applyRadios portal form cfg =
      ({ cfg with radio :=
          (editAll (radioEdit portal form) (List.finRange NUM_RADIOS) cfg.radio).1 },
        (editAll (radioEdit portal form) (List.finRange NUM_RADIOS) cfg.radio).2) := rfl

theorem withLive_eq_self_iff {cfg : PersistedV5} :
    state.withLive cfg = state ↔ cfg = state.config.live := by
  constructor
  · intro hsame
    exact congrArg (fun other => other.config.live) hsame
  · rintro rfl
    rfl

theorem withRadio_eq_self_iff {cfg : PersistedV5} {radio : Radio → RadioSlot} :
    { cfg with radio := radio } = cfg ↔ radio = cfg.radio := by
  constructor
  · intro hsame
    exact congrArg PersistedV5.radio hsame
  · rintro rfl
    rfl

theorem commit_radio_eq_self_iff {mtNodeId : UInt32} {cfg : PersistedV5}
    {radio : Radio → RadioSlot} :
    commit form mtNodeId { cfg with radio := radio } = cfg ↔
      radio = cfg.radio ∧ commit form mtNodeId cfg = cfg := by
  constructor
  · intro hsame
    have hradio : radio = cfg.radio := congrArg PersistedV5.radio hsame
    subst hradio
    exact ⟨rfl, hsame⟩
  · rintro ⟨rfl, hsame⟩
    exact hsame

/-- The radios that are written hold what the form asks for. -/
theorem editAll_radios_iff :
    (editAll (radioEdit portal form) (List.finRange NUM_RADIOS) state.config.live.radio).1 =
        state.config.live.radio ↔
      ∀ i, (∀ j ≤ i, RadioInOrder portal.base64 portal.floats (form.radio j)) →
        RadioStored portal.floats (regionOf form) i (form.radio i)
          (state.config.live.radio i) := by
  rw [editAll_eq_self_iff (List.nodup_finRange NUM_RADIOS)]
  refine forall_congr' fun i => ?_
  rw [mem_reached_finRange_iff]
  simp only [radioEdit, applyRadio_accepts_iff]
  exact forall_congr' fun hradios => applyRadio_eq_self_iff (hradios i le_rfl)

/-- The devices that are written hold what the form asks for. -/
theorem editAll_devices_iff :
    (editAll (deviceEdit state.lorawan.nvs form.device) (List.finRange MAX_DEVICES)
        (slotsOf state.lorawan)).1 = slotsOf state.lorawan ↔
      ∀ slot, (∀ earlier ≤ slot, DeviceInOrder (form.device earlier)) →
        DeviceStored (form.device slot) (state.lorawan.ram.dev slot)
          (state.lorawan.ram.counter slot) := by
  rw [editAll_eq_self_iff (List.nodup_finRange MAX_DEVICES)]
  refine forall_congr' fun slot => ?_
  rw [mem_reached_finRange_iff]
  simp only [deviceEdit_accepts_iff]
  exact forall_congr' fun hdevices => deviceEdit_eq_self_iff (hdevices slot le_rfl)

/-- Radios that are all in order become what the form asks for. -/
theorem editAll_radios_inOrder
    (hradios : ∀ i, RadioInOrder portal.base64 portal.floats (form.radio i)) :
    editAll (radioEdit portal form) (List.finRange NUM_RADIOS) state.config.live.radio =
      (fun i => askedSlot portal.floats (regionOf form) i (form.radio i)
        (state.config.live.radio i), none) := by
  have hnodup := List.nodup_finRange NUM_RADIOS
  have hedit : ∀ i, radioEdit portal form i (state.config.live.radio i) =
      .ok (askedSlot portal.floats (regionOf form) i (form.radio i)
        (state.config.live.radio i)) := fun i => applyRadio_of_inOrder (hradios i)
  have hnone : (editAll (radioEdit portal form) (List.finRange NUM_RADIOS)
      state.config.live.radio).2 = none :=
    (editAll_none_iff hnodup).mpr fun i _ => ⟨_, hedit i⟩
  refine Prod.ext ?_ hnone
  rw [editAll_eq_edited hnodup List.mem_finRange hnone]
  funext i
  rw [edited, hedit i]

/-- The devices of a bridge whose radios are passed. -/
theorem applyDevices_eq (write : Write) (hencode : portal.lwEncode = true)
    (lorawan : LoRaWANConfig.State) :
    applyDevices portal form write lorawan =
      match editAll (deviceEdit lorawan.nvs form.device) (List.finRange MAX_DEVICES)
          (slotsOf lorawan) with
      | (table, none) => (saveTable write (setSlots lorawan table), none)
      | (table, some message) => (setSlots lorawan table, some message) := by
  rw [applyDevices, if_pos hencode, applyLoRaWANDevices, applySlots_eq]
  generalize editAll (deviceEdit lorawan.nvs form.device) (List.finRange MAX_DEVICES)
    (slotsOf lorawan) = result
  obtain ⟨table, _ | message⟩ := result <;> rfl

/-- No device is rejected. -/
theorem applyDevices_done (hdevices : portal.lwEncode = true →
      ∀ slot, DeviceInOrder (form.device slot)) (write : Write) :
    (applyDevices portal form write state.lorawan).2 = none := by
  by_cases hencode : portal.lwEncode = true
  · have hnone : (editAll (deviceEdit state.lorawan.nvs form.device) (List.finRange MAX_DEVICES)
        (slotsOf state.lorawan)).2 = none :=
      (editAll_none_iff (List.nodup_finRange MAX_DEVICES)).mpr fun slot _ =>
        deviceEdit_accepts_iff.mpr (hdevices hencode slot)
    rw [applyDevices_eq _ hencode]
    generalize editAll (deviceEdit state.lorawan.nvs form.device) (List.finRange MAX_DEVICES)
      (slotsOf state.lorawan) = result at hnone ⊢
    obtain ⟨table, devicesError⟩ := result
    obtain rfl : devicesError = none := hnone
    rfl
  · rw [applyDevices, if_neg hencode]

section Stages

variable {mtNodeId : UInt32} (hid : mtNodeIdOf form = .ok mtNodeId)
include hid

/-- The form is rejected at a radio, or at what the radios are together. -/
theorem handleSave_of_radiosRejected (state : ConfigForm.State)
    (hrejected : ¬ RadiosInOrder portal.base64 portal.floats form) :
    ∃ message, ∀ opened writeDevices writeConfig,
      handleSave portal form opened writeDevices writeConfig state =
        (state.withLive { state.config.live with radio := (editAll (radioEdit portal form)
          (List.finRange NUM_RADIOS) state.config.live.radio).1 }, some message) := by
  cases herror : (editAll (radioEdit portal form) (List.finRange NUM_RADIOS)
      state.config.live.radio).2 with
  | some message =>
      refine ⟨message, fun opened writeDevices writeConfig => ?_⟩
      rw [handleSave, hid]
      dsimp only
      rw [applyRadios_eq, herror]
  | none =>
      have hradios : ∀ i, RadioInOrder portal.base64 portal.floats (form.radio i) := by
        intro i
        obtain ⟨slot, hslot⟩ := (editAll_none_iff (List.nodup_finRange NUM_RADIOS)).mp herror i
          (List.mem_finRange i)
        exact radioInOrder_of_ok hslot
      cases hguard : radiosError portal.floats fun i => askedSlot portal.floats (regionOf form) i
          (form.radio i) (state.config.live.radio i) with
      | none =>
          obtain ⟨hactive, hnoLoop⟩ := (radiosError_asked_iff _ _).mp hguard
          exact absurd ⟨hradios, hactive, hnoLoop⟩ hrejected
      | some message =>
          refine ⟨message, fun opened writeDevices writeConfig => ?_⟩
          rw [handleSave, hid]
          dsimp only
          rw [applyRadios_eq, editAll_radios_inOrder hradios]
          dsimp only
          rw [hguard]

/-- The radios are passed. -/
theorem handleSave_of_radiosInOrder
    (hradios : RadiosInOrder portal.base64 portal.floats form) (opened : Bool)
    (writeDevices writeConfig : Write) :
    handleSave portal form opened writeDevices writeConfig state =
      let committed := state.withLive (commit form mtNodeId
        { state.config.live with radio := (editAll (radioEdit portal form)
          (List.finRange NUM_RADIOS) state.config.live.radio).1 })
      match applyDevices portal form writeDevices state.lorawan with
      | (lorawan, some message) => ({ committed with lorawan := lorawan }, some message)
      | (lorawan, none) =>
          (⟨Migration.save portal.flags opened writeConfig committed.config, lorawan⟩, none) := by
  have hguard := (radiosError_asked_iff (regionOf form) state.config.live.radio).mpr
    ⟨hradios.active, hradios.noLoop⟩
  rw [handleSave, hid]
  dsimp only
  rw [applyRadios_eq, editAll_radios_inOrder hradios.radio]
  dsimp only
  rw [hguard]
  rfl

theorem rejectsAtomically_iff_radios
    (hrejected : ¬ RadiosInOrder portal.base64 portal.floats form) :
    RejectsAtomically portal form state ↔ AsksForStored portal form state := by
  obtain ⟨message, hsave⟩ := handleSave_of_radiosRejected hid state hrejected
  have hasks : AsksForStored portal form state ↔ state.withLive { state.config.live with
      radio := (editAll (radioEdit portal form) (List.finRange NUM_RADIOS)
        state.config.live.radio).1 } = state := by
    rw [withLive_eq_self_iff, withRadio_eq_self_iff, editAll_radios_iff]
    exact ⟨AsksForStored.radio, fun hradio =>
      ⟨hradio, fun hradios => absurd hradios hrejected, fun hradios => absurd hradios hrejected⟩⟩
  rw [hasks]
  constructor
  · intro hatomic
    have hsame := hatomic true .confirmed .confirmed message (by rw [hsave])
    rwa [hsave] at hsame
  · intro hsame opened writeDevices writeConfig other _
    rw [hsave]
    exact hsame

/-- The form is rejected at a device. -/
theorem rejectsAtomically_iff_devices (hencode : portal.lwEncode = true)
    (hradios : RadiosInOrder portal.base64 portal.floats form)
    (hrejected : ¬ ∀ slot, DeviceInOrder (form.device slot)) :
    RejectsAtomically portal form state ↔ AsksForStored portal form state := by
  have herror : (editAll (deviceEdit state.lorawan.nvs form.device) (List.finRange MAX_DEVICES)
      (slotsOf state.lorawan)).2 ≠ none := by
    intro hnone
    refine hrejected fun slot => ?_
    have hslot := (editAll_none_iff (List.nodup_finRange MAX_DEVICES)).mp hnone slot
      (List.mem_finRange slot)
    exact deviceEdit_accepts_iff.mp hslot
  obtain ⟨message, herror⟩ := Option.ne_none_iff_exists'.mp herror
  have hsave : ∀ opened writeDevices writeConfig,
      handleSave portal form opened writeDevices writeConfig state =
        ({ state.withLive (commit form mtNodeId
            { state.config.live with radio := (editAll (radioEdit portal form)
              (List.finRange NUM_RADIOS) state.config.live.radio).1 }) with
            lorawan := setSlots state.lorawan (editAll (deviceEdit state.lorawan.nvs form.device)
              (List.finRange MAX_DEVICES) (slotsOf state.lorawan)).1 }, some message) := by
    intro opened writeDevices writeConfig
    rw [handleSave_of_radiosInOrder hid hradios, applyDevices_eq _ hencode]
    generalize hresult : editAll (deviceEdit state.lorawan.nvs form.device)
      (List.finRange MAX_DEVICES) (slotsOf state.lorawan) = result at herror ⊢
    obtain ⟨table, devicesError⟩ := result
    obtain rfl : devicesError = some message := herror
    rfl
  have hwhole : RejectsAtomically portal form state ↔
      commit form mtNodeId { state.config.live with radio := (editAll (radioEdit portal form)
          (List.finRange NUM_RADIOS) state.config.live.radio).1 } = state.config.live ∧
        setSlots state.lorawan (editAll (deviceEdit state.lorawan.nvs form.device)
          (List.finRange MAX_DEVICES) (slotsOf state.lorawan)).1 = state.lorawan := by
    constructor
    · intro hatomic
      have hsame := hatomic true .confirmed .confirmed message (by rw [hsave])
      rw [hsave] at hsame
      exact ⟨congrArg (fun other => other.config.live) hsame,
        congrArg ConfigForm.State.lorawan hsame⟩
    · rintro ⟨hlive, hlorawan⟩ opened writeDevices writeConfig other _
      rw [hsave]
      dsimp only
      rw [hlive, hlorawan]
      rfl
  rw [hwhole, commit_radio_eq_self_iff, (mtNodeIdOf_eq_ok_iff.mp hid).2, commit_eq_self_iff,
    editAll_radios_iff, setSlots_eq_self_iff, editAll_devices_iff]
  constructor
  · rintro ⟨⟨hradio, hbridge⟩, hdevice⟩
    exact ⟨hradio, fun _ => hbridge, fun _ _ => hdevice⟩
  · rintro ⟨hradio, hbridge, hdevice⟩
    exact ⟨⟨hradio, hbridge hradios⟩, hdevice hradios hencode⟩

end Stages

/-- A rejected form changes nothing exactly when it is rejected at the identity, or what stands
ahead of the rejected field asks for what is there already. -/
theorem handleSave_rejectsAtomically_iff (portal : Portal) (form : Form)
    (state : ConfigForm.State) :
    RejectsAtomically portal form state ↔
      ¬ IdentityInOrder form ∨ Accepted portal form ∨ AsksForStored portal form state := by
  by_cases hidentity : IdentityInOrder form
  · have hid := mtNodeIdOf_eq_ok_iff.mpr ⟨hidentity, rfl⟩
    rw [or_iff_right (not_not.mpr hidentity)]
    by_cases hradios : RadiosInOrder portal.base64 portal.floats form
    · by_cases hdevices : portal.lwEncode = true → ∀ slot, DeviceInOrder (form.device slot)
      · refine iff_of_true ?_ (.inl ⟨hidentity, hradios, hdevices⟩)
        intro opened writeDevices writeConfig message hmessage
        rw [handleSave_of_radiosInOrder hid hradios] at hmessage
        have hdone : (applyDevices portal form writeDevices state.lorawan).2 = none :=
          applyDevices_done hdevices writeDevices
        generalize applyDevices portal form writeDevices state.lorawan = result
          at hdone hmessage
        obtain ⟨lorawan, devicesError⟩ := result
        obtain rfl : devicesError = none := hdone
        cases hmessage
      · rw [or_iff_right fun haccepted : Accepted portal form => hdevices haccepted.device]
        obtain ⟨hencode, hrejected⟩ := Classical.not_imp.mp hdevices
        exact rejectsAtomically_iff_devices hid hencode hradios hrejected
    · rw [or_iff_right fun haccepted : Accepted portal form => hradios haccepted.radios]
      exact rejectsAtomically_iff_radios hid hradios
  · refine iff_of_true (fun opened writeDevices writeConfig other _ => ?_) (.inl hidentity)
    rw [handleSave]
    cases hid : mtNodeIdOf form with
    | error message => rfl
    | ok mtNodeId => exact absurd (mtNodeIdOf_eq_ok_iff.mp hid).1 hidentity

end Proofs

/-! ## A rejected form that switches off the radios -/

/-- Every radio is set to None. -/
def noRadioForm : Form := radiosForm fun _ => fieldsOf ['0'] [] fun _ => []

theorem radios_off_by_rejected_form : ¬ RejectsAtomically stockPortal noRadioForm stockState := by
  intro hatomic
  have hsame := hatomic true .confirmed .confirmed
    "At least one radio must have a protocol (all set to None)." (by decide)
  exact absurd (congrArg (fun state => (state.config.live.radio 0).protocol) hsame) (by decide)

end LoraBridge.ConfigRejection
