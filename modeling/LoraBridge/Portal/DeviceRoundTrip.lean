import LoraBridge.Core.SlotEdits
import LoraBridge.Portal.FormPrint
import LoraBridge.Portal.LoRaWANDevices

/-!
# The device form, sent back as it was shown

`appendLoRaWANDevices` prints the table into the form that `applyLoRaWANDevices` reads.  A
node id is printed in decimal and read as eight hexadecimal digits.
-/

namespace LoraBridge.DeviceRoundTrip

open LoraBridge.FormPrint LoraBridge.FormText LoraBridge.LoRaWANConfig
open LoraBridge.LoRaWANDevices LoraBridge.ReserveAhead LoraBridge.SlotEdits

/-- What a browser sends for the printed fields of one slot: a box that is not ticked sends
nothing, and a select without a selected option sends its first. -/
def renderDevice (d : Device) : DeviceForm where
  en := if d.inUse ≠ 0 then ['1'] else []
  sel := decimal (if d.srcSel < 3 then d.srcSel.toNat else 0)
  «match» := if d.srcSel ≠ SRC_ANY then decimal d.srcMatch.toNat else []
  addr := if d.devAddr ≠ 0 then hexText upperDigit 8 d.devAddr.toNat else []
  nwk := if d.inUse ≠ 0 then lwHexFromBytes d.nwkSKey.toList else []
  app := if d.inUse ≠ 0 then lwHexFromBytes d.appSKey.toList else []
  port := decimal (if d.fport ≠ 0 then d.fport.toNat else 13)
  tag := if d.flags &&& FLAG_TAG_SRC ≠ 0 then ['1'] else []

/-! ## What a form makes of the table -/

/-- The device an enabled form asks for. -/
structure Denotes (form : DeviceForm) (d : Device) : Prop where
  inUse : d.inUse = 1
  srcSel : d.srcSel = UInt8.ofNat ((toInt form.sel) % 2 ^ 8).toNat
  srcMatch : srcMatchOf d.srcSel form = .ok d.srcMatch
  hexAddr : isHexString (stripHexMark (trim form.addr)) 8 = true
  devAddr : d.devAddr = strtoul16 (stripHexMark (trim form.addr))
  nwkSKey : lwHexToBytes (trim form.nwk) 16 = some d.nwkSKey
  appSKey : lwHexToBytes (trim form.app) 16 = some d.appSKey
  port : 1 ≤ toInt form.port ∧ toInt form.port ≤ 223
  fport : d.fport = UInt8.ofNat (toInt form.port).toNat
  flags : d.flags = if form.tag = ['1'] then FLAG_TAG_SRC else 0

theorem deviceOf_eq_ok_iff {form : DeviceForm} {d : Device} :
    deviceOf form = .ok d ↔ Denotes form d := by
  constructor
  · intro hdevice
    unfold deviceOf at hdevice
    dsimp only [bind, Except.bind] at hdevice
    split at hdevice
    · cases hdevice
    rename_i srcMatch hmatch
    split at hdevice
    · cases hdevice
    rename_i haddr
    dsimp only [pure, Except.pure] at hdevice
    split at hdevice
    case h_2 => cases hdevice
    rename_i nwkSKey hnwk
    split at hdevice
    case h_2 => cases hdevice
    rename_i appSKey happ
    split at hdevice
    · cases hdevice
    rename_i hport
    obtain rfl := Except.ok.inj hdevice
    exact ⟨rfl, rfl, hmatch, by simpa using haddr, rfl, hnwk, happ, by omega, rfl, rfl⟩
  · rintro ⟨hinUse, hsel, hmatch, haddr, hdevAddr, hnwk, happ, hport, hfport, hflags⟩
    obtain ⟨inUse, srcSel, fport, flags, srcMatch, devAddr, nwkSKey, appSKey⟩ := d
    dsimp only at hinUse hsel hmatch hdevAddr hnwk happ hfport hflags
    subst hinUse hsel hdevAddr hfport hflags
    have hbad : ¬ (toInt form.port < 1 ∨ 223 < toInt form.port) := by omega
    simp only [deviceOf, hmatch, haddr, hnwk, happ, hbad, bind, Except.bind, pure, Except.pure,
      Bool.not_true, Bool.false_eq_true, if_false]

/-- What a form makes of one slot. -/
def editOf (forms : Slot → DeviceForm) (slot : Slot) (_ : Device) : Except String Device :=
  if (forms slot).en = ['1'] then deviceOf (forms slot) else .ok Device.empty

theorem dev_setDevice (slot : Slot) (d : Device) (state : State) :
    (setDevice slot d state).ram.dev = Function.update state.ram.dev slot d := by
  rw [setDevice, slotOf_slot]

theorem dev_clearDevice (slot : Slot) (state : State) :
    (clearDevice slot state).ram.dev = Function.update state.ram.dev slot Device.empty := by
  rw [clearDevice, slotOf_slot]

/-- The calls of the loop are edits of the table. -/
theorem applySlots_eq (forms : Slot → DeviceForm) (slots : List Slot) (state : State) :
    ((applySlots forms slots state).1.ram.dev, (applySlots forms slots state).2) =
      editAll (editOf forms) slots state.ram.dev := by
  induction slots generalizing state with
  | nil => rfl
  | cons slot rest ih =>
      rw [applySlots, editAll, editOf]
      by_cases hen : (forms slot).en = ['1']
      · rw [if_pos hen, if_pos hen]
        cases deviceOf (forms slot) with
        | error message => rfl
        | ok d =>
            dsimp only
            rw [ih, dev_setDevice]
      · rw [if_neg hen, if_neg hen]
        dsimp only
        rw [ih, dev_clearDevice]

theorem applyLoRaWANDevices_eq (forms : Slot → DeviceForm) (write : Write) (state : State) :
    ((applyLoRaWANDevices forms write state).1.ram.dev,
      (applyLoRaWANDevices forms write state).2) =
        editAll (editOf forms) (List.finRange MAX_DEVICES) state.ram.dev := by
  rw [← applySlots_eq, applyLoRaWANDevices]
  generalize applySlots forms (List.finRange MAX_DEVICES) state = result
  obtain ⟨next, _ | message⟩ := result <;> rfl

/-- The form that shows the table is accepted, and the table is as it was. -/
def RoundTrips (dev : Slot → Device) : Prop :=
  ∀ (write : Write) (state : State), state.ram.dev = dev →
    (applyLoRaWANDevices (renderDevice ∘ dev) write state).2 = none ∧
      (applyLoRaWANDevices (renderDevice ∘ dev) write state).1.ram.dev = dev

/-- A state with a given table. -/
def stateOf (dev : Slot → Device) : State where
  nvs := ⟨none, fun _ => 0⟩
  ram := ⟨dev, fun _ => resume 0, 0, resume 0⟩

theorem roundTrips_iff_edits {dev : Slot → Device} :
    RoundTrips dev ↔ ∀ slot, editOf (renderDevice ∘ dev) slot (dev slot) = .ok (dev slot) := by
  have hedits := @editAll_eq_none_iff _ _ _ (editOf (renderDevice ∘ dev)) dev _ _
    (List.nodup_finRange MAX_DEVICES)
  constructor
  · intro htrips slot
    obtain ⟨hnone, hdev⟩ := htrips .confirmed (stateOf dev) rfl
    have heq := applyLoRaWANDevices_eq (renderDevice ∘ dev) .confirmed (stateOf dev)
    rw [hnone, hdev] at heq
    exact hedits.mp heq.symm slot (List.mem_finRange slot)
  · intro hall write state hstate
    have heq := applyLoRaWANDevices_eq (renderDevice ∘ dev) write state
    rw [hstate, hedits.mpr fun slot _ => hall slot] at heq
    exact ⟨congrArg Prod.snd heq, congrArg Prod.fst heq⟩

/-! ## Tables of accepted forms -/

/-- The tables that accepted saves lead to. -/
inductive Reachable : (Slot → Device) → Prop
  | erased : Reachable fun _ => Device.empty
  | saved (forms : Slot → DeviceForm) (write : Write) (state : State)
      (hbefore : Reachable state.ram.dev)
      (haccepted : (applyLoRaWANDevices forms write state).2 = none) :
      Reachable (applyLoRaWANDevices forms write state).1.ram.dev

/-- A device that a form was accepted for. -/
structure Accepted (d : Device) : Prop where
  inUse : d.inUse = 1
  srcMatch : d.srcSel = SRC_MT_NODE ∨ (d.srcSel = SRC_PROTO ∧ 1 ≤ d.srcMatch ∧ d.srcMatch ≤ 4) ∨
    (d.srcSel ≠ SRC_MT_NODE ∧ d.srcSel ≠ SRC_PROTO ∧ d.srcMatch = 0)
  fport : 1 ≤ d.fport.toNat ∧ d.fport.toNat ≤ 223
  flags : d.flags = FLAG_TAG_SRC ∨ d.flags = 0

theorem accepted_of_denotes {form : DeviceForm} {d : Device} (hdenotes : Denotes form d) :
    Accepted d where
  inUse := hdenotes.inUse
  srcMatch := by
    have hmatch := hdenotes.srcMatch
    rw [srcMatchOf] at hmatch
    by_cases hnode : d.srcSel = SRC_MT_NODE
    · exact .inl hnode
    · dsimp only at hmatch
      rw [if_neg hnode] at hmatch
      by_cases hproto : d.srcSel = SRC_PROTO
      · rw [if_pos hproto] at hmatch
        split at hmatch
        · cases hmatch
        · rename_i hrange
          rw [Except.ok.inj hmatch, not_or, UInt32.not_lt, UInt32.not_lt] at hrange
          exact .inr (.inl ⟨hproto, hrange.1, hrange.2⟩)
      · rw [if_neg hproto] at hmatch
        exact .inr (.inr ⟨hnode, hproto, (Except.ok.inj hmatch).symm⟩)
  fport := by
    have hport := hdenotes.port
    rw [hdenotes.fport, UInt8.toNat_ofNat']
    omega
  flags := by
    rw [hdenotes.flags]
    split
    · exact .inl rfl
    · exact .inr rfl

/-- Each slot is empty or holds an accepted device. -/
theorem Reachable.slot {dev : Slot → Device} (hreachable : Reachable dev) (slot : Slot) :
    dev slot = Device.empty ∨ Accepted (dev slot) := by
  cases hreachable with
  | erased => exact .inl rfl
  | saved forms write state _ haccepted =>
      have heq := applyLoRaWANDevices_eq forms write state
      rw [haccepted] at heq
      have hslot := edit_eq_ok_of_none (List.nodup_finRange MAX_DEVICES) heq.symm
        (List.mem_finRange slot)
      rw [editOf] at hslot
      split at hslot
      · exact .inr (accepted_of_denotes (deviceOf_eq_ok_iff.mp hslot))
      · exact .inl (Except.ok.inj hslot).symm

/-! ## Which devices come back -/

/-- What a printed selector is read as. -/
theorem srcSel_renderDevice (d : Device) :
    UInt8.ofNat ((toInt (renderDevice d).sel) % 2 ^ 8).toNat =
      if d.srcSel < 3 then d.srcSel else 0 := by
  unfold renderDevice
  by_cases hsel : d.srcSel < 3
  · rw [if_pos hsel, if_pos hsel, byte_decimal]
  · rw [if_neg hsel, if_neg hsel]
    exact byte_decimal 0

theorem addr_renderDevice {d : Device} (haddr : d.devAddr ≠ 0) :
    stripHexMark (trim (renderDevice d).addr) = hexText upperDigit 8 d.devAddr.toNat := by
  have hdigits := isDigit_hexText prints_upperDigit 8 d.devAddr.toNat
  unfold renderDevice
  rw [if_pos haddr, trim_of_digits hdigits, stripHexMark_of_digits hdigits]

/-- An address is read back, and 0 is printed as no address. -/
theorem hexAddr_renderDevice (d : Device) :
    isHexString (stripHexMark (trim (renderDevice d).addr)) 8 = true ↔ d.devAddr ≠ 0 := by
  by_cases haddr : d.devAddr = 0
  · have hempty : (renderDevice d).addr = [] := if_neg (not_not.mpr haddr)
    rw [hempty]
    simp [haddr, trim, stripHexMark, isHexString]
  · rw [addr_renderDevice haddr, isHexString_hexText prints_upperDigit]
    simp [haddr]

/-- A node id comes back as another one, or as no node id at all. -/
theorem srcMatchOf_node {d : Device} (hnode : d.srcSel = SRC_MT_NODE) :
    srcMatchOf SRC_MT_NODE (renderDevice d) ≠ .ok d.srcMatch := by
  have hmatch : (renderDevice d).match = decimal d.srcMatch.toNat :=
    if_pos (by rw [hnode]; decide)
  have hdigits := isDigit_decimal d.srcMatch.toNat
  rw [srcMatchOf, if_pos rfl, hmatch]
  simp only [trim_decimal, stripHexMark_of_digits hdigits]
  split
  · rename_i hhex
    have hlength : (decimal d.srcMatch.toNat).length = 8 := by
      simp only [isHexString, decide_eq_true_eq] at hhex
      exact hhex.1
    have hsmall := hexValue_lt (decimal d.srcMatch.toNat) 0
    have hlarge : d.srcMatch.toNat < hexValue (decimal d.srcMatch.toNat) 0 := by
      refine (lt_hexValue_decimal _).2 (Nat.le_of_not_lt fun hlt => ?_)
      rw [decimal, Nat.toDigits_of_lt_base hlt] at hlength
      cases hlength
    rw [hlength] at hsmall
    rw [strtoul16_of_digits hdigits (by omega)]
    intro heq
    have hvalue := congrArg UInt32.toNat (Except.ok.inj heq)
    rw [UInt32.toNat_ofNat', Nat.mod_eq_of_lt (by omega)] at hvalue
    omega
  · intro heq
    cases heq

theorem srcMatchOf_proto {d : Device} (hproto : d.srcSel = SRC_PROTO)
    (hrange : 1 ≤ d.srcMatch ∧ d.srcMatch ≤ 4) :
    srcMatchOf SRC_PROTO (renderDevice d) = .ok d.srcMatch := by
  have hmatch : (renderDevice d).match = decimal d.srcMatch.toNat :=
    if_pos (by rw [hproto]; decide)
  have hsmall : d.srcMatch.toNat ≤ 4 := UInt32.le_iff_toNat_le.mp hrange.2
  have hread : UInt32.ofNat ((d.srcMatch.toNat : ℤ) % 2 ^ 32).toNat = d.srcMatch := by
    have hmod : ((d.srcMatch.toNat : ℤ) % 2 ^ 32).toNat = d.srcMatch.toNat := by omega
    rw [hmod, UInt32.ofNat_toNat]
  have hin : ¬ (d.srcMatch < 1 ∨ 4 < d.srcMatch) := by
    rw [not_or, UInt32.not_lt, UInt32.not_lt]
    exact hrange
  rw [srcMatchOf, if_neg (by decide), if_pos rfl, hmatch]
  simp only [trim_decimal]
  rw [toInt_decimal (by omega), hread, if_neg hin]

theorem sel_cases {sel : UInt8} (hknown : sel < 3) :
    sel = SRC_ANY ∨ sel = SRC_MT_NODE ∨ sel = SRC_PROTO := by
  have hlt := UInt8.lt_iff_toNat_lt.mp hknown
  have heq : ∀ other : UInt8, sel.toNat = other.toNat → sel = other :=
    fun other => UInt8.toNat_inj.mp
  have hvalues : sel.toNat = 0 ∨ sel.toNat = 1 ∨ sel.toNat = 2 := by
    simp at hlt
    omega
  exact hvalues.imp (heq 0) (Or.imp (heq 1) (heq 2))

/-- A device comes back unchanged unless it is bound to a node or has no address. -/
theorem denotes_renderDevice_iff {d : Device} (haccepted : Accepted d) :
    Denotes (renderDevice d) d ↔
      (d.srcSel = SRC_ANY ∨ d.srcSel = SRC_PROTO) ∧ d.devAddr ≠ 0 := by
  constructor
  · intro hdenotes
    refine ⟨?_, (hexAddr_renderDevice d).mp hdenotes.hexAddr⟩
    have hsel := hdenotes.srcSel
    rw [srcSel_renderDevice] at hsel
    by_cases hknown : d.srcSel < 3
    · rcases sel_cases hknown with hany | hnode | hproto
      · exact .inl hany
      · have hmatch := hdenotes.srcMatch
        rw [hnode] at hmatch
        exact absurd hmatch (srcMatchOf_node hnode)
      · exact .inr hproto
    · rw [if_neg hknown] at hsel
      exact .inl hsel
  · rintro ⟨hsel, haddr⟩
    have hinUse : d.inUse ≠ 0 := by
      rw [haccepted.inUse]
      decide
    have hnwk : (renderDevice d).nwk = lwHexFromBytes d.nwkSKey.toList := if_pos hinUse
    have happ : (renderDevice d).app = lwHexFromBytes d.appSKey.toList := if_pos hinUse
    have hport : (renderDevice d).port = decimal d.fport.toNat := by
      have hne : d.fport ≠ 0 := by
        intro hzero
        have hfport := haccepted.fport.1
        rw [hzero] at hfport
        exact absurd hfport (by decide)
      exact congrArg decimal (if_pos hne)
    have hread : toInt (decimal d.fport.toNat) = d.fport.toNat :=
      toInt_decimal (by have hfport := haccepted.fport.2; omega)
    refine ⟨haccepted.inUse, ?_, ?_, (hexAddr_renderDevice d).mpr haddr, ?_, ?_, ?_, ?_, ?_, ?_⟩
    · rw [srcSel_renderDevice, if_pos (by rcases hsel with hsel | hsel <;> rw [hsel] <;> decide)]
    · rcases hsel with hany | hproto
      · rw [hany]
        rcases haccepted.srcMatch with hnode | ⟨hproto, -⟩ | ⟨-, -, hzero⟩
        · exact absurd (hany.symm.trans hnode) (by decide)
        · exact absurd (hany.symm.trans hproto) (by decide)
        · rw [hzero]
          rfl
      · rw [hproto]
        rcases haccepted.srcMatch with hnode | ⟨-, hrange⟩ | ⟨-, hother, -⟩
        · exact absurd (hproto.symm.trans hnode) (by decide)
        · exact srcMatchOf_proto hproto hrange
        · exact absurd hproto hother
    · rw [addr_renderDevice haddr, strtoul16_hexText prints_upperDigit]
    · rw [hnwk, trim_of_digits (isDigit_lwHexFromBytes _), lwHexToBytes_lwHexFromBytes]
    · rw [happ, trim_of_digits (isDigit_lwHexFromBytes _), lwHexToBytes_lwHexFromBytes]
    · rw [hport, hread]
      have hfport := haccepted.fport
      omega
    · rw [hport, hread, Int.toNat_natCast, UInt8.ofNat_toNat]
    · rcases haccepted.flags with hflags | hflags <;> rw [renderDevice, hflags] <;> rfl

theorem en_renderDevice (d : Device) : (renderDevice d).en = ['1'] ↔ d.inUse ≠ 0 := by
  unfold renderDevice
  by_cases hinUse : d.inUse = 0 <;> simp [hinUse]

/-- One slot of a saved table comes back. -/
theorem editOf_renderDevice_iff {dev : Slot → Device} {slot : Slot}
    (hslot : dev slot = Device.empty ∨ Accepted (dev slot)) :
    editOf (renderDevice ∘ dev) slot (dev slot) = .ok (dev slot) ↔
      ((dev slot).inUse ≠ 0 → ((dev slot).srcSel = SRC_ANY ∨ (dev slot).srcSel = SRC_PROTO) ∧
        (dev slot).devAddr ≠ 0) := by
  rw [editOf, Function.comp_apply]
  rcases hslot with hempty | haccepted
  · have hinUse : (dev slot).inUse = 0 := by rw [hempty]; rfl
    rw [if_neg fun hen => (en_renderDevice _).mp hen hinUse]
    rw [hempty]
    exact iff_of_true rfl fun hinUse => absurd rfl hinUse
  · have hinUse : (dev slot).inUse ≠ 0 := by
      rw [haccepted.inUse]
      decide
    rw [if_pos ((en_renderDevice _).mpr hinUse), deviceOf_eq_ok_iff,
      denotes_renderDevice_iff haccepted]
    simp [hinUse]

/-- The form of a saved table restores it exactly when no device is bound to a node, or to a
selector the form does not offer, and each has an address. -/
theorem roundTrips_iff {dev : Slot → Device} (hreachable : Reachable dev) :
    RoundTrips dev ↔ ∀ slot, (dev slot).inUse ≠ 0 →
      ((dev slot).srcSel = SRC_ANY ∨ (dev slot).srcSel = SRC_PROTO) ∧
        (dev slot).devAddr ≠ 0 := by
  rw [roundTrips_iff_edits]
  exact forall_congr' fun slot => editOf_renderDevice_iff (hreachable.slot slot)

/-! ## A node id that does not come back -/

/-- Slot 0 sends the uplinks of node `b16b00b5`. -/
def nodeForms : Slot → DeviceForm := fun slot =>
  if slot.val = 0 then
    { en := ['1'], sel := ['1'], «match» := ['b', '1', '6', 'b', '0', '0', 'b', '5'],
      addr := ['2', '6', '0', '1', '1', 'b', 'd', 'a'],
      nwk := List.replicate 32 'a', app := List.replicate 32 'b',
      port := ['1', '3'], tag := [] }
  else ⟨[], [], [], [], [], [], [], []⟩

/-- The table that form is accepted for. -/
def nodeTable : Slot → Device :=
  (applyLoRaWANDevices nodeForms .confirmed (stateOf fun _ => Device.empty)).1.ram.dev

theorem reachable_nodeTable : Reachable nodeTable :=
  .saved nodeForms .confirmed (stateOf fun _ => Device.empty) .erased (by decide)

theorem roundTrips_iff_nodeTable :
    RoundTrips nodeTable ↔ ∀ slot, (nodeTable slot).inUse ≠ 0 →
      ((nodeTable slot).srcSel = SRC_ANY ∨ (nodeTable slot).srcSel = SRC_PROTO) ∧
        (nodeTable slot).devAddr ≠ 0 :=
  roundTrips_iff reachable_nodeTable

/-- The id is printed in decimal, and the form that shows it is rejected. -/
theorem node_form_rejected : ¬ ∀ dev, Reachable dev → RoundTrips dev := by
  intro hall
  have hrejected : (applyLoRaWANDevices (renderDevice ∘ nodeTable) .confirmed
      (stateOf nodeTable)).2 = some "ABP node-id match must be 8 hex chars." := by
    decide
  have hnone := (hall nodeTable reachable_nodeTable .confirmed (stateOf nodeTable) rfl).1
  rw [hrejected] at hnone
  cases hnone

end LoraBridge.DeviceRoundTrip
