import LoraBridge.Portal.DeviceRoundTrip

/-!
# Devices that are never used

A slot the form was accepted for should send some source's uplinks.  The form takes address
0 and selectors it does not offer, and `matches` refuses both.
-/

namespace LoraBridge.DeviceUse

open LoraBridge.FormText LoraBridge.LoRaWANConfig LoraBridge.LoRaWANDevices
open LoraBridge.DeviceRoundTrip LoraBridge.ReserveAhead LoraBridge.SlotEdits

/-- The form with the boxes of the other slots unticked. -/
def alone (forms : Slot → DeviceForm) (slot : Slot) : Slot → DeviceForm := fun other =>
  if other = slot then forms other else { forms other with en := [] }

/-- Some source resolves to the slot, and its counter gives out a number when the
reservation is written. -/
def Usable (state : State) (slot : Slot) : Prop :=
  ∃ sync srcId, resolve state.ram.dev sync srcId = some slot ∧
    (nextFcnt slot .confirmed state).2 ≠ []

/-- The selector byte of a form. -/
def selOf (form : DeviceForm) : UInt8 := UInt8.ofNat ((toInt form.sel) % 2 ^ 8).toNat

/-- The address of a form. -/
def addrOf (form : DeviceForm) : UInt32 := strtoul16 (stripHexMark (trim form.addr))

/-- The counter a slot counts an address with: its own, or the stored reservation of
another address. -/
def counterOf (state : State) (slot : Slot) (devAddr : UInt32) : Counter :=
  if devAddr ≠ (state.ram.dev slot).devAddr then counterFor state.nvs devAddr
  else state.ram.counter slot

/-- The block is used up, and another one would wrap. -/
def Exhausted (counter : Counter) : Prop :=
  counter.atLimit ∧ 0xFFFFFFFF - 1 - FCNT_RESERVE < counter.next

instance (counter : Counter) : Decidable (Exhausted counter) :=
  inferInstanceAs (Decidable (_ ∧ _))

/-! ## What a save does to one slot -/

/-- A slot and the reservations are as they were. -/
structure Kept (slot : Slot) (state next : State) : Prop where
  dev : next.ram.dev slot = state.ram.dev slot
  counter : next.ram.counter slot = state.ram.counter slot
  nvs : next.nvs = state.nvs

theorem kept_setDevice {slot other : Slot} (hother : slot ≠ other) (d : Device)
    (state : State) : Kept slot state (setDevice other d state) := by
  rw [setDevice, slotOf_slot]
  refine ⟨Function.update_of_ne hother _ _, ?_, rfl⟩
  dsimp only
  split
  · exact Function.update_of_ne hother _ _
  · rfl

theorem kept_clearDevice {slot other : Slot} (hother : slot ≠ other) (state : State) :
    Kept slot state (clearDevice other state) := by
  rw [clearDevice, slotOf_slot]
  exact ⟨Function.update_of_ne hother _ _, Function.update_of_ne hother _ _, rfl⟩

theorem Kept.trans {slot : Slot} {state middle next : State} (hfirst : Kept slot state middle)
    (hsecond : Kept slot middle next) : Kept slot state next :=
  ⟨hsecond.dev.trans hfirst.dev, hsecond.counter.trans hfirst.counter,
    hsecond.nvs.trans hfirst.nvs⟩

theorem Kept.counterOf {slot : Slot} {state next : State} (hkept : Kept slot state next)
    (devAddr : UInt32) :
    DeviceUse.counterOf next slot devAddr = DeviceUse.counterOf state slot devAddr := by
  simp only [DeviceUse.counterOf, hkept.dev, hkept.counter, hkept.nvs]

theorem kept_applySlots (forms : Slot → DeviceForm) {slots : List Slot} {slot : Slot}
    (hslot : slot ∉ slots) (state : State) :
    Kept slot state (applySlots forms slots state).1 := by
  induction slots generalizing state with
  | nil => exact ⟨rfl, rfl, rfl⟩
  | cons other rest ih =>
      have hother : slot ≠ other := List.ne_of_not_mem_cons hslot
      have hrest := ih (List.not_mem_of_not_mem_cons hslot)
      rw [applySlots]
      split
      · split
        · exact (kept_setDevice hother _ state).trans (hrest _)
        · exact ⟨rfl, rfl, rfl⟩
      · exact (kept_clearDevice hother state).trans (hrest _)

/-- The slot's counter goes with its address. -/
theorem counter_setDevice (slot : Slot) (d : Device) (state : State) :
    (setDevice slot d state).ram.counter slot = counterOf state slot d.devAddr := by
  rw [setDevice, slotOf_slot, counterOf]
  dsimp only
  split
  · rw [Function.update_self]
  · rfl

theorem counter_applySlots {forms : Slot → DeviceForm} {slots : List Slot}
    (hnodup : slots.Nodup) {slot : Slot} (hslot : slot ∈ slots) {d : Device}
    (hen : (forms slot).en = ['1']) (hdevice : deviceOf (forms slot) = .ok d) {state : State}
    (haccepted : (applySlots forms slots state).2 = none) :
    (applySlots forms slots state).1.ram.counter slot = counterOf state slot d.devAddr := by
  induction slots generalizing state with
  | nil => cases hslot
  | cons other rest ih =>
      obtain ⟨hnew, hrest⟩ := List.nodup_cons.mp hnodup
      rw [applySlots] at haccepted ⊢
      rcases List.mem_cons.mp hslot with rfl | hmem
      · rw [if_pos hen, hdevice]
        exact (kept_applySlots forms hnew _).counter.trans (counter_setDevice slot d state)
      · have hother : slot ≠ other := fun heq => hnew (heq ▸ hmem)
        split at haccepted <;> rename_i hticked
        · rw [if_pos hticked]
          split at haccepted <;> rename_i hread
          · rw [ih hrest hmem haccepted]
            exact (kept_setDevice hother _ state).counterOf d.devAddr
          · cases haccepted
        · rw [if_neg hticked, ih hrest hmem haccepted]
          exact (kept_clearDevice hother state).counterOf d.devAddr

/-- The table a save leaves whose only ticked slot holds this device. -/
def tableOf (slot : Slot) (d : Device) : Slot → Device := fun other =>
  if other = slot then d else Device.empty

theorem editOf_alone (forms : Slot → DeviceForm) (slot other : Slot) (before : Device) :
    editOf (alone forms slot) other before =
      if other = slot then editOf forms slot before else .ok Device.empty := by
  rw [editOf, alone]
  by_cases hother : other = slot
  · subst hother
    simp only [if_true, editOf]
  · simp [hother]

/-- A slot of an accepted form is accepted alone. -/
theorem saved_alone {forms : Slot → DeviceForm} {write : Write} {state : State} {slot : Slot}
    (haccepted : (applyLoRaWANDevices forms write state).2 = none)
    (hen : (forms slot).en = ['1']) :
    ∃ d, Denotes (forms slot) d ∧
      (applyLoRaWANDevices (alone forms slot) write state).2 = none ∧
      (applyLoRaWANDevices (alone forms slot) write state).1.ram.dev = tableOf slot d ∧
      (applyLoRaWANDevices (alone forms slot) write state).1.ram.counter slot =
        counterOf state slot d.devAddr := by
  have hnodup := List.nodup_finRange MAX_DEVICES
  have hforms := applyLoRaWANDevices_eq forms write state
  rw [haccepted] at hforms
  have hslot := edit_eq_ok_of_none hnodup hforms.symm (List.mem_finRange slot)
  rw [editOf, if_pos hen] at hslot
  have hedits := applyLoRaWANDevices_eq (alone forms slot) write state
  have hnone : (applyLoRaWANDevices (alone forms slot) write state).2 = none := by
    rw [congrArg Prod.snd hedits, editAll_none_iff hnodup]
    intro other _
    rw [editOf_alone]
    by_cases hother : other = slot
    · exact ⟨_, by rw [if_pos hother, editOf, if_pos hen, hslot]⟩
    · exact ⟨_, if_neg hother⟩
  refine ⟨_, deviceOf_eq_ok_iff.mp hslot, hnone, ?_, ?_⟩
  · rw [hnone] at hedits
    funext other
    have hok := edit_eq_ok_of_none hnodup hedits.symm (List.mem_finRange other)
    rw [editOf_alone] at hok
    rw [tableOf]
    split at hok
    · rw [editOf, if_pos hen, hslot] at hok
      rw [if_pos ‹_›]
      exact (Except.ok.inj hok).symm
    · rw [if_neg ‹_›]
      exact (Except.ok.inj hok).symm
  · have hform : alone forms slot slot = forms slot := if_pos rfl
    have hslots : (applySlots (alone forms slot) (List.finRange MAX_DEVICES) state).2 = none := by
      rw [congrArg Prod.snd (applySlots_eq (alone forms slot) _ state),
        ← congrArg Prod.snd hedits]
      exact hnone
    have hcounter := counter_applySlots hnodup (List.mem_finRange slot)
      (by rw [hform]; exact hen) (by rw [hform]; exact hslot) hslots
    rw [← hcounter, applyLoRaWANDevices]
    generalize applySlots (alone forms slot) (List.finRange MAX_DEVICES) state = result
      at hslots ⊢
    obtain ⟨next, _ | message⟩ := result <;> rfl

/-! ## The source a device is for -/

theorem not_matches_empty (proto : UInt8) (srcId : UInt32) (specificity : ℕ) :
    Device.empty.matches proto srcId specificity = false := by
  simp [Device.matches, Device.empty]

/-- Where one device alone is in the table, a source it matches resolves to it. -/
theorem resolve_tableOf {slot : Slot} {d : Device} {sync : UInt8} {srcId : UInt32}
    {specificity : ℕ} (hpass : specificity ∈ [2, 1, 0])
    (hmatches : d.matches (protoOf sync) srcId specificity = true) :
    resolve (tableOf slot d) sync srcId = some slot := by
  have hsome : (resolve (tableOf slot d) sync srcId).isSome := by
    rw [resolve, List.findSome?_isSome_iff]
    refine ⟨specificity, hpass, List.find?_isSome.mpr ⟨slot, List.mem_finRange slot, ?_⟩⟩
    rw [tableOf, if_pos rfl]
    exact hmatches
  obtain ⟨found, hfound⟩ := Option.isSome_iff_exists.mp hsome
  obtain ⟨pass, hfit⟩ := matches_of_resolve hfound
  rw [hfound]
  by_cases hslot : found = slot
  · rw [hslot]
  · rw [tableOf, if_neg hslot, not_matches_empty] at hfit
    cases hfit

/-- Each protocol of a form is that of some sync word. -/
theorem exists_protoOf {srcMatch : UInt32} (hrange : 1 ≤ srcMatch ∧ srcMatch ≤ 4) :
    ∃ sync, protoOf sync = srcMatch.toUInt8 := by
  have hlow := UInt32.le_iff_toNat_le.mp hrange.1
  have hhigh := UInt32.le_iff_toNat_le.mp hrange.2
  have hvalue : ∀ n : ℕ, srcMatch.toNat = n → srcMatch = UInt32.ofNat n := fun n hn => by
    rw [← hn, UInt32.ofNat_toNat]
  have hvalues : srcMatch.toNat = 1 ∨ srcMatch.toNat = 2 ∨ srcMatch.toNat = 3 ∨
      srcMatch.toNat = 4 := by
    simp at hlow hhigh
    omega
  rcases hvalues with hone | htwo | hthree | hfour
  · exact ⟨0x2B, by rw [hvalue 1 hone]; decide⟩
  · exact ⟨0x12, by rw [hvalue 2 htwo]; decide⟩
  · exact ⟨0x42, by rw [hvalue 3 hthree]; decide⟩
  · exact ⟨0, by rw [hvalue 4 hfour]; decide⟩

theorem known_of_matches {d : Device} {proto : UInt8} {srcId : UInt32} {specificity : ℕ}
    (hmatches : d.matches proto srcId specificity = true) : d.devAddr ≠ 0 ∧ d.srcSel < 3 := by
  refine ⟨fun hzero => by simp [Device.matches, hzero] at hmatches, ?_⟩
  by_contra hother
  have hunknown : d.srcSel ≠ SRC_MT_NODE ∧ d.srcSel ≠ SRC_PROTO ∧ d.srcSel ≠ SRC_ANY := by
    refine ⟨?_, ?_, ?_⟩ <;> exact fun heq => hother (by rw [heq]; decide)
  simp [Device.matches, hunknown] at hmatches

/-- An accepted device with an address and a selector of the form has a source. -/
theorem exists_matches {d : Device} (haccepted : Accepted d) (haddr : d.devAddr ≠ 0)
    (hknown : d.srcSel < 3) :
    ∃ sync srcId, ∃ specificity ∈ [2, 1, 0],
      d.matches (protoOf sync) srcId specificity = true := by
  have hcheck : ¬ (d.inUse = 0 ∨ d.devAddr = 0) := by
    rw [haccepted.inUse]
    simp [haddr]
  rcases sel_cases hknown with hany | hnode | hproto
  · have hnode : d.srcSel ≠ SRC_MT_NODE := by rw [hany]; decide
    have hproto : d.srcSel ≠ SRC_PROTO := by rw [hany]; decide
    refine ⟨0, 0, 0, by simp, ?_⟩
    simp only [Device.matches, if_neg hcheck, if_neg hnode, if_neg hproto, if_pos hany,
      decide_true]
  · refine ⟨0x2B, d.srcMatch, 2, by simp, ?_⟩
    simp only [Device.matches, if_neg hcheck, if_pos hnode, true_and, and_true]
    decide
  · have hnode : d.srcSel ≠ SRC_MT_NODE := by rw [hproto]; decide
    rcases haccepted.srcMatch with heq | ⟨-, hrange⟩ | ⟨-, hother, -⟩
    · exact absurd heq hnode
    · obtain ⟨sync, hsync⟩ := exists_protoOf hrange
      refine ⟨sync, 0, 1, by simp, ?_⟩
      simp only [Device.matches, if_neg hcheck, if_neg hnode, if_pos hproto, hsync, true_and,
        decide_true]
    · exact absurd hproto hother

/-- The counter gives out a number unless it is exhausted. -/
theorem nextFcnt_issues_iff {state : State} {slot : Slot}
    (haddr : (state.ram.dev slot).devAddr ≠ 0) :
    (nextFcnt slot .confirmed state).2 ≠ [] ↔ ¬ Exhausted (state.ram.counter slot) := by
  rw [nextFcnt, slotOf_slot, Exhausted]
  simp only [if_neg haddr, issueOf, advanceFcnt, advance]
  by_cases hlimit : (state.ram.counter slot).atLimit
  · by_cases hwrap : 0xFFFFFFFF - 1 - FCNT_RESERVE < (state.ram.counter slot).next
    · rw [if_pos hlimit, if_pos hwrap]
      exact iff_of_false (not_not.mpr rfl) (not_not.mpr ⟨hlimit, hwrap⟩)
    · rw [if_pos hlimit, if_neg hwrap]
      exact iff_of_true (List.cons_ne_nil _ _) fun hexhausted => hwrap hexhausted.2
  · rw [if_neg hlimit]
    exact iff_of_true (List.cons_ne_nil _ _) fun hexhausted => hlimit hexhausted.1

/-- An accepted slot is of use exactly when its address is not 0, the form offers its
selector, and the counter of its address is not exhausted. -/
theorem usable_iff {forms : Slot → DeviceForm} {write : Write} {state : State} {slot : Slot}
    (haccepted : (applyLoRaWANDevices forms write state).2 = none)
    (hen : (forms slot).en = ['1']) :
    Usable (applyLoRaWANDevices (alone forms slot) write state).1 slot ↔
      addrOf (forms slot) ≠ 0 ∧ selOf (forms slot) < 3 ∧
        ¬ Exhausted (counterOf state slot (addrOf (forms slot))) := by
  obtain ⟨d, hdenotes, -, hdev, hcounter⟩ := saved_alone haccepted hen
  have haddrOf : addrOf (forms slot) = d.devAddr := hdenotes.devAddr.symm
  have hselOf : selOf (forms slot) = d.srcSel := hdenotes.srcSel.symm
  have hself : tableOf slot d slot = d := if_pos rfl
  rw [haddrOf, hselOf, ← hcounter, Usable, hdev]
  constructor
  · rintro ⟨sync, srcId, hresolve, hissues⟩
    obtain ⟨specificity, hmatches⟩ := matches_of_resolve hresolve
    rw [hself] at hmatches
    obtain ⟨haddr, hknown⟩ := known_of_matches hmatches
    exact ⟨haddr, hknown,
      (nextFcnt_issues_iff (by rw [hdev, hself]; exact haddr)).mp hissues⟩
  · rintro ⟨haddr, hknown, hcounts⟩
    obtain ⟨sync, srcId, specificity, hpass, hmatches⟩ :=
      exists_matches (accepted_of_denotes hdenotes) haddr hknown
    refine ⟨sync, srcId, resolve_tableOf hpass hmatches, ?_⟩
    exact (nextFcnt_issues_iff (by rw [hdev, hself]; exact haddr)).mpr hcounts

def firstSlot : Slot := (0 : Fin 4)

/-- The first slot ticked for any source, with this address. -/
def formsWith (addr : Text) : Slot → DeviceForm := fun slot =>
  if slot = firstSlot then
    { en := ['1'], sel := ['0'], «match» := [], addr := addr, nwk := List.replicate 32 'a',
      app := List.replicate 32 'b', port := ['1', '3'], tag := [] }
  else ⟨[], [], [], [], [], [], [], []⟩

theorem usable_iff_26011bda :
    Usable (applyLoRaWANDevices (alone (formsWith "26011bda".toList) firstSlot) .confirmed
        (stateOf fun _ => Device.empty)).1 firstSlot ↔
      addrOf (formsWith "26011bda".toList firstSlot) ≠ 0 ∧
        selOf (formsWith "26011bda".toList firstSlot) < 3 ∧
        ¬ Exhausted (counterOf (stateOf fun _ => Device.empty) firstSlot
          (addrOf (formsWith "26011bda".toList firstSlot))) :=
  usable_iff (by decide) (by decide)

/-- Eight zeros are an address for the form, and no source ever resolves to the slot. -/
theorem zero_address_accepted :
    ¬ ∀ (forms : Slot → DeviceForm) (write : Write) (state : State) (slot : Slot),
      (applyLoRaWANDevices forms write state).2 = none → (forms slot).en = ['1'] →
        Usable (applyLoRaWANDevices (alone forms slot) write state).1 slot := by
  intro hall
  obtain ⟨sync, srcId, hresolve, -⟩ := hall (formsWith "00000000".toList) .confirmed
    (stateOf fun _ => Device.empty) firstSlot (by decide) (by decide)
  exact devAddr_ne_zero_of_resolve hresolve (by decide)

end LoraBridge.DeviceUse
