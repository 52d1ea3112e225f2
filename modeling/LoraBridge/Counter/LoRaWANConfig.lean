import LoraBridge.Codec.Protocol
import LoraBridge.Core.Machine
import LoraBridge.Core.ReserveAhead
import Mathlib.Data.Vector.Basic
import Mathlib.Tactic.DeriveFintype

/-!
# The ABP device table and its frame counters

`LoRaWANConfig`: four device slots in RAM, each with a counter, one more counter
for the build-flag identity, and an NVS namespace that holds the table as a blob
and one reservation per DevAddr.
-/

namespace LoraBridge.LoRaWANConfig

open LoraBridge.ReserveAhead

def MAX_DEVICES : ℕ := 4

def FCNT_RESERVE : UInt32 := 32

def FCNT_INVALID : UInt32 := 0xFFFFFFFF

structure Device where
  inUse : UInt8
  srcSel : UInt8
  fport : UInt8
  flags : UInt8
  srcMatch : UInt32
  devAddr : UInt32
  nwkSKey : List.Vector UInt8 16
  appSKey : List.Vector UInt8 16
  deriving DecidableEq

/-- A slot after `memset`. -/
def Device.empty : Device where
  inUse := 0
  srcSel := 0
  fport := 0
  flags := 0
  srcMatch := 0
  devAddr := 0
  nwkSKey := List.Vector.replicate 16 0
  appSKey := List.Vector.replicate 16 0

def SRC_ANY : UInt8 := 0

def SRC_MT_NODE : UInt8 := 1

def SRC_PROTO : UInt8 := 2

def FLAG_TAG_SRC : UInt8 := 0x01

abbrev Slot := Fin MAX_DEVICES

/-- The namespace "lwabp".  A missing reservation key reads as 0, a missing
table, or one of another size, as no table. -/
structure Nvs where
  devs : Option (Slot → Device)
  fc : UInt32 → UInt32

structure Ram where
  dev : Slot → Device
  counter : Slot → Counter
  extDevAddr : UInt32
  ext : Counter

structure State where
  nvs : Nvs
  ram : Ram

/-- An FCnt handed out for a DevAddr. -/
structure Issue where
  devAddr : UInt32
  fcnt : UInt32
  deriving DecidableEq, Repr

/-- `loadReservedForAddr`. -/
def loadReservedForAddr (nvs : Nvs) (devAddr : UInt32) : UInt32 :=
  if devAddr = 0 then 0 else nvs.fc devAddr

/-- The counter a slot gets with its address. -/
def counterFor (nvs : Nvs) (devAddr : UInt32) : Counter :=
  resume (loadReservedForAddr nvs devAddr)

/-- `begin()`: the table from NVS, each counter at its reservation. -/
def begin (nvs : Nvs) : Ram where
  dev := nvs.devs.getD fun _ => Device.empty
  counter slot := counterFor nvs ((nvs.devs.getD fun _ => Device.empty) slot).devAddr
  extDevAddr := 0
  ext := resume 0

def boot (nvs : Nvs) : State := ⟨nvs, begin nvs⟩

/-- `saveTable()`. -/
def saveTable (write : Write) (state : State) : State :=
  { state with nvs := { state.nvs with
      devs := write.apply state.nvs.devs (some state.ram.dev) } }

/-- `if (i < 0 || i >= MAX_DEVICES)`. -/
def slotOf (i : ℤ) : Option Slot :=
  if h : 0 ≤ i ∧ i < MAX_DEVICES then some ⟨i.toNat, by omega⟩ else none

theorem slotOf_slot (slot : Slot) : slotOf slot = some slot := by
  have hslot := slot.isLt
  unfold slotOf
  rw [dif_pos (by omega)]
  simp

/-- `advanceFcnt`: the reserve-ahead counter on the reservation of `devAddr`;
`persistReservedForAddr` refuses address 0. -/
def advanceFcnt (write : Write) (devAddr : UInt32) (counter : Counter) (nvs : Nvs) :
    Advance :=
  advance FCNT_RESERVE (if devAddr = 0 then .lost else write) counter (nvs.fc devAddr)

/-- The reservation of one address after a call. -/
def Nvs.setFc (nvs : Nvs) (devAddr value : UInt32) : Nvs :=
  { nvs with fc := Function.update nvs.fc devAddr value }

def issueOf (devAddr : UInt32) (result : Advance) : List Issue :=
  result.issued.toList.map (Issue.mk devAddr)

/-- `nextFcnt(i)`. -/
def nextFcnt (i : ℤ) (write : Write) (state : State) : State × List Issue :=
  match slotOf i with
  | none => (state, [])
  | some slot =>
      let devAddr := (state.ram.dev slot).devAddr
      if devAddr = 0 then (state, [])
      else
        let result := advanceFcnt write devAddr (state.ram.counter slot) state.nvs
        (⟨state.nvs.setFc devAddr result.cell,
          { state.ram with
            counter := Function.update state.ram.counter slot result.counter }⟩,
          issueOf devAddr result)

/-- `nextFcntForDevAddr` binds its one counter to another address by loading that
address's reservation. -/
def rebind (devAddr : UInt32) (state : State) : Ram :=
  if devAddr ≠ state.ram.extDevAddr then
    { state.ram with extDevAddr := devAddr, ext := counterFor state.nvs devAddr }
  else state.ram

/-- `nextFcntForDevAddr(devAddr)`. -/
def nextFcntForDevAddr (devAddr : UInt32) (write : Write) (state : State) :
    State × List Issue :=
  if devAddr = 0 then (state, [])
  else
    let ram := rebind devAddr state
    let result := advanceFcnt write devAddr ram.ext state.nvs
    (⟨state.nvs.setFc devAddr result.cell, { ram with ext := result.counter }⟩,
      issueOf devAddr result)

/-- `setDevice(i, d)`: another address brings its own counter. -/
def setDevice (i : ℤ) (device : Device) (state : State) : State :=
  match slotOf i with
  | none => state
  | some slot =>
      let counter :=
        if device.devAddr ≠ (state.ram.dev slot).devAddr then
          Function.update state.ram.counter slot (counterFor state.nvs device.devAddr)
        else state.ram.counter
      { state with ram := { state.ram with
          dev := Function.update state.ram.dev slot device
          counter := counter } }

/-- `clearDevice(i)`. -/
def clearDevice (i : ℤ) (state : State) : State :=
  match slotOf i with
  | none => state
  | some slot =>
      { state with ram := { state.ram with
          dev := Function.update state.ram.dev slot Device.empty
          counter := Function.update state.ram.counter slot (resume 0) } }

/-! ## Which device a source resolves to -/

/-- `matches`: an entry matches only in the pass of its own specificity. -/
def Device.matches (device : Device) (proto : UInt8) (srcId : UInt32)
    (specificity : ℕ) : Bool :=
  if device.inUse = 0 ∨ device.devAddr = 0 then false
  else if device.srcSel = SRC_MT_NODE then
    specificity = 2 ∧ proto = PROTO_MT ∧ srcId = device.srcMatch
  else if device.srcSel = SRC_PROTO then specificity = 1 ∧ proto = device.srcMatch.toUInt8
  else if device.srcSel = SRC_ANY then specificity = 0
  else false

/-- `resolve`: the first matching slot of the most specific pass that has one. -/
def resolve (dev : Slot → Device) (srcSync : UInt8) (srcId : UInt32) : Option Slot :=
  [2, 1, 0].findSome? fun specificity =>
    (List.finRange MAX_DEVICES).find? fun slot =>
      (dev slot).matches (protoOf srcSync) srcId specificity

theorem matches_of_resolve {dev : Slot → Device} {srcSync : UInt8} {srcId : UInt32}
    {slot : Slot} (hresolve : resolve dev srcSync srcId = some slot) :
    ∃ specificity, (dev slot).matches (protoOf srcSync) srcId specificity = true := by
  obtain ⟨specificity, -, hfind⟩ := List.exists_of_findSome?_eq_some hresolve
  exact ⟨specificity, by simpa using List.find?_some hfind⟩

/-- A resolved device has an address. -/
theorem devAddr_ne_zero_of_resolve {dev : Slot → Device} {srcSync : UInt8}
    {srcId : UInt32} {slot : Slot} (hresolve : resolve dev srcSync srcId = some slot) :
    (dev slot).devAddr ≠ 0 := by
  obtain ⟨specificity, hmatches⟩ := matches_of_resolve hresolve
  intro hzero
  simp [Device.matches, hzero] at hmatches

/-- The calls that change the table or a counter, each with what becomes of its
NVS write. -/
inductive Call where
  | nextFcnt (i : ℤ) (write : Write)
  | nextFcntForDevAddr (devAddr : UInt32) (write : Write)
  | setDevice (i : ℤ) (device : Device)
  | clearDevice (i : ℤ)
  | saveTable (write : Write)

def Call.apply : Call → State → State × List Issue
  | .nextFcnt i write, state => LoRaWANConfig.nextFcnt i write state
  | .nextFcntForDevAddr devAddr write, state =>
      LoRaWANConfig.nextFcntForDevAddr devAddr write state
  | .setDevice i device, state => (LoRaWANConfig.setDevice i device state, [])
  | .clearDevice i, state => (LoRaWANConfig.clearDevice i state, [])
  | .saveTable write, state => (LoRaWANConfig.saveTable write state, [])

/-- A call runs to its end, or the power goes: between calls, or inside one, with
its NVS write done or not but nothing returned.  Then `begin()` runs. -/
inductive Event where
  | call (call : Call)
  | powerLoss (during : Option Call)

def step : State → Event → State × List Issue
  | state, .call call => call.apply state
  | state, .powerLoss none => (boot state.nvs, [])
  | state, .powerLoss (some call) => (boot (call.apply state).1.nvs, [])

/-! ## Counters are bound to addresses -/

/-- The RAM counters: one a slot, and the one of the build-flag identity. -/
inductive Cursor where
  | slot (slot : Slot)
  | ext
  deriving DecidableEq, Fintype

/-- The address a counter is bound to, 0 for none. -/
def Ram.address (ram : Ram) : Cursor → UInt32
  | .slot slot => (ram.dev slot).devAddr
  | .ext => ram.extDevAddr

def Ram.cursor (ram : Ram) : Cursor → Counter
  | .slot slot => ram.counter slot
  | .ext => ram.ext

/-- No address is bound to two counters. -/
def BoundOnce (ram : Ram) : Prop :=
  ∀ left right, ram.address left = ram.address right → ram.address left ≠ 0 →
    left = right

instance (ram : Ram) : Decidable (BoundOnce ram) :=
  inferInstanceAs (Decidable (∀ left right, _ → _ → left = right))

/-! ## What the calls do to counters and reservations -/

/-- Every counter keeps its address and value or is loaded with the reservation of
the address it is bound to now; the reservations stay. -/
structure Reloads (state next : State) : Prop where
  fc : next.nvs.fc = state.nvs.fc
  cursors : ∀ cursor,
    (next.ram.address cursor = state.ram.address cursor ∧
      next.ram.cursor cursor = state.ram.cursor cursor) ∨
    next.ram.cursor cursor = counterFor state.nvs (next.ram.address cursor)

theorem counterFor_congr {nvs nvs' : Nvs} (hfc : nvs'.fc = nvs.fc) (devAddr : UInt32) :
    counterFor nvs' devAddr = counterFor nvs devAddr := by
  simp only [counterFor, loadReservedForAddr, hfc]

theorem Reloads.refl (state : State) : Reloads state state :=
  ⟨rfl, fun _ => .inl ⟨rfl, rfl⟩⟩

theorem Reloads.trans {state middle next : State} (hfirst : Reloads state middle)
    (hsecond : Reloads middle next) : Reloads state next where
  fc := hsecond.fc.trans hfirst.fc
  cursors cursor := by
    rcases hsecond.cursors cursor with ⟨haddress, hvalue⟩ | hload
    · rw [haddress, hvalue]
      exact hfirst.cursors cursor
    · exact .inr (hload.trans (counterFor_congr hfirst.fc _))

theorem rebind_reloads (devAddr : UInt32) (state : State) :
    Reloads state ⟨state.nvs, rebind devAddr state⟩ := by
  refine ⟨rfl, fun cursor => ?_⟩
  unfold rebind
  split
  · cases cursor with
    | slot slot => exact .inl ⟨rfl, rfl⟩
    | ext => exact .inr rfl
  · exact .inl ⟨rfl, rfl⟩

theorem rebind_address_ext (devAddr : UInt32) (state : State) :
    (rebind devAddr state).address .ext = devAddr := by
  unfold rebind
  by_cases hbound : devAddr ≠ state.ram.extDevAddr
  · rw [if_pos hbound]
    rfl
  · rw [if_neg hbound]
    exact (not_not.mp hbound).symm

theorem setDevice_reloads (i : ℤ) (device : Device) (state : State) :
    Reloads state (setDevice i device state) := by
  unfold setDevice
  split
  · exact Reloads.refl state
  · rename_i slot _
    refine ⟨rfl, fun cursor => ?_⟩
    cases cursor with
    | ext => exact .inl ⟨rfl, rfl⟩
    | slot other =>
        simp only [Ram.address, Ram.cursor]
        by_cases hslot : other = slot
        · subst hslot
          by_cases haddress : device.devAddr ≠ (state.ram.dev other).devAddr
          · exact .inr (by simp [haddress])
          · have hsame := not_not.mp haddress
            exact .inl ⟨by simp [hsame], by simp [hsame]⟩
        · refine .inl ⟨by simp [hslot], ?_⟩
          split
          · simp [hslot]
          · rfl

theorem clearDevice_reloads (i : ℤ) (state : State) :
    Reloads state (clearDevice i state) := by
  unfold clearDevice
  split
  · exact Reloads.refl state
  · rename_i slot _
    refine ⟨rfl, fun cursor => ?_⟩
    cases cursor with
    | ext => exact .inl ⟨rfl, rfl⟩
    | slot other =>
        simp only [Ram.address, Ram.cursor]
        by_cases hslot : other = slot
        · subst hslot
          exact .inr (by simp [counterFor, loadReservedForAddr, Device.empty])
        · exact .inl (by simp [hslot])

theorem saveTable_reloads (write : Write) (state : State) :
    Reloads state (saveTable write state) :=
  ⟨rfl, fun _ => .inl ⟨rfl, rfl⟩⟩

/-- A restart loads every counter. -/
theorem boot_cursor (nvs : Nvs) {cursor : Cursor}
    (haddress : (boot nvs).ram.address cursor ≠ 0) :
    (boot nvs).ram.cursor cursor = counterFor nvs ((boot nvs).ram.address cursor) := by
  cases cursor with
  | slot slot => rfl
  | ext => exact absurd rfl haddress

/-- One counter has been asked for a number of the address it is bound to. -/
structure IssuesFrom (state : State) (cursor : Cursor) (write : Write) (next : State)
    (emitted : List Issue) : Prop where
  bound : state.ram.address cursor ≠ 0
  fc : next.nvs.fc = Function.update state.nvs.fc (state.ram.address cursor)
    (advanceFcnt write (state.ram.address cursor) (state.ram.cursor cursor) state.nvs).cell
  address : next.ram.address = state.ram.address
  counters : next.ram.cursor = Function.update state.ram.cursor cursor
    (advanceFcnt write (state.ram.address cursor) (state.ram.cursor cursor)
      state.nvs).counter
  emitted_eq : emitted = issueOf (state.ram.address cursor)
    (advanceFcnt write (state.ram.address cursor) (state.ram.cursor cursor) state.nvs)

theorem nextFcnt_spec (i : ℤ) (write : Write) (state : State) :
    (nextFcnt i write state = (state, [])) ∨
      ∃ slot, slotOf i = some slot ∧
        IssuesFrom state (.slot slot) write (nextFcnt i write state).1
          (nextFcnt i write state).2 := by
  unfold nextFcnt
  split
  · exact .inl rfl
  · rename_i slot hslotOf
    by_cases haddress : (state.ram.dev slot).devAddr = 0
    · exact .inl (by simp [haddress])
    · simp only [haddress, if_false]
      refine .inr ⟨slot, hslotOf, haddress, rfl, ?_, ?_, rfl⟩
      · funext cursor
        cases cursor <;> rfl
      · funext cursor
        cases cursor with
        | ext => rfl
        | slot other =>
            by_cases hslot : other = slot
            · subst hslot
              simp [Ram.cursor, Ram.address]
            · simp [Ram.cursor, hslot]

theorem nextFcntForDevAddr_spec {devAddr : UInt32} (haddress : devAddr ≠ 0)
    (write : Write) (state : State) :
    IssuesFrom ⟨state.nvs, rebind devAddr state⟩ .ext write
      (nextFcntForDevAddr devAddr write state).1
      (nextFcntForDevAddr devAddr write state).2 := by
  have hbound := rebind_address_ext devAddr state
  unfold nextFcntForDevAddr
  simp only [haddress, if_false]
  refine ⟨by rwa [hbound], by rw [hbound]; rfl, ?_, ?_, by rw [hbound]; rfl⟩
  · funext cursor
    cases cursor <;> rfl
  · funext cursor
    rw [hbound]
    cases cursor with
    | ext => rw [Function.update_self]; rfl
    | slot slot => rw [Function.update_of_ne (by simp)]; rfl

theorem nextFcntForDevAddr_zero (write : Write) (state : State) :
    nextFcntForDevAddr 0 write state = (state, []) := by
  simp [nextFcntForDevAddr]

/-! ## Histories -/

/-- The FCnts a history holds for an address, oldest first. -/
def fcntsOf (devAddr : UInt32) (history : List Issue) : List UInt32 :=
  (history.filter fun issue => issue.devAddr = devAddr).map Issue.fcnt

@[simp]
theorem fcntsOf_append (devAddr : UInt32) (before after : List Issue) :
    fcntsOf devAddr (before ++ after) = fcntsOf devAddr before ++ fcntsOf devAddr after := by
  simp [fcntsOf]

@[simp]
theorem fcntsOf_nil (devAddr : UInt32) : fcntsOf devAddr [] = [] := rfl

theorem fcntsOf_issueOf (devAddr : UInt32) (result : Advance) :
    fcntsOf devAddr (issueOf devAddr result) = result.issued.toList := by
  cases h : result.issued <;> simp [fcntsOf, issueOf, h]

theorem fcntsOf_issueOf_of_ne {devAddr other : UInt32} (hne : devAddr ≠ other)
    (result : Advance) : fcntsOf other (issueOf devAddr result) = [] := by
  cases h : result.issued <;> simp [fcntsOf, issueOf, h, hne]

end LoraBridge.LoRaWANConfig
