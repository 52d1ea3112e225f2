import LoraBridge.Counter.AbpUplinks

/-!
# FCnt aliasing between identities

Nothing keeps two slots, or a slot and the build-flag identity, from holding one
DevAddr.  As long as every uplink draws from the only counter of its address, or
every counter that reserves finds no reservation above itself, no pair repeats;
two counters loaded side by side issue the same FCnts.
-/

namespace LoraBridge.FcntAliasing

open LoraBridge.AbpUplinks LoraBridge.Cipher LoraBridge.FormText
open LoraBridge.FrameCounters LoraBridge.LoRaWANDevices LoraBridge.Machine
open LoraBridge.ReserveAhead
open LoraBridge.LoRaWANConfig hiding Event step

theorem nodup_of_fcntsOf {history : List Issue}
    (hfcnts : ∀ devAddr, (fcntsOf devAddr history).Nodup) : history.Nodup := by
  induction history with
  | nil => exact List.nodup_nil
  | cons issue rest ih =>
      refine List.nodup_cons.mpr ⟨fun hmem => ?_, ih fun devAddr => ?_⟩
      · have hown := hfcnts issue.devAddr
        simp only [fcntsOf, decide_true, List.filter_cons_of_pos, List.map_cons,
          List.nodup_cons] at hown
        exact hown.1 (List.mem_map.mpr ⟨issue, by simpa using hmem, rfl⟩)
      · refine (hfcnts devAddr).sublist (List.Sublist.map _ ?_)
        exact (List.sublist_cons_self issue rest).filter _

/-! ## Every uplink from the only counter of its address -/

theorem carries_alone : Carries Inv Alone where
  start := inv_boot
  reload := Inv.reload
  issue hinv halone hissues := hinv.issue hissues halone
  restart hinv := hinv.boot hinv.behind
  distinct hinv := nodup_of_fcntsOf fun devAddr =>
    (hinv.increasing devAddr).imp fun hless => by grind

/-! ## Every reservation above all that are stored -/

/-- The counters of each address share its reservation. -/
structure Apart (state : State) (history : List Issue) : Prop where
  shared : ∀ devAddr, devAddr ≠ 0 →
    Shared (state.nvs.fc devAddr) (fun cursor => state.ram.address cursor = devAddr)
      state.ram.cursor (fcntsOf devAddr history)
  zero : fcntsOf 0 history = []

theorem counterFor_eq_resume {nvs : Nvs} {devAddr : UInt32} (haddress : devAddr ≠ 0) :
    counterFor nvs devAddr = resume (nvs.fc devAddr) := by
  rw [counterFor, loadReservedForAddr, if_neg haddress]

theorem Apart.reload {state next : State} {history : List Issue}
    (hapart : Apart state history) (hreloads : Reloads state next) :
    Apart next history where
  shared devAddr haddress := by
    rw [hreloads.fc]
    refine (hapart.shared devAddr haddress).reload fun cursor hbound => ?_
    rcases hreloads.cursors cursor with ⟨hsame, hvalue⟩ | hload
    · exact .inl ⟨hsame ▸ hbound, hvalue⟩
    · rw [hload, hbound, counterFor_eq_resume haddress]
      exact .inr rfl
  zero := hapart.zero

theorem Apart.boot {state : State} {history : List Issue} (hapart : Apart state history) :
    Apart (boot state.nvs) history where
  shared devAddr haddress :=
    shared_resume (hapart.shared devAddr haddress).behind
      (hapart.shared devAddr haddress).nodup fun cursor hbound => by
        rw [boot_cursor state.nvs (hbound ▸ haddress), hbound,
          counterFor_eq_resume haddress]
        rfl
  zero := hapart.zero

theorem Apart.issue {state next : State} {history emitted : List Issue} {cursor : Cursor}
    {write : Write} (hapart : Apart state history) (hcurrent : Current state cursor)
    (hissues : IssuesFrom state cursor write next emitted) :
    Apart next (history ++ emitted) := by
  obtain ⟨haddress, hfc, hsame, hcounters, rfl⟩ := hissues
  unfold Current at hcurrent
  generalize hcursor : state.ram.address cursor = devAddr at *
  have hadvance : Shared
      (advanceFcnt write devAddr (state.ram.cursor cursor) state.nvs).cell
      (fun other => state.ram.address other = devAddr)
      (Function.update state.ram.cursor cursor
        (advanceFcnt write devAddr (state.ram.cursor cursor) state.nvs).counter)
      (fcntsOf devAddr history ++ (advanceFcnt write devAddr
        (state.ram.cursor cursor) state.nvs).issued.toList) :=
    shared_advance reserve_small (hapart.shared devAddr haddress) hcursor hcurrent
  generalize advanceFcnt write devAddr (state.ram.cursor cursor) state.nvs = result
    at hadvance hcounters hfc ⊢
  constructor
  · intro other hother
    rw [hsame, hfc, hcounters, fcntsOf_append]
    by_cases heq : devAddr = other
    · subst heq
      rw [fcntsOf_issueOf, Function.update_self]
      exact hadvance
    · rw [fcntsOf_issueOf_of_ne heq, List.append_nil, Function.update_of_ne (Ne.symm heq)]
      refine (hapart.shared other hother).reload fun index hbound => .inl ⟨hbound, ?_⟩
      have hdiffer : index ≠ cursor := fun hsame' =>
        heq (hcursor.symm.trans (hsame' ▸ hbound))
      rw [Function.update_of_ne hdiffer]
  · rw [fcntsOf_append, hapart.zero, fcntsOf_issueOf_of_ne haddress]
    rfl

theorem carries_current : Carries Apart Current where
  start nvs := by
    refine ⟨fun devAddr haddress => shared_resume (fun _ hmem => ?_) List.nodup_nil
      fun cursor hbound => ?_, rfl⟩
    · simp at hmem
    · rw [boot_cursor nvs (hbound ▸ haddress), hbound, counterFor_eq_resume haddress]
      rfl
  reload := Apart.reload
  issue := Apart.issue
  restart := Apart.boot
  distinct hapart := nodup_of_fcntsOf fun devAddr => by
    by_cases haddress : devAddr = 0
    · rw [haddress, hapart.zero]
      exact List.nodup_nil
    · exact (hapart.shared devAddr haddress).nodup

/-! ## The whole life of a device -/

/-- Throughout the run every uplink draws from the only counter of its address, or
throughout the run every uplink that needs a new block of FCnts draws from a
counter that no stored reservation of its address is above. -/
def CountersKeptApart (encoder : Encoder) (nvs : Nvs) (events : List Event) : Prop :=
  Along (step encoder) (fun state event => event.Draws encoder Alone state)
    (boot nvs) events ∨
  Along (step encoder) (fun state event => event.Draws encoder Current state)
    (boot nvs) events

/-- No two encoded uplinks of such a device carry the same DevAddr and FCnt. -/
theorem no_fcnt_aliasing (encoder : Encoder) (nvs : Nvs) (events : List Event)
    (hapart : CountersKeptApart encoder nvs events) :
    NoAliasing (run (step encoder) (boot nvs) events).2 := by
  rcases hapart with halone | hcurrent
  · exact noAliasing_of_carries carries_alone nvs events halone
  · exact noAliasing_of_carries carries_current nvs events hcurrent

/-- A build without fallback keys, on the identity cipher. -/
def tableEncoder : Encoder where
  aes := identityCipher
  creds := ⟨false, 0, 0, List.Vector.replicate 16 0, List.Vector.replicate 16 0⟩
  cryptoOk := true

/-- The form of an enabled slot with the given selector, match value and address. -/
def enabledForm (sel value addr : Text) : DeviceForm where
  en := ['1']
  sel := sel
  «match» := value
  addr := addr
  nwk := List.replicate 32 'a'
  app := List.replicate 32 'b'
  port := ['1', '3']
  tag := []

def disabledForm : DeviceForm := ⟨[], [], [], [], [], [], [], []⟩

/-- One device for a Meshtastic node, one for everything else. -/
def twoForms (first second : Text) (slot : Slot) : DeviceForm :=
  if slot.val = 0 then enabledForm ['1'] ['b', '1', '6', 'b', '0', '0', 'b', '5'] first
  else if slot.val = 1 then enabledForm ['0'] [] second
  else disabledForm

/-- An uplink of the node, and one of a Custom radio. -/
def twoUplinks (forms : Slot → DeviceForm) : List Event :=
  [.action (.portalSave forms .confirmed),
    .action (.uplink 0x2B 0xb16b00b5 [0x68, 0x69] .confirmed),
    .action (.uplink 0x55 0 [0x68, 0x69] .confirmed)]

def sevenAddr : Text := ['0', '0', '0', '0', '0', '0', '0', '7']

def eightAddr : Text := ['0', '0', '0', '0', '0', '0', '0', '8']

theorem distinctAddrs_apart :
    CountersKeptApart tableEncoder ⟨none, fun _ => 0⟩
        (twoUplinks (twoForms sevenAddr eightAddr)) ∧
      NoAliasing (run (step tableEncoder) (boot ⟨none, fun _ => 0⟩)
        (twoUplinks (twoForms sevenAddr eightAddr))).2 := by
  have hapart : CountersKeptApart tableEncoder ⟨none, fun _ => 0⟩
      (twoUplinks (twoForms sevenAddr eightAddr)) := by
    refine .inl ?_
    unfold twoUplinks
    simp only [Along, Event.Draws]
    decide
  exact ⟨hapart, no_fcnt_aliasing _ _ _ hapart⟩

/-- The portal accepts two devices with one DevAddr, and both issue FCnt 0. -/
theorem sharedAddr_aliases :
    (applyLoRaWANDevices (twoForms sevenAddr sevenAddr) .confirmed
        (boot ⟨none, fun _ => 0⟩)).2 = none ∧
      ¬ NoAliasing (run (step tableEncoder) (boot ⟨none, fun _ => 0⟩)
        (twoUplinks (twoForms sevenAddr sevenAddr))).2 := by
  refine ⟨?_, ?_⟩
  · decide
  · decide

end LoraBridge.FcntAliasing
