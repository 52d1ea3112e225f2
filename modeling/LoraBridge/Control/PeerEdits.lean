import LoraBridge.Control.PeerPortal

/-!
# Replay floors under edits of the peer table

The portal and a radio task share the table without a lock.  A floor goes back when a
copied slot is written over a frame accepted in between, when a second slot of the
same peer takes over with an older floor, or when an acceptance is in flight in the
slot that is written.  Where none of this happens, floors never decrease.
-/

namespace LoraBridge.PeerEdits

open LoraBridge.CamC2Config LoraBridge.Machine LoraBridge.PeerPortal
open LoraBridge.ReserveAhead

/-- The slot an id resolves to, when its floor is not about to be loaded. -/
def Settled (state : PeerPortal.State) (peerId : UInt32) (slot : Slot) : Prop :=
  resolve state.config.ram.peer peerId = some slot ∧ state.portal.loadingSlot ≠ some slot

def floorAt (state : PeerPortal.State) (slot : Slot) : UInt32 :=
  (state.config.ram.peer slot).rxHighWater

section FloorAt

variable {state next : PeerPortal.State} {slot : Slot} {p : Peer}

theorem floorAt_self
    (hpeer : next.config.ram.peer = Function.update state.config.ram.peer slot p) :
    floorAt next slot = p.rxHighWater := by
  rw [floorAt, hpeer, Function.update_self]

theorem floorAt_of_ne
    (hpeer : next.config.ram.peer = Function.update state.config.ram.peer slot p)
    {other : Slot} (hother : other ≠ slot) : floorAt next other = floorAt state other := by
  rw [floorAt, hpeer, Function.update_of_ne hother, floorAt]

end FloorAt

/-! ## What keeps the floors -/

/-- No acceptance is in flight in the slot that is written or for the id it gets, and
a slot that takes over an id has the stored floor of the id. -/
structure WritesSafely (state : PeerPortal.State) (slot : Slot) (p : Peer) : Prop where
  flight : ∀ busy peerId, state.radio.inFlight = some (busy, peerId) →
    busy ≠ slot ∧ ¬ p.Names peerId
  takeover : ∀ peerId other, resolve state.config.ram.peer peerId = some slot →
    resolve (Function.update state.config.ram.peer slot p) peerId = some other →
    other ≠ slot → floorAt state other = state.config.nvs.rx peerId

/-- What an event asks of the state it finds: a slot is cleared or written back
safely; a copy that goes back to its own peer still has the floor of the slot; and no
frame is taken for a slot whose floor is about to be loaded. -/
def Kept (state : PeerPortal.State) : Event → Prop
  | .portal _ =>
      match state.portal with
      | .visiting forms slot =>
          (forms slot).en ≠ ['1'] → WritesSafely state slot Peer.empty
      | .copied _ slot p =>
          WritesSafely state slot p ∧
            (p.peerId = (state.config.ram.peer slot).peerId →
              (state.config.ram.peer slot).inUse ≠ 0 ∧ p.rxHighWater = floorAt state slot)
      | _ => True
  | .receive peerId _ =>
      ∀ slot, state.portal.loadingSlot = some slot →
        resolve state.config.ram.peer peerId ≠ some slot
  | _ => True

/-! ## The invariant -/

structure Inv (state : PeerPortal.State) : Prop where
  loading : ∀ forms slot peerId, state.portal = .loading forms slot peerId →
    (state.config.ram.peer slot).peerId = peerId
  stored : ∀ peerId slot, Settled state peerId slot →
    floorAt state slot ≤ state.config.nvs.rx peerId
  flight : ∀ slot peerId, state.radio.inFlight = some (slot, peerId) →
    Settled state peerId slot
  checked : ∀ slot peerId seq, state.radio = .checked slot peerId seq ∨
    state.radio = .stored slot peerId seq → floorAt state slot < seq
  written : ∀ slot peerId seq, state.radio = .stored slot peerId seq →
    state.config.nvs.rx peerId = seq

/-- The peer's floors, stored and in the slot it resolves to, are at least `low`. -/
structure Bound (state : PeerPortal.State) (peerId low : UInt32) : Prop where
  stored : low ≤ state.config.nvs.rx peerId
  settled : ∀ slot, Settled state peerId slot → low ≤ floorAt state slot

/-- Every settled floor is what it was or the stored one, and the radio task finds
its slot as it left it. -/
structure Carries (state next : PeerPortal.State) : Prop where
  rx : next.config.nvs.rx = state.config.nvs.rx
  radio : next.radio = state.radio
  floors : ∀ peerId slot, Settled next peerId slot →
    (Settled state peerId slot ∧ floorAt next slot = floorAt state slot) ∨
      floorAt next slot = state.config.nvs.rx peerId
  flight : ∀ slot peerId, state.radio.inFlight = some (slot, peerId) →
    Settled state peerId slot → Settled next peerId slot ∧ floorAt next slot = floorAt state slot

section Carries

variable {state next : PeerPortal.State}

theorem Carries.bound (hcarries : Carries state next) {peerId low : UInt32}
    (hbound : Bound state peerId low) : Bound next peerId low where
  stored := hcarries.rx ▸ hbound.stored
  settled slot hsettled := by
    rcases hcarries.floors peerId slot hsettled with ⟨hold, hsame⟩ | hstored
    · exact hsame ▸ hbound.settled slot hold
    · exact hstored ▸ hbound.stored

theorem Carries.inv (hcarries : Carries state next) (hinv : Inv state)
    (hloading : ∀ forms slot peerId, next.portal = .loading forms slot peerId →
      (next.config.ram.peer slot).peerId = peerId) : Inv next where
  loading := hloading
  stored peerId slot hsettled := by
    rw [hcarries.rx]
    rcases hcarries.floors peerId slot hsettled with ⟨hold, hsame⟩ | hstored
    · exact hsame ▸ hinv.stored peerId slot hold
    · exact hstored ▸ UInt32.le_refl _
  flight slot peerId hflight := by
    rw [hcarries.radio] at hflight
    exact (hcarries.flight slot peerId hflight (hinv.flight slot peerId hflight)).1
  checked slot peerId seq hradio := by
    rw [hcarries.radio] at hradio
    have hflight : state.radio.inFlight = some (slot, peerId) := by
      rcases hradio with hradio | hradio <;> rw [hradio] <;> rfl
    rw [(hcarries.flight slot peerId hflight (hinv.flight slot peerId hflight)).2]
    exact hinv.checked slot peerId seq hradio
  written slot peerId seq hradio := by
    rw [hcarries.rx]
    exact hinv.written slot peerId seq (hcarries.radio ▸ hradio)

/-- A step that leaves table, floors and the pending load alone. -/
theorem carries_of_same (hpeer : next.config.ram.peer = state.config.ram.peer)
    (hrx : next.config.nvs.rx = state.config.nvs.rx)
    (hloading : next.portal.loadingSlot = state.portal.loadingSlot)
    (hradio : next.radio = state.radio) : Carries state next where
  rx := hrx
  radio := hradio
  floors peerId slot hsettled := by
    unfold Settled floorAt at *
    rw [hpeer, hloading] at hsettled
    exact .inl ⟨hsettled, by rw [hpeer]⟩
  flight slot peerId _ hsettled := by
    unfold Settled floorAt at *
    rw [hpeer, hloading]
    exact ⟨hsettled, rfl⟩

/-- A slot is written while no load is pending: with no peer, with another one whose
floor is loaded next, or with the same one and its floor. -/
theorem carries_of_write {slot : Slot} {p : Peer} (hsafe : WritesSafely state slot p)
    (hconfig : next.config = assign slot p state.config)
    (hradio : next.radio = state.radio) (hpending : state.portal.loadingSlot = none)
    (hwritten : ∀ peerId, p.Names peerId → next.portal.loadingSlot = some slot ∨
      ((state.config.ram.peer slot).Names peerId ∧ p.rxHighWater = floorAt state slot))
    (hother : ∀ other, next.portal.loadingSlot = some other → other = slot) :
    Carries state next := by
  have hpeer : next.config.ram.peer = Function.update state.config.ram.peer slot p := by
    rw [hconfig]
    rfl
  refine ⟨by rw [hconfig]; rfl, hradio, fun peerId other hsettled => ?_,
    fun busy peerId hflight hsettled => ?_⟩
  · obtain ⟨hresolve, hloaded⟩ := hsettled
    rw [hpeer] at hresolve
    by_cases heq : other = slot
    · subst heq
      have hnew := resolve_eq_some_iff.mp hresolve
      rw [Function.update_self] at hnew
      rcases hwritten peerId hnew.2.1 with hpend | ⟨hnames, hfloor⟩
      · exact absurd hpend hloaded
      · refine .inl ⟨⟨resolve_eq_some_iff.mpr ⟨hnew.1, hnames, fun earlier hearlier => ?_⟩,
          by rw [hpending]; simp⟩, ?_⟩
        · have hnot := hnew.2.2 earlier hearlier
          rwa [Function.update_of_ne hearlier.ne] at hnot
        · rw [floorAt_self hpeer]
          exact hfloor
    · have hsame : floorAt next other = floorAt state other := floorAt_of_ne hpeer heq
      rcases resolve_write hresolve heq with hold | hlost
      · exact .inl ⟨⟨hold, by rw [hpending]; simp⟩, hsame⟩
      · exact .inr (hsame.trans (hsafe.takeover peerId other hlost hresolve heq))
  · obtain ⟨hbusy, hnames⟩ := hsafe.flight busy peerId hflight
    refine ⟨⟨?_, fun hload => hbusy (hother busy hload)⟩, floorAt_of_ne hpeer hbusy⟩
    rw [hpeer]
    exact resolve_keep hsettled.1 hbusy hnames

end Carries

/-! ## The steps of the portal -/

section Portal

variable {state : PeerPortal.State} {write : Write}

theorem nextSlot_ne_loading {forms forms' : Forms} {slot slot' : Slot} {peerId : UInt32} :
    nextSlot forms slot ≠ .loading forms' slot' peerId := by
  unfold nextSlot
  split <;> simp

theorem loading_portal {forms : Forms} {slot : Slot} {peerId : UInt32}
    (hportal : (portalStep write state).portal = .loading forms slot peerId) :
    ((portalStep write state).config.ram.peer slot).peerId = peerId := by
  unfold portalStep at hportal ⊢
  cases hstate : state.portal with
  | idle => simp [hstate] at hportal
  | saving => simp [hstate] at hportal
  | loading _ _ _ => simp [hstate, nextSlot_ne_loading] at hportal
  | visiting forms' slot' =>
      simp only [hstate] at hportal
      split at hportal
      · split at hportal
        · simp at hportal
        · simp at hportal
      · exact absurd hportal nextSlot_ne_loading
  | copied forms' slot' p =>
      simp only [hstate] at hportal ⊢
      split at hportal
      · obtain ⟨-, rfl, rfl⟩ := Portal.loading.inj hportal
        simp [assign, CamC2Config.State.setPeers]
      · exact absurd hportal nextSlot_ne_loading

theorem empty_not_names (peerId : UInt32) : ¬ Peer.empty.Names peerId :=
  fun hnames => hnames.1 rfl

theorem carries_load (hinv : Inv state) {forms : Forms} {slot : Slot} {peerId : UInt32}
    (hportal : state.portal = .loading forms slot peerId) :
    Carries state (portalStep write state) := by
  have hpending : state.portal.loadingSlot = some slot := by rw [hportal]; rfl
  have hdone : (portalStep write state).portal.loadingSlot = none := by
    simp [portalStep, hportal]
  have hpeer : (portalStep write state).config.ram.peer =
      Function.update state.config.ram.peer slot
        { state.config.ram.peer slot with
          rxHighWater := loadRxForPeer state.config.nvs peerId } := by
    simp only [portalStep, hportal]
    rfl
  have hrx : (portalStep write state).config.nvs.rx = state.config.nvs.rx := by
    simp only [portalStep, hportal]
    rfl
  refine ⟨hrx, by simp only [portalStep, hportal], fun other found hsettled => ?_,
    fun busy other _ hsettled => ?_⟩
  · have hresolve := hsettled.1
    rw [hpeer, resolve_floor] at hresolve
    by_cases heq : found = slot
    · subst heq
      obtain ⟨hzero, hnames, -⟩ := resolve_eq_some_iff.mp hresolve
      have hid : peerId = other := (hinv.loading forms found peerId hportal).symm.trans hnames.2
      refine .inr ?_
      rw [floorAt_self hpeer, ← hid]
      exact if_neg (hid ▸ hzero)
    · refine .inl ⟨⟨hresolve, ?_⟩, floorAt_of_ne hpeer heq⟩
      rw [hpending]
      simpa [eq_comm] using heq
  · have hbusy : busy ≠ slot := by
      intro heq
      exact hsettled.2 (heq ▸ hpending)
    refine ⟨⟨?_, by rw [hdone]; simp⟩, floorAt_of_ne hpeer hbusy⟩
    rw [hpeer, resolve_floor]
    exact hsettled.1

theorem carries_portal (hinv : Inv state) (hkept : Kept state (.portal write)) :
    Carries state (portalStep write state) := by
  cases hstate : state.portal with
  | idle =>
      have heq : portalStep write state = state := by simp [portalStep, hstate]
      rw [heq]
      exact carries_of_same rfl rfl rfl rfl
  | saving =>
      refine carries_of_same ?_ ?_ ?_ ?_ <;>
        simp [portalStep, hstate, saveTable, Portal.loadingSlot]
  | loading forms slot peerId => exact carries_load hinv hstate
  | visiting forms slot =>
      simp only [Kept, hstate] at hkept
      by_cases hen : (forms slot).en = ['1']
      · cases hpeer : peerOf (forms slot) (state.config.ram.peer slot) with
        | ok p =>
            refine carries_of_same ?_ ?_ ?_ ?_ <;>
              simp [portalStep, hstate, hen, hpeer, Portal.loadingSlot]
        | error message =>
            refine carries_of_same ?_ ?_ ?_ ?_ <;>
              simp [portalStep, hstate, hen, hpeer, Portal.loadingSlot]
      · refine carries_of_write (hkept hen) ?_ ?_ ?_ ?_ ?_
        · simp [portalStep, hstate, hen, clearPeer, slotOf_slot, assign]
        · simp [portalStep, hstate, hen]
        · simp [hstate, Portal.loadingSlot]
        · exact fun peerId hnames => absurd hnames (empty_not_names peerId)
        · simp [portalStep, hstate, hen]
  | copied forms slot p =>
      simp only [Kept, hstate] at hkept
      obtain ⟨hsafe, hsame⟩ := hkept
      refine carries_of_write hsafe ?_ ?_ ?_ ?_ ?_
      · simp [portalStep, hstate]
      · simp [portalStep, hstate]
      · simp [hstate, Portal.loadingSlot]
      · intro peerId hnames
        by_cases hid : p.peerId = (state.config.ram.peer slot).peerId
        · obtain ⟨huse, hfloor⟩ := hsame hid
          exact .inr ⟨⟨huse, hid.symm.trans hnames.2⟩, hfloor⟩
        · exact .inl (by simp [portalStep, hstate, hid, Portal.loadingSlot])
      · intro other hload
        by_cases hid : p.peerId = (state.config.ram.peer slot).peerId
        · simp [portalStep, hstate, hid] at hload
        · simpa [portalStep, hstate, hid, Portal.loadingSlot, eq_comm] using hload

end Portal

/-! ## The steps of the radio task -/

section Radio

variable {state : PeerPortal.State} {write : Write}

/-- What a step keeps, and what it accepts. -/
structure StepKeeps (state next : PeerPortal.State) (outputs : List Accepted) : Prop where
  inv : Inv next
  bound : ∀ peerId low, Bound state peerId low → Bound next peerId low
  fresh : ∀ accepted ∈ outputs, outputs = [accepted] ∧
    (∀ low, Bound state accepted.peerId low → low < accepted.seq) ∧
      Bound next accepted.peerId accepted.seq

/-- Another phase of the radio task, on the same table and floors. -/
theorem Inv.ofRadio {next : PeerPortal.State} (hinv : Inv state)
    (hsame : next.config = state.config ∧ next.portal = state.portal)
    (hflight : ∀ slot peerId, next.radio.inFlight = some (slot, peerId) →
      Settled state peerId slot)
    (hchecked : ∀ slot peerId seq, next.radio = .checked slot peerId seq ∨
      next.radio = .stored slot peerId seq → floorAt state slot < seq)
    (hwritten : ∀ slot peerId seq, next.radio = .stored slot peerId seq →
      state.config.nvs.rx peerId = seq) : Inv next := by
  obtain ⟨hconfig, hportal⟩ := hsame
  have hsettled : ∀ peerId slot, Settled next peerId slot ↔ Settled state peerId slot := by
    intro peerId slot
    unfold Settled
    rw [hconfig, hportal]
  have hfloor : ∀ slot, floorAt next slot = floorAt state slot := by
    intro slot
    unfold floorAt
    rw [hconfig]
  constructor
  · rw [hconfig, hportal]
    exact hinv.loading
  · intro peerId slot hslot
    rw [hfloor, hconfig]
    exact hinv.stored peerId slot ((hsettled peerId slot).mp hslot)
  · exact fun slot peerId hbusy => (hsettled peerId slot).mpr (hflight slot peerId hbusy)
  · intro slot peerId seq hradio
    rw [hfloor]
    exact hchecked slot peerId seq hradio
  · rw [hconfig]
    exact hwritten

/-- The floor goes to NVS, above the one in the slot. -/
theorem radio_persist (hinv : Inv state) {slot : Slot} {peerId seq : UInt32}
    (hstate : state.radio = .checked slot peerId seq) :
    StepKeeps state (radioStep write state).1 (radioStep write state).2 := by
  have hsettled : Settled state peerId slot := hinv.flight slot peerId (by rw [hstate]; rfl)
  have hless : floorAt state slot < seq := hinv.checked slot peerId seq (.inl hstate)
  obtain ⟨hzero, hnames, -⟩ := resolve_eq_some_iff.mp hsettled.1
  have hpersist : persistRx slot seq write state.config = state.config.setRx peerId
      (write.apply (state.config.nvs.rx peerId) seq) :=
    persistRx_of_id hnames.2 hzero seq write
  simp only [radioStep, hstate, hpersist]
  have habove : ∀ low, low ≤ floorAt state slot → low ≤ state.config.nvs.rx peerId →
      low ≤ write.apply (state.config.nvs.rx peerId) seq := by
    intro low hlow hold
    have hnew : low ≤ seq := UInt32.le_trans hlow (UInt32.le_of_lt hless)
    exact write.apply_of (motive := fun cell => low ≤ cell) hold hnew
  have hrx : ∀ other low, (∀ found, Settled state other found → low ≤ floorAt state found) →
      low ≤ state.config.nvs.rx other →
      low ≤ Function.update state.config.nvs.rx peerId
        (write.apply (state.config.nvs.rx peerId) seq) other := by
    intro other low hfloors hold
    by_cases heq : other = peerId
    · subst heq
      rw [Function.update_self]
      exact habove low (hfloors slot hsettled) hold
    · rwa [Function.update_of_ne heq]
  refine ⟨⟨hinv.loading, ?_, ?_, ?_, ?_⟩, ?_, by simp⟩
  · intro other found hfound
    refine hrx other _ (fun found' hfound' => ?_) (hinv.stored other found hfound)
    obtain rfl : found = found' := Option.some.inj (hfound.1.symm.trans hfound'.1)
    exact UInt32.le_refl _
  · intro busy other hflight
    split at hflight
    · obtain ⟨rfl, rfl⟩ := Prod.mk.inj (Option.some.inj hflight)
      exact hsettled
    · simp [Radio.inFlight] at hflight
  · intro busy other seq' hradio
    split at hradio
    · obtain ⟨rfl, rfl, rfl⟩ : slot = busy ∧ peerId = other ∧ seq = seq' := by
        simpa using hradio
      exact hless
    · simp at hradio
  · intro busy other seq' hradio
    split at hradio
    · rename_i hok
      obtain ⟨rfl, rfl, rfl⟩ := Radio.stored.inj hradio
      have hwrite : write = .confirmed := by
        rw [persistRxOk_of_id hnames.2 hzero] at hok
        exact of_decide_eq_true hok
      simp [State.setRx, hwrite]
    · cases hradio
  · intro other low hbound
    exact ⟨hrx other low hbound.settled hbound.stored, hbound.settled⟩

/-- The acceptance of a frame whose floor is stored: the floor goes to the slot. -/
structure Accepting (state next : PeerPortal.State) (slot : Slot) (peerId seq : UInt32) :
    Prop where
  settled : Settled state peerId slot
  fresh : floorAt state slot < seq
  written : state.config.nvs.rx peerId = seq
  peer : next.config.ram.peer = Function.update state.config.ram.peer slot
    { state.config.ram.peer slot with rxHighWater := seq }
  rx : next.config.nvs.rx = state.config.nvs.rx
  radio : next.radio = .idle
  portal : next.portal = state.portal

section Accepting

variable {next : PeerPortal.State} {slot : Slot} {peerId seq : UInt32}

/-- No peer moves to another slot. -/
theorem Accepting.settled_back (haccepting : Accepting state next slot peerId seq)
    {other : UInt32} {found : Slot} (hfound : Settled next other found) :
    Settled state other found := by
  unfold Settled at hfound ⊢
  rwa [haccepting.peer, resolve_floor, haccepting.portal] at hfound

/-- The slot is that of the sender. -/
theorem Accepting.sender (haccepting : Accepting state next slot peerId seq) {other : UInt32}
    (hfound : Settled next other slot) : other = peerId :=
  (resolve_spec (haccepting.settled_back hfound).1).2.symm.trans
    (resolve_spec haccepting.settled.1).2

theorem Accepting.inv (haccepting : Accepting state next slot peerId seq) (hinv : Inv state) :
    Inv next where
  loading forms other id hload := by
    have hid := hinv.loading forms other id (haccepting.portal ▸ hload)
    rw [haccepting.peer]
    by_cases heq : other = slot
    · subst heq
      rwa [Function.update_self]
    · rwa [Function.update_of_ne heq]
  stored other found hfound := by
    rw [haccepting.rx]
    by_cases heq : found = slot
    · subst heq
      rw [floorAt_self haccepting.peer, haccepting.sender hfound, haccepting.written]
      exact UInt32.le_refl seq
    · rw [floorAt_of_ne haccepting.peer heq]
      exact hinv.stored other found (haccepting.settled_back hfound)
  flight := by simp [haccepting.radio, Radio.inFlight]
  checked := by simp [haccepting.radio]
  written := by simp [haccepting.radio]

/-- No floor sinks. -/
theorem Accepting.bound (haccepting : Accepting state next slot peerId seq) {other low : UInt32}
    (hbound : Bound state other low) : Bound next other low where
  stored := haccepting.rx ▸ hbound.stored
  settled found hfound := by
    have hold := hbound.settled found (haccepting.settled_back hfound)
    by_cases heq : found = slot
    · subst heq
      rw [floorAt_self haccepting.peer]
      exact UInt32.le_trans hold (UInt32.le_of_lt haccepting.fresh)
    · rwa [floorAt_of_ne haccepting.peer heq]

/-- Both floors of the sender are the number of the frame. -/
theorem Accepting.bound_self (haccepting : Accepting state next slot peerId seq) :
    Bound next peerId seq where
  stored := by
    rw [haccepting.rx, haccepting.written]
    exact UInt32.le_refl seq
  settled found hfound := by
    obtain rfl : slot = found := Option.some.inj
      (haccepting.settled.1.symm.trans (haccepting.settled_back hfound).1)
    rw [floorAt_self haccepting.peer]
    exact UInt32.le_refl seq

end Accepting

/-- The floor goes to the slot, and the frame is accepted. -/
theorem radio_accept (hinv : Inv state) {slot : Slot} {peerId seq : UInt32}
    (hstate : state.radio = .stored slot peerId seq) :
    StepKeeps state (radioStep write state).1 (radioStep write state).2 := by
  have hsettled : Settled state peerId slot := hinv.flight slot peerId (by rw [hstate]; rfl)
  have hless : floorAt state slot < seq := hinv.checked slot peerId seq (.inr hstate)
  have hwritten : state.config.nvs.rx peerId = seq := hinv.written slot peerId seq hstate
  simp only [radioStep, hstate]
  have haccepting : Accepting state
      { state with config := state.config.setFloor slot seq, radio := .idle } slot peerId seq :=
    ⟨hsettled, hless, hwritten, rfl, rfl, rfl, rfl⟩
  refine ⟨haccepting.inv hinv, fun other low hbound => haccepting.bound hbound, ?_⟩
  intro accepted hmem
  obtain rfl : accepted = ⟨peerId, seq⟩ := by simpa using hmem
  refine ⟨rfl, fun low hbound => ?_, haccepting.bound_self⟩
  exact UInt32.lt_of_le_of_lt (hbound.settled slot hsettled) hless

theorem radio_step (hinv : Inv state) :
    StepKeeps state (radioStep write state).1 (radioStep write state).2 := by
  cases hstate : state.radio with
  | idle =>
      have heq : radioStep write state = (state, []) := by simp [radioStep, hstate]
      rw [heq]
      exact ⟨hinv, fun _ _ hbound => hbound, by simp⟩
  | called slot peerId seq =>
      have hsettled : Settled state peerId slot :=
        hinv.flight slot peerId (by rw [hstate]; rfl)
      rcases radioStep_called write hstate with ⟨-, heq⟩ | ⟨⟨-, hfloor⟩, heq⟩
      · rw [heq]
        exact ⟨hinv.ofRadio ⟨rfl, rfl⟩ (by simp [Radio.inFlight]) (by simp) (by simp),
          fun _ _ hbound => ⟨hbound.stored, hbound.settled⟩, by simp⟩
      · rw [heq, (resolve_spec hsettled.1).2]
        refine ⟨hinv.ofRadio ⟨rfl, rfl⟩ ?_ ?_ (by simp),
          fun _ _ hbound => ⟨hbound.stored, hbound.settled⟩, by simp⟩
        · intro busy other hflight
          obtain ⟨rfl, rfl⟩ := Prod.mk.inj (Option.some.inj hflight)
          exact hsettled
        · intro busy other seq' hradio
          obtain ⟨rfl, rfl, rfl⟩ : slot = busy ∧ peerId = other ∧ seq = seq' := by
            simpa using hradio
          exact hfloor
  | checked slot peerId seq => exact radio_persist hinv hstate
  | stored slot peerId seq => exact radio_accept hinv hstate

end Radio

/-! ## One event, and the whole run -/

section Run

variable {seed : Option Peer} {state : PeerPortal.State}

theorem floorAt_start {nvs : Nvs} {peerId : UInt32} {slot : Slot}
    (hsettled : Settled (start seed nvs) peerId slot) :
    floorAt (start seed nvs) slot = nvs.rx peerId := by
  obtain ⟨hzero, hnames, -⟩ := resolve_eq_some_iff.mp hsettled.1
  have hid : ((begin seed nvs).peer slot).peerId = peerId := hnames.2
  have hload := begin_floor seed nvs slot (hid ▸ hzero)
  rw [hid] at hload
  exact hload

theorem inv_start (nvs : Nvs) : Inv (start seed nvs) where
  loading _ _ _ hportal := by simp [start] at hportal
  stored _ _ hsettled := floorAt_start hsettled ▸ UInt32.le_refl _
  flight _ _ hflight := by simp [start, Radio.inFlight] at hflight
  checked _ _ _ hradio := by simp [start] at hradio
  written _ _ _ hradio := by simp [start] at hradio

/-- What one event keeps, and what it accepts. -/
theorem step_keeps (hinv : Inv state) (event : Event) (hkept : Kept state event) :
    StepKeeps state (step seed state event).1 (step seed state event).2 := by
  have hstay : StepKeeps state state [] := ⟨hinv, fun _ _ hbound => hbound, by simp⟩
  cases event with
  | post forms =>
      cases hportal : state.portal with
      | idle =>
          have hcarries : Carries state (step seed state (.post forms)).1 := by
            refine carries_of_same ?_ ?_ ?_ ?_ <;> simp [step, hportal, Portal.loadingSlot]
          refine ⟨hcarries.inv hinv ?_, fun _ _ hbound => hcarries.bound hbound,
            by simp [step, hportal]⟩
          simp [step, hportal]
      | visiting _ _ => simpa [step, hportal] using hstay
      | saving => simpa [step, hportal] using hstay
      | copied _ _ _ => simpa [step, hportal] using hstay
      | loading _ _ _ => simpa [step, hportal] using hstay
  | portal write =>
      have hcarries := carries_portal hinv hkept
      exact ⟨hcarries.inv hinv fun _ _ _ hportal => loading_portal hportal,
        fun _ _ hbound => hcarries.bound hbound, by simp [step]⟩
  | receive peerId seq =>
      cases hradio : state.radio with
      | idle =>
          cases hresolve : resolve state.config.ram.peer peerId with
          | none => simpa [step, hradio, hresolve] using hstay
          | some slot =>
              have hsettled : Settled state peerId slot :=
                ⟨hresolve, fun hload => hkept slot hload hresolve⟩
              simp only [step, hradio, hresolve]
              refine ⟨hinv.ofRadio ⟨rfl, rfl⟩ ?_ (by simp) (by simp),
                fun _ _ hbound => ⟨hbound.stored, hbound.settled⟩, by simp⟩
              intro busy other hflight
              obtain ⟨rfl, rfl⟩ := Prod.mk.inj (Option.some.inj hflight)
              exact hsettled
      | called _ _ _ => simpa [step, hradio] using hstay
      | checked _ _ _ => simpa [step, hradio] using hstay
      | stored _ _ _ => simpa [step, hradio] using hstay
  | radio write => exact radio_step hinv
  | reboot =>
      refine ⟨inv_start _, fun peerId low hbound => ⟨hbound.stored, fun slot hsettled => ?_⟩,
        by simp [step]⟩
      exact floorAt_start hsettled ▸ hbound.stored

/-- The sequence numbers accepted from one peer, oldest first. -/
def acceptedFrom (peerId : UInt32) (history : List Accepted) : List UInt32 :=
  (history.filter fun accepted => accepted.peerId = peerId).map Accepted.seq

/-- The invariant, the numbers accepted so far, and a bound that held before. -/
structure Life (state : PeerPortal.State) (history : List Accepted) : Prop where
  inv : Inv state
  increasing : ∀ peerId, (acceptedFrom peerId history).Pairwise (· < ·)
  bound : ∀ peerId, ∀ seq ∈ acceptedFrom peerId history, Bound state peerId seq

theorem Life.step {history : List Accepted} (hlife : Life state history) (event : Event)
    (hkept : Kept state event) :
    Life (step seed state event).1 (history ++ (step seed state event).2) := by
  obtain ⟨hinv, hbound, hfresh⟩ := @step_keeps seed _ hlife.inv event hkept
  generalize PeerPortal.step seed state event = result at hinv hbound hfresh
  cases hresult : result.2 with
  | nil =>
      rw [List.append_nil]
      exact ⟨hinv, hlife.increasing, fun peerId seq hmem =>
        hbound peerId seq (hlife.bound peerId seq hmem)⟩
  | cons accepted rest =>
      rw [hresult] at hfresh
      obtain ⟨hall, habove, hnew⟩ := hfresh accepted List.mem_cons_self
      rw [hall]
      have hseqs : ∀ peerId, acceptedFrom peerId (history ++ [accepted]) =
          acceptedFrom peerId history ++
            if accepted.peerId = peerId then [accepted.seq] else [] := by
        intro peerId
        by_cases hid : accepted.peerId = peerId <;> simp [acceptedFrom, hid]
      refine ⟨hinv, fun peerId => ?_, fun peerId seq hmem => ?_⟩
      · rw [hseqs]
        by_cases hid : accepted.peerId = peerId
        · subst hid
          rw [if_pos rfl, List.pairwise_append]
          refine ⟨hlife.increasing _, List.pairwise_singleton _ _, ?_⟩
          intro earlier hearlier later hlater
          obtain rfl : later = accepted.seq := by simpa using hlater
          exact habove earlier (hlife.bound _ earlier hearlier)
        · rw [if_neg hid, List.append_nil]
          exact hlife.increasing peerId
      · rw [hseqs] at hmem
        rcases List.mem_append.mp hmem with hold | hlast
        · exact hbound peerId seq (hlife.bound peerId seq hold)
        · by_cases hid : accepted.peerId = peerId
          · subst hid
            obtain rfl : seq = accepted.seq := by simpa using hlast
            exact hnew
          · simp [hid] at hlast

/-- The floor of the slot a peer id resolves to, if it is loaded. -/
def floorOf (state : PeerPortal.State) (peerId : UInt32) : Option UInt32 :=
  match resolve state.config.ram.peer peerId with
  | some slot =>
      if state.portal.loadingSlot = some slot then none else some (floorAt state slot)
  | none => none

theorem floorOf_eq_some {peerId floor : UInt32} (hfloor : floorOf state peerId = some floor) :
    ∃ slot, Settled state peerId slot ∧ floorAt state slot = floor := by
  unfold floorOf at hfloor
  split at hfloor
  · rename_i slot hresolve
    split at hfloor
    · cases hfloor
    · rename_i hload
      exact ⟨slot, ⟨hresolve, hload⟩, Option.some.inj hfloor⟩
  · cases hfloor

/-- A floor that was seen bounds every later one of the peer. -/
theorem bound_run (hinv : Inv state) (events : List Event)
    (hkept : Along (step seed) Kept state events) {peerId low : UInt32}
    (hbound : Bound state peerId low) :
    Bound (run (step seed) state events).1 peerId low := by
  have hstep : ∀ state event, Inv state ∧ Bound state peerId low → Kept state event →
      Inv (step seed state event).1 ∧ Bound (step seed state event).1 peerId low :=
    fun state event hboth hallowed =>
      have hkeeps := step_keeps hboth.1 event hallowed
      ⟨hkeeps.inv, hkeeps.bound peerId low hboth.2⟩
  exact (invariant_state hstep events ⟨hinv, hbound⟩ hkept).2

theorem life_run (nvs : Nvs) (events : List Event)
    (hkept : Along (step seed) Kept (start seed nvs) events) :
    Life (run (step seed) (start seed nvs) events).1
      (run (step seed) (start seed nvs) events).2 := by
  have hstart : Life (start seed nvs) [] :=
    ⟨inv_start nvs, fun _ => List.Pairwise.nil, fun _ _ hmem => by simp [acceptedFrom] at hmem⟩
  have hstep : ∀ state history event, Life state history → Kept state event →
      Life (step seed state event).1 (history ++ (step seed state event).2) :=
    fun _ _ event hlife hallowed => hlife.step event hallowed
  simpa using invariant_run hstep events hstart hkept

end Run

/-- In every run of the two tasks in which each event is kept safe, the sequence
numbers accepted from each peer strictly increase, and the floor of the slot that a
peer id resolves to never decreases. -/
theorem floors_never_decrease (seed : Option Peer) (nvs : Nvs) (before after : List Event)
    (hkept : Along (step seed) Kept (start seed nvs) (before ++ after)) :
    (∀ peerId, (acceptedFrom peerId
        (run (step seed) (start seed nvs) (before ++ after)).2).Pairwise (· < ·)) ∧
      ∀ peerId early late,
        floorOf (run (step seed) (start seed nvs) before).1 peerId = some early →
        floorOf (run (step seed) (start seed nvs) (before ++ after)).1 peerId = some late →
        early ≤ late := by
  refine ⟨(life_run nvs (before ++ after) hkept).increasing, ?_⟩
  intro peerId early late hearly hlate
  obtain ⟨hbefore, hafter⟩ := along_append hkept
  have hinv := (life_run nvs before hbefore).inv
  obtain ⟨slot, hsettled, rfl⟩ := floorOf_eq_some hearly
  have hbound : Bound (run (step seed) (start seed nvs) before).1 peerId
      (floorAt (run (step seed) (start seed nvs) before).1 slot) := by
    refine ⟨hinv.stored peerId slot hsettled, fun other hother => ?_⟩
    obtain rfl : slot = other := Option.some.inj (hsettled.1.symm.trans hother.1)
    exact UInt32.le_refl _
  obtain ⟨slot', hsettled', rfl⟩ := floorOf_eq_some hlate
  have hlast := (bound_run hinv after hafter hbound).settled slot'
  rw [run_append] at hsettled' ⊢
  exact hlast hsettled'

/-- Writing a peer over itself, with no acceptance in flight, is safe. -/
theorem writesSafely_of_same {state : PeerPortal.State} {slot : Slot} {p : Peer}
    {peerId : UInt32} (hidle : state.radio.inFlight = none)
    (hold : (state.config.ram.peer slot).Names peerId) (hnew : p.Names peerId) :
    WritesSafely state slot p where
  flight busy other hflight := by simp [hidle] at hflight
  takeover other found hresolve hwritten hne := by
    obtain ⟨-, hnames, hfirst⟩ := resolve_eq_some_iff.mp hresolve
    obtain ⟨-, hfound, hfirst'⟩ := resolve_eq_some_iff.mp hwritten
    obtain rfl : peerId = other := hold.2.symm.trans hnames.2
    rw [Function.update_of_ne hne] at hfound
    rcases lt_or_gt_of_ne hne with hless | hgreater
    · exact absurd hfound (hfirst found hless)
    · have hself := hfirst' slot hgreater
      rw [Function.update_self] at hself
      exact absurd hnew hself

/-- A stored table with peer 10 in slot 0, which has accepted 5. -/
def pairedNvs : Nvs where
  peers := some (Function.update (fun _ => Peer.empty) Slot.first
    { Peer.empty with inUse := 1, peerId := 10 })
  rx peerId := if peerId = 10 then 5 else 0
  txseq := 0

/-- The form as it is shown for that table, with the primary mark set. -/
def pairedForms (slot : Slot) : PeerForm :=
  if slot.val = 0 then
    ⟨['1'], ['0', '0', '0', '0', '0', '0', '0', 'a'], [], ['1']⟩
  else ⟨[], [], [], []⟩

/-- Peer 10 sends a frame, and the radio task handles it without a break. -/
def acceptance (seq : UInt32) : List Event :=
  [.receive 10 seq, .radio .confirmed, .radio .confirmed, .radio .confirmed]

/-- The handler copies slot 0 and writes it back at once. -/
theorem editedPeer_keeps_floor :
    acceptedFrom 10 (run (step none) (start none pairedNvs)
        ([.post pairedForms, .portal .confirmed, .portal .confirmed] ++ acceptance 6)).2 =
          [6] ∧
      (acceptedFrom 10 (run (step none) (start none pairedNvs)
        ([.post pairedForms, .portal .confirmed, .portal .confirmed] ++ acceptance 6)).2
          ).Pairwise (· < ·) := by
  refine ⟨by decide, (floors_never_decrease none pairedNvs
    [.post pairedForms, .portal .confirmed, .portal .confirmed] (acceptance 6) ?_).1 10⟩
  refine ⟨trivial, ?_, ?_, ?_, trivial, trivial, trivial, trivial⟩
  · exact fun hen => absurd rfl hen
  · have hsame : ∀ p : Peer, p.inUse ≠ 0 → p.peerId = 10 → p.Names 10 :=
      fun _ huse hid => ⟨huse, hid⟩
    refine ⟨writesSafely_of_same rfl (hsame _ ?_ ?_) (hsame _ ?_ ?_), fun _ => ⟨?_, ?_⟩⟩
    all_goals decide
  · intro slot hload
    have hidle : (none : Option Slot) = some slot := hload
    cases hidle

/-- A frame accepted between the copy and the write-back is accepted again. -/
theorem overtakenEdit_replays :
    acceptedFrom 10 (run (step none) (start none pairedNvs)
        ([.post pairedForms, .portal .confirmed] ++ acceptance 6 ++
          [.portal .confirmed] ++ acceptance 6)).2 = [6, 6] ∧
      ¬ (acceptedFrom 10 (run (step none) (start none pairedNvs)
        ([.post pairedForms, .portal .confirmed] ++ acceptance 6 ++
          [.portal .confirmed] ++ acceptance 6)).2).Pairwise (· < ·) := by
  refine ⟨by decide, by decide⟩

end LoraBridge.PeerEdits
