import LoraBridge.Core.Program
import LoraBridge.Core.ReserveAhead
import Mathlib.Data.Vector.Basic

/-!
# The C2 peer table and its counters

`CamC2Config`: four peer slots in RAM, each with the highest sequence number
accepted from its peer, and the device's own transmit counter.  An NVS namespace
holds the table as a blob, one floor per peer id, and the transmit reservation.
-/

namespace LoraBridge.CamC2Config

open LoraBridge.ReserveAhead

def MAX_PEERS : ℕ := 4

def SEQ_RESERVE : UInt32 := 16

def FLAG_PRIMARY_MASTER : UInt8 := 0x01

structure Peer where
  inUse : UInt8
  flags : UInt8
  peerId : UInt32
  psk : List.Vector UInt8 16
  rxHighWater : UInt32
  deriving DecidableEq

/-- A slot after `memset`. -/
def Peer.empty : Peer where
  inUse := 0
  flags := 0
  peerId := 0
  psk := List.Vector.replicate 16 0
  rxHighWater := 0

abbrev Slot := Fin MAX_PEERS

def Slot.first : Slot := ⟨0, Nat.zero_lt_succ 3⟩

/-- The namespace "c2auth".  A missing key reads as 0, a missing table, or one of
another size, as no table. -/
structure Nvs where
  peers : Option (Slot → Peer)
  rx : UInt32 → UInt32
  txseq : UInt32

structure Ram where
  peer : Slot → Peer
  tx : Counter

structure State where
  nvs : Nvs
  ram : Ram

/-- `loadRxForPeer`. -/
def loadRxForPeer (nvs : Nvs) (peerId : UInt32) : UInt32 :=
  if peerId = 0 then 0 else nvs.rx peerId

/-- Whether a slot can be resolved. -/
def Peer.configured (peer : Peer) : Bool := peer.inUse ≠ 0 ∧ peer.peerId ≠ 0

def anyConfigured (peer : Slot → Peer) : Bool :=
  (List.finRange MAX_PEERS).any fun slot => (peer slot).configured

/-- The transmit counter is 1-based: receivers start at floor 0. -/
def txResume (txseq : UInt32) : Counter :=
  ⟨if txseq = 0 then 1 else txseq, txseq⟩

/-- The table with every floor read from its own key. -/
def loadFloors (nvs : Nvs) (peer : Slot → Peer) (slot : Slot) : Peer :=
  if (peer slot).peerId = 0 then peer slot
  else { peer slot with rxHighWater := nvs.rx (peer slot).peerId }

/-- The peer of the build flags, in slot 0 of a table that has none. -/
def seedPeer (seed : Option Peer) (nvs : Nvs) (peer : Slot → Peer) : Slot → Peer :=
  match seed with
  | some pr =>
      if anyConfigured peer then peer
      else Function.update peer Slot.first
        { pr with inUse := 1, rxHighWater := loadRxForPeer nvs pr.peerId }
  | none => peer

/-- `begin()`. -/
def begin (seed : Option Peer) (nvs : Nvs) : Ram where
  peer := seedPeer seed nvs (loadFloors nvs (nvs.peers.getD fun _ => Peer.empty))
  tx := txResume nvs.txseq

def boot (seed : Option Peer) (nvs : Nvs) : State := ⟨nvs, begin seed nvs⟩

/-- `resolve`: the first slot in use with this id; never for id 0. -/
def resolve (peer : Slot → Peer) (peerId : UInt32) : Option Slot :=
  if peerId = 0 then none
  else (List.finRange MAX_PEERS).find? fun slot =>
    (peer slot).inUse ≠ 0 ∧ (peer slot).peerId = peerId

/-- `if (i < 0 || i >= MAX_PEERS)`. -/
def slotOf (i : ℤ) : Option Slot :=
  if h : 0 ≤ i ∧ i < MAX_PEERS then some ⟨i.toNat, by omega⟩ else none

/-! ## Changes of the state -/

def State.setPeers (state : State) (peer : Slot → Peer) : State :=
  { state with ram := { state.ram with peer := peer } }

def State.setFloor (state : State) (slot : Slot) (floor : UInt32) : State :=
  state.setPeers (Function.update state.ram.peer slot
    { state.ram.peer slot with rxHighWater := floor })

def State.setRx (state : State) (peerId floor : UInt32) : State :=
  { state with nvs := { state.nvs with rx := Function.update state.nvs.rx peerId floor } }

def State.setTx (state : State) (tx : Counter) (txseq : UInt32) : State :=
  ⟨{ state.nvs with txseq := txseq }, { state.ram with tx := tx }⟩

/-- `setPeer(i, p)`: another id brings its own floor, the same id the copied one. -/
def setPeer (i : ℤ) (p : Peer) (state : State) : State :=
  match slotOf i with
  | none => state
  | some slot =>
      if p.peerId ≠ (state.ram.peer slot).peerId then
        state.setPeers (Function.update state.ram.peer slot
          { p with rxHighWater := loadRxForPeer state.nvs p.peerId })
      else state.setPeers (Function.update state.ram.peer slot p)

/-- `clearPeer(i)`. -/
def clearPeer (i : ℤ) (state : State) : State :=
  match slotOf i with
  | none => state
  | some slot => state.setPeers (Function.update state.ram.peer slot Peer.empty)

/-- `saveTable()`. -/
def saveTable (write : Write) (state : State) : State :=
  { state with nvs := { state.nvs with
      peers := write.apply state.nvs.peers (some state.ram.peer) } }

/-! ## The two counters, step by step -/

section Steps

variable {Output : Type}

/-- `persistRxForPeer` on the id a slot holds when the write is made. -/
def persistRx (slot : Slot) (seq : UInt32) (write : Write) (state : State) : State :=
  let peerId := (state.ram.peer slot).peerId
  if peerId = 0 then state
  else state.setRx peerId (write.apply (state.nvs.rx peerId) seq)

/-- Whether that write was confirmed. -/
def persistRxOk (slot : Slot) (write : Write) (state : State) : Bool :=
  (state.ram.peer slot).peerId ≠ 0 ∧ write = .confirmed

/-- `acceptInboundSeq(i, seq)`: read the slot, write the floor to NVS, then to RAM.
An accepted frame is emitted with the write to RAM. -/
def acceptInboundSeq (i : ℤ) (seq : UInt32) (write : Write)
    (accepted : UInt32 → Output) : Program State Output Bool :=
  match slotOf i with
  | none => pure false
  | some slot => do
      let pr ← Program.read fun state => state.ram.peer slot
      if pr.inUse = 0 ∨ pr.peerId = 0 then pure false
      else if seq ≤ pr.rxHighWater then pure false
      else do
        let stored ← Program.step (fun state => (persistRx slot seq write state, []))
          fun state => .done (persistRxOk slot write state)
        if stored then do
          Program.modifyEmit (fun state => state.setFloor slot seq) [accepted pr.peerId]
          pure true
        else pure false

/-- `nextTxSeq()`: read the cursor, reserve the next block if needed, write the
cursor back. -/
def nextTxSeq (write : Write) : Program State Output (Option UInt32) := do
  let tx ← Program.read fun state => state.ram.tx
  if tx.limit ≤ tx.next then
    if 0xFFFFFFFF - 1 - SEQ_RESERVE < tx.next then pure none
    else do
      let reserved := tx.next + 1 + SEQ_RESERVE
      Program.modify fun state =>
        state.setTx state.ram.tx (write.apply state.nvs.txseq reserved)
      if write = .confirmed then do
        Program.modify fun state => state.setTx ⟨tx.next + 1, reserved⟩ state.nvs.txseq
        pure (some tx.next)
      else pure none
  else do
    Program.modify fun state => state.setTx ⟨tx.next + 1, state.ram.tx.limit⟩ state.nvs.txseq
    pure (some tx.next)

end Steps

/-! ## Calls that are not interleaved -/

theorem slotOf_slot (slot : Slot) : slotOf slot = some slot := by
  have hslot := slot.isLt
  unfold slotOf
  rw [dif_pos (by omega)]
  simp

section Persist

variable {slot : Slot} {peerId : UInt32} {state : State}

/-- A slot with an id has its floor written under that id. -/
theorem persistRx_of_id (hid : (state.ram.peer slot).peerId = peerId) (hzero : peerId ≠ 0)
    (seq : UInt32) (write : Write) :
    persistRx slot seq write state =
      state.setRx peerId (write.apply (state.nvs.rx peerId) seq) := by
  rw [persistRx, hid, if_neg hzero]

theorem persistRxOk_of_id (hid : (state.ram.peer slot).peerId = peerId) (hzero : peerId ≠ 0)
    (write : Write) : persistRxOk slot write state = decide (write = .confirmed) := by
  simp [persistRxOk, hid, hzero]

end Persist

theorem Peer.configured_iff {peer : Peer} :
    peer.configured = true ↔ peer.inUse ≠ 0 ∧ peer.peerId ≠ 0 := by
  simp [Peer.configured]

/-- Both checks of `acceptInboundSeq` are on the slot as it was read. -/
theorem acceptInboundSeq_eq {Output : Type} {i : ℤ} {slot : Slot} (hslot : slotOf i = some slot)
    (seq : UInt32) (write : Write) (accepted : UInt32 → Output) :
    acceptInboundSeq i seq write accepted = (do
      let pr ← Program.read fun state => state.ram.peer slot
      if pr.configured ∧ pr.rxHighWater < seq then do
        let stored ← Program.step (fun state => (persistRx slot seq write state, []))
          fun state => .done (persistRxOk slot write state)
        if stored then do
          Program.modifyEmit (fun state => state.setFloor slot seq) [accepted pr.peerId]
          pure true
        else pure false
      else pure false) := by
  rw [acceptInboundSeq, hslot]
  refine congrArg (Bind.bind (Program.read _)) (funext fun pr => ?_)
  by_cases hpeer : pr.inUse = 0 ∨ pr.peerId = 0
  · have hclosed : ¬ (pr.configured = true ∧ pr.rxHighWater < seq) := fun hpasses =>
      hpeer.elim (Peer.configured_iff.mp hpasses.1).1 (Peer.configured_iff.mp hpasses.1).2
    rw [if_pos hpeer, if_neg hclosed]
  · rw [if_neg hpeer]
    have hconfigured : pr.configured = true := Peer.configured_iff.mpr (not_or.mp hpeer)
    by_cases hfloor : seq ≤ pr.rxHighWater
    · rw [if_pos hfloor, if_neg fun hpasses => UInt32.not_lt.mpr hfloor hpasses.2]
    · rw [if_neg hfloor, if_pos ⟨hconfigured, UInt32.not_le.mp hfloor⟩]

/-- A call of `acceptInboundSeq` rejects, or fails to store the floor, or accepts. -/
inductive Accepts {Output : Type} (slot : Slot) (seq : UInt32) (write : Write)
    (accepted : UInt32 → Output) (state : State) : Program.Run State Output Bool → Prop
  | rejected (hreason : (state.ram.peer slot).configured = false ∨
        seq ≤ (state.ram.peer slot).rxHighWater) :
      Accepts slot seq write accepted state ⟨state, [], false⟩
  | unstored (hpeer : (state.ram.peer slot).configured)
      (hfloor : (state.ram.peer slot).rxHighWater < seq) (hwrite : write ≠ .confirmed) :
      Accepts slot seq write accepted state
        ⟨state.setRx (state.ram.peer slot).peerId
          (write.apply (state.nvs.rx (state.ram.peer slot).peerId) seq), [], false⟩
  | stored (hpeer : (state.ram.peer slot).configured)
      (hfloor : (state.ram.peer slot).rxHighWater < seq) (hwrite : write = .confirmed) :
      Accepts slot seq write accepted state
        ⟨(state.setRx (state.ram.peer slot).peerId seq).setFloor slot seq,
          [accepted (state.ram.peer slot).peerId], true⟩

theorem accepts_acceptInboundSeq {Output : Type} {i : ℤ} {slot : Slot}
    (hslot : slotOf i = some slot) (seq : UInt32) (write : Write)
    (accepted : UInt32 → Output) (state : State) :
    Accepts slot seq write accepted state
      ((acceptInboundSeq i seq write accepted).run state) := by
  rw [acceptInboundSeq_eq hslot]
  simp only [Program.run_bind, Program.run_read]
  by_cases hpasses : (state.ram.peer slot).configured = true ∧
      (state.ram.peer slot).rxHighWater < seq
  · simp only [hpasses.1, hpasses.2, and_self, if_true]
    obtain ⟨hconfigured, hfloor⟩ := hpasses
    have hid := (Peer.configured_iff.mp hconfigured).2
    by_cases hwrite : write = .confirmed
    · simpa [Program.run, persistRx_of_id rfl hid, persistRxOk_of_id rfl hid, hwrite] using
        Accepts.stored hconfigured hfloor hwrite
    · simpa [Program.run, persistRx_of_id rfl hid, persistRxOk_of_id rfl hid, hwrite] using
        Accepts.unstored hconfigured hfloor hwrite
  · simp only [hpasses, if_false]
    refine .rejected ?_
    by_cases hconfigured : (state.ram.peer slot).configured = true
    · exact .inr (UInt32.not_lt.mp fun hfloor => hpasses ⟨hconfigured, hfloor⟩)
    · exact .inl (Bool.eq_false_iff.mpr hconfigured)

/-- At every point of `acceptInboundSeq` nothing has changed, or the floor in NVS
has, or the call has accepted. -/
theorem keeps_acceptInboundSeq {Output : Type} {invariant : State → List Output → Prop}
    {state : State} {history : List Output} {i : ℤ} {slot : Slot}
    (hslot : slotOf i = some slot) (seq : UInt32) (write : Write)
    (accepted : UInt32 → Output) (hstart : invariant state history)
    (hwritten : (state.ram.peer slot).configured →
      (state.ram.peer slot).rxHighWater < seq →
      invariant (state.setRx (state.ram.peer slot).peerId
        (write.apply (state.nvs.rx (state.ram.peer slot).peerId) seq)) history)
    (haccepted : (state.ram.peer slot).configured →
      (state.ram.peer slot).rxHighWater < seq → write = .confirmed →
      invariant ((state.setRx (state.ram.peer slot).peerId seq).setFloor slot seq)
        (history ++ [accepted (state.ram.peer slot).peerId])) :
    (acceptInboundSeq i seq write accepted).Keeps invariant state history := by
  rw [acceptInboundSeq_eq hslot]
  refine Program.keeps_bind (Program.keeps_read hstart) ?_
  simp only [Program.run_read, List.append_nil]
  by_cases hpasses : (state.ram.peer slot).configured = true ∧
      (state.ram.peer slot).rxHighWater < seq
  · simp only [hpasses.1, hpasses.2, and_self, if_true]
    obtain ⟨hconfigured, hfloor⟩ := hpasses
    have hid := (Peer.configured_iff.mp hconfigured).2
    have hrx := hwritten hconfigured hfloor
    refine Program.keeps_bind ⟨hstart, ?_⟩ ?_
    · simpa [Program.Keeps, persistRx_of_id rfl hid] using hrx
    · simp only [Program.run, persistRx_of_id rfl hid, persistRxOk_of_id rfl hid,
        List.append_nil]
      by_cases hwrite : write = .confirmed
      · subst hwrite
        have hdone := haccepted hconfigured hfloor rfl
        rw [if_pos (by simp)]
        refine Program.keeps_bind (Program.keeps_modifyEmit hrx hdone) ?_
        simpa [Program.Keeps, pure] using hdone
      · rw [if_neg (by simpa using hwrite)]
        exact hrx
  · simp only [hpasses, if_false]
    exact hstart

/-- A slot in use with this id. -/
def Peer.Names (peer : Peer) (peerId : UInt32) : Prop :=
  peer.inUse ≠ 0 ∧ peer.peerId = peerId

theorem resolve_eq_some_iff {peer : Slot → Peer} {peerId : UInt32} {slot : Slot} :
    resolve peer peerId = some slot ↔
      peerId ≠ 0 ∧ (peer slot).Names peerId ∧
        ∀ earlier, earlier < slot → ¬ (peer earlier).Names peerId := by
  unfold resolve
  by_cases hzero : peerId = 0
  · simp [hzero]
  · rw [if_neg hzero, ← Fin.find?_eq_find?_finRange, Fin.find?_eq_some_iff]
    simp [hzero, Peer.Names]

/-- What a resolved slot says after another record was written to some slot. -/
theorem resolve_write {peer : Slot → Peer} {slot other : Slot} {p : Peer} {peerId : UInt32}
    (hresolve : resolve (Function.update peer slot p) peerId = some other)
    (hother : other ≠ slot) :
    resolve peer peerId = some other ∨ resolve peer peerId = some slot := by
  rw [resolve_eq_some_iff] at hresolve
  obtain ⟨hzero, hnames, hfirst⟩ := hresolve
  rw [Function.update_of_ne hother] at hnames
  by_cases hslot : (peer slot).Names peerId ∧ slot < other
  · refine .inr (resolve_eq_some_iff.mpr ⟨hzero, hslot.1, fun earlier hearlier => ?_⟩)
    have hnot := hfirst earlier (hearlier.trans hslot.2)
    rwa [Function.update_of_ne hearlier.ne] at hnot
  · refine .inl (resolve_eq_some_iff.mpr ⟨hzero, hnames, fun earlier hearlier => ?_⟩)
    by_cases heq : earlier = slot
    · subst heq
      exact fun hold => hslot ⟨hold, hearlier⟩
    · have hnot := hfirst earlier hearlier
      rwa [Function.update_of_ne heq] at hnot

/-- A write to another slot, with a record that does not name the id, keeps what the
id resolves to. -/
theorem resolve_keep {peer : Slot → Peer} {slot other : Slot} {p : Peer} {peerId : UInt32}
    (hresolve : resolve peer peerId = some other) (hother : other ≠ slot)
    (hnames : ¬ p.Names peerId) :
    resolve (Function.update peer slot p) peerId = some other := by
  rw [resolve_eq_some_iff] at hresolve ⊢
  obtain ⟨hzero, hown, hfirst⟩ := hresolve
  refine ⟨hzero, by rwa [Function.update_of_ne hother], fun earlier hearlier => ?_⟩
  by_cases heq : earlier = slot
  · subst heq
    rwa [Function.update_self]
  · rw [Function.update_of_ne heq]
    exact hfirst earlier hearlier

theorem resolve_spec {peer : Slot → Peer} {peerId : UInt32} {slot : Slot}
    (hresolve : resolve peer peerId = some slot) :
    (peer slot).configured ∧ (peer slot).peerId = peerId := by
  obtain ⟨hzero, ⟨huse, hid⟩, -⟩ := resolve_eq_some_iff.mp hresolve
  exact ⟨by simp [Peer.configured, huse, hid, hzero], hid⟩

/-- Another floor in a slot resolves every id as before. -/
theorem resolve_floor (peer : Slot → Peer) (slot : Slot) (floor peerId : UInt32) :
    resolve (Function.update peer slot { peer slot with rxHighWater := floor }) peerId =
      resolve peer peerId := by
  have hnames : ∀ other, (Function.update peer slot
      { peer slot with rxHighWater := floor } other).Names peerId ↔
        (peer other).Names peerId := by
    intro other
    by_cases heq : other = slot
    · subst heq
      rw [Function.update_self]
      exact Iff.rfl
    · rw [Function.update_of_ne heq]
  refine Option.ext fun other => ?_
  rw [resolve_eq_some_iff, resolve_eq_some_iff]
  simp only [hnames]

@[simp]
theorem setTx_setTx (state : State) (tx tx' : Counter) (txseq txseq' : UInt32) :
    (state.setTx tx txseq).setTx tx' txseq' = state.setTx tx' txseq' := rfl

/-- `nextTxSeq` is the reserve-ahead counter on the transmit reservation. -/
theorem run_nextTxSeq {Output : Type} (write : Write) (state : State) :
    (nextTxSeq write : Program State Output (Option UInt32)).run state =
      let result := advance SEQ_RESERVE write state.ram.tx state.nvs.txseq
      ⟨state.setTx result.counter result.cell, [], result.issued⟩ := by
  simp only [nextTxSeq, advance, Counter.atLimit, Program.run_bind, Program.run_read]
  by_cases hlimit : state.ram.tx.limit ≤ state.ram.tx.next
  · simp only [hlimit, if_true]
    by_cases hspace : 0xFFFFFFFF - 1 - SEQ_RESERVE < state.ram.tx.next
    · simp only [hspace, if_true]
      rfl
    · simp only [hspace, if_false]
      cases write with
      | confirmed => simp [Write.apply, State.setTx]
      | lost => simp [Write.apply]
      | unconfirmed => simp [Write.apply]
  · simp only [hlimit, if_false]
    simp [State.setTx]

/-- At every point of `nextTxSeq` only the cursor and the reservation have changed,
and a new reservation is above the cursor the call found. -/
theorem keeps_nextTxSeq {Output : Type} {invariant : State → List Output → Prop}
    {state : State} {history : List Output} (write : Write)
    (hchange : ∀ tx txseq, txseq = state.nvs.txseq ∨ state.ram.tx.next < txseq →
      invariant (state.setTx tx txseq) history) :
    (nextTxSeq write : Program State Output (Option UInt32)).Keeps invariant state
      history := by
  have hstart : invariant state history := hchange state.ram.tx state.nvs.txseq (.inl rfl)
  unfold nextTxSeq
  refine Program.keeps_bind (Program.keeps_read hstart) ?_
  simp only [Program.run_read, List.append_nil]
  by_cases hlimit : state.ram.tx.limit ≤ state.ram.tx.next
  · simp only [hlimit, if_true]
    by_cases hspace : 0xFFFFFFFF - 1 - SEQ_RESERVE < state.ram.tx.next
    · simp only [hspace, if_true]
      exact hstart
    · simp only [hspace, if_false]
      have habove : state.ram.tx.next < state.ram.tx.next + 1 + SEQ_RESERVE := by
        unfold SEQ_RESERVE at hspace ⊢
        grind
      have hwritten : ∀ tx, invariant (state.setTx tx (write.apply state.nvs.txseq
          (state.ram.tx.next + 1 + SEQ_RESERVE))) history := by
        intro tx
        exact write.apply_of (motive := fun txseq => invariant (state.setTx tx txseq) history)
          (hchange tx _ (.inl rfl)) (hchange tx _ (.inr habove))
      refine Program.keeps_bind (Program.keeps_modify hstart (hwritten _)) ?_
      simp only [Program.run_modify, List.append_nil]
      by_cases hwrite : write = .confirmed
      · simp only [hwrite, if_true] at hwritten ⊢
        refine Program.keeps_bind (Program.keeps_modify (hwritten _) (hwritten _)) ?_
        have hdone := hwritten ⟨state.ram.tx.next + 1, state.ram.tx.next + 1 + SEQ_RESERVE⟩
        simpa [Program.Keeps, pure, State.setTx] using hdone
      · simp only [hwrite, if_false]
        exact hwritten _
  · simp only [hlimit, if_false]
    have hcursor := hchange ⟨state.ram.tx.next + 1, state.ram.tx.limit⟩ state.nvs.txseq
      (.inl rfl)
    refine Program.keeps_bind (Program.keeps_modify hstart hcursor) ?_
    simpa [Program.Keeps, pure] using hcursor

/-! ## The table after a restart -/

/-- What a slot holds besides its floor. -/
def Peer.identity (peer : Peer) : Peer := { peer with rxHighWater := 0 }

theorem configured_of_identity {left right : Peer} (hsame : left.identity = right.identity) :
    left.configured = right.configured := by
  unfold Peer.identity at hsame
  obtain ⟨huse, -, hid, -⟩ := Peer.mk.injEq .. ▸ hsame
  simp only [Peer.configured, huse, hid]

theorem loadFloors_identity (nvs : Nvs) (peer : Slot → Peer) (slot : Slot) :
    (loadFloors nvs peer slot).identity = (peer slot).identity := by
  unfold loadFloors
  split <;> rfl

theorem anyConfigured_congr {left right : Slot → Peer}
    (hsame : ∀ slot, (left slot).identity = (right slot).identity) :
    anyConfigured left = anyConfigured right := by
  unfold anyConfigured
  congr 1
  funext slot
  exact configured_of_identity (hsame slot)

theorem seedPeer_identity (seed : Option Peer) (nvs nvs' : Nvs) {left right : Slot → Peer}
    (hsame : ∀ slot, (left slot).identity = (right slot).identity) (slot : Slot) :
    (seedPeer seed nvs left slot).identity = (seedPeer seed nvs' right slot).identity := by
  cases seed with
  | none => exact hsame slot
  | some pr =>
      simp only [seedPeer, anyConfigured_congr hsame]
      by_cases hany : anyConfigured right = true
      · simpa only [hany, if_true] using hsame slot
      · rw [if_neg hany, if_neg hany]
        by_cases hslot : slot = Slot.first
        · rw [hslot, Function.update_self, Function.update_self]
          rfl
        · rw [Function.update_of_ne hslot, Function.update_of_ne hslot]
          exact hsame slot

/-- But for the floors, the table depends on the stored blob alone. -/
theorem begin_identity (seed : Option Peer) {nvs nvs' : Nvs}
    (hpeers : nvs'.peers = nvs.peers) (slot : Slot) :
    ((begin seed nvs').peer slot).identity = ((begin seed nvs).peer slot).identity := by
  refine seedPeer_identity seed nvs' nvs (fun other => ?_) slot
  rw [loadFloors_identity, loadFloors_identity, hpeers]

/-- After a restart the floor of a slot is the stored one of its peer. -/
theorem begin_floor (seed : Option Peer) (nvs : Nvs) (slot : Slot)
    (hid : ((begin seed nvs).peer slot).peerId ≠ 0) :
    ((begin seed nvs).peer slot).rxHighWater = nvs.rx ((begin seed nvs).peer slot).peerId := by
  have hload : ∀ peer : Slot → Peer, (loadFloors nvs peer slot).peerId ≠ 0 →
      (loadFloors nvs peer slot).rxHighWater = nvs.rx (loadFloors nvs peer slot).peerId := by
    intro peer hother
    unfold loadFloors at hother ⊢
    split at hother
    · contradiction
    · rename_i hzero
      rw [if_neg hzero]
  cases seed with
  | none => exact hload _ hid
  | some pr =>
      simp only [begin, seedPeer] at hid ⊢
      generalize nvs.peers.getD (fun _ => Peer.empty) = peer at hid ⊢
      by_cases hany : anyConfigured (loadFloors nvs peer) = true
      · rw [if_pos hany] at hid ⊢
        exact hload peer hid
      · rw [if_neg hany] at hid ⊢
        by_cases hslot : slot = Slot.first
        · rw [hslot, Function.update_self] at hid ⊢
          exact if_neg hid
        · rw [Function.update_of_ne hslot] at hid ⊢
          exact hload peer hid

end LoraBridge.CamC2Config
