import LoraBridge.Control.CamC2Config
import LoraBridge.Core.Interleaving

/-!
# Two tasks that accept from one peer

`acceptInboundSeq` reads the slot, writes the floor to NVS and then to RAM.  Two
tasks that have both read before either has finished judge by the same floor.
-/

namespace LoraBridge.FloorTasks

open LoraBridge.CamC2Config LoraBridge.Program LoraBridge.ReserveAhead

variable {Output : Type}

/-- What `acceptInboundSeq` works on: one slot and the floors in NVS. -/
abbrev Piece := Peer × (UInt32 → UInt32)

def slotPart (slot : Slot) : Part State Piece where
  view state := (state.ram.peer slot, state.nvs.rx)
  put state piece :=
    ⟨{ state.nvs with rx := piece.2 },
      { state.ram with peer := Function.update state.ram.peer slot piece.1 }⟩
  view_put state piece := by simp
  put_put state piece piece' := by simp
  put_view state := by simp

@[simp]
theorem slotPart_view (slot : Slot) (state : State) :
    (slotPart slot).view state = (state.ram.peer slot, state.nvs.rx) := rfl

/-- The frame passes the checks that are made on the slot as it was read. -/
def Passes (peer : Peer) (seq : UInt32) : Prop :=
  peer.inUse ≠ 0 ∧ peer.peerId ≠ 0 ∧ peer.rxHighWater < seq

instance (peer : Peer) (seq : UInt32) : Decidable (Passes peer seq) :=
  inferInstanceAs (Decidable (_ ∧ _))

def storeRx (peerId seq : UInt32) (write : Write) : Effect Piece Output :=
  fun piece => ((piece.1,
    Function.update piece.2 peerId (write.apply (piece.2 peerId) seq)), [])

def storeFloor (seq : UInt32) (output : Output) : Effect Piece Output :=
  fun piece => (({ piece.1 with rxHighWater := seq }, piece.2), [output])

def acceptWrites (seq : UInt32) (write : Write) (accepted : UInt32 → Output)
    (peer : Peer) : List (Effect Piece Output) :=
  if Passes peer seq then
    if write = .confirmed then
      [storeRx peer.peerId seq write, storeFloor seq (accepted peer.peerId)]
    else [storeRx peer.peerId seq write]
  else []

def acceptResult (seq : UInt32) (write : Write) (peer : Peer) : Bool :=
  Passes peer seq ∧ write = .confirmed

/-- The same steps on the slot and the floors alone. -/
def acceptSteps (seq : UInt32) (write : Write) (accepted : UInt32 → Output) :
    Program Piece Output Bool :=
  readWrite Prod.fst (acceptWrites seq write accepted) (acceptResult seq write)

theorem passes_iff {peer : Peer} {seq : UInt32} :
    peer.configured = true ∧ peer.rxHighWater < seq ↔ Passes peer seq := by
  rw [Peer.configured_iff, Passes, and_assoc]

/-- As long as the slot keeps its id, `acceptInboundSeq` is these steps. -/
theorem acceptInboundSeq_same {i : ℤ} {slot : Slot} (hslot : slotOf i = some slot)
    (seq : UInt32) (write : Write) (accepted : UInt32 → Output) (peerId : UInt32) :
    (acceptInboundSeq i seq write accepted).Same
      (fun state => (state.ram.peer slot).peerId = peerId)
      ((acceptSteps seq write accepted).within (slotPart slot)) := by
  rw [acceptInboundSeq_eq hslot]
  intro state hstate
  refine ⟨by simp [slotPart], hstate, ?_⟩
  simp only [Program.bind, slotPart_view, passes_iff]
  by_cases hpasses : Passes (state.ram.peer slot) seq
  · have hid : peerId ≠ 0 := fun hzero => hpasses.2.1 (hstate.trans hzero)
    simp only [hpasses, if_true]
    by_cases hwrite : write = .confirmed
    · have hlist : acceptWrites seq write accepted (state.ram.peer slot) =
          [storeRx (state.ram.peer slot).peerId seq write,
            storeFloor seq (accepted (state.ram.peer slot).peerId)] := by
        simp [acceptWrites, hpasses, hwrite]
      have hresult : acceptResult seq write (state.ram.peer slot) = true := by
        simp [acceptResult, hpasses, hwrite]
      rw [hlist, hresult, hstate]
      intro later hlater
      refine ⟨?_, ?_, ?_⟩
      · simp [persistRx_of_id hlater hid, storeRx, State.setRx, slotPart]
      · simp [persistRx_of_id hlater hid, State.setRx, hlater]
      · have hconfirmed : persistRxOk slot write later = true := by
          simp [persistRxOk_of_id hlater hid, hwrite]
        simp only [Program.bind, hconfirmed, if_true]
        intro last hlast
        refine ⟨?_, by simpa [State.setFloor, State.setPeers] using hlast, rfl⟩
        simp [storeFloor, State.setFloor, State.setPeers, slotPart]
    · have hlist : acceptWrites seq write accepted (state.ram.peer slot) =
          [storeRx (state.ram.peer slot).peerId seq write] := by
        simp [acceptWrites, hpasses, hwrite]
      have hresult : acceptResult seq write (state.ram.peer slot) = false := by
        simp [acceptResult, hwrite]
      rw [hlist, hresult, hstate]
      intro later hlater
      refine ⟨?_, ?_, ?_⟩
      · simp [persistRx_of_id hlater hid, storeRx, State.setRx, slotPart]
      · simp [persistRx_of_id hlater hid, State.setRx, hlater]
      · simp only [Program.bind, persistRxOk_of_id hlater hid, hwrite, decide_false]
        rfl
  · simp only [hpasses, if_false, acceptWrites, acceptResult]
    simp [writes, within, Same, pure]

theorem acceptWrites_undisturbed (seq : UInt32) (write : Write)
    (accepted : UInt32 → Output) (peer : Peer) :
    Undisturbed Prod.fst (acceptWrites seq write accepted peer) := by
  intro effect hmem piece
  unfold acceptWrites at hmem
  split at hmem
  · split at hmem
    · simp only [List.dropLast, List.mem_singleton] at hmem
      rw [hmem]
      rfl
    · simp at hmem
  · simp at hmem

/-! ## What is left of a piece -/

/-- The slot with another floor, and another floor in NVS. -/
def Piece.withFloors (piece : Piece) (floor stored : UInt32) : Piece :=
  ({ piece.1 with rxHighWater := floor },
    Function.update piece.2 piece.1.peerId stored)

theorem withFloors_self (piece : Piece) :
    Piece.withFloors piece piece.1.rxHighWater (piece.2 piece.1.peerId) = piece := by
  simp [Piece.withFloors]

@[simp]
theorem withFloors_inj (piece : Piece) (floor stored floor' stored' : UInt32) :
    Piece.withFloors piece floor stored = Piece.withFloors piece floor' stored' ↔
      floor = floor' ∧ stored = stored' := by
  refine ⟨fun heq => ?_, fun ⟨hfloor, hstored⟩ => by rw [hfloor, hstored]⟩
  have hrx := congrFun (congrArg Prod.snd heq) piece.1.peerId
  have hfloor := congrArg (fun p : Piece => p.1.rxHighWater) heq
  simp only [Piece.withFloors, Function.update_self] at hrx hfloor
  exact ⟨hfloor, hrx⟩

@[simp]
theorem storeRx_withFloors (piece : Piece) (seq floor stored : UInt32) (write : Write) :
    ((storeRx piece.1.peerId seq write : Effect Piece Output)
      (Piece.withFloors piece floor stored)).1 =
        Piece.withFloors piece floor (write.apply stored seq) := by
  simp [storeRx, Piece.withFloors]

@[simp]
theorem storeFloor_withFloors (piece : Piece) (seq floor stored : UInt32)
    (output : Output) :
    (storeFloor seq output (Piece.withFloors piece floor stored)).1 =
      Piece.withFloors piece seq stored := rfl

/-- A call that is not interleaved with another. -/
theorem run_acceptSteps (Output : Type) (piece : Piece)
    (hid : piece.1.inUse ≠ 0 ∧ piece.1.peerId ≠ 0)
    (seq floor stored : UInt32) (write : Write) (accepted : UInt32 → Output) :
    ((acceptSteps seq write accepted).run (Piece.withFloors piece floor stored)).state =
        (if floor < seq then
          if write = .confirmed then Piece.withFloors piece seq seq
          else Piece.withFloors piece floor (write.apply stored seq)
        else Piece.withFloors piece floor stored) ∧
      ((acceptSteps seq write accepted).run (Piece.withFloors piece floor stored)).result =
        decide (floor < seq ∧ write = .confirmed) := by
  have hrun := run_readWrite Prod.fst (acceptWrites seq write accepted)
    (acceptResult seq write) (Piece.withFloors piece floor stored)
  rw [acceptSteps, hrun.1, hrun.2]
  have hpasses : Passes (Piece.withFloors piece floor stored).1 seq ↔ floor < seq := by
    simp [Passes, Piece.withFloors, hid]
  have hpeerId : (Piece.withFloors piece floor stored).1.peerId = piece.1.peerId := rfl
  simp only [acceptWrites, acceptResult, hpasses, hpeerId]
  by_cases hfloor : floor < seq
  · by_cases hwrite : write = .confirmed
    · simp [hfloor, hwrite, applyAll, Write.apply]
    · simp [hfloor, hwrite, applyAll]
  · simp [hfloor, applyAll]

/-! ## Which orders are serial -/

/-- The frame with the smaller number is written first, unless its write was lost or
the larger one is not accepted; if both are accepted, its floor is written first too. -/
def SmallerFirst (order : List Side) (small : Side) (smallWrite largeWrite : Write) : Prop :=
  largeWrite = .confirmed → smallWrite ≠ .lost →
    order.head? = some small ∧
      (smallWrite = .confirmed → order.getLast? = some small.other)

instance (order : List Side) (small : Side) (smallWrite largeWrite : Write) :
    Decidable (SmallerFirst order small smallWrite largeWrite) :=
  inferInstanceAs (Decidable (_ → _ → _))

/-- The writes of two frames that both pass leave what one call after the other does. -/
structure InOrder (order : List Side) (seq seq' : UInt32) (write write' : Write) :
    Prop where
  distinct : write = .confirmed ∧ write' = .confirmed → seq ≠ seq'
  left : seq < seq' → SmallerFirst order .left write write'
  right : seq' < seq → SmallerFirst order .right write' write

theorem inOrder_iff {order : List Side} {seq seq' : UInt32} {write write' : Write} :
    InOrder order seq seq' write write' ↔
      (write = .confirmed ∧ write' = .confirmed → seq ≠ seq') ∧
        (seq < seq' → SmallerFirst order .left write write') ∧
        (seq' < seq → SmallerFirst order .right write' write) :=
  ⟨fun h => ⟨h.distinct, h.left, h.right⟩, fun ⟨h, h', h''⟩ => ⟨h, h', h''⟩⟩

theorem shuffles_two_two : shuffles 2 2 =
    [[.left, .left, .right, .right], [.left, .right, .left, .right],
      [.left, .right, .right, .left], [.right, .left, .left, .right],
      [.right, .left, .right, .left], [.right, .right, .left, .left]] := by
  simp [shuffles]

theorem shuffles_two_one : shuffles 2 1 =
    [[.left, .left, .right], [.left, .right, .left], [.right, .left, .left]] := by
  simp [shuffles]

theorem shuffles_one_two : shuffles 1 2 =
    [[.left, .right, .right], [.right, .left, .right], [.right, .right, .left]] := by
  simp [shuffles]

theorem shuffles_one_one : shuffles 1 1 = [[.left, .right], [.right, .left]] := by
  simp [shuffles]

/-- Both tasks judged by the same floor. -/
theorem serializable_iff_inOrder {base : Piece} {floor seq seq' : UInt32} (stored : UInt32)
    (write write' : Write) (accepted accepted' : UInt32 → Output) {order : List Side}
    (hid : base.1.inUse ≠ 0 ∧ base.1.peerId ≠ 0)
    (hfloor : floor < seq) (hfloor' : floor < seq') (left right : List (Effect Piece Output))
    (hleft : left = if write = .confirmed then
        [storeRx base.1.peerId seq write, storeFloor seq (accepted base.1.peerId)]
      else [storeRx base.1.peerId seq write])
    (hright : right = if write' = .confirmed then
        [storeRx base.1.peerId seq' write', storeFloor seq' (accepted' base.1.peerId)]
      else [storeRx base.1.peerId seq' write'])
    (hcountLeft : order.count .left = left.length)
    (hcountRight : order.count .right = right.length) :
    Serializable (acceptSteps seq write accepted) (acceptSteps seq' write' accepted')
        (Piece.withFloors base floor stored)
        ⟨decide (write = .confirmed), decide (write' = .confirmed),
          applyAll (merge order left right) (Piece.withFloors base floor stored)⟩ ↔
      InOrder order seq seq' write write' := by
  have horder := mem_shuffles order
  rw [hcountLeft, hcountRight] at horder
  have hrun := run_acceptSteps Output base hid
  by_cases hwrite : write = .confirmed <;> by_cases hwrite' : write' = .confirmed
  · -- both are accepted: NVS keeps the last of the two writes, RAM the last floor
    simp only [hwrite, hwrite', if_true] at hleft hright
    subst hleft hright
    change order ∈ shuffles 2 2 at horder
    simp only [shuffles_two_two, List.mem_cons, List.not_mem_nil, or_false] at horder
    rcases horder with rfl | rfl | rfl | rfl | rfl | rfl <;>
      simp [Serializable, leftFirst, rightFirst, hrun, merge, applyAll, hfloor, hfloor',
        Write.apply, inOrder_iff, SmallerFirst, hwrite, hwrite', Side.other] <;>
      grind [withFloors_inj]
  · -- only the left one is: NVS may keep what the right one's failed write left
    simp only [hwrite, hwrite', if_true, if_false] at hleft hright
    subst hleft hright
    change order ∈ shuffles 2 1 at horder
    simp only [shuffles_two_one, List.mem_cons, List.not_mem_nil, or_false] at horder
    rcases horder with rfl | rfl | rfl <;> cases write' <;>
      simp [Serializable, leftFirst, rightFirst, hrun, merge, applyAll, hfloor, hfloor',
        Write.apply, inOrder_iff, SmallerFirst, hwrite, Side.other] at hwrite' ⊢ <;>
      grind [withFloors_inj]
  · simp only [hwrite, hwrite', if_true, if_false] at hleft hright
    subst hleft hright
    change order ∈ shuffles 1 2 at horder
    simp only [shuffles_one_two, List.mem_cons, List.not_mem_nil, or_false] at horder
    rcases horder with rfl | rfl | rfl <;> cases write <;>
      simp [Serializable, leftFirst, rightFirst, hrun, merge, applyAll, hfloor, hfloor',
        Write.apply, inOrder_iff, SmallerFirst, hwrite', Side.other] at hwrite ⊢ <;>
      grind [withFloors_inj]
  · -- neither is: both floors stay, and either order of the two writes is a serial one
    simp only [hwrite, hwrite', if_false] at hleft hright
    subst hleft hright
    change order ∈ shuffles 1 1 at horder
    simp only [shuffles_one_one, List.mem_cons, List.not_mem_nil, or_false] at horder
    rcases horder with rfl | rfl <;> cases write <;> cases write' <;>
      simp [Serializable, leftFirst, rightFirst, hrun, merge, applyAll, hfloor, hfloor',
        Write.apply, inOrder_iff, SmallerFirst] at hwrite hwrite' ⊢

/-- A frame that does not pass changes nothing. -/
theorem acceptWrites_of_not_passes {seq : UInt32} {peer : Peer} (write : Write)
    (accepted : UInt32 → Output) (hpasses : ¬ Passes peer seq) :
    acceptWrites seq write accepted peer = [] ∧ acceptResult seq write peer = false := by
  simp [acceptWrites, acceptResult, hpasses]

/-- Two tasks that accept from one peer can be put in an order exactly when one was
done before the other read, or one frame does not pass, or the writes are in order. -/
theorem accept_serializable_iff {seq seq' : UInt32} {write write' : Write}
    {accepted accepted' : UInt32 → Output} {piece : Piece} {trace : List Side}
    {outcome : Outcome Piece Bool Bool}
    (hruns : Interleaves (acceptSteps seq write accepted)
      (acceptSteps seq' write' accepted') piece trace outcome) :
    Serializable (acceptSteps seq write accepted) (acceptSteps seq' write' accepted') piece
        outcome ↔
      Apart trace ∨ ¬ Passes piece.1 seq ∨ ¬ Passes piece.1 seq' ∨
        InOrder (writeOrder trace) seq seq' write write' := by
  have hleftRun := run_readWrite Prod.fst (acceptWrites seq write accepted)
    (acceptResult seq write) piece
  have hrightRun := run_readWrite Prod.fst (acceptWrites seq' write' accepted')
    (acceptResult seq' write') piece
  rcases interleaves_readWrite (acceptWrites_undisturbed seq write accepted)
    (acceptWrites_undisturbed seq' write' accepted') hruns with
    hapart | ⟨rfl, hcountLeft, hcountRight⟩
  · exact ⟨fun _ => .inl hapart, fun _ => serializable_of_apart hapart hruns⟩
  · have happly : ∀ left right : List (Effect Piece Output), left = [] ∨ right = [] →
        applyAll (merge (writeOrder trace) left right) piece =
          applyAll right (applyAll left piece) := fun left right hnil =>
      applyAll_merge (fun first hfirst second hsecond => by
        rcases hnil with rfl | rfl
        · simp at hfirst
        · simp at hsecond) _ _
    by_cases hpasses : Passes piece.1 seq
    · by_cases hpasses' : Passes piece.1 seq'
      · have hiff := serializable_iff_inOrder (piece.2 piece.1.peerId) write write' accepted
          accepted' ⟨hpasses.1, hpasses.2.1⟩ hpasses.2.2 hpasses'.2.2
          (acceptWrites seq write accepted piece.1)
          (acceptWrites seq' write' accepted' piece.1)
          (by simp [acceptWrites, hpasses]) (by simp [acceptWrites, hpasses'])
          hcountLeft hcountRight
        have hresult : acceptResult seq write piece.1 = decide (write = .confirmed) := by
          simp [acceptResult, hpasses]
        have hresult' : acceptResult seq' write' piece.1 = decide (write' = .confirmed) := by
          simp [acceptResult, hpasses']
        rw [withFloors_self, ← hresult, ← hresult'] at hiff
        refine ⟨fun hserializable => .inr (.inr (.inr (hiff.mp hserializable))), ?_⟩
        rintro (hapart | hnot | hnot | horder)
        · exact serializable_of_apart hapart hruns
        · exact absurd hpasses hnot
        · exact absurd hpasses' hnot
        · exact hiff.mpr horder
      · obtain ⟨hnil, -⟩ := acceptWrites_of_not_passes write' accepted' hpasses'
        refine ⟨fun _ => .inr (.inr (.inl hpasses')), fun _ => .inr ?_⟩
        rw [happly _ _ (.inr hnil)]
        simp [rightFirst, acceptSteps, hrightRun, hleftRun, hnil, applyAll]
    · obtain ⟨hnil, -⟩ := acceptWrites_of_not_passes write accepted hpasses
      refine ⟨fun _ => .inr (.inl hpasses), fun _ => .inl ?_⟩
      rw [happly _ _ (.inl hnil)]
      simp [leftFirst, acceptSteps, hrightRun, hleftRun, hnil, applyAll]

/-- One after the other, a number is accepted once. -/
theorem leftFirst_accept (piece : Piece) (seq : UInt32) (write write' : Write)
    (accepted accepted' : UInt32 → Output) :
    let outcome := leftFirst (acceptSteps seq write accepted)
      (acceptSteps seq write' accepted') piece
    ¬ (outcome.left = true ∧ outcome.right = true) := by
  rintro outcome ⟨hleft, hright⟩
  have hfirst := run_readWrite Prod.fst (acceptWrites seq write accepted)
    (acceptResult seq write) piece
  have hpasses : Passes piece.1 seq ∧ write = .confirmed := by
    have hresult : acceptResult seq write piece.1 = true := by
      rw [← hfirst.2]
      exact hleft
    simpa [acceptResult] using hresult
  have hrun := run_acceptSteps Output piece ⟨hpasses.1.1, hpasses.1.2.1⟩ seq
  have hstate := (hrun piece.1.rxHighWater (piece.2 piece.1.peerId) write accepted).1
  rw [withFloors_self, if_pos hpasses.1.2.2, if_pos hpasses.2] at hstate
  have hagain : ((acceptSteps seq write' accepted').run
      ((acceptSteps seq write accepted).run piece).state).result = true := hright
  rw [hstate, (hrun seq seq write' accepted').2] at hagain
  simp at hagain

theorem accepted_once {piece : Piece} {seq : UInt32} {write write' : Write}
    {accepted accepted' : UInt32 → Output} {outcome : Outcome Piece Bool Bool}
    (hserializable : Serializable (acceptSteps seq write accepted)
      (acceptSteps seq write' accepted') piece outcome) :
    ¬ (outcome.left = true ∧ outcome.right = true) := by
  rcases hserializable with rfl | rfl
  · exact leftFirst_accept piece seq write write' accepted accepted'
  · exact fun ⟨hleft, hright⟩ =>
      leftFirst_accept piece seq write' write accepted' accepted ⟨hright, hleft⟩

end LoraBridge.FloorTasks
