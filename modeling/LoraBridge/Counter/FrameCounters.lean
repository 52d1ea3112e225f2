import LoraBridge.Counter.LoRaWANConfig

/-!
# Frame counters over the life of a device

The reservation in NVS is above every FCnt ever issued for its address, and each
RAM counter bound to the address continues above them.  The first is what a
restart, a moved row or a cleared and re-added device builds on; the second needs
the address to be bound to one counter whenever it is used.
-/

namespace LoraBridge.FrameCounters

open LoraBridge.ReserveAhead LoraBridge.LoRaWANConfig LoraBridge.Machine

theorem reserve_small : FCNT_RESERVE ≤ 0xFFFFFFFE := by decide

/-- What holds of a device and of everything it has issued. -/
structure Inv (state : State) (history : List Issue) : Prop where
  behind : ∀ devAddr, devAddr ≠ 0 →
    Behind (state.nvs.fc devAddr) (fcntsOf devAddr history)
  sound : ∀ cursor, state.ram.address cursor ≠ 0 →
    Sound (state.nvs.fc (state.ram.address cursor)) (state.ram.cursor cursor)
      (fcntsOf (state.ram.address cursor) history)
  increasing : ∀ devAddr, (fcntsOf devAddr history).Pairwise (· < ·)
  valid : ∀ issue ∈ history, issue.fcnt ≠ FCNT_INVALID

theorem sound_counterFor {nvs : Nvs} {devAddr : UInt32} {issued : List UInt32}
    (haddress : devAddr ≠ 0) (hbehind : Behind (nvs.fc devAddr) issued) :
    Sound (nvs.fc devAddr) (counterFor nvs devAddr) issued := by
  unfold counterFor loadReservedForAddr
  rw [if_neg haddress]
  exact sound_resume hbehind

section Step

variable {state next : State} {history : List Issue}

/-- Counters that stay or are loaded leave the invariant in place. -/
theorem Inv.reload (hinv : Inv state history) (hreloads : Reloads state next) :
    Inv next history where
  behind devAddr haddress := hreloads.fc ▸ hinv.behind devAddr haddress
  sound cursor haddress := by
    rw [hreloads.fc]
    rcases hreloads.cursors cursor with ⟨hsame, hvalue⟩ | hload
    · rw [hsame] at haddress ⊢
      rw [hvalue]
      exact hinv.sound cursor haddress
    · rw [hload]
      exact sound_counterFor haddress (hinv.behind _ haddress)
  increasing := hinv.increasing
  valid := hinv.valid

/-- Issuing from the one counter bound to an address. -/
theorem Inv.issue (hinv : Inv state history) {cursor : Cursor} {write : Write}
    {emitted : List Issue} (hissues : IssuesFrom state cursor write next emitted)
    (honce : ∀ other, state.ram.address other = state.ram.address cursor →
      other = cursor) :
    Inv next (history ++ emitted) := by
  obtain ⟨haddress, hfc, hsame, hcounters, rfl⟩ := hissues
  have hsound := hinv.sound cursor haddress
  generalize hcursor : state.ram.address cursor = devAddr at *
  have hadvance : Sound
      (advanceFcnt write devAddr (state.ram.cursor cursor) state.nvs).cell
      (advanceFcnt write devAddr (state.ram.cursor cursor) state.nvs).counter
      (fcntsOf devAddr history ++ (advanceFcnt write devAddr
        (state.ram.cursor cursor) state.nvs).issued.toList) :=
    sound_advance reserve_small hsound
  have hissued : ∀ number, (advanceFcnt write devAddr (state.ram.cursor cursor)
      state.nvs).issued = some number →
        (∀ earlier ∈ fcntsOf devAddr history, earlier < number) ∧
          number ≠ 0xFFFFFFFF :=
    fun _ => issued_advance reserve_small hsound
  generalize advanceFcnt write devAddr (state.ram.cursor cursor) state.nvs = result
    at hadvance hissued hcounters hfc ⊢
  constructor
  · intro other hother
    rw [fcntsOf_append, hfc]
    by_cases heq : devAddr = other
    · subst heq
      rw [fcntsOf_issueOf, Function.update_self]
      exact hadvance.behind
    · rw [fcntsOf_issueOf_of_ne heq, List.append_nil, Function.update_of_ne (Ne.symm heq)]
      exact hinv.behind other hother
  · intro other hother
    rw [hsame] at hother ⊢
    rw [fcntsOf_append, hfc, hcounters]
    by_cases heq : state.ram.address other = devAddr
    · obtain rfl := honce other heq
      rw [heq, fcntsOf_issueOf, Function.update_self, Function.update_self]
      exact hadvance
    · have hdiffer : other ≠ cursor := fun hsame' => heq (hsame' ▸ hcursor)
      rw [fcntsOf_issueOf_of_ne (Ne.symm heq), List.append_nil,
        Function.update_of_ne heq, Function.update_of_ne hdiffer]
      exact hinv.sound other hother
  · intro other
    rw [fcntsOf_append]
    by_cases heq : devAddr = other
    · subst heq
      rw [fcntsOf_issueOf, List.pairwise_append]
      refine ⟨hinv.increasing devAddr, by cases result.issued <;> simp, ?_⟩
      intro earlier hearlier number hnumber
      exact (hissued number (by simpa using hnumber)).1 earlier hearlier
    · rw [fcntsOf_issueOf_of_ne heq, List.append_nil]
      exact hinv.increasing other
  · intro issue hmem
    rcases List.mem_append.mp hmem with hold | hnew
    · exact hinv.valid issue hold
    · obtain ⟨number, hnumber, rfl⟩ := List.mem_map.mp hnew
      exact (hissued number (by simpa using hnumber)).2

/-- A restart on reservations that are ahead of the history. -/
theorem Inv.boot (hinv : Inv state history) {nvs : Nvs}
    (hbehind : ∀ devAddr, devAddr ≠ 0 →
      Behind (nvs.fc devAddr) (fcntsOf devAddr history)) :
    Inv (boot nvs) history where
  behind := hbehind
  sound cursor haddress := by
    rw [boot_cursor nvs haddress]
    exact sound_counterFor haddress (hbehind _ haddress)
  increasing := hinv.increasing
  valid := hinv.valid

theorem Inv.nextFcnt (hinv : Inv state history) (hbound : BoundOnce state.ram) (i : ℤ)
    (write : Write) :
    Inv (nextFcnt i write state).1 (history ++ (nextFcnt i write state).2) := by
  rcases nextFcnt_spec i write state with hnone | ⟨slot, -, hissues⟩
  · rw [hnone]
    simpa using hinv
  · exact hinv.issue hissues fun other hother =>
      hbound other (.slot slot) hother (hother ▸ hissues.bound)

theorem Inv.nextFcntForDevAddr (hinv : Inv state history) (devAddr : UInt32)
    (write : Write)
    (hbound : BoundOnce (nextFcntForDevAddr devAddr write state).1.ram) :
    Inv (nextFcntForDevAddr devAddr write state).1
      (history ++ (nextFcntForDevAddr devAddr write state).2) := by
  by_cases haddress : devAddr = 0
  · subst haddress
    simpa [nextFcntForDevAddr_zero] using hinv
  · have hissues := nextFcntForDevAddr_spec haddress write state
    refine (hinv.reload (rebind_reloads devAddr state)).issue hissues fun other hother => ?_
    refine hbound other .ext ?_ ?_
    · rw [hissues.address]
      exact hother
    · rw [hissues.address, hother]
      exact hissues.bound

/-- A counter asked for a number when the power goes leaves reservations that are
still ahead of what was issued before, whether its write was done or not. -/
theorem Inv.behind_issue (hinv : Inv state history) {cursor : Cursor} {write : Write}
    {emitted : List Issue} (hissues : IssuesFrom state cursor write next emitted)
    (devAddr : UInt32) (haddress : devAddr ≠ 0) :
    Behind (next.nvs.fc devAddr) (fcntsOf devAddr history) := by
  rw [hissues.fc]
  by_cases heq : devAddr = state.ram.address cursor
  · subst heq
    rw [Function.update_self]
    exact behind_advance reserve_small (hinv.sound cursor haddress)
  · rw [Function.update_of_ne heq]
    exact hinv.behind devAddr haddress

theorem Inv.behind_call (hinv : Inv state history) (call : Call) (devAddr : UInt32)
    (haddress : devAddr ≠ 0) :
    Behind ((call.apply state).1.nvs.fc devAddr) (fcntsOf devAddr history) := by
  cases call with
  | nextFcnt i write =>
      simp only [Call.apply]
      rcases nextFcnt_spec i write state with hnone | ⟨slot, -, hissues⟩
      · rw [hnone]
        exact hinv.behind devAddr haddress
      · exact hinv.behind_issue hissues devAddr haddress
  | nextFcntForDevAddr other write =>
      by_cases hzero : other = 0
      · subst hzero
        simpa [Call.apply, nextFcntForDevAddr_zero] using hinv.behind devAddr haddress
      · exact (hinv.reload (rebind_reloads other state)).behind_issue
          (nextFcntForDevAddr_spec hzero write state) devAddr haddress
  | setDevice i device =>
      exact (hinv.reload (setDevice_reloads i device state)).behind devAddr haddress
  | clearDevice i =>
      exact (hinv.reload (clearDevice_reloads i state)).behind devAddr haddress
  | saveTable write => exact hinv.behind devAddr haddress

/-- One event of a device on which no address is bound twice, before or after. -/
theorem Inv.step (hinv : Inv state history) (event : Event)
    (hbefore : BoundOnce state.ram) (hafter : BoundOnce (step state event).1.ram) :
    Inv (step state event).1 (history ++ (step state event).2) := by
  cases event with
  | call call =>
      cases call with
      | nextFcnt i write => exact hinv.nextFcnt hbefore i write
      | nextFcntForDevAddr devAddr write =>
          exact hinv.nextFcntForDevAddr devAddr write hafter
      | setDevice i device =>
          simpa [LoRaWANConfig.step, Call.apply] using
            hinv.reload (setDevice_reloads i device state)
      | clearDevice i =>
          simpa [LoRaWANConfig.step, Call.apply] using
            hinv.reload (clearDevice_reloads i state)
      | saveTable write =>
          simpa [LoRaWANConfig.step, Call.apply] using
            hinv.reload (saveTable_reloads write state)
  | powerLoss during =>
      cases during with
      | none => simpa [LoRaWANConfig.step] using hinv.boot hinv.behind
      | some call => simpa [LoRaWANConfig.step] using hinv.boot (hinv.behind_call call)

end Step

/-- The run never binds an address to two counters, in any state it comes
through. -/
def NeverBoundTwice (state : State) (events : List Event) : Prop :=
  Along step (fun state event =>
    BoundOnce state.ram ∧ BoundOnce (step state event).1.ram) state events

/-- Whatever the reservations in NVS, nothing has been issued yet. -/
theorem inv_boot (nvs : Nvs) : Inv (boot nvs) [] where
  behind _ _ number hmem := by simp at hmem
  sound cursor haddress := by
    rw [boot_cursor nvs haddress]
    exact sound_counterFor haddress fun number hmem => by simp at hmem
  increasing _ := by simp
  valid issue hmem := by simp at hmem

theorem inv_run (nvs : Nvs) (events : List Event)
    (hbound : NeverBoundTwice (boot nvs) events) :
    Inv (run step (boot nvs) events).1 (run step (boot nvs) events).2 := by
  have hstart : Inv (boot nvs) [] := inv_boot nvs
  have hrun : Inv (run step (boot nvs) events).1
      ([] ++ (run step (boot nvs) events).2) :=
    invariant_run (fun _ _ event hinv hallowed =>
      hinv.step event hallowed.1 hallowed.2) events hstart hbound
  simpa using hrun

/-! ## A reservation that cannot be confirmed -/

/-- At the end of a block, a call without a confirmed write issues nothing and
leaves the counters alone; the build-flag counter has been bound to the address
it was asked for. -/
def FailsClosed (state : State) (write : Write) : Prop :=
  (∀ slot : Slot, (state.ram.counter slot).atLimit →
    (nextFcnt slot write state).2 = [] ∧ (nextFcnt slot write state).1.ram = state.ram) ∧
  (∀ devAddr, devAddr ≠ 0 → (rebind devAddr state).ext.atLimit →
    (nextFcntForDevAddr devAddr write state).2 = [] ∧
      (nextFcntForDevAddr devAddr write state).1.ram = rebind devAddr state)

theorem advanceFcnt_unconfirmed {write : Write} (hwrite : write ≠ .confirmed)
    {counter : Counter} (hlimit : counter.atLimit) (devAddr : UInt32) (nvs : Nvs) :
    (advanceFcnt write devAddr counter nvs).issued = none ∧
      (advanceFcnt write devAddr counter nvs).counter = counter := by
  refine advance_unconfirmed hlimit ?_
  split
  · simp
  · exact hwrite

theorem failsClosed (state : State) {write : Write} (hwrite : write ≠ .confirmed) :
    FailsClosed state write := by
  constructor
  · intro slot hlimit
    have hadvance := advanceFcnt_unconfirmed hwrite hlimit
      (state.ram.dev slot).devAddr state.nvs
    unfold nextFcnt
    rw [slotOf_slot]
    by_cases haddress : (state.ram.dev slot).devAddr = 0
    · simp [haddress]
    · simp [haddress, issueOf, hadvance.1, hadvance.2]
  · intro devAddr haddress hlimit
    have hadvance := advanceFcnt_unconfirmed hwrite hlimit devAddr state.nvs
    unfold nextFcntForDevAddr
    simp [haddress, issueOf, hadvance.1, hadvance.2]

/-- Over the whole life of a device on which no DevAddr is bound to two counters
at a time, the FCnts issued for each DevAddr strictly increase and none is
`FCNT_INVALID`; a call whose reservation cannot be persisted issues none. -/
theorem frame_counters_survive (nvs : Nvs) (events : List Event)
    (hbound : NeverBoundTwice (boot nvs) events) :
    (∀ devAddr, (fcntsOf devAddr (run step (boot nvs) events).2).Pairwise (· < ·)) ∧
      (∀ issue ∈ (run step (boot nvs) events).2, issue.fcnt ≠ FCNT_INVALID) ∧
      ∀ write, write ≠ .confirmed →
        FailsClosed (run step (boot nvs) events).1 write :=
  have hinv := inv_run nvs events hbound
  ⟨hinv.increasing, hinv.valid, fun _ hwrite => failsClosed _ hwrite⟩

/-- A device that is moved to another row between two power losses, the second
of them inside a reservation. -/
def movedDevice : List Event :=
  let device := { Device.empty with inUse := 1, devAddr := 7 }
  [.call (.setDevice 0 device), .call (.nextFcnt 0 .confirmed),
    .call (.saveTable .confirmed), .powerLoss none, .call (.nextFcnt 0 .confirmed),
    .call (.clearDevice 0), .call (.setDevice 2 device),
    .powerLoss (some (.nextFcnt 2 .confirmed)), .call (.nextFcnt 0 .confirmed)]

theorem movedDevice_increasing :
    fcntsOf 7 (run step (boot ⟨none, fun _ => 0⟩) movedDevice).2 = [0, 33, 99] ∧
      (fcntsOf 7 (run step (boot ⟨none, fun _ => 0⟩) movedDevice).2).Pairwise
        (· < ·) :=
  ⟨by decide, (frame_counters_survive ⟨none, fun _ => 0⟩ movedDevice (by
    unfold NeverBoundTwice movedDevice
    simp only [Along]
    decide)).1 7⟩

end LoraBridge.FrameCounters
