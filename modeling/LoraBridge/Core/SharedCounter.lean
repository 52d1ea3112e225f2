import LoraBridge.Core.Interleaving
import LoraBridge.Core.ReserveAhead

/-!
# A counter that two tasks ask

Asking a reserve-ahead counter for a number reads it, writes the next reservation
if the block is used up, and writes the counter back.  Two tasks that have both read
before either has finished hand out one number twice, unless one of them gets none.
-/

namespace LoraBridge.SharedCounter

open LoraBridge.Program LoraBridge.ReserveAhead

variable {Output : Type}

/-- No reservation fits behind the next number. -/
def Exhausted (reserve : UInt32) (counter : Counter) : Prop :=
  0xFFFFFFFF - 1 - reserve < counter.next

instance (reserve : UInt32) (counter : Counter) : Decidable (Exhausted reserve counter) :=
  inferInstanceAs (Decidable (_ < _))

/-- Whether asking for a number gives one. -/
def Issues (reserve : UInt32) (write : Write) (counter : Counter) : Prop :=
  ¬ counter.atLimit ∨ (¬ Exhausted reserve counter ∧ write = .confirmed)

instance (reserve : UInt32) (write : Write) (counter : Counter) :
    Decidable (Issues reserve write counter) :=
  inferInstanceAs (Decidable (_ ∨ _))

section Advance

variable {reserve : UInt32} {write : Write} {counter : Counter} {cell : UInt32}

theorem advance_exhausted (hlimit : counter.atLimit) (hspace : Exhausted reserve counter) :
    advance reserve write counter cell = ⟨none, counter, cell⟩ := by
  unfold Exhausted at hspace
  rw [advance, if_pos hlimit, if_pos hspace]

theorem advance_confirmed (hlimit : counter.atLimit) (hspace : ¬ Exhausted reserve counter) :
    advance reserve .confirmed counter cell =
      ⟨some counter.next, ⟨counter.next + 1, counter.next + 1 + reserve⟩,
        counter.next + 1 + reserve⟩ := by
  unfold Exhausted at hspace
  rw [advance, if_pos hlimit, if_neg hspace]

theorem advance_failed (hlimit : counter.atLimit) (hspace : ¬ Exhausted reserve counter)
    (hwrite : write ≠ .confirmed) :
    advance reserve write counter cell =
      ⟨none, counter, write.apply cell (counter.next + 1 + reserve)⟩ := by
  unfold Exhausted at hspace
  rw [advance, if_pos hlimit, if_neg hspace]
  cases write with
  | confirmed => exact absurd rfl hwrite
  | lost => rfl
  | unconfirmed => rfl

theorem advance_block (hlimit : ¬ counter.atLimit) :
    advance reserve write counter cell =
      ⟨some counter.next, ⟨counter.next + 1, counter.limit⟩, cell⟩ := by
  rw [advance, if_neg hlimit]

end Advance

/-- The reservation goes to the durable cell. -/
def storeReserved (write : Write) (reserved : UInt32) : Effect (Counter × UInt32) Output :=
  fun shared => ((shared.1, write.apply shared.2 reserved), [])

/-- The counter goes on, in a block that is now durable. -/
def storeCounter (counter : Counter) : Effect (Counter × UInt32) Output :=
  fun shared => ((counter, shared.2), [])

/-- The counter goes on within its block. -/
def storeNext (next : UInt32) : Effect (Counter × UInt32) Output :=
  fun shared => ((⟨next, shared.1.limit⟩, shared.2), [])

def takeWrites (Output : Type) (reserve : UInt32) (write : Write) (counter : Counter) :
    List (Effect (Counter × UInt32) Output) :=
  if counter.atLimit then
    if Exhausted reserve counter then []
    else if write = .confirmed then
      [storeReserved write (counter.next + 1 + reserve),
        storeCounter ⟨counter.next + 1, counter.next + 1 + reserve⟩]
    else [storeReserved write (counter.next + 1 + reserve)]
  else [storeNext (counter.next + 1)]

def taken (reserve : UInt32) (write : Write) (counter : Counter) : Option UInt32 :=
  if Issues reserve write counter then some counter.next else none

/-- Asking for a number, step by step. -/
def take (Output : Type) (reserve : UInt32) (write : Write) :
    Program (Counter × UInt32) Output (Option UInt32) :=
  readWrite Prod.fst (takeWrites Output reserve write) (taken reserve write)

/-- Undisturbed, it is one call of `advance`. -/
theorem run_take (Output : Type) (reserve : UInt32) (write : Write) (shared : Counter × UInt32) :
    ((take Output reserve write).run shared).state =
        ((advance reserve write shared.1 shared.2).counter,
          (advance reserve write shared.1 shared.2).cell) ∧
      ((take Output reserve write).run shared).result =
        (advance reserve write shared.1 shared.2).issued := by
  obtain ⟨counter, cell⟩ := shared
  have hrun := run_readWrite Prod.fst (takeWrites Output reserve write)
    (taken reserve write) (counter, cell)
  rw [take, hrun.1, hrun.2]
  by_cases hlimit : counter.atLimit
  · by_cases hspace : Exhausted reserve counter
    · simp [takeWrites, taken, Issues, advance_exhausted hlimit hspace, applyAll, hlimit,
        hspace]
    · by_cases hwrite : write = .confirmed
      · subst hwrite
        simp [takeWrites, taken, Issues, advance_confirmed hlimit hspace, applyAll, hlimit,
          hspace, storeReserved, storeCounter, Write.apply]
      · simp [takeWrites, taken, Issues, advance_failed hlimit hspace hwrite, applyAll,
          hlimit, hspace, hwrite, storeReserved]
  · simp [takeWrites, taken, Issues, advance_block hlimit, applyAll, hlimit, storeNext]

theorem issued_eq_taken (reserve : UInt32) (write : Write) (counter : Counter)
    (cell : UInt32) :
    (advance reserve write counter cell).issued = taken reserve write counter := by
  by_cases hlimit : counter.atLimit
  · by_cases hspace : Exhausted reserve counter
    · simp [taken, Issues, advance_exhausted hlimit hspace, hlimit, hspace]
    · by_cases hwrite : write = .confirmed
      · subst hwrite
        simp [taken, Issues, advance_confirmed hlimit hspace, hspace]
      · simp [taken, Issues, advance_failed hlimit hspace hwrite, hlimit, hwrite]
  · simp [taken, Issues, advance_block hlimit, hlimit]

theorem eq_next_of_taken {reserve : UInt32} {write : Write} {counter : Counter}
    {number : UInt32} (htaken : taken reserve write counter = some number) :
    Issues reserve write counter ∧ number = counter.next := by
  unfold taken at htaken
  split at htaken
  · rename_i hissues
    exact ⟨hissues, (Option.some.inj htaken).symm⟩
  · simp at htaken

/-- The number after one that was issued is another. -/
theorem taken_after_ne {reserve : UInt32} {write other : Write} {counter : Counter}
    (cell : UInt32) (hissues : Issues reserve write counter) :
    taken reserve other (advance reserve write counter cell).counter ≠
      some counter.next := by
  have hnext : (advance reserve write counter cell).counter.next = counter.next + 1 := by
    by_cases hlimit : counter.atLimit
    · rcases hissues with hblock | ⟨hspace, rfl⟩
      · exact absurd hlimit hblock
      · rw [advance_confirmed hlimit hspace]
    · rw [advance_block hlimit]
  have hne : counter.next + 1 ≠ counter.next := by grind
  unfold taken
  rw [hnext]
  split <;> simp [hne]

/-- A task that issues nothing leaves the counter alone. -/
theorem counter_of_not_issues {reserve : UInt32} {write : Write} {counter : Counter}
    (cell : UInt32) (hissues : ¬ Issues reserve write counter) :
    (advance reserve write counter cell).counter = counter := by
  have hlimit : counter.atLimit := not_not.mp fun hnot => hissues (.inl hnot)
  by_cases hspace : Exhausted reserve counter
  · rw [advance_exhausted hlimit hspace]
  · have hwrite : write ≠ .confirmed := fun heq => hissues (.inr ⟨hspace, heq⟩)
    rw [advance_failed hlimit hspace hwrite]

/-! ## A counter inside a larger state -/

section Within

variable {Whole : Type}

/-- What follows the read, written out on the larger state. -/
def goOn (reserve : UInt32) (write : Write) (counter : Counter)
    (store : UInt32 → Whole → Whole) (set : Counter → Whole → Whole)
    (next : UInt32 → Whole → Whole) : Program Whole Output (Option UInt32) :=
  if counter.limit ≤ counter.next then
    if 0xFFFFFFFF - 1 - reserve < counter.next then pure none
    else do
      let reserved := counter.next + 1 + reserve
      Program.modify (store reserved)
      if write = .confirmed then do
        Program.modify (set ⟨counter.next + 1, reserved⟩)
        pure (some counter.next)
      else pure none
  else do
    Program.modify (next (counter.next + 1))
    pure (some counter.next)

theorem goOn_same (part : Part Whole (Counter × UInt32)) {invariant : Whole → Prop}
    {reserve : UInt32} {write : Write} (counter : Counter)
    (store : UInt32 → Whole → Whole) (set : Counter → Whole → Whole)
    (next : UInt32 → Whole → Whole)
    (hstore : ∀ reserved whole, invariant whole → invariant (store reserved whole) ∧
      store reserved whole = part.put whole ((part.view whole).1,
        write.apply (part.view whole).2 reserved))
    (hset : ∀ counter whole, invariant whole → invariant (set counter whole) ∧
      set counter whole = part.put whole (counter, (part.view whole).2))
    (hnext : ∀ number whole, invariant whole → invariant (next number whole) ∧
      next number whole = part.put whole
        (⟨number, (part.view whole).1.limit⟩, (part.view whole).2)) :
    (goOn reserve write counter store set next : Program Whole Output _).Same invariant
      ((writes (takeWrites Output reserve write counter)
        (taken reserve write counter)).within part) := by
  by_cases hlimit : counter.atLimit
  · have hlimit' : counter.limit ≤ counter.next := hlimit
    by_cases hspace : Exhausted reserve counter
    · have hspace' : 0xFFFFFFFF - 1 - reserve < counter.next := hspace
      have hnone : taken reserve write counter = none := by
        simp [taken, Issues, hlimit, hspace]
      rw [goOn, if_pos hlimit', if_pos hspace', takeWrites, if_pos hlimit, if_pos hspace,
        hnone]
      rfl
    · have hspace' : ¬ 0xFFFFFFFF - 1 - reserve < counter.next := hspace
      rw [goOn, if_pos hlimit', if_neg hspace', takeWrites, if_pos hlimit, if_neg hspace]
      by_cases hwrite : write = .confirmed
      · have hsome : taken reserve write counter = some counter.next := by
          simp [taken, Issues, hspace, hwrite]
        simp only [if_pos hwrite, hsome]
        intro whole hwhole
        obtain ⟨hkeeps, hput⟩ := hstore (counter.next + 1 + reserve) whole hwhole
        refine ⟨Prod.ext hput rfl, hkeeps, fun later hlater => ?_⟩
        obtain ⟨hkeeps', hput'⟩ :=
          hset ⟨counter.next + 1, counter.next + 1 + reserve⟩ later hlater
        exact ⟨Prod.ext hput' rfl, hkeeps', rfl⟩
      · have hnone : taken reserve write counter = none := by
          simp [taken, Issues, hlimit, hwrite]
        simp only [if_neg hwrite, hnone]
        intro whole hwhole
        obtain ⟨hkeeps, hput⟩ := hstore (counter.next + 1 + reserve) whole hwhole
        exact ⟨Prod.ext hput rfl, hkeeps, rfl⟩
  · have hlimit' : ¬ counter.limit ≤ counter.next := hlimit
    have hsome : taken reserve write counter = some counter.next := by
      simp [taken, Issues, hlimit]
    rw [goOn, if_neg hlimit', takeWrites, if_neg hlimit, hsome]
    intro whole hwhole
    obtain ⟨hkeeps, hput⟩ := hnext (counter.next + 1) whole hwhole
    exact ⟨Prod.ext hput rfl, hkeeps, rfl⟩

end Within

/-! ## Two tasks -/

theorem takeWrites_undisturbed (Output : Type) (reserve : UInt32) (write : Write)
    (counter : Counter) :
    Undisturbed Prod.fst (takeWrites Output reserve write counter) := by
  intro effect hmem shared
  unfold takeWrites at hmem
  split at hmem
  · split at hmem
    · simp at hmem
    · split at hmem
      · simp only [List.dropLast, List.mem_singleton] at hmem
        rw [hmem]
        rfl
      · simp at hmem
  · simp at hmem

theorem apply_comm (write other : Write) (old new : UInt32) :
    other.apply (write.apply old new) new = write.apply (other.apply old new) new := by
  cases write <;> cases other <;> rfl

/-- Where one of two tasks issues nothing, their writes commute. -/
theorem takeWrites_commute (Output : Type) {reserve : UInt32} (write : Write)
    {other : Write} {counter : Counter}
    (hissues : ¬ Issues reserve other counter) :
    ∀ first ∈ takeWrites Output reserve write counter,
      ∀ second ∈ takeWrites Output reserve other counter,
        Commute first second := by
  intro first hfirst second hsecond shared
  have hlimit : counter.atLimit := not_not.mp fun hnot => hissues (.inl hnot)
  by_cases hspace : Exhausted reserve counter
  · simp [takeWrites, hlimit, hspace] at hfirst
  · have hother : other ≠ .confirmed := fun heq => hissues (.inr ⟨hspace, heq⟩)
    simp only [takeWrites, hlimit, hspace, hother, if_true, if_false,
      List.mem_singleton] at hsecond
    subst hsecond
    by_cases hwrite : write = .confirmed
    · simp only [takeWrites, hlimit, hspace, hwrite, if_true, if_false, List.mem_cons,
        List.not_mem_nil, or_false] at hfirst
      rcases hfirst with rfl | rfl
      · simp [storeReserved]
      · rfl
    · simp only [takeWrites, hlimit, hspace, hwrite, if_true, if_false,
        List.mem_singleton] at hfirst
      subst hfirst
      simp [storeReserved, apply_comm]

/-- Two tasks of which one issues nothing look like that one first. -/
theorem serializable_take_of_not_issues (Output : Type) {reserve : UInt32}
    (write : Write) {other : Write} {shared : Counter × UInt32} (trace : List Side)
    (hissues : ¬ Issues reserve other shared.1)
    (hcountLeft : trace.count .left = (takeWrites Output reserve write
      shared.1).length)
    (hcountRight : trace.count .right = (takeWrites Output reserve other
      shared.1).length) :
    (⟨taken reserve write shared.1, taken reserve other shared.1,
        applyAll (merge trace (takeWrites Output reserve write shared.1)
          (takeWrites Output reserve other shared.1)) shared⟩ : Outcome _ _ _) =
      rightFirst (take Output reserve write) (take Output reserve other) shared := by
  have hcommute := takeWrites_commute Output write hissues
  have hsymm : ∀ first ∈ takeWrites Output reserve other shared.1,
      ∀ second ∈ takeWrites Output reserve write shared.1,
        Commute first second :=
    fun first hfirst second hsecond state => (hcommute second hsecond first hfirst state).symm
  have hother := run_take Output reserve other shared
  have hread : (applyAll (takeWrites Output reserve other shared.1) shared).1 =
      shared.1 := by
    have hrun := (run_readWrite Prod.fst (takeWrites Output reserve other)
      (taken reserve other) shared).1
    rw [take, hrun] at hother
    rw [hother.1]
    exact counter_of_not_issues shared.2 hissues
  rw [← merge_map_other trace _ _ hcountLeft hcountRight, applyAll_merge hsymm]
  have hsecond := run_readWrite Prod.fst (takeWrites Output reserve other)
    (taken reserve other) shared
  have hfirst := run_readWrite Prod.fst (takeWrites Output reserve write)
    (taken reserve write) (applyAll (takeWrites Output reserve other shared.1)
      shared)
  simp only [rightFirst, take, hsecond.1, hsecond.2, hfirst.1, hfirst.2, hread]

/-- Asking one after the other gives different numbers. -/
theorem leftFirst_take (Output : Type) (reserve : UInt32) (write other : Write)
    (shared : Counter × UInt32) (number : UInt32) :
    let outcome := leftFirst (take Output reserve write) (take Output reserve other)
      shared
    ¬ (outcome.left = some number ∧ outcome.right = some number) := by
  rintro outcome ⟨hleft, hright⟩
  have hfirst := run_take Output reserve write shared
  have hsecond := run_take Output reserve other
    ((take Output reserve write).run shared).state
  have htaken : taken reserve write shared.1 = some number := by
    rw [← issued_eq_taken reserve write shared.1 shared.2, ← hfirst.2]
    exact hleft
  have hagain : taken reserve other (advance reserve write shared.1 shared.2).counter =
      some number := by
    rw [hfirst.1, issued_eq_taken] at hsecond
    rw [← hsecond.2, ← hfirst.1]
    exact hright
  obtain ⟨hissues, rfl⟩ := eq_next_of_taken htaken
  exact taken_after_ne shared.2 hissues hagain

theorem distinct_of_serializable {reserve : UInt32} {write other : Write}
    {shared : Counter × UInt32}
    {outcome : Outcome (Counter × UInt32) (Option UInt32) (Option UInt32)}
    (hserializable : Serializable (take Output reserve write)
      (take Output reserve other) shared outcome) (number : UInt32) :
    ¬ (outcome.left = some number ∧ outcome.right = some number) := by
  rcases hserializable with rfl | rfl
  · exact leftFirst_take Output reserve write other shared number
  · rintro ⟨hleft, hright⟩
    exact leftFirst_take Output reserve other write shared number
      ⟨hright, hleft⟩

/-- Two tasks that ask the counter can be put in an order exactly when one was done
before the other read, or one of them gets no number. -/
theorem take_serializable_iff {reserve : UInt32} {write other : Write}
    {shared : Counter × UInt32} {trace : List Side}
    {outcome : Outcome (Counter × UInt32) (Option UInt32) (Option UInt32)}
    (hruns : Interleaves (take Output reserve write) (take Output reserve other) shared
      trace outcome) :
    Serializable (take Output reserve write) (take Output reserve other) shared
        outcome ↔
      Apart trace ∨ ¬ (Issues reserve write shared.1 ∧ Issues reserve other shared.1) := by
  rcases interleaves_readWrite (takeWrites_undisturbed Output reserve write)
    (takeWrites_undisturbed Output reserve other) hruns with hapart | ⟨rfl, hcountLeft, hcountRight⟩
  · exact ⟨fun _ => .inl hapart, fun _ => serializable_of_apart hapart hruns⟩
  · refine ⟨fun hserializable => ?_, ?_⟩
    · refine .inr fun ⟨hleft, hright⟩ => ?_
      exact distinct_of_serializable hserializable shared.1.next
        ⟨by simp [taken, hleft], by simp [taken, hright]⟩
    · rintro (hapart | hnot)
      · exact serializable_of_apart hapart hruns
      · by_cases hright : Issues reserve other shared.1
        · have hleft : ¬ Issues reserve write shared.1 := fun hleft => hnot ⟨hleft, hright⟩
          refine .inl ?_
          have hswap := serializable_take_of_not_issues Output other
            ((writeOrder trace).map Side.other) hleft
            (by rw [← hcountRight]; exact count_map_other (writeOrder trace) .right)
            (by rw [← hcountLeft]; exact count_map_other (writeOrder trace) .left)
          rw [merge_map_other _ _ _ hcountLeft hcountRight] at hswap
          have hback := congrArg Outcome.swap hswap
          exact hback
        · exact .inr (serializable_take_of_not_issues Output write _ hright hcountLeft hcountRight)

end LoraBridge.SharedCounter
