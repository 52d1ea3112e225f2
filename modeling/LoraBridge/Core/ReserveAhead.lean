import Mathlib.Tactic

/-!
# Counters that reserve ahead

A counter in RAM hands out numbers from a block whose end has been written to a
durable cell.  At the end of a block the next reservation is written first; a
write that cannot be confirmed hands out nothing, and may have reached the cell
or not.  After a restart the counter resumes at the cell.
-/

namespace LoraBridge.ReserveAhead

/-- What became of a durable write: confirmed, reported as failed with the old
value still there, or reported as failed although the new value is there. -/
inductive Write where
  | confirmed
  | lost
  | unconfirmed
  deriving DecidableEq, Repr

/-- What the cell holds after writing `new` over `old`. -/
def Write.apply {Value : Type*} (write : Write) (old new : Value) : Value :=
  match write with
  | .confirmed => new
  | .lost => old
  | .unconfirmed => new

@[simp]
theorem Write.apply_confirmed {Value : Type*} (old new : Value) :
    Write.confirmed.apply old new = new := rfl

/-- What holds of the old value and of the new one holds of the cell. -/
theorem Write.apply_of {Value : Type*} {motive : Value → Prop} {old new : Value} (write : Write)
    (hold : motive old) (hnew : motive new) : motive (write.apply old new) := by
  cases write with
  | confirmed => exact hnew
  | lost => exact hold
  | unconfirmed => exact hnew

@[simp]
theorem Write.apply_self {Value : Type*} (write : Write) (value : Value) :
    write.apply value value = value :=
  write.apply_of (motive := fun cell => cell = value) rfl rfl

/-- The next number to hand out, and the end of the block known to be durable. -/
structure Counter where
  next : UInt32
  limit : UInt32
  deriving DecidableEq, Repr

/-- The outcome of asking for a number. -/
structure Advance where
  issued : Option UInt32
  counter : Counter
  cell : UInt32
  deriving DecidableEq, Repr

/-- Whether the next number lies behind the reserved block. -/
def Counter.atLimit (counter : Counter) : Prop :=
  counter.limit ≤ counter.next

instance (counter : Counter) : Decidable counter.atLimit :=
  inferInstanceAs (Decidable (_ ≤ _))

/-- Reserve the next block if the current one is used up, then issue. -/
def advance (reserve : UInt32) (write : Write) (counter : Counter) (cell : UInt32) :
    Advance :=
  if counter.atLimit then
    if 0xFFFFFFFF - 1 - reserve < counter.next then ⟨none, counter, cell⟩
    else
      let reserved := counter.next + 1 + reserve
      match write with
      | .confirmed =>
          ⟨some counter.next, ⟨counter.next + 1, reserved⟩, reserved⟩
      | .lost => ⟨none, counter, cell⟩
      | .unconfirmed => ⟨none, counter, reserved⟩
  else ⟨some counter.next, ⟨counter.next + 1, counter.limit⟩, cell⟩

/-- The counter resumed from the cell after a restart. -/
def resume (cell : UInt32) : Counter := ⟨cell, cell⟩

/-- Every number issued so far is below the cell. -/
def Behind (cell : UInt32) (issued : List UInt32) : Prop :=
  ∀ number ∈ issued, number < cell

/-- The counter is ahead of every number issued, and its block is durable. -/
structure Sound (cell : UInt32) (counter : Counter) (issued : List UInt32) : Prop where
  durable : counter.limit ≤ cell
  ahead : ∀ number ∈ issued, number < counter.next
  behind : Behind cell issued

theorem sound_resume {cell : UInt32} {issued : List UInt32}
    (hbehind : Behind cell issued) : Sound cell (resume cell) issued where
  durable := UInt32.le_refl cell
  ahead := hbehind
  behind := hbehind

variable {reserve : UInt32} {write : Write} {counter : Counter} {cell : UInt32}
  {issued : List UInt32}

/-- Asking for a number at the end of a block without a confirmed write issues
nothing and leaves the counter alone. -/
theorem advance_unconfirmed (hlimit : counter.atLimit) (hwrite : write ≠ .confirmed) :
    (advance reserve write counter cell).issued = none ∧
      (advance reserve write counter cell).counter = counter := by
  unfold advance
  rw [if_pos hlimit]
  split
  · exact ⟨rfl, rfl⟩
  · cases write with
    | confirmed => exact absurd rfl hwrite
    | lost => exact ⟨rfl, rfl⟩
    | unconfirmed => exact ⟨rfl, rfl⟩

/-- The three things that can happen: a number from the block, a number from a
newly reserved block, or nothing. -/
theorem advance_cases (write : Write) (counter : Counter) (cell : UInt32)
    (hreserve : reserve ≤ 0xFFFFFFFE) :
    (counter.next < counter.limit ∧ advance reserve write counter cell =
        ⟨some counter.next, ⟨counter.next + 1, counter.limit⟩, cell⟩) ∨
      (∃ reserved, counter.next < reserved ∧ counter.next + 1 ≤ reserved ∧
        counter.limit ≤ counter.next ∧ advance reserve write counter cell =
          ⟨some counter.next, ⟨counter.next + 1, reserved⟩, reserved⟩) ∨
      (advance reserve write counter cell = ⟨none, counter, cell⟩) ∨
      (∃ reserved, counter.next < reserved ∧ counter.limit ≤ counter.next ∧
        advance reserve write counter cell = ⟨none, counter, reserved⟩) := by
  unfold advance
  by_cases hlimit : counter.atLimit
  · rw [if_pos hlimit]
    unfold Counter.atLimit at hlimit
    by_cases hspace : 0xFFFFFFFF - 1 - reserve < counter.next
    · rw [if_pos hspace]
      exact .inr (.inr (.inl rfl))
    · rw [if_neg hspace]
      have hless : counter.next < counter.next + 1 + reserve := by grind
      have hsucc : counter.next + 1 ≤ counter.next + 1 + reserve := by grind
      cases write with
      | confirmed => exact .inr (.inl ⟨_, hless, hsucc, hlimit, rfl⟩)
      | lost => exact .inr (.inr (.inl rfl))
      | unconfirmed => exact .inr (.inr (.inr ⟨_, hless, hlimit, rfl⟩))
  · rw [if_neg hlimit]
    unfold Counter.atLimit at hlimit
    exact .inl ⟨by grind, rfl⟩

/-- Asking for a number keeps the counter ahead of what was issued. -/
theorem sound_advance (hreserve : reserve ≤ 0xFFFFFFFE)
    (hsound : Sound cell counter issued) :
    Sound (advance reserve write counter cell).cell
      (advance reserve write counter cell).counter
      (issued ++ (advance reserve write counter cell).issued.toList) := by
  obtain ⟨hdurable, hahead, hbehind⟩ := hsound
  rcases advance_cases write counter cell hreserve with
    ⟨hless, heq⟩ | ⟨reserved, hless, hsucc, hlimit, heq⟩ | heq |
      ⟨reserved, hless, hlimit, heq⟩
  · rw [heq]
    refine ⟨hdurable, fun number hmem => ?_, fun number hmem => ?_⟩
    · rcases List.mem_append.mp hmem with hold | hnew
      · have := hahead number hold
        grind
      · obtain rfl : number = counter.next := by simpa using hnew
        grind
    · rcases List.mem_append.mp hmem with hold | hnew
      · exact hbehind number hold
      · obtain rfl : number = counter.next := by simpa using hnew
        grind
  · rw [heq]
    refine ⟨UInt32.le_refl reserved, fun number hmem => ?_, fun number hmem => ?_⟩
    · rcases List.mem_append.mp hmem with hold | hnew
      · have := hahead number hold
        grind
      · obtain rfl : number = counter.next := by simpa using hnew
        grind
    · rcases List.mem_append.mp hmem with hold | hnew
      · have := hahead number hold
        grind
      · obtain rfl : number = counter.next := by simpa using hnew
        exact hless
  · rw [heq]
    simpa using Sound.mk hdurable hahead hbehind
  · rw [heq]
    refine ⟨by grind, by simpa using hahead, fun number hmem => ?_⟩
    have := hahead number (by simpa using hmem)
    grind

/-- The number issued is the next one, and the cursor moves on by one without
wrapping around. -/
theorem next_advance (hreserve : reserve ≤ 0xFFFFFFFE) {number : UInt32}
    (hissued : (advance reserve write counter cell).issued = some number) :
    number = counter.next ∧
      (advance reserve write counter cell).counter.next = number + 1 ∧
      number < number + 1 := by
  rcases advance_cases write counter cell hreserve with
    ⟨hless, heq⟩ | ⟨reserved, hless, hsucc, -, heq⟩ | heq | ⟨reserved, -, -, heq⟩
  · obtain rfl : counter.next = number := by simpa [heq] using hissued
    exact ⟨rfl, by rw [heq], by grind⟩
  · obtain rfl : counter.next = number := by simpa [heq] using hissued
    exact ⟨rfl, by rw [heq], by grind⟩
  · simp [heq] at hissued
  · simp [heq] at hissued

/-- Without a number the cursor stays. -/
theorem counter_advance_of_none (hreserve : reserve ≤ 0xFFFFFFFE)
    (hissued : (advance reserve write counter cell).issued = none) :
    (advance reserve write counter cell).counter = counter := by
  rcases advance_cases write counter cell hreserve with
    ⟨-, heq⟩ | ⟨reserved, -, -, -, heq⟩ | heq | ⟨reserved, -, -, heq⟩
  · simp [heq] at hissued
  · simp [heq] at hissued
  · rw [heq]
  · rw [heq]

/-- The number issued is above all those before it, and never the largest one. -/
theorem issued_advance (hreserve : reserve ≤ 0xFFFFFFFE)
    (hsound : Sound cell counter issued) {number : UInt32}
    (hissued : (advance reserve write counter cell).issued = some number) :
    (∀ earlier ∈ issued, earlier < number) ∧ number ≠ 0xFFFFFFFF := by
  rcases advance_cases write counter cell hreserve with
    ⟨hless, heq⟩ | ⟨reserved, hless, -, -, heq⟩ | heq | ⟨reserved, -, -, heq⟩
  · obtain rfl : counter.next = number := by simpa [heq] using hissued
    exact ⟨hsound.ahead, by grind⟩
  · obtain rfl : counter.next = number := by simpa [heq] using hissued
    exact ⟨hsound.ahead, by grind⟩
  · simp [heq] at hissued
  · simp [heq] at hissued

/-- Whatever is written, the cell stays above what was issued before. -/
theorem behind_advance (hreserve : reserve ≤ 0xFFFFFFFE)
    (hsound : Sound cell counter issued) :
    Behind (advance reserve write counter cell).cell issued := fun number hmem =>
  (sound_advance hreserve hsound).behind number (List.mem_append_left _ hmem)

/-! ## Several counters on one cell -/

/-- The numbers a counter can still issue without a new reservation. -/
def Counter.Holds (counter : Counter) (number : UInt32) : Prop :=
  counter.next ≤ number ∧ number < counter.limit

/-- A counter that needs a new block finds no reservation above itself. -/
def Counter.Current (counter : Counter) (cell : UInt32) : Prop :=
  counter.atLimit → cell ≤ counter.next

instance (counter : Counter) (cell : UInt32) : Decidable (counter.Current cell) :=
  inferInstanceAs (Decidable (_ → _))

variable {Index : Type*} {bound : Index → Prop} {counters : Index → Counter}

/-- The blocks of the counters bound to the cell are durable, hold nothing that
was issued, and do not overlap. -/
structure Shared (cell : UInt32) (bound : Index → Prop) (counters : Index → Counter)
    (issued : List UInt32) : Prop where
  durable : ∀ index, bound index → (counters index).limit ≤ cell
  behind : Behind cell issued
  unissued : ∀ index, bound index → ∀ number ∈ issued, ¬ (counters index).Holds number
  exclusive : ∀ left right, bound left → bound right → left ≠ right →
    ∀ number, (counters left).Holds number → ¬ (counters right).Holds number
  nodup : issued.Nodup

theorem not_holds_resume {cell number : UInt32} : ¬ (resume cell).Holds number := by
  unfold Counter.Holds resume
  grind

/-- Counters that are loaded from the cell hold nothing, and the others stay. -/
theorem Shared.reload (hshared : Shared cell bound counters issued)
    {bound' : Index → Prop} {counters' : Index → Counter}
    (hreload : ∀ index, bound' index →
      (bound index ∧ counters' index = counters index) ∨
        counters' index = resume cell) :
    Shared cell bound' counters' issued where
  durable index hbound := by
    rcases hreload index hbound with ⟨hold, hsame⟩ | hload
    · exact hsame ▸ hshared.durable index hold
    · exact hload ▸ UInt32.le_refl cell
  behind := hshared.behind
  unissued index hbound number hmem := by
    rcases hreload index hbound with ⟨hold, hsame⟩ | hload
    · exact hsame ▸ hshared.unissued index hold number hmem
    · exact hload ▸ not_holds_resume
  exclusive left right hleft hright hne number := by
    rcases hreload left hleft with ⟨hleft', hsame⟩ | hload
    · rcases hreload right hright with ⟨hright', hsame'⟩ | hload'
      · rw [hsame, hsame']
        exact hshared.exclusive left right hleft' hright' hne number
      · exact fun _ => hload' ▸ not_holds_resume
    · exact fun hholds => absurd (hload ▸ hholds) not_holds_resume
  nodup := hshared.nodup

/-- Every counter loaded from a cell above all that was issued. -/
theorem shared_resume (hbehind : Behind cell issued) (hnodup : issued.Nodup)
    (hload : ∀ index, bound index → counters index = resume cell) :
    Shared cell bound counters issued where
  durable index hbound := hload index hbound ▸ UInt32.le_refl cell
  behind := hbehind
  unissued index hbound _ _ := hload index hbound ▸ not_holds_resume
  exclusive left _ hleft _ _ _ hholds :=
    absurd (hload left hleft ▸ hholds) not_holds_resume
  nodup := hnodup

/-- A block that lies between the old cell and the new one overlaps no other. -/
theorem Shared.block [DecidableEq Index] (hshared : Shared cell bound counters issued)
    {index : Index} (block : Counter) {cell' : UInt32} (hcell : cell ≤ cell')
    (hlimit : block.limit ≤ cell')
    (hblock : ∀ number, block.Holds number →
      (counters index).Holds number ∨ cell ≤ number) (hbound : bound index) :
    Shared cell' bound (Function.update counters index block) issued where
  durable other hother := by
    by_cases heq : other = index
    · simpa [heq] using hlimit
    · have := hshared.durable other hother
      rw [Function.update_of_ne heq]
      grind
  behind number hmem := by
    have := hshared.behind number hmem
    grind
  unissued other hother number hmem := by
    by_cases heq : other = index
    · subst heq
      rw [Function.update_self]
      intro hholds
      rcases hblock number hholds with hold | hnew
      · exact hshared.unissued other hother number hmem hold
      · have := hshared.behind number hmem
        grind
    · rw [Function.update_of_ne heq]
      exact hshared.unissued other hother number hmem
  exclusive left right hleft hright hne number := by
    have hapart : ∀ other, bound other → other ≠ index → block.Holds number →
        ¬ (counters other).Holds number := by
      intro other hother hdiffer hholds hholds'
      rcases hblock number hholds with hold | hnew
      · exact hshared.exclusive other index hother hbound hdiffer number hholds' hold
      · have := hshared.durable other hother
        unfold Counter.Holds at hholds'
        grind
    by_cases hl : left = index
    · subst hl
      rw [Function.update_self, Function.update_of_ne (Ne.symm hne)]
      exact hapart right hright (Ne.symm hne)
    · rw [Function.update_of_ne hl]
      by_cases hr : right = index
      · subst hr
        rw [Function.update_self]
        exact fun hholds hholds' => hapart left hleft hl hholds' hholds
      · rw [Function.update_of_ne hr]
        exact hshared.exclusive left right hleft hright hne number
  nodup := hshared.nodup

/-- A number that no counter holds and the cell is above may be added. -/
theorem Shared.append (hshared : Shared cell bound counters issued) {number : UInt32}
    (hbehind : number < cell)
    (hholds : ∀ index, bound index → ¬ (counters index).Holds number)
    (hnew : number ∉ issued) :
    Shared cell bound counters (issued ++ [number]) where
  durable := hshared.durable
  behind other hmem := by
    rcases List.mem_append.mp hmem with hold | hlast
    · exact hshared.behind other hold
    · exact List.mem_singleton.mp hlast ▸ hbehind
  unissued index hbound other hmem := by
    rcases List.mem_append.mp hmem with hold | hlast
    · exact hshared.unissued index hbound other hold
    · exact List.mem_singleton.mp hlast ▸ hholds index hbound
  exclusive := hshared.exclusive
  nodup := by
    rw [List.nodup_append]
    refine ⟨hshared.nodup, List.nodup_singleton number, fun other hmem last hlast => ?_⟩
    obtain rfl : last = number := by simpa using hlast
    exact fun heq => hnew (heq ▸ hmem)

/-- A current counter issues a number no counter of the cell has issued. -/
theorem shared_advance [DecidableEq Index] (hreserve : reserve ≤ 0xFFFFFFFE)
    (hshared : Shared cell bound counters issued) {index : Index} (hbound : bound index)
    (hcurrent : (counters index).Current cell) :
    Shared (advance reserve write (counters index) cell).cell bound
      (Function.update counters index (advance reserve write (counters index) cell).counter)
      (issued ++ (advance reserve write (counters index) cell).issued.toList) := by
  have hdurable := hshared.durable index hbound
  rcases advance_cases write (counters index) cell hreserve with
    ⟨hless, heq⟩ | ⟨reserved, hless, hsucc, hlimit, heq⟩ | heq |
      ⟨reserved, hless, hlimit, heq⟩
  · have hholds : (counters index).Holds (counters index).next :=
      ⟨UInt32.le_refl _, hless⟩
    rw [heq]
    refine (hshared.block ⟨(counters index).next + 1, (counters index).limit⟩
      (UInt32.le_refl cell) hdurable (fun number hblock => .inl ?_) hbound).append (by grind)
      (fun other hother => ?_)
      (fun hmem => hshared.unissued index hbound _ hmem hholds)
    · unfold Counter.Holds at hblock ⊢
      grind
    · by_cases hsame : other = index
      · subst hsame
        rw [Function.update_self]
        unfold Counter.Holds
        grind
      · rw [Function.update_of_ne hsame]
        exact hshared.exclusive index other hbound hother (Ne.symm hsame) _ hholds
  · have hcell : cell ≤ (counters index).next := hcurrent hlimit
    rw [heq]
    refine (hshared.block ⟨(counters index).next + 1, reserved⟩ (by grind)
      (UInt32.le_refl reserved) (fun number hblock => .inr ?_) hbound).append hless
      (fun other hother => ?_)
      (fun hmem => ?_)
    · unfold Counter.Holds at hblock
      grind
    · by_cases hsame : other = index
      · subst hsame
        rw [Function.update_self]
        unfold Counter.Holds
        grind
      · rw [Function.update_of_ne hsame]
        have := hshared.durable other hother
        unfold Counter.Holds
        grind
    · have := hshared.behind _ hmem
      grind
  · rw [heq]
    simpa using hshared
  · have hcell : cell ≤ (counters index).next := hcurrent hlimit
    rw [heq]
    have hlimit' : (counters index).limit ≤ reserved := by grind
    have hcell' : cell ≤ reserved := by grind
    simpa using hshared.block (counters index) hcell' hlimit'
      (fun number hold => .inl hold) hbound

end LoraBridge.ReserveAhead
