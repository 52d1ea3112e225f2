import Mathlib.Data.List.TakeWhile
import Mathlib.Tactic

/-!
# Edits up to the first error

A form handler visits the slots of a table in turn, and each visit either rejects the form
or overwrites the slot.  A form that is rejected at one slot has already changed the slots
before it.
-/

namespace LoraBridge.SlotEdits

variable {Index Value Error : Type}

/-- Edit the slots in turn, up to the first error. -/
def editAll [DecidableEq Index] (edit : Index → Value → Except Error Value) :
    List Index → (Index → Value) → (Index → Value) × Option Error
  | [], table => (table, none)
  | i :: rest, table =>
      match edit i (table i) with
      | .ok value => editAll edit rest (Function.update table i value)
      | .error message => (table, some message)

/-- The error of an edit. -/
def errorOf : Except Error Value → Option Error
  | .ok _ => none
  | .error message => some message

/-- The slots in front of the first error. -/
def reached (edit : Index → Value → Except Error Value) (table : Index → Value)
    (slots : List Index) : List Index :=
  slots.takeWhile fun i => (errorOf (edit i (table i))).isNone

/-- A slot behind its own edit, if that is accepted. -/
def edited (edit : Index → Value → Except Error Value) (table : Index → Value) (i : Index) :
    Value :=
  match edit i (table i) with
  | .ok value => value
  | .error _ => table i

section Edits

variable {edit : Index → Value → Except Error Value} {table : Index → Value}
  {slots : List Index}

theorem reached_cons_ok {i : Index} {value : Value} (hok : edit i (table i) = .ok value) :
    reached edit table (i :: slots) = i :: reached edit table slots := by
  rw [reached, List.takeWhile_cons_of_pos (by rw [hok]; rfl)]
  rfl

theorem reached_cons_error {i : Index} {message : Error}
    (herror : edit i (table i) = .error message) :
    reached edit table (i :: slots) = [] := by
  rw [reached, List.takeWhile_cons_of_neg (by rw [herror]; simp [errorOf])]

variable [DecidableEq Index]

/-- An edit of another slot does not change how far the edits go. -/
theorem reached_update {i : Index} (hi : i ∉ slots) (value : Value) :
    reached edit (Function.update table i value) slots = reached edit table slots := by
  induction slots with
  | nil => rfl
  | cons j rest ih =>
      have hj : j ≠ i := fun hji => hi (hji ▸ List.mem_cons_self)
      have hrest := ih fun hmem => hi (List.mem_cons_of_mem j hmem)
      simp only [reached, List.takeWhile_cons, Function.update_of_ne hj] at hrest ⊢
      rw [hrest]

theorem firstError_update {i : Index} (hi : i ∉ slots) (value : Value) :
    (slots.findSome? fun j => errorOf (edit j (Function.update table i value j))) =
      slots.findSome? fun j => errorOf (edit j (table j)) := by
  induction slots with
  | nil => rfl
  | cons j rest ih =>
      have hj : j ≠ i := fun hji => hi (hji ▸ List.mem_cons_self)
      rw [List.findSome?_cons, List.findSome?_cons, Function.update_of_ne hj,
        ih fun hmem => hi (List.mem_cons_of_mem j hmem)]

/-- What the edits leave: each reached slot behind its own edit, the others as they were. -/
theorem editAll_table (hnodup : slots.Nodup) :
    (editAll edit slots table).1 = fun i =>
      if i ∈ reached edit table slots then edited edit table i else table i := by
  induction slots generalizing table with
  | nil =>
      funext i
      simp [editAll, reached]
  | cons i rest ih =>
      obtain ⟨hi, hrest⟩ := List.nodup_cons.mp hnodup
      cases hedit : edit i (table i) with
      | error message =>
          funext j
          simp [editAll, hedit, reached_cons_error hedit]
      | ok value =>
          funext j
          rw [reached_cons_ok hedit]
          simp only [editAll, hedit, ih hrest, reached_update hi, List.mem_cons]
          by_cases hj : j = i
          · subst hj
            have hout : j ∉ reached edit table rest :=
              fun hmem => hi (List.takeWhile_subset _ hmem)
            simp [edited, hedit, hout]
          · simp [edited, hj]

theorem editAll_error (hnodup : slots.Nodup) :
    (editAll edit slots table).2 = slots.findSome? fun i => errorOf (edit i (table i)) := by
  induction slots generalizing table with
  | nil => rfl
  | cons i rest ih =>
      obtain ⟨hi, hrest⟩ := List.nodup_cons.mp hnodup
      cases hedit : edit i (table i) with
      | error message => simp [editAll, hedit, errorOf]
      | ok value =>
          simp only [editAll, hedit, ih hrest, List.findSome?_cons, firstError_update hi]
          rfl

/-- The table is as it was exactly when each reached slot was given the value it had. -/
theorem editAll_eq_self_iff (hnodup : slots.Nodup) :
    (editAll edit slots table).1 = table ↔
      ∀ i ∈ reached edit table slots, edit i (table i) = .ok (table i) := by
  rw [editAll_table hnodup, funext_iff]
  refine forall_congr' fun i => ?_
  by_cases hi : i ∈ reached edit table slots
  · have hok := List.mem_takeWhile_imp hi
    simp only [hi, if_true, true_imp_iff, edited]
    cases hedit : edit i (table i) with
    | error message =>
        rw [hedit] at hok
        cases hok
    | ok value => simp
  · simp [hi]

/-- Without an error, each slot holds what its edit made of it. -/
theorem edit_eq_ok_of_none (hnodup : slots.Nodup) {after : Index → Value}
    (hdone : editAll edit slots table = (after, none)) {i : Index} (hi : i ∈ slots) :
    edit i (table i) = .ok (after i) := by
  have hnone : (editAll edit slots table).2 = slots.findSome? fun j => errorOf (edit j (table j)) :=
    editAll_error hnodup
  rw [hdone] at hnone
  have herrors := List.findSome?_eq_none_iff.mp hnone.symm
  have hall : reached edit table slots = slots :=
    List.takeWhile_eq_self_iff.mpr fun j hj => by rw [herrors j hj]; rfl
  have htable : (editAll edit slots table).1 i = _ := congrFun (editAll_table hnodup) i
  rw [hdone, hall, if_pos hi, edited] at htable
  have hslot := herrors i hi
  cases hedit : edit i (table i) with
  | error message =>
      rw [hedit] at hslot
      cases hslot
  | ok value =>
      rw [hedit] at htable
      exact congrArg Except.ok htable.symm

theorem errorOf_eq_none_iff {result : Except Error Value} :
    errorOf result = none ↔ ∃ value, result = .ok value := by
  cases result with
  | ok value => exact iff_of_true rfl ⟨value, rfl⟩
  | error message => simp [errorOf]

theorem editAll_none_iff (hnodup : slots.Nodup) :
    (editAll edit slots table).2 = none ↔ ∀ i ∈ slots, ∃ value, edit i (table i) = .ok value := by
  rw [editAll_error hnodup, List.findSome?_eq_none_iff]
  exact forall₂_congr fun i _ => errorOf_eq_none_iff

/-- All edits are accepted and nothing changes exactly when each slot is given the value it
had. -/
theorem editAll_eq_none_iff (hnodup : slots.Nodup) :
    editAll edit slots table = (table, none) ↔
      ∀ i ∈ slots, edit i (table i) = .ok (table i) := by
  rw [Prod.ext_iff, editAll_error hnodup, List.findSome?_eq_none_iff,
    editAll_eq_self_iff hnodup]
  constructor
  · rintro ⟨hsame, hnone⟩ i hi
    refine hsame i ?_
    have hall : reached edit table slots = slots :=
      List.takeWhile_eq_self_iff.mpr fun j hj => by rw [hnone j hj]; rfl
    rwa [hall]
  · intro hall
    refine ⟨fun i hi => hall i (List.takeWhile_subset _ hi), fun i hi => ?_⟩
    rw [hall i hi]
    rfl

/-- Without an error, every slot is behind its own edit. -/
theorem editAll_eq_edited (hnodup : slots.Nodup) (hall : ∀ i, i ∈ slots)
    (hnone : (editAll edit slots table).2 = none) :
    (editAll edit slots table).1 = edited edit table := by
  funext i
  have hok := edit_eq_ok_of_none hnodup (Prod.ext rfl hnone) (hall i)
  rw [edited, hok]

end Edits

/-- Of slots in ascending order, those are reached up to which all are accepted. -/
theorem mem_reached_iff [LinearOrder Index] {edit : Index → Value → Except Error Value}
    {table : Index → Value} {slots : List Index} (hsorted : slots.Pairwise (· < ·)) {i : Index} :
    i ∈ reached edit table slots ↔
      i ∈ slots ∧ ∀ j ∈ slots, j ≤ i → ∃ value, edit j (table j) = .ok value := by
  induction slots with
  | nil => simp [reached]
  | cons head rest ih =>
      obtain ⟨hhead, hrest⟩ := List.pairwise_cons.mp hsorted
      cases hedit : edit head (table head) with
      | error message =>
          rw [reached_cons_error hedit]
          refine iff_of_false List.not_mem_nil ?_
          rintro ⟨hi, hall⟩
          have hle : head ≤ i := by
            rcases List.mem_cons.mp hi with rfl | hmem
            · exact le_rfl
            · exact (hhead i hmem).le
          obtain ⟨value, hvalue⟩ := hall head List.mem_cons_self hle
          rw [hedit] at hvalue
          cases hvalue
      | ok value =>
          rw [reached_cons_ok hedit, List.mem_cons, ih hrest]
          constructor
          · rintro (rfl | ⟨hi, hall⟩)
            · refine ⟨List.mem_cons_self, fun j hj hle => ?_⟩
              rcases List.mem_cons.mp hj with rfl | hmem
              · exact ⟨value, hedit⟩
              · exact absurd (hhead j hmem) hle.not_gt
            · refine ⟨List.mem_cons_of_mem head hi, fun j hj hle => ?_⟩
              rcases List.mem_cons.mp hj with rfl | hmem
              · exact ⟨value, hedit⟩
              · exact hall j hmem hle
          · rintro ⟨hi, hall⟩
            rcases List.mem_cons.mp hi with rfl | hmem
            · exact .inl rfl
            · exact .inr ⟨hmem, fun j hj => hall j (List.mem_cons_of_mem head hj)⟩

theorem mem_reached_finRange_iff {n : ℕ} {edit : Fin n → Value → Except Error Value}
    {table : Fin n → Value} {i : Fin n} :
    i ∈ reached edit table (List.finRange n) ↔
      ∀ j ≤ i, ∃ value, edit j (table j) = .ok value := by
  rw [mem_reached_iff (List.sortedLT_finRange n).pairwise]
  constructor
  · rintro ⟨-, hall⟩ j hle
    exact hall j (List.mem_finRange j) hle
  · intro hall
    exact ⟨List.mem_finRange i, fun j _ hle => hall j hle⟩

end LoraBridge.SlotEdits
