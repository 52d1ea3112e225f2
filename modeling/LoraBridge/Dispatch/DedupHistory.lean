import LoraBridge.Core.Machine
import LoraBridge.Core.WrapClock
import LoraBridge.Dispatch.DedupCache

/-!
# Histories of the dedup cache

Calls made one after the other, each with the real time of its clock reading.  From the
history alone follows which hashes the table holds and how they are stamped: a hash stays
from its last call until it is evicted, under the reading of that call.
-/

namespace LoraBridge.DedupHistory

open LoraBridge.DedupCache LoraBridge.Machine LoraBridge.WrapClock

inductive Op where
  | seenAndRecord
  | record
  deriving DecidableEq

/-- A call, and the milliseconds since boot when it read the clock. -/
structure Call where
  op : Op
  hash : UInt32
  time : ℕ
  deriving DecidableEq

/-- The call, with the answer if it has one. -/
def step (table : Table) (call : Call) : Table × List Bool :=
  match call.op with
  | .seenAndRecord =>
      let (seen, next) := table.seenAndRecord call.hash (ticks call.time)
      (next, [seen])
  | .record => (table.record call.hash (ticks call.time), [])

/-- The table after `begin()` and these calls. -/
def after (calls : List Call) : Table := (run step .empty calls).1

/-- When the hash was last called with. -/
def lastCall (calls : List Call) (h : UInt32) : Option ℕ :=
  (calls.reverse.find? fun call => call.hash = h).map Call.time

def Holds (table : Table) (h : UInt32) : Prop := ∃ i, holds h (table.slot i) = true

/-- A call that takes a hash out of the table. -/
def Evicts (table : Table) (call : Call) (h : UInt32) : Prop :=
  Holds table h ∧ ¬ Holds (step table call).1 h

/-- Evicted, and not called with since. -/
def Evicted (calls : List Call) (h : UInt32) : Prop :=
  ∃ before call later, calls = before ++ call :: later ∧ Evicts (after before) call h ∧
    ∀ other ∈ later, other.hash ≠ h

/-! ## One call -/

@[simp]
theorem step_table (table : Table) (call : Call) :
    (step table call).1 = table.insert call.hash (ticks call.time) := by
  unfold step
  cases call.op <;> rfl

theorem holds_iff {h : UInt32} {slot : Option Entry} :
    holds h slot = true ↔ ∃ entry, slot = some entry ∧ entry.hash = h := by
  cases slot <;> simp [holds]

/-- After an insertion an entry is the new one, or an old one of another hash. -/
theorem slot_insert {table : Table} {h now : UInt32} {i : Index} {entry : Entry} :
    (table.insert h now).slot i = some entry ↔
      i = table.place h now ∧ entry = ⟨h, now⟩ ∨
      i ≠ table.place h now ∧ entry.hash ≠ h ∧ table.slot i = some entry := by
  by_cases hi : i = table.place h now
  · simp [Table.insert, hi, eq_comm]
  · have hother : table.slot i = some entry → entry.hash ≠ h := by
      intro hslot hhash
      exact hi (table.eq_place (holds_iff.mpr ⟨entry, hslot, hhash⟩))
    simp only [Table.insert, Function.update_of_ne hi, hi, false_and, false_or, not_false_eq_true,
      ne_eq, true_and]
    exact ⟨fun hslot => ⟨hother hslot, hslot⟩, And.right⟩

theorem holds_insert_self (table : Table) (h now : UInt32) : Holds (table.insert h now) h :=
  ⟨table.place h now, holds_iff.mpr ⟨_, slot_insert.mpr (.inl ⟨rfl, rfl⟩), rfl⟩⟩

/-- No other hash comes into the table. -/
theorem holds_of_insert {table : Table} {h h' now : UInt32} (hne : h' ≠ h)
    (hholds : Holds (table.insert h now) h') : Holds table h' := by
  obtain ⟨i, hi⟩ := hholds
  obtain ⟨entry, hslot, rfl⟩ := holds_iff.mp hi
  rcases slot_insert.mp hslot with ⟨-, rfl⟩ | ⟨-, -, hold⟩
  · exact absurd rfl hne
  · exact ⟨i, holds_iff.mpr ⟨entry, hold, rfl⟩⟩

theorem Evicts.ne {table : Table} {call : Call} {h : UInt32} (hevicts : Evicts table call h) :
    call.hash ≠ h := by
  rintro rfl
  refine hevicts.2 ?_
  rw [step_table]
  exact holds_insert_self table call.hash _

/-! ## The table after a history -/

@[simp]
theorem after_nil : after [] = .empty := rfl

theorem after_snoc (calls : List Call) (call : Call) :
    after (calls ++ [call]) = (after calls).insert call.hash (ticks call.time) := by
  unfold after
  rw [run_append]
  exact step_table _ call

@[simp]
theorem lastCall_nil (h : UInt32) : lastCall [] h = none := rfl

theorem lastCall_snoc (calls : List Call) (call : Call) (h : UInt32) :
    lastCall (calls ++ [call]) h = if call.hash = h then some call.time else lastCall calls h := by
  unfold lastCall
  rw [List.reverse_append, List.reverse_singleton, List.singleton_append, List.find?_cons]
  by_cases hhash : call.hash = h
  · simp [hhash]
  · simp [hhash]

/-- The last call is a call. -/
theorem exists_of_lastCall {calls : List Call} {h : UInt32} {time : ℕ}
    (hlast : lastCall calls h = some time) :
    ∃ call ∈ calls, call.hash = h ∧ call.time = time := by
  obtain ⟨call, hfind, rfl⟩ := Option.map_eq_some_iff.mp hlast
  have hmem := List.mem_of_find?_eq_some hfind
  exact ⟨call, List.mem_reverse.mp hmem, by simpa using List.find?_some hfind, rfl⟩

theorem evicted_snoc (calls : List Call) (call : Call) (h : UInt32) :
    Evicted (calls ++ [call]) h ↔
      Evicts (after calls) call h ∨ call.hash ≠ h ∧ Evicted calls h := by
  constructor
  · rintro ⟨before, evictor, later, hsplit, hevicts, hlater⟩
    rcases List.eq_nil_or_concat later with rfl | ⟨rest, last, rfl⟩
    · obtain ⟨rfl, hlast⟩ := List.append_inj' hsplit rfl
      obtain rfl := List.singleton_inj.mp hlast
      exact .inl hevicts
    · rw [List.concat_eq_append, ← List.cons_append, ← List.append_assoc] at hsplit
      obtain ⟨rfl, hlast⟩ := List.append_inj' hsplit rfl
      obtain rfl := List.singleton_inj.mp hlast
      refine .inr ⟨hlater call (by simp), before, evictor, rest, rfl, hevicts, ?_⟩
      exact fun other hother => hlater other (by simp [hother])
  · rintro (hevicts | ⟨hne, before, evictor, later, rfl, hevicts, hlater⟩)
    · exact ⟨calls, call, [], rfl, hevicts, by simp⟩
    · refine ⟨before, evictor, later ++ [call], by simp, hevicts, fun other hother => ?_⟩
      rcases List.mem_append.mp hother with hother | hother
      · exact hlater other hother
      · rwa [List.mem_singleton.mp hother]

/-- The table holds the hashes that were called with and not evicted since. -/
theorem holds_after_iff (calls : List Call) (h : UInt32) :
    Holds (after calls) h ↔ (lastCall calls h).isSome ∧ ¬ Evicted calls h := by
  induction calls using List.reverseRecOn with
  | nil => simp [Holds, holds, Table.empty]
  | append_singleton calls call ih =>
      rw [evicted_snoc, lastCall_snoc, after_snoc]
      by_cases hhash : call.hash = h
      · have hkept : ¬ Evicts (after calls) call h := fun hevicts => hevicts.ne hhash
        have hheld := holds_insert_self (after calls) call.hash (ticks call.time)
        rw [hhash] at hheld
        simp [hhash, hkept, hheld]
      · rw [if_neg hhash]
        simp only [hhash, ne_eq, not_false_eq_true, true_and, Evicts, step_table, not_or,
          not_and, not_not]
        constructor
        · intro hheld
          have hbefore := holds_of_insert (Ne.symm hhash) hheld
          obtain ⟨hcalled, hkept⟩ := ih.mp hbefore
          exact ⟨hcalled, fun _ => hheld, hkept⟩
        · rintro ⟨hcalled, hheld, hkept⟩
          exact hheld (ih.mpr ⟨hcalled, hkept⟩)

/-- An entry carries the reading of the last call with its hash. -/
theorem stamp_after {calls : List Call} {i : Index} {entry : Entry}
    (hslot : (after calls).slot i = some entry) :
    ∃ time, lastCall calls entry.hash = some time ∧ entry.stampMs = ticks time := by
  induction calls using List.reverseRecOn with
  | nil => simp [Table.empty] at hslot
  | append_singleton calls call ih =>
      rw [after_snoc] at hslot
      rw [lastCall_snoc]
      rcases slot_insert.mp hslot with ⟨-, rfl⟩ | ⟨-, hne, hold⟩
      · exact ⟨call.time, if_pos rfl, rfl⟩
      · rw [if_neg (Ne.symm hne)]
        exact ih hold

/-- What `isSeen` finds in a table that a history made. -/
theorem isSeen_after_iff (calls : List Call) (h now : UInt32) :
    (after calls).isSeen h now = true ↔
      ∃ time, lastCall calls h = some time ∧ now - ticks time < BRIDGE_DEDUP_TTL_MS ∧
        ¬ Evicted calls h := by
  rw [Table.isSeen_iff]
  constructor
  · rintro ⟨i, entry, hslot, rfl, hage⟩
    obtain ⟨time, hlast, hstamp⟩ := stamp_after hslot
    have hheld : Holds (after calls) entry.hash := ⟨i, holds_iff.mpr ⟨entry, hslot, rfl⟩⟩
    refine ⟨time, hlast, ?_, ((holds_after_iff calls entry.hash).mp hheld).2⟩
    rwa [Entry.age, hstamp] at hage
  · rintro ⟨time, hlast, hage, hkept⟩
    obtain ⟨i, hi⟩ := (holds_after_iff calls h).mpr ⟨by rw [hlast]; rfl, hkept⟩
    obtain ⟨entry, hslot, rfl⟩ := holds_iff.mp hi
    obtain ⟨time', hlast', hstamp⟩ := stamp_after hslot
    obtain rfl := Option.some.inj (hlast.symm.trans hlast')
    exact ⟨i, entry, hslot, rfl, by rwa [Entry.age, hstamp]⟩

end LoraBridge.DedupHistory
