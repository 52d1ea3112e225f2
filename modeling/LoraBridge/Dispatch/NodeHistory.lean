import LoraBridge.Core.Machine
import LoraBridge.Core.WrapClock
import LoraBridge.Dispatch.NodeDB

/-!
# Histories of the node database

Calls and reboots one after the other, from an empty store.  From the history alone follow the
names in the table, what is stored of them, and when each node was last seen.
-/

namespace LoraBridge.NodeHistory

open LoraBridge.Machine LoraBridge.Memory LoraBridge.NodeDB LoraBridge.ReserveAhead
open LoraBridge.WrapClock

/-- A call with the milliseconds since boot when it read the clock, or a reboot. -/
inductive Op where
  | upsert (nodeId : UInt32) (shortName longName : List UInt8) (time : ℕ) (write : Write)
  | lookup (nodeId : UInt32) (outCap : ℕ) (time : ℕ)
  | reboot
  deriving DecidableEq

/-- The operation, with the answer of a lookup. -/
def step (state : State) : Op → State × List (Option (List UInt8))
  | .upsert nodeId shortName longName time write =>
      ((upsert nodeId shortName longName (ticks time) write state).2, [])
  | .lookup nodeId outCap time =>
      let (name, next) := lookupShortName nodeId outCap (ticks time) state
      (next, [name])
  | .reboot => (begin state.nvs, [])

/-- The database after `begin()` on an empty store and these operations. -/
def after (ops : List Op) : State := (run step (begin none) ops).1

theorem after_nil : after [] = begin none := rfl

theorem after_snoc (ops : List Op) (op : Op) : after (ops ++ [op]) = (step (after ops) op).1 := by
  unfold after
  rw [run_append]
  rfl

/-! ## One operation -/

section Table

variable {table : Table} {entry other : Entry} {nodeId : UInt32} {slot : ℕ}

/-- No two entries have one id. -/
def Unique (entries : List Entry) : Prop := (entries.map Entry.nodeId).Nodup

/-- An id is at one place. -/
theorem Unique.index_eq {entries : List Entry} (hunique : Unique entries) {i j : ℕ}
    (hi : i < entries.length) (hj : j < entries.length)
    (hid : entries[i].nodeId = entries[j].nodeId) : i = j := by
  have hids : (entries.map Entry.nodeId)[i]? = (entries.map Entry.nodeId)[j]? := by
    rw [List.getElem?_map, List.getElem?_map, List.getElem?_eq_getElem hi,
      List.getElem?_eq_getElem hj, Option.map_some, Option.map_some, hid]
  exact (List.getElem?_inj (by simpa using hi) hunique).mp hids

theorem slotOf_eq_some (hslot : table.slotOf nodeId = some slot) :
    ∃ hlt : slot < table.entries.length, table.entries[slot].nodeId = nodeId := by
  obtain ⟨hlt, hid, -⟩ := List.findIdx?_eq_some_iff_getElem.mp hslot
  exact ⟨hlt, of_decide_eq_true hid⟩

theorem slotOf_eq_none_iff :
    table.slotOf nodeId = none ↔ ∀ entry ∈ table.entries, entry.nodeId ≠ nodeId := by
  rw [Table.slotOf, List.findIdx?_eq_none_iff]
  exact forall₂_congr fun entry _ => decide_eq_false_iff_not

/-- What an insertion does to the entries. -/
inductive Upserted (entry : Entry) (before after : List Entry) : Prop
  | updated {slot : ℕ} (hlt : slot < before.length) (hid : before[slot].nodeId = entry.nodeId)
      (hafter : after = before.set slot entry)
  | appended (hnew : ∀ other ∈ before, other.nodeId ≠ entry.nodeId)
      (hroom : before.length < MAX_NODES) (hafter : after = before ++ [entry])
  | evicted {slot : ℕ} (hnew : ∀ other ∈ before, other.nodeId ≠ entry.nodeId)
      (hfull : before.length = MAX_NODES) (hlt : slot < before.length)
      (hafter : after = before.set slot entry)

/-- The loop over the entries keeps the first of those with the smallest reading. -/
theorem foldl_oldest (table : Table) {count : ℕ} (hcount : count < table.entries.length) :
    let slot := (List.range' 1 count).foldl (fun slot i =>
      if table.entries[i]!.lastSeenMs < table.entries[slot]!.lastSeenMs then i else slot) 0
    slot ≤ count ∧
      (∀ i ≤ count, table.entries[slot]!.lastSeenMs ≤ table.entries[i]!.lastSeenMs) ∧
      ∀ i < slot, table.entries[slot]!.lastSeenMs < table.entries[i]!.lastSeenMs := by
  induction count with
  | zero =>
      refine ⟨Nat.le_refl 0, fun i hi => ?_, fun i hi => absurd hi (Nat.not_lt_zero i)⟩
      rw [Nat.le_zero.mp hi]
      exact UInt32.le_refl _
  | succ count ih =>
      obtain ⟨hle, hall, hfirst⟩ := ih (by omega)
      rw [List.range'_1_concat, List.foldl_append, List.foldl_cons, List.foldl_nil,
        Nat.add_comm 1 count]
      dsimp only
      split
      · rename_i hless
        refine ⟨Nat.le_refl _, fun i hi => ?_, fun i hi => ?_⟩
        · rcases Nat.le_succ_iff.mp hi with hi | rfl
          · exact UInt32.le_of_lt (UInt32.lt_of_lt_of_le hless (hall i hi))
          · exact UInt32.le_refl _
        · exact UInt32.lt_of_lt_of_le hless (hall i (Nat.lt_succ_iff.mp hi))
      · rename_i hless
        refine ⟨by omega, fun i hi => ?_, hfirst⟩
        rcases Nat.le_succ_iff.mp hi with hi | rfl
        · exact hall i hi
        · exact UInt32.not_lt.mp hless

/-- The entry that a full table gives up: the first with the smallest reading. -/
theorem oldest_spec (hpos : 0 < table.entries.length) :
    table.oldest < table.entries.length ∧
      (∀ i < table.entries.length,
        table.entries[table.oldest]!.lastSeenMs ≤ table.entries[i]!.lastSeenMs) ∧
      ∀ i < table.oldest,
        table.entries[table.oldest]!.lastSeenMs < table.entries[i]!.lastSeenMs := by
  obtain ⟨hle, hall, hfirst⟩ :=
    foldl_oldest table (by omega : table.entries.length - 1 < table.entries.length)
  exact ⟨Nat.lt_of_le_of_lt hle (by omega), fun i hi => hall i (by omega), hfirst⟩

theorem upserted (table : Table) (entry : Entry) :
    Upserted entry table.entries (table.upsert entry).entries := by
  unfold Table.upsert
  split
  · rename_i slot hslot
    obtain ⟨hlt, hid⟩ := slotOf_eq_some hslot
    exact .updated hlt hid rfl
  · rename_i hnone
    have hnew := slotOf_eq_none_iff.mp hnone
    split
    · exact .appended hnew ‹_› rfl
    · rename_i hfull
      have hlength := table.bounded
      have hpos : 0 < table.entries.length := by
        have hmax : 0 < MAX_NODES := by decide
        omega
      exact .evicted hnew (by omega) (oldest_spec hpos).1 rfl

theorem Upserted.unique {before after : List Entry} (hupserted : Upserted entry before after)
    (hunique : Unique before) : Unique after := by
  have hfresh : (∀ other ∈ before, other.nodeId ≠ entry.nodeId) →
      entry.nodeId ∉ before.map Entry.nodeId := by
    intro hnew hmem
    obtain ⟨other, hother, hid⟩ := List.mem_map.mp hmem
    exact hnew other hother hid
  cases hupserted with
  | updated hlt hid hafter =>
      rename_i slot
      have hsame : (before.set slot entry).map Entry.nodeId = before.map Entry.nodeId := by
        rw [List.map_set, ← hid, ← List.getElem_map (f := Entry.nodeId) (h := by simpa using hlt),
          List.set_getElem_self]
      rw [Unique, hafter, hsame]
      exact hunique
  | appended hnew hroom hafter =>
      rw [Unique, hafter, List.map_append]
      refine List.nodup_append.mpr ⟨hunique, by simp, fun id hid other hother => ?_⟩
      rw [List.map_singleton, List.mem_singleton] at hother
      rintro rfl
      exact hfresh hnew (hother ▸ hid)
  | evicted hnew hfull hlt hafter =>
      rw [Unique, hafter, List.map_set]
      exact hunique.set (hfresh hnew)

/-- Afterwards there is the new entry, and old ones of other ids. -/
theorem Upserted.mem {before after : List Entry} (hupserted : Upserted entry before after)
    (hunique : Unique before) (hmem : other ∈ after) :
    other = entry ∨ other ∈ before ∧ other.nodeId ≠ entry.nodeId := by
  cases hupserted with
  | updated hlt hid hafter =>
      rename_i slot
      obtain ⟨i, hi, hother⟩ := List.getElem_of_mem (hafter ▸ hmem)
      by_cases hslot : slot = i
      · subst hslot
        rw [List.getElem_set_self] at hother
        exact .inl hother.symm
      · rw [List.length_set] at hi
        rw [List.getElem_set_ne hslot] at hother
        refine .inr ⟨hother ▸ List.getElem_mem hi, fun hsame => hslot ?_⟩
        exact hunique.index_eq hlt hi (by rw [hid, hother, hsame])
  | appended hnew hroom hafter =>
      rw [hafter] at hmem
      rcases List.mem_append.mp hmem with hmem | hmem
      · exact .inr ⟨hmem, hnew other hmem⟩
      · exact .inl (List.mem_singleton.mp hmem)
  | evicted hnew hfull hlt hafter =>
      rcases List.mem_or_eq_of_mem_set (hafter ▸ hmem) with hmem | heq
      · exact .inr ⟨hmem, hnew other hmem⟩
      · exact .inl heq

/-- What a lookup does to the entries: the one it finds is seen now. -/
inductive Touched (nodeId now : UInt32) (before after : List Entry) : Prop
  | found {slot : ℕ} (hlt : slot < before.length) (hid : before[slot].nodeId = nodeId)
      (hafter : after = before.set slot { before[slot] with lastSeenMs := now })
  | unknown (hnew : ∀ other ∈ before, other.nodeId ≠ nodeId) (hafter : after = before)

theorem touched (nodeId now : UInt32) (outCap : ℕ) (state : State) :
    Touched nodeId now state.table.entries
      (lookupShortName nodeId outCap now state).2.table.entries := by
  unfold lookupShortName
  split
  · exact .unknown (slotOf_eq_none_iff.mp ‹_›) rfl
  · rename_i slot hslot
    obtain ⟨hlt, hid⟩ := slotOf_eq_some hslot
    refine .found hlt hid ?_
    rw [getElem!_pos state.table.entries slot hlt]
    rfl

/-- A found entry is overwritten by one of its own id. -/
theorem Touched.upserted {now : UInt32} {before after : List Entry}
    (htouched : Touched nodeId now before after) :
    after = before ∧ (∀ other ∈ before, other.nodeId ≠ nodeId) ∨
      ∃ old ∈ before, old.nodeId = nodeId ∧
        Upserted { old with lastSeenMs := now } before after := by
  cases htouched with
  | found hlt hid hafter => exact .inr ⟨_, List.getElem_mem hlt, hid, .updated hlt rfl hafter⟩
  | unknown hnew hafter => exact .inl ⟨hafter, hnew⟩

end Table

/-! ## What follows from the history -/

/-- The names of an upsert of the node. -/
def Op.names (nodeId : UInt32) : Op → Option (List UInt8 × List UInt8)
  | .upsert other shortName longName _ _ =>
      if other = nodeId then some (shortName, longName) else none
  | _ => none

/-- When the operation saw the node. -/
def Op.seen (nodeId : UInt32) : Op → Option ℕ
  | .upsert other _ _ time _ => if other = nodeId then some time else none
  | .lookup other _ time => if other = nodeId then some time else none
  | .reboot => none

/-- The names the node was last upserted with. -/
def lastNames (ops : List Op) (nodeId : UInt32) : Option (List UInt8 × List UInt8) :=
  ops.reverse.findSome? (Op.names nodeId)

/-- When the node was last upserted or looked up since boot. -/
def lastSeen (ops : List Op) (nodeId : UInt32) : Option ℕ :=
  (ops.reverse.takeWhile (· ≠ .reboot)).findSome? (Op.seen nodeId)

theorem lastNames_snoc (ops : List Op) (op : Op) (nodeId : UInt32) :
    lastNames (ops ++ [op]) nodeId = (op.names nodeId).or (lastNames ops nodeId) := by
  rw [lastNames, List.reverse_append, List.reverse_singleton, List.singleton_append,
    List.findSome?_cons]
  cases op.names nodeId <;> rfl

theorem lastSeen_reboot (ops : List Op) (nodeId : UInt32) :
    lastSeen (ops ++ [.reboot]) nodeId = none := by
  rw [lastSeen, List.reverse_append, List.reverse_singleton, List.singleton_append,
    List.takeWhile_cons_of_neg (by simp)]
  rfl

theorem lastSeen_snoc (ops : List Op) {op : Op} (hop : op ≠ .reboot) (nodeId : UInt32) :
    lastSeen (ops ++ [op]) nodeId = (op.seen nodeId).or (lastSeen ops nodeId) := by
  rw [lastSeen, List.reverse_append, List.reverse_singleton, List.singleton_append,
    List.takeWhile_cons_of_pos (by simpa using hop), List.findSome?_cons]
  cases op.seen nodeId <;> rfl

/-! ## Unique ids -/

/-- Ids are unique and not reserved, in RAM and in the store. -/
structure Distinct (state : State) : Prop where
  unique : Unique state.table.entries
  stored : ((state.nvs.getD []).map PersistedEntry.nodeId).Nodup
  good : ∀ entry ∈ state.table.entries, entry.nodeId ≠ 0 ∧ entry.nodeId ≠ 0xFFFFFFFF
  stored_good : ∀ entry ∈ state.nvs.getD [], entry.nodeId ≠ 0 ∧ entry.nodeId ≠ 0xFFFFFFFF

theorem map_nodeId_persisted (entries : List Entry) :
    (entries.map Entry.persisted).map PersistedEntry.nodeId = entries.map Entry.nodeId := by
  rw [List.map_map]
  rfl

/-- What is written is the table, or the store stays. -/
theorem nvs_saveToNvs (write : Write) (state : State) :
    (saveToNvs write state).nvs = some (state.table.entries.map Entry.persisted) ∨
      (saveToNvs write state).nvs = state.nvs := by
  exact write.apply_of (motive := fun nvs =>
    nvs = some (state.table.entries.map Entry.persisted) ∨ nvs = state.nvs) (.inr rfl) (.inl rfl)

theorem distinct_saveToNvs {state : State} (write : Write) (hunique : Unique state.table.entries)
    (hstored : ((state.nvs.getD []).map PersistedEntry.nodeId).Nodup)
    (hgood : ∀ entry ∈ state.table.entries, entry.nodeId ≠ 0 ∧ entry.nodeId ≠ 0xFFFFFFFF)
    (hstored_good : ∀ entry ∈ state.nvs.getD [], entry.nodeId ≠ 0 ∧ entry.nodeId ≠ 0xFFFFFFFF) :
    Distinct (saveToNvs write state) := by
  refine ⟨hunique, ?_, hgood, fun stored hmem => ?_⟩
  · rcases nvs_saveToNvs write state with hnvs | hnvs
    · rw [hnvs, Option.getD_some, map_nodeId_persisted]
      exact hunique
    · rw [hnvs]
      exact hstored
  · rcases nvs_saveToNvs write state with hnvs | hnvs
    · rw [hnvs, Option.getD_some] at hmem
      obtain ⟨entry, hentry, rfl⟩ := List.mem_map.mp hmem
      exact hgood entry hentry
    · rw [hnvs] at hmem
      exact hstored_good stored hmem

theorem distinct_begin {nvs : Option (List PersistedEntry)}
    (hstored : ((nvs.getD []).map PersistedEntry.nodeId).Nodup)
    (hgood : ∀ entry ∈ nvs.getD [], entry.nodeId ≠ 0 ∧ entry.nodeId ≠ 0xFFFFFFFF) :
    Distinct (begin nvs) := by
  refine ⟨?_, hstored, fun entry hmem => ?_, hgood⟩
  · rw [Unique, begin, List.map_map]
    exact hstored.sublist ((List.take_sublist _ _).map PersistedEntry.nodeId)
  · obtain ⟨stored, hrecord, rfl⟩ := List.mem_map.mp hmem
    exact hgood stored (List.mem_of_mem_take hrecord)

theorem distinct_step {state : State} (hdistinct : Distinct state) (op : Op) :
    Distinct (step state op).1 := by
  cases op with
  | upsert nodeId shortName longName time write =>
      rw [step, upsert]
      split
      · exact hdistinct
      · rename_i hreserved
        have hupserted := upserted state.table ⟨nodeId, ticks time,
          strncpy shortName MAX_SHORT_NAME, strncpy longName MAX_LONG_NAME⟩
        refine distinct_saveToNvs write (hupserted.unique hdistinct.unique) hdistinct.stored
          (fun entry hmem => ?_) hdistinct.stored_good
        rcases hupserted.mem hdistinct.unique hmem with rfl | ⟨hold, -⟩
        · exact not_or.mp hreserved
        · exact hdistinct.good entry hold
  | lookup nodeId outCap time =>
      have hnvs : (lookupShortName nodeId outCap (ticks time) state).2.nvs = state.nvs := by
        unfold lookupShortName
        split <;> rfl
      rcases (touched nodeId (ticks time) outCap state).upserted with
        ⟨hsame, -⟩ | ⟨old, hold, -, hupserted⟩
      · refine ⟨?_, hnvs ▸ hdistinct.stored, ?_, hnvs ▸ hdistinct.stored_good⟩
        · exact hsame ▸ hdistinct.unique
        · exact hsame ▸ hdistinct.good
      · refine ⟨hupserted.unique hdistinct.unique, hnvs ▸ hdistinct.stored,
          fun entry hmem => ?_, hnvs ▸ hdistinct.stored_good⟩
        rcases hupserted.mem hdistinct.unique hmem with rfl | ⟨hother, -⟩
        · exact hdistinct.good old hold
        · exact hdistinct.good entry hother
  | reboot => exact distinct_begin hdistinct.stored hdistinct.stored_good

theorem distinct_after (ops : List Op) : Distinct (after ops) := by
  induction ops using List.reverseRecOn with
  | nil => exact distinct_begin List.nodup_nil fun _ hmem => absurd hmem List.not_mem_nil
  | append_singleton ops op ih =>
      rw [after_snoc]
      exact distinct_step ih op

end LoraBridge.NodeHistory
