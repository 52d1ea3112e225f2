import LoraBridge.Core.CharArray
import LoraBridge.Dispatch.NodeHistory

/-!
# The node database as a map

While its writes reach the store, the database maps ids to the names they were last upserted
with, cut to their arrays, over any number of reboots.
-/

namespace LoraBridge.NodeMap

open LoraBridge.Memory LoraBridge.NodeDB LoraBridge.NodeHistory LoraBridge.ReserveAhead

/-- The write of the operation, if it makes one, reaches the store. -/
def Op.Stores : Op → Prop
  | .upsert _ _ _ _ write => write = .confirmed
  | _ => True

/-- The names of the table are those of the history, and the store holds the table. -/
structure Mirrors (ops : List Op) (state : State) : Prop where
  names : ∀ entry ∈ state.table.entries, ∃ shortName longName,
    lastNames ops entry.nodeId = some (shortName, longName) ∧
      entry.shortName = strncpy shortName MAX_SHORT_NAME ∧
      entry.longName = strncpy longName MAX_LONG_NAME
  stored : state.nvs.getD [] = state.table.entries.map Entry.persisted

/-- A cut name is not cut again. -/
theorem strncpy_strncpy (name : List UInt8) (n : ℕ) :
    strncpy (strncpy name n) n = strncpy name n := by
  have hplain : 0 ∉ (cString name).take n := fun hmem =>
    CharArray.notMem_cString name (List.mem_of_mem_take hmem)
  rw [strncpy, strncpy, CharArray.cString_of_notMem hplain, List.take_take, Nat.min_self]

section Mirrors

variable {ops : List Op} {state : State}

/-- The same names, and no entry was seen. -/
def unseen (entry : Entry) : Entry := { entry with lastSeenMs := 0 }

/-- What `begin` makes of a record. -/
def restored (stored : PersistedEntry) : Entry :=
  ⟨stored.nodeId, 0, strncpy stored.shortName MAX_SHORT_NAME,
    strncpy stored.longName MAX_LONG_NAME⟩

/-- A reboot brings the same entries back. -/
theorem Mirrors.reboot (hmirrors : Mirrors ops state) :
    (begin state.nvs).table.entries = state.table.entries.map unseen := by
  have hlength : (state.table.entries.map Entry.persisted).length ≤ MAX_NODES := by
    rw [List.length_map]
    exact state.table.bounded
  calc (begin state.nvs).table.entries
      = ((state.nvs.getD []).take MAX_NODES).map restored := rfl
    _ = (state.table.entries.map Entry.persisted).map restored := by
      rw [hmirrors.stored, List.take_of_length_le hlength]
    _ = state.table.entries.map unseen := by
      rw [List.map_map]
      refine List.map_congr_left fun entry hmem => ?_
      obtain ⟨shortName, longName, -, hshort, hlong⟩ := hmirrors.names entry hmem
      simp only [Function.comp_apply, restored, Entry.persisted, unseen, hshort, hlong,
        strncpy_strncpy]

/-- Entries that keep their id and names keep to the history. -/
theorem Mirrors.of_old {op : Op} {old entry : Entry} (hmirrors : Mirrors ops state)
    (hold : old ∈ state.table.entries) (hid : entry.nodeId = old.nodeId)
    (hshort : entry.shortName = old.shortName) (hlong : entry.longName = old.longName)
    (hnames : op.names entry.nodeId = none) :
    ∃ shortName longName, lastNames (ops ++ [op]) entry.nodeId = some (shortName, longName) ∧
      entry.shortName = strncpy shortName MAX_SHORT_NAME ∧
      entry.longName = strncpy longName MAX_LONG_NAME := by
  obtain ⟨shortName, longName, hlast, hshort', hlong'⟩ := hmirrors.names old hold
  refine ⟨shortName, longName, ?_, hshort.trans hshort', hlong.trans hlong'⟩
  rw [lastNames_snoc, hnames, Option.none_or, hid, hlast]

theorem mirrors_upsert (hmirrors : Mirrors ops state) (hdistinct : Distinct state)
    (nodeId : UInt32) (shortName longName : List UInt8) (time : ℕ) :
    Mirrors (ops ++ [.upsert nodeId shortName longName time .confirmed])
      (step state (.upsert nodeId shortName longName time .confirmed)).1 := by
  rw [step, upsert]
  split
  · rename_i hreserved
    refine ⟨fun entry hmem => hmirrors.of_old hmem rfl rfl rfl (if_neg ?_), hmirrors.stored⟩
    rintro rfl
    exact (not_or.mpr (hdistinct.good entry hmem)) hreserved
  · have hupserted := upserted state.table ⟨nodeId, WrapClock.ticks time,
      strncpy shortName MAX_SHORT_NAME, strncpy longName MAX_LONG_NAME⟩
    refine ⟨fun entry hmem => ?_, rfl⟩
    rcases hupserted.mem hdistinct.unique hmem with rfl | ⟨hold, hother⟩
    · refine ⟨shortName, longName, ?_, rfl, rfl⟩
      rw [lastNames_snoc, Op.names, if_pos rfl, Option.some_or]
    · exact hmirrors.of_old hold rfl rfl rfl (if_neg (Ne.symm hother))

/-- A lookup moves a stamp, which is not stored. -/
theorem mirrors_lookup (hmirrors : Mirrors ops state) (nodeId : UInt32) (outCap time : ℕ) :
    Mirrors (ops ++ [.lookup nodeId outCap time])
      (step state (.lookup nodeId outCap time)).1 := by
  have hnvs : (lookupShortName nodeId outCap (WrapClock.ticks time) state).2.nvs = state.nvs := by
    unfold lookupShortName
    split <;> rfl
  have hstored := hmirrors.stored
  rw [← hnvs] at hstored
  cases touched nodeId (WrapClock.ticks time) outCap state with
  | found hlt hid hafter =>
      rename_i slot
      refine ⟨fun entry hmem => ?_, hstored.trans ?_⟩
      · rcases List.mem_or_eq_of_mem_set (hafter ▸ hmem) with hold | rfl
        · exact hmirrors.of_old hold rfl rfl rfl rfl
        · exact hmirrors.of_old (List.getElem_mem hlt) rfl rfl rfl rfl
      · have hsame : Entry.persisted { state.table.entries[slot] with
            lastSeenMs := WrapClock.ticks time } = state.table.entries[slot].persisted := rfl
        rw [step, hafter, List.map_set, hsame,
          ← List.getElem_map (f := Entry.persisted) (h := by simpa using hlt),
          List.set_getElem_self]
  | unknown hnew hafter =>
      refine ⟨fun entry hmem => ?_, hstored.trans (by rw [step, hafter])⟩
      exact hmirrors.of_old (hafter ▸ hmem) rfl rfl rfl rfl

theorem mirrors_reboot (hmirrors : Mirrors ops state) :
    Mirrors (ops ++ [.reboot]) (step state .reboot).1 := by
  have hreboot := hmirrors.reboot
  refine ⟨fun entry hmem => ?_, ?_⟩
  · obtain ⟨old, hold, rfl⟩ := List.mem_map.mp (hreboot ▸ hmem)
    exact hmirrors.of_old hold rfl rfl rfl rfl
  · rw [step, hreboot, List.map_map]
    exact hmirrors.stored

theorem mirrors_after (hstores : ∀ op ∈ ops, Op.Stores op) : Mirrors ops (after ops) := by
  induction ops using List.reverseRecOn with
  | nil => exact ⟨fun _ hmem => absurd hmem List.not_mem_nil, rfl⟩
  | append_singleton ops op ih =>
      have hmirrors := ih fun other hmem => hstores other (List.mem_append_left _ hmem)
      have hstored := hstores op (by simp)
      rw [after_snoc]
      cases op with
      | upsert nodeId shortName longName time write =>
          obtain rfl : write = .confirmed := hstored
          exact mirrors_upsert hmirrors (distinct_after ops) nodeId shortName longName time
      | lookup nodeId outCap time => exact mirrors_lookup hmirrors nodeId outCap time
      | reboot => exact mirrors_reboot hmirrors

end Mirrors

/-- What the portal and the dispatcher can see of an entry. -/
def identity (entry : Entry) : UInt32 × List UInt8 × List UInt8 :=
  (entry.nodeId, entry.shortName, entry.longName)

/-- What a lookup returns: the short name of a node in the table. -/
theorem result_lookup {nodeId : UInt32} (outCap : ℕ) (now : UInt32) {state : State}
    (hunique : Unique state.table.entries) :
    (∀ entry ∈ state.table.entries, entry.nodeId = nodeId →
      (lookupShortName nodeId outCap now state).1 =
        some (strncpy entry.shortName (outCap - 1))) ∧
      ((∀ entry ∈ state.table.entries, entry.nodeId ≠ nodeId) →
        (lookupShortName nodeId outCap now state).1 = none) := by
  unfold lookupShortName
  split
  · rename_i hnone
    have hnew := slotOf_eq_none_iff.mp hnone
    exact ⟨fun entry hmem hid => absurd hid (hnew entry hmem), fun _ => rfl⟩
  · rename_i slot hslot
    obtain ⟨hlt, hid⟩ := slotOf_eq_some hslot
    refine ⟨fun entry hmem hid' => ?_, fun hnew => ?_⟩
    · obtain ⟨i, hi, rfl⟩ := List.getElem_of_mem hmem
      obtain rfl := hunique.index_eq hlt hi (hid.trans hid'.symm)
      dsimp only
      rw [getElem!_pos state.table.entries slot hlt]
    · exact absurd hid (hnew _ (List.getElem_mem hlt))

/-- After every sequence of upserts, lookups and reboots whose writes reach the store: the table
holds at most `MAX_NODES` entries with ids of their own, none of them reserved; an upsert
overwrites the entry of its id, or is appended, or replaces one entry of a full table; a lookup
returns the short name the node was last upserted with and moves nothing but a stamp; and a
reboot brings back the ids and names as they are. -/
theorem bounded_persistent_map (ops : List Op) (hstores : ∀ op ∈ ops, Op.Stores op) :
    let state := after ops
    (Unique state.table.entries ∧
        (∀ entry ∈ state.table.entries, entry.nodeId ≠ 0 ∧ entry.nodeId ≠ 0xFFFFFFFF) ∧
        state.table.entries.length ≤ MAX_NODES) ∧
      (∀ nodeId shortName longName now write,
        let upserted := upsert nodeId shortName longName now write state
        if nodeId = 0 ∨ nodeId = 0xFFFFFFFF then upserted = (false, state)
        else upserted.1 = true ∧ Upserted ⟨nodeId, now, strncpy shortName MAX_SHORT_NAME,
          strncpy longName MAX_LONG_NAME⟩ state.table.entries upserted.2.table.entries) ∧
      (∀ nodeId outCap now,
        let looked := lookupShortName nodeId outCap now state
        Touched nodeId now state.table.entries looked.2.table.entries ∧
          (∀ entry ∈ state.table.entries, entry.nodeId = nodeId →
            ∃ shortName longName, lastNames ops nodeId = some (shortName, longName) ∧
              looked.1 = some (strncpy (strncpy shortName MAX_SHORT_NAME) (outCap - 1))) ∧
          ((∀ entry ∈ state.table.entries, entry.nodeId ≠ nodeId) → looked.1 = none)) ∧
      (begin state.nvs).table.entries.map identity = state.table.entries.map identity := by
  intro state
  have hdistinct : Distinct state := distinct_after ops
  have hmirrors : Mirrors ops state := mirrors_after hstores
  refine ⟨⟨hdistinct.unique, hdistinct.good, state.table.bounded⟩, ?_, ?_, ?_⟩
  · intro nodeId shortName longName now write
    rw [upsert]
    split
    · rfl
    · exact ⟨rfl, upserted state.table _⟩
  · intro nodeId outCap now
    obtain ⟨hknown, hunknown⟩ := @result_lookup nodeId outCap now state hdistinct.unique
    refine ⟨touched nodeId now outCap state, fun entry hmem hid => ?_, hunknown⟩
    obtain ⟨shortName, longName, hlast, hshort, -⟩ := hmirrors.names entry hmem
    rw [hid] at hlast
    exact ⟨shortName, longName, hlast, hshort ▸ hknown entry hmem hid⟩
  · rw [hmirrors.reboot, List.map_map]
    rfl

/-- "Alice", a reboot, and a lookup. -/
def aliceOps : List Op :=
  [.upsert 7 [0x41, 0x6C, 0x69, 0x63, 0x65] [] 1000 .confirmed, .reboot, .lookup 7 9 50]

/-- "Alic" for an array of five. -/
theorem alice_looked_up :
    (lookupShortName 7 5 60 (after aliceOps)).1 = some [0x41, 0x6C, 0x69, 0x63] := by
  have hstores : ∀ op ∈ aliceOps, Op.Stores op := by
    simp [aliceOps, Op.Stores]
  obtain ⟨-, -, hlookup, -⟩ := bounded_persistent_map aliceOps hstores
  obtain ⟨-, hknown, -⟩ := hlookup 7 5 60
  have hmem : (⟨7, 50, [0x41, 0x6C, 0x69, 0x63, 0x65], []⟩ : Entry) ∈
      (after aliceOps).table.entries := by
    decide +kernel
  obtain ⟨shortName, longName, hlast, hresult⟩ := hknown _ hmem rfl
  have hname : lastNames aliceOps 7 = some ([0x41, 0x6C, 0x69, 0x63, 0x65], []) := by
    decide +kernel
  obtain ⟨rfl, -⟩ := Prod.mk.inj (Option.some.inj (hname.symm.trans hlast))
  exact hresult

end LoraBridge.NodeMap
