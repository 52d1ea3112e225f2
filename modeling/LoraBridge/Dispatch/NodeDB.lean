import LoraBridge.Codec.Memory
import LoraBridge.Core.ReserveAhead

/-!
# The node database

`NodeDB.cpp`: the Meshtastic nodes heard of, in RAM and in NVS.  A full table gives up the
entry that was not seen for the longest time.
-/

namespace LoraBridge.NodeDB

open LoraBridge.Memory LoraBridge.ReserveAhead

def MAX_NODES : ℕ := 64

def MAX_SHORT_NAME : ℕ := 8

def MAX_LONG_NAME : ℕ := 40

structure Entry where
  nodeId : UInt32
  lastSeenMs : UInt32
  shortName : List UInt8
  longName : List UInt8
  deriving DecidableEq, Inhabited

/-- The record on flash. -/
structure PersistedEntry where
  nodeId : UInt32
  shortName : List UInt8
  longName : List UInt8
  deriving DecidableEq

/-- `s_table` up to `s_count`. -/
structure Table where
  entries : List Entry
  bounded : entries.length ≤ MAX_NODES

structure State where
  nvs : Option (List PersistedEntry)
  table : Table

/-- `strncpy(dst, src, n); dst[n] = 0`. -/
def strncpy (src : List UInt8) (n : ℕ) : List UInt8 := (cString src).take n

/-- A turn of the loop of `saveToNvs`. -/
def Entry.persisted (entry : Entry) : PersistedEntry :=
  ⟨entry.nodeId, strncpy entry.shortName MAX_SHORT_NAME, strncpy entry.longName MAX_LONG_NAME⟩

/-- `saveToNvs`. -/
def saveToNvs (write : Write) (state : State) : State :=
  { state with nvs := write.apply state.nvs (some (state.table.entries.map Entry.persisted)) }

/-- `begin`: at most `MAX_NODES` of the stored records. -/
def begin (nvs : Option (List PersistedEntry)) : State where
  nvs := nvs
  table :=
    { entries := ((nvs.getD []).take MAX_NODES).map fun stored =>
        ⟨stored.nodeId, 0, strncpy stored.shortName MAX_SHORT_NAME,
          strncpy stored.longName MAX_LONG_NAME⟩
      bounded := by
        rw [List.length_map, List.length_take]
        exact min_le_left _ _ }

/-- Where a node is in the table. -/
def Table.slotOf (table : Table) (nodeId : UInt32) : Option ℕ :=
  table.entries.findIdx? fun entry => entry.nodeId = nodeId

/-- The first of the entries seen the longest time ago, by the clock readings. -/
def Table.oldest (table : Table) : ℕ :=
  (List.range' 1 (table.entries.length - 1)).foldl (fun slot i =>
    if table.entries[i]!.lastSeenMs < table.entries[slot]!.lastSeenMs then i else slot) 0

/-- Overwrite one entry. -/
def Table.put (table : Table) (slot : ℕ) (entry : Entry) : Table where
  entries := table.entries.set slot entry
  bounded := by
    rw [List.length_set]
    exact table.bounded

/-- Into its own slot, behind the others, or over the oldest. -/
def Table.upsert (table : Table) (entry : Entry) : Table :=
  match table.slotOf entry.nodeId with
  | some slot => table.put slot entry
  | none =>
      if hroom : table.entries.length < MAX_NODES then
        { entries := table.entries ++ [entry]
          bounded := by simpa using hroom }
      else table.put table.oldest entry

/-- `upsert`, with the clock reading it makes. -/
def upsert (nodeId : UInt32) (shortName longName : List UInt8) (now : UInt32) (write : Write)
    (state : State) : Bool × State :=
  if nodeId = 0 ∨ nodeId = 0xFFFFFFFF then (false, state)
  else
    let entry : Entry := ⟨nodeId, now, strncpy shortName MAX_SHORT_NAME,
      strncpy longName MAX_LONG_NAME⟩
    (true, saveToNvs write { state with table := state.table.upsert entry })

/-- `lookupShortName`: the name, if the node is known, which counts as seeing it. -/
def lookupShortName (nodeId : UInt32) (outCap : ℕ) (now : UInt32) (state : State) :
    Option (List UInt8) × State :=
  match state.table.slotOf nodeId with
  | none => (none, state)
  | some slot =>
      let entry := state.table.entries[slot]!
      (some (strncpy entry.shortName (outCap - 1)),
        { state with table := state.table.put slot { entry with lastSeenMs := now } })

end LoraBridge.NodeDB
