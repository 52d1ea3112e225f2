import LoraBridge.Dispatch.DedupCache

/-!
# Virtual nodes

`VirtualNodeMap.cpp`: the Meshtastic node ids that stand for MeshCore senders, and when
each was last advertised.
-/

namespace LoraBridge.VirtualNodeMap

open LoraBridge.DedupCache

def BRIDGE_VIRT_NODES_MAX : ℕ := 32

def BRIDGE_VIRT_NODEINFO_PERIOD_MS : UInt32 := 900000

/-- A used slot; the stamp 0 stands for "never advertised". -/
structure Entry where
  id : UInt32
  lastNodeInfoMs : UInt32
  deriving DecidableEq

abbrev Index := Fin BRIDGE_VIRT_NODES_MAX

abbrev Table := Index → Option Entry

def Table.empty : Table := fun _ => none

/-- The ids Meshtastic keeps for itself. -/
def isReserved (id : UInt32) : Bool := id ≤ 0x000000FF ∨ id = 0xFFFFFFFF

/-- FNV-1a over "MC|" and the label. -/
def hashLabel (label : List UInt8) : UInt32 :=
  ([0x4D, 0x43, 0x7C] ++ label).foldl fnvByte 2166136261

/-- A used slot of this id. -/
def holds (id : UInt32) (slot : Option Entry) : Bool := slot.any fun entry => entry.id = id

def Table.find (table : Table) (id : UInt32) : Option Index :=
  (List.finRange BRIDGE_VIRT_NODES_MAX).find? fun i => holds id (table i)

/-- The last of the slots with the smallest stamp. -/
def Table.oldest (table : Table) : Index :=
  ((List.finRange BRIDGE_VIRT_NODES_MAX).foldl (fun (oldest, oldestStamp) i =>
    match table i with
    | some entry =>
        if entry.lastNodeInfoMs ≤ oldestStamp then (i, entry.lastNodeInfoMs)
        else (oldest, oldestStamp)
    | none => (oldest, oldestStamp)) ((⟨0, by decide⟩ : Index), 0xFFFFFFFF)).1

/-- `touch`. -/
def Table.touch (table : Table) (id : UInt32) : Table :=
  match table.find id with
  | some _ => table
  | none =>
      let slot := ((List.finRange BRIDGE_VIRT_NODES_MAX).find? fun i =>
        (table i).isNone).getD table.oldest
      Function.update table slot (some ⟨id, 0⟩)

/-- One turn of the loop that leaves the reserved ids. -/
def remix (id : UInt32) : UInt32 :=
  let id := (id ^^^ 0x9E3779B9) * 16777619
  if isReserved id then id ||| 0x00010000 else id

/-- `while ((isReserved(id) || id == avoidId) && guard++ < 8)`, with the turns left. -/
def nudge (avoidId : UInt32) : ℕ → UInt32 → UInt32
  | 0, id => id
  | turns + 1, id =>
      if isReserved id ∨ id = avoidId then nudge avoidId turns (remix id) else id

/-- `idForLabel`. -/
def idForLabel (label : List UInt8) (avoidId : UInt32) (table : Table) : UInt32 × Table :=
  let id := nudge avoidId 8 (hashLabel label)
  (id, table.touch id)

/-- `nodeInfoDue`, with the clock reading it makes. -/
def nodeInfoDue (id now : UInt32) (table : Table) : Bool × Table :=
  match table.find id with
  | none => (false, table)
  | some i =>
      let last := (table i).elim 0 Entry.lastNodeInfoMs
      if last = 0 ∨ BRIDGE_VIRT_NODEINFO_PERIOD_MS ≤ now - last then
        (true, Function.update table i (some ⟨id, if now = 0 then 1 else now⟩))
      else (false, table)

end LoraBridge.VirtualNodeMap
