import LoraBridge.Codec.Memory

/-!
# The dedup cache

`DedupCache.cpp`: the hashes of the packets the bridge has lately received or sent,
each with the clock reading of the call that recorded it last.  An age is a difference
of two readings modulo 2^32.
-/

namespace LoraBridge.DedupCache

open LoraBridge.Memory

def BRIDGE_DEDUP_TTL_MS : UInt32 := 60000

def BRIDGE_DEDUP_TABLE_SIZE : ℕ := 512

/-! ## The hash -/

def fnvByte (h : UInt32) (b : UInt8) : UInt32 := (h ^^^ b.toUInt32) * 16777619

/-- FNV-1a over the body, then the source id, then the packet id. -/
def hash (body : List UInt8) (srcId pid : UInt32) : UInt32 :=
  let h := body.foldl fnvByte 2166136261
  let h := (wordBytes srcId).foldl fnvByte h
  (wordBytes pid).foldl fnvByte h

/-! ## The table -/

/-- A used slot. -/
structure Entry where
  hash : UInt32
  stampMs : UInt32
  deriving DecidableEq

abbrev Index := Fin BRIDGE_DEDUP_TABLE_SIZE

def Index.first : Index := ⟨0, by decide⟩

attribute [irreducible] BRIDGE_DEDUP_TABLE_SIZE

/-- `now - s_table[i].stampMs`. -/
def Entry.age (entry : Entry) (now : UInt32) : UInt32 := now - entry.stampMs

/-- A used slot with this hash. -/
def holds (h : UInt32) (slot : Option Entry) : Bool := slot.any fun entry => entry.hash = h

/-- A used slot still inside the window. -/
def isLive (now : UInt32) (slot : Option Entry) : Bool :=
  slot.any fun entry => entry.age now < BRIDGE_DEDUP_TTL_MS

/-- No two used slots have one hash. -/
structure Table where
  slot : Index → Option Entry
  distinct : ∀ h i j, holds h (slot i) = true → holds h (slot j) = true → i = j

/-- `begin()`. -/
def Table.empty : Table where
  slot _ := none
  distinct := by simp [holds]

def Table.isSeen (table : Table) (h now : UInt32) : Bool :=
  (List.finRange BRIDGE_DEDUP_TABLE_SIZE).any fun i =>
    holds h (table.slot i) && isLive now (table.slot i)

/-- The last of the slots with the greatest age, as the loop of `insert` keeps it. -/
def Table.oldest (table : Table) (now : UInt32) : Index :=
  ((List.finRange BRIDGE_DEDUP_TABLE_SIZE).foldl (fun (oldest, oldestAge) i =>
    match table.slot i with
    | some entry =>
        if oldestAge ≤ entry.age now then (i, entry.age now) else (oldest, oldestAge)
    | none => (oldest, oldestAge)) (Index.first, 0)).1

/-- Where a new hash goes: the first slot that is unused or expired, or else the
oldest. -/
def Table.victim (table : Table) (now : UInt32) : Index :=
  match (List.finRange BRIDGE_DEDUP_TABLE_SIZE).find? fun i =>
      !isLive now (table.slot i) with
  | some i => i
  | none => table.oldest now

/-- The slot that `insert` writes. -/
def Table.place (table : Table) (h now : UInt32) : Index :=
  match (List.finRange BRIDGE_DEDUP_TABLE_SIZE).find? fun i => holds h (table.slot i) with
  | some i => i
  | none => table.victim now

/-- A hash in the table is in the slot that `insert` writes. -/
theorem Table.eq_place {table : Table} {h now : UInt32} {i : Index}
    (hholds : holds h (table.slot i) = true) : i = table.place h now := by
  unfold place
  cases hfind : (List.finRange BRIDGE_DEDUP_TABLE_SIZE).find?
      fun i => holds h (table.slot i) with
  | none =>
      have hnone := List.find?_eq_none.mp hfind i (List.mem_finRange i)
      exact absurd hholds hnone
  | some j =>
      have hj := List.find?_some hfind
      exact table.distinct h i j hholds hj

/-- `insert`: refresh the hash in place, or put it into another slot. -/
def Table.insert (table : Table) (h now : UInt32) : Table where
  slot := Function.update table.slot (table.place h now) (some ⟨h, now⟩)
  distinct := by
    intro h' i j hi hj
    by_cases hi' : i = table.place h now
    · by_cases hj' : j = table.place h now
      · rw [hi', hj']
      · rw [hi', Function.update_self] at hi
        rw [Function.update_of_ne hj'] at hj
        have hsame : h = h' := by simpa [holds] using hi
        subst hsame
        exact absurd (eq_place hj) hj'
    · rw [Function.update_of_ne hi'] at hi
      by_cases hj' : j = table.place h now
      · rw [hj', Function.update_self] at hj
        have hsame : h = h' := by simpa [holds] using hj
        subst hsame
        exact absurd (eq_place hi) hi'
      · rw [Function.update_of_ne hj'] at hj
        exact table.distinct h' i j hi hj

/-- `seenAndRecord`, at the clock reading it begins with. -/
def Table.seenAndRecord (table : Table) (h now : UInt32) : Bool × Table :=
  (table.isSeen h now, table.insert h now)

/-- `record`. -/
def Table.record (table : Table) (h now : UInt32) : Table := table.insert h now

theorem Table.isSeen_iff {table : Table} {h now : UInt32} :
    table.isSeen h now = true ↔ ∃ i entry, table.slot i = some entry ∧ entry.hash = h ∧
      entry.age now < BRIDGE_DEDUP_TTL_MS := by
  rw [isSeen, List.any_eq_true]
  constructor
  · rintro ⟨i, -, hboth⟩
    cases hslot : table.slot i with
    | none => simp [hslot, holds] at hboth
    | some entry =>
        simp only [hslot, holds, isLive, Option.any_some, Bool.and_eq_true,
          decide_eq_true_eq] at hboth
        exact ⟨i, entry, hslot, hboth⟩
  · rintro ⟨i, entry, hslot, hhash, hage⟩
    exact ⟨i, List.mem_finRange i, by simp [hslot, holds, isLive, hhash, hage]⟩

@[simp]
theorem Table.isSeen_empty (h now : UInt32) : Table.empty.isSeen h now = false := by
  rw [Bool.eq_false_iff, ne_eq, isSeen_iff]
  simp [Table.empty]

/-- A recorded hash is seen as long as the difference of the readings is in the window. -/
theorem Table.isSeen_insert (table : Table) (h now later : UInt32) :
    (table.insert h now).isSeen h later = decide (later - now < BRIDGE_DEDUP_TTL_MS) := by
  refine Bool.eq_iff_iff.mpr ?_
  rw [isSeen_iff, decide_eq_true_eq]
  constructor
  · rintro ⟨i, entry, hslot, hhash, hage⟩
    have hi : i = table.place h now := by
      refine (table.insert h now).distinct h i _ ?_ ?_
      · simp [hslot, holds, hhash]
      · simp [Table.insert, holds]
    subst hi
    simp only [Table.insert, Function.update_self, Option.some.injEq] at hslot
    subst hslot
    exact hage
  · intro hage
    exact ⟨table.place h now, ⟨h, now⟩, by simp [Table.insert], rfl, hage⟩

end LoraBridge.DedupCache
