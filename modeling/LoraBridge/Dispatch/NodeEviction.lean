import LoraBridge.Dispatch.NodeHistory

/-!
# Which node is given up

A full table gives up the entry with the smallest clock reading.  Readings come round, and an
entry that was not seen since boot has the reading 0: the entry that is given up is the one seen
longest ago as long as it was seen in no later period of the clock than the others.
-/

namespace LoraBridge.NodeEviction

open LoraBridge.NodeDB LoraBridge.NodeHistory LoraBridge.ReserveAhead LoraBridge.WrapClock

/-! ## Stamps -/

/-- The reading of the last time the node was seen, 0 if it was not seen since boot. -/
def stampOf (seen : Option ℕ) : UInt32 := seen.elim 0 ticks

/-- The stamps of a table are those of the history. -/
def Stamped (ops : List Op) (state : State) : Prop :=
  ∀ entry ∈ state.table.entries, entry.lastSeenMs = stampOf (lastSeen ops entry.nodeId)

section Stamped

variable {ops : List Op} {state : State}

theorem stamped_upsert (hstamped : Stamped ops state) (hdistinct : Distinct state)
    (nodeId : UInt32) (shortName longName : List UInt8) (time : ℕ) (write : Write) :
    Stamped (ops ++ [.upsert nodeId shortName longName time write])
      (step state (.upsert nodeId shortName longName time write)).1 := by
  have hother : ∀ entry ∈ state.table.entries, entry.nodeId ≠ nodeId → entry.lastSeenMs =
      stampOf (lastSeen (ops ++ [.upsert nodeId shortName longName time write])
        entry.nodeId) := by
    intro entry hmem hne
    rw [lastSeen_snoc ops (by simp), Op.seen, if_neg (Ne.symm hne), Option.none_or]
    exact hstamped entry hmem
  rw [step, upsert]
  split
  · rename_i hreserved
    refine fun entry hmem => hother entry hmem ?_
    rintro rfl
    exact (not_or.mpr (hdistinct.good entry hmem)) hreserved
  · have hupserted := upserted state.table ⟨nodeId, ticks time,
      strncpy shortName MAX_SHORT_NAME, strncpy longName MAX_LONG_NAME⟩
    intro entry hmem
    rcases hupserted.mem hdistinct.unique hmem with rfl | ⟨hold, hne⟩
    · rw [lastSeen_snoc ops (by simp), Op.seen, if_pos rfl, Option.some_or]
      rfl
    · exact hother entry hold hne

theorem stamped_lookup (hstamped : Stamped ops state) (hdistinct : Distinct state)
    (nodeId : UInt32) (outCap time : ℕ) :
    Stamped (ops ++ [.lookup nodeId outCap time])
      (step state (.lookup nodeId outCap time)).1 := by
  have hother : ∀ entry ∈ state.table.entries, entry.nodeId ≠ nodeId → entry.lastSeenMs =
      stampOf (lastSeen (ops ++ [.lookup nodeId outCap time]) entry.nodeId) := by
    intro entry hmem hne
    rw [lastSeen_snoc ops (by simp), Op.seen, if_neg (Ne.symm hne), Option.none_or]
    exact hstamped entry hmem
  rcases (touched nodeId (ticks time) outCap state).upserted with
    ⟨hsame, hnew⟩ | ⟨old, hold, hid, hupserted⟩
  · intro entry hmem
    have hmem' : entry ∈ state.table.entries := hsame ▸ hmem
    exact hother entry hmem' (hnew entry hmem')
  · intro entry hmem
    rcases hupserted.mem hdistinct.unique hmem with rfl | ⟨hmem', hne⟩
    · rw [lastSeen_snoc ops (by simp), Op.seen, if_pos hid.symm, Option.some_or]
      rfl
    · exact hother entry hmem' (hid ▸ hne)

theorem stamped_reboot (ops : List Op) (state : State) :
    Stamped (ops ++ [.reboot]) (step state .reboot).1 := by
  intro entry hmem
  obtain ⟨stored, -, rfl⟩ := List.mem_map.mp hmem
  rw [lastSeen_reboot]
  rfl

theorem stamped_after (ops : List Op) : Stamped ops (after ops) := by
  induction ops using List.reverseRecOn with
  | nil => exact fun _ hmem => absurd hmem List.not_mem_nil
  | append_singleton ops op ih =>
      rw [after_snoc]
      cases op with
      | upsert nodeId shortName longName time write =>
          exact stamped_upsert ih (distinct_after ops) nodeId shortName longName time write
      | lookup nodeId outCap time =>
          exact stamped_lookup ih (distinct_after ops) nodeId outCap time
      | reboot => exact stamped_reboot ops _

end Stamped

/-! ## Periods of the clock -/

/-- No later than the second; a node that was not seen since boot counts as seen before all. -/
def NoLater : Option ℕ → Option ℕ → Prop
  | none, _ => True
  | some _, none => False
  | some time, some time' => time ≤ time'

/-- The period of the clock in which a node was seen. -/
def period (seen : Option ℕ) : Option ℕ := seen.map (· / 2 ^ 32)

/-- Of two nodes the one with the smaller reading was seen no later exactly if it was seen in no
later period. -/
theorem noLater_iff_period {first second : Option ℕ} (hstamp : stampOf first ≤ stampOf second) :
    NoLater first second ↔ NoLater (period first) (period second) := by
  cases first with
  | none => exact Iff.rfl
  | some time =>
      cases second with
      | none => exact Iff.rfl
      | some time' =>
          have hle : time % 2 ^ 32 ≤ time' % 2 ^ 32 := by
            have hnat := UInt32.le_iff_toNat_le.mp hstamp
            rwa [stampOf, stampOf, Option.elim_some, Option.elim_some, toNat_ticks,
              toNat_ticks] at hnat
          simp only [period, Option.map_some, NoLater]
          omega

/-! ## Insertions into a full table -/

/-- The operation puts a new node into a full table. -/
def Displaces (state : State) : Op → Prop
  | .upsert nodeId _ _ _ _ => ¬ (nodeId = 0 ∨ nodeId = 0xFFFFFFFF) ∧
      state.table.entries.length = MAX_NODES ∧
        ∀ entry ∈ state.table.entries, entry.nodeId ≠ nodeId
  | _ => False

/-- The entry that is gone afterwards was seen no later than every other. -/
def GivesUpOldest (ops : List Op) (op : Op) : Prop :=
  ∀ victim ∈ (after ops).table.entries,
    (∀ entry ∈ (after (ops ++ [op])).table.entries, entry.nodeId ≠ victim.nodeId) →
      ∀ other ∈ (after ops).table.entries,
        NoLater (lastSeen ops victim.nodeId) (lastSeen ops other.nodeId)

/-- The entry at this place has the smallest reading, the first of them. -/
def Smallest (entries : List Entry) (slot : ℕ) : Prop :=
  slot < entries.length ∧
    (∀ i < entries.length, entries[slot]!.lastSeenMs ≤ entries[i]!.lastSeenMs) ∧
      ∀ i < slot, entries[slot]!.lastSeenMs < entries[i]!.lastSeenMs

/-- The node with the smallest reading was seen in no later period of the clock than the
others. -/
def NotComeRound (ops : List Op) : Prop :=
  ∀ slot, Smallest (after ops).table.entries slot → ∀ other ∈ (after ops).table.entries,
    NoLater (period (lastSeen ops (after ops).table.entries[slot]!.nodeId))
      (period (lastSeen ops other.nodeId))

theorem Smallest.unique {entries : List Entry} {slot slot' : ℕ} (hsmallest : Smallest entries slot)
    (hsmallest' : Smallest entries slot') : slot = slot' := by
  obtain ⟨hlt, hall, hfirst⟩ := hsmallest
  obtain ⟨hlt', hall', hfirst'⟩ := hsmallest'
  rcases Nat.lt_trichotomy slot slot' with hless | heq | hless
  · exact absurd (hfirst' slot hless) (UInt32.not_lt.mpr (hall slot' hlt'))
  · exact heq
  · exact absurd (hfirst slot' hless) (UInt32.not_lt.mpr (hall' slot hlt))

/-- The entry that is gone is the one with the smallest reading. -/
theorem gone_iff {ops : List Op} {op : Op} (hdisplaces : Displaces (after ops) op) {slot : ℕ}
    (hsmallest : Smallest (after ops).table.entries slot) {victim : Entry}
    (hvictim : victim ∈ (after ops).table.entries) :
    (∀ entry ∈ (after (ops ++ [op])).table.entries, entry.nodeId ≠ victim.nodeId) ↔
      victim = (after ops).table.entries[slot]! := by
  cases op with
  | upsert nodeId shortName longName time write =>
      obtain ⟨hgood, hfull, hnew⟩ := hdisplaces
      have hunique := (distinct_after ops).unique
      have hpos : 0 < (after ops).table.entries.length := by
        rw [hfull]
        decide
      obtain ⟨hlt, hall, hfirst⟩ := @oldest_spec (after ops).table hpos
      obtain rfl : (after ops).table.oldest = slot :=
        Smallest.unique ⟨hlt, hall, hfirst⟩ hsmallest
      have hentries :
          (after (ops ++ [.upsert nodeId shortName longName time write])).table.entries =
          (after ops).table.entries.set (after ops).table.oldest ⟨nodeId, ticks time,
            strncpy shortName MAX_SHORT_NAME, strncpy longName MAX_LONG_NAME⟩ := by
        rw [after_snoc, step, upsert, if_neg hgood]
        have hnone := slotOf_eq_none_iff.mpr hnew
        simp only [saveToNvs, Table.upsert, hnone]
        rw [dif_neg (by omega)]
        rfl
      rw [hentries, getElem!_pos (after ops).table.entries _ hlt]
      obtain ⟨i, hi, rfl⟩ := List.getElem_of_mem hvictim
      constructor
      · intro hgone
        by_contra hother
        have hne : (after ops).table.oldest ≠ i := by
          rintro heq
          subst heq
          exact hother rfl
        have hkept := List.getElem?_eq_getElem hi
        rw [← List.getElem?_set_ne hne] at hkept
        exact hgone _ (List.mem_of_getElem? hkept) rfl
      · intro heq entry hmem hid
        obtain ⟨k, hk, rfl⟩ := List.getElem_of_mem hmem
        rw [List.length_set] at hk
        by_cases hsame : (after ops).table.oldest = k
        · subst hsame
          rw [List.getElem_set_self] at hid
          exact hnew _ hvictim hid.symm
        · rw [List.getElem_set_ne hsame, heq] at hid
          exact hsame (hunique.index_eq hlt hk hid.symm)
  | lookup => exact absurd hdisplaces id
  | reboot => exact absurd hdisplaces id

/-- What is given up was seen no later than the others, exactly if the smallest reading does not
come from a later period. -/
theorem givesUpOldest_iff {ops : List Op} {op : Op} (hdisplaces : Displaces (after ops) op) :
    GivesUpOldest ops op ↔ NotComeRound ops := by
  have hstamped := stamped_after ops
  constructor
  · intro holdest slot hsmallest other hother
    have hmem : (after ops).table.entries[slot]! ∈ (after ops).table.entries := by
      rw [getElem!_pos _ slot hsmallest.1]
      exact List.getElem_mem _
    have hgone := (gone_iff hdisplaces hsmallest hmem).mpr rfl
    obtain ⟨i, hi, rfl⟩ := List.getElem_of_mem hother
    have hle := hsmallest.2.1 i hi
    rw [getElem!_pos _ i hi, hstamped _ hmem, hstamped _ hother] at hle
    exact (noLater_iff_period hle).mp (holdest _ hmem hgone _ hother)
  · intro hround victim hvictim hgone other hother
    have hpos : 0 < (after ops).table.entries.length := List.length_pos_of_mem hvictim
    have hsmallest : Smallest (after ops).table.entries (after ops).table.oldest :=
      oldest_spec hpos
    obtain rfl := (gone_iff hdisplaces hsmallest hvictim).mp hgone
    obtain ⟨i, hi, rfl⟩ := List.getElem_of_mem hother
    have hle := hsmallest.2.1 i hi
    rw [getElem!_pos _ i hi, hstamped _ hvictim, hstamped _ hother] at hle
    exact (noLater_iff_period hle).mpr (hround _ hsmallest _ hother)

/-- Every insertion of the run into a full table gives up the node seen longest ago. -/
def EvictsLeastRecent (ops : List Op) : Prop :=
  ∀ before op, before ++ [op] <+: ops → Displaces (after before) op → GivesUpOldest before op

/-- A run of upserts, lookups and reboots, over any time, gives up the least recently seen node
at every insertion into a full table exactly if at each of them the smallest reading is that of
a node seen in no later period of the clock than the others. -/
theorem evictsLeastRecent_iff (ops : List Op) :
    EvictsLeastRecent ops ↔
      ∀ before op, before ++ [op] <+: ops → Displaces (after before) op → NotComeRound before :=
  forall₄_congr fun _ _ _ hdisplaces => givesUpOldest_iff hdisplaces

/-- A node seen in an earlier period than the one with the smallest reading. -/
theorem not_evictsLeastRecent {ops : List Op} {op : Op} (hdisplaces : Displaces (after ops) op)
    {slot : ℕ} (hsmallest : Smallest (after ops).table.entries slot) {other : Entry}
    (hother : other ∈ (after ops).table.entries)
    (hlater : ¬ NoLater (period (lastSeen ops (after ops).table.entries[slot]!.nodeId))
      (period (lastSeen ops other.nodeId))) : ¬ EvictsLeastRecent (ops ++ [op]) := by
  intro hclaim
  have holdest := hclaim ops op List.prefix_rfl hdisplaces
  exact hlater ((givesUpOldest_iff hdisplaces).mp holdest slot hsmallest other hother)

/-- 63 nodes a millisecond before the clock comes round, and one 6 ms later. -/
def wrappedOps : List Op :=
  (List.range 63).map (fun i => .upsert (UInt32.ofNat (i + 1)) [] [] (2 ^ 32 - 1) .confirmed) ++
    [.upsert 64 [] [] (2 ^ 32 + 5) .confirmed]

def nextOp : Op := .upsert 65 [] [] (2 ^ 32 + 10) .confirmed

/-- The full table in front of the next node. -/
def wrappedTable : List Entry :=
  (List.range 63).map (fun i => ⟨UInt32.ofNat (i + 1), 0xFFFFFFFF, [], []⟩) ++ [⟨64, 5, [], []⟩]

theorem after_wrappedOps : (after wrappedOps).table.entries = wrappedTable := by decide +kernel

theorem smallest_wrappedTable : Smallest wrappedTable 63 :=
  ⟨by decide, by decide +kernel, by decide +kernel⟩

/-- The next node takes the place of the one seen last. -/
theorem wrapped_evicts_latest : ¬ EvictsLeastRecent (wrappedOps ++ [nextOp]) := by
  have hnew : ∀ entry ∈ (after wrappedOps).table.entries, entry.nodeId ≠ 65 := by
    rw [after_wrappedOps]
    decide +kernel
  have hdisplaces : Displaces (after wrappedOps) nextOp :=
    ⟨by decide, by rw [after_wrappedOps]; rfl, hnew⟩
  have hsmallest : Smallest (after wrappedOps).table.entries 63 := by
    rw [after_wrappedOps]
    exact smallest_wrappedTable
  have hother : (⟨1, 0xFFFFFFFF, [], []⟩ : Entry) ∈ (after wrappedOps).table.entries := by
    rw [after_wrappedOps]
    decide +kernel
  have hvictim : (after wrappedOps).table.entries[63]!.nodeId = 64 := by
    rw [after_wrappedOps]
    rfl
  have hseen : lastSeen wrappedOps 64 = some (2 ^ 32 + 5) := by decide +kernel
  have hbefore : lastSeen wrappedOps 1 = some (2 ^ 32 - 1) := by decide +kernel
  refine not_evictsLeastRecent hdisplaces hsmallest hother ?_
  rw [hvictim, hseen, hbefore]
  simp [period, NoLater]

end LoraBridge.NodeEviction
