import LoraBridge.Dispatch.DedupHistory

/-!
# The window of the dedup cache

While the clock does not come round, a hash is found exactly for the window after its last
call, unless it was evicted, and only a table full of other live hashes gives up a live one.
Over whole periods of the clock an entry that nobody overwrote comes back: its age is read
modulo 2^32.
-/

namespace LoraBridge.DedupWindow

open LoraBridge.DedupCache LoraBridge.DedupHistory LoraBridge.WrapClock

/-! ## Which entry an insertion overwrites -/

/-- The loop of `insert` keeps an entry as old as any it has passed. -/
theorem foldl_oldest (table : Table) (now : UInt32) (passed : List Index)
    (start : Index × UInt32) :
    let last := passed.foldl (fun (oldest, oldestAge) i =>
      match table.slot i with
      | some entry =>
          if oldestAge ≤ entry.age now then (i, entry.age now) else (oldest, oldestAge)
      | none => (oldest, oldestAge)) start
    start.2 ≤ last.2 ∧
      (∀ i ∈ passed, ∀ entry, table.slot i = some entry → entry.age now ≤ last.2) ∧
      (last = start ∨ ∃ entry, table.slot last.1 = some entry ∧ entry.age now = last.2) := by
  induction passed generalizing start with
  | nil => exact ⟨UInt32.le_refl _, by simp, .inl rfl⟩
  | cons i rest ih =>
      simp only [List.foldl_cons]
      cases hslot : table.slot i with
      | none =>
          obtain ⟨hle, hall, hfound⟩ := ih start
          refine ⟨hle, fun j hj entry hentry => ?_, hfound⟩
          rcases List.mem_cons.mp hj with rfl | hj
          · rw [hslot] at hentry
            cases hentry
          · exact hall j hj entry hentry
      | some entry =>
          by_cases hage : start.2 ≤ entry.age now
          · simp only [hage, if_true]
            obtain ⟨hle, hall, hfound⟩ := ih (i, entry.age now)
            refine ⟨UInt32.le_trans hage hle, fun j hj other hother => ?_, .inr ?_⟩
            · rcases List.mem_cons.mp hj with rfl | hj
              · obtain rfl := Option.some.inj (hslot.symm.trans hother)
                exact hle
              · exact hall j hj other hother
            · rcases hfound with hstart | hfound
              · rw [hstart]
                exact ⟨entry, hslot, rfl⟩
              · exact hfound
          · simp only [hage, if_false]
            obtain ⟨hle, hall, hfound⟩ := ih start
            refine ⟨hle, fun j hj other hother => ?_, hfound⟩
            rcases List.mem_cons.mp hj with rfl | hj
            · obtain rfl := Option.some.inj (hslot.symm.trans hother)
              exact UInt32.le_trans (UInt32.le_of_lt (UInt32.not_le.mp hage)) hle
            · exact hall j hj other hother

/-- In a full table, no entry is older than the one the loop ends with. -/
theorem age_le_oldest {table : Table} {now : UInt32} (hfull : ∀ i, (table.slot i).isSome)
    {i : Index} {entry : Entry} (hslot : table.slot i = some entry) :
    ∃ oldest, table.slot (table.oldest now) = some oldest ∧
      entry.age now ≤ oldest.age now := by
  obtain ⟨-, hall, hfound⟩ := foldl_oldest table now (List.finRange BRIDGE_DEDUP_TABLE_SIZE)
    (Index.first, 0)
  have hle := hall i (List.mem_finRange i) entry hslot
  rcases hfound with hstart | ⟨oldest, holdest, hage⟩
  · -- no entry was passed that is older than 0
    obtain ⟨first, hfirst⟩ := Option.isSome_iff_exists.mp (hfull Index.first)
    refine ⟨first, ?_, ?_⟩
    · exact (congrArg (fun last => table.slot last.1) hstart).trans hfirst
    · rw [hstart] at hle
      exact UInt32.le_trans hle (UInt32.zero_le)
  · exact ⟨oldest, holdest, hage ▸ hle⟩

/-- A hash that leaves the table was in the slot that is written. -/
theorem place_of_evicts {table : Table} {call : Call} {i : Index} {entry : Entry}
    (hslot : table.slot i = some entry) (hevicts : Evicts table call entry.hash) :
    i = table.place call.hash (ticks call.time) := by
  by_contra hother
  refine hevicts.2 ⟨i, ?_⟩
  rw [step_table, holds_iff]
  exact ⟨entry, slot_insert.mpr (.inr ⟨hother, hevicts.ne.symm, hslot⟩), rfl⟩

/-- A live hash leaves the table only where all slots are live and hold other hashes than
the new one; it is then the oldest. -/
theorem oldest_of_evicts {table : Table} {call : Call} {i : Index} {entry : Entry}
    (hslot : table.slot i = some entry)
    (hlive : entry.age (ticks call.time) < BRIDGE_DEDUP_TTL_MS)
    (hevicts : Evicts table call entry.hash) :
    (∀ j, ∃ other, table.slot j = some other ∧
        other.age (ticks call.time) < BRIDGE_DEDUP_TTL_MS ∧ other.hash ≠ call.hash) ∧
      ∀ j other, table.slot j = some other →
        other.age (ticks call.time) ≤ entry.age (ticks call.time) := by
  have hplace := place_of_evicts hslot hevicts
  unfold Table.place at hplace
  cases hfind : (List.finRange BRIDGE_DEDUP_TABLE_SIZE).find?
      fun j => holds call.hash (table.slot j) with
  | some j =>
      -- the new hash has its own slot, which is not the evicted one's
      rw [hfind] at hplace
      dsimp only at hplace
      have hheld := List.find?_some hfind
      obtain ⟨other, hother, hhash⟩ := holds_iff.mp hheld
      rw [← hplace, hslot] at hother
      obtain rfl := Option.some.inj hother
      exact absurd hhash.symm hevicts.ne
  | none =>
      rw [hfind] at hplace
      dsimp only at hplace
      have habsent := List.find?_eq_none.mp hfind
      unfold Table.victim at hplace
      cases hfree : (List.finRange BRIDGE_DEDUP_TABLE_SIZE).find?
          fun j => !isLive (ticks call.time) (table.slot j) with
      | some j =>
          rw [hfree] at hplace
          dsimp only at hplace
          have hdead := List.find?_some hfree
          rw [← hplace, hslot] at hdead
          simp [isLive, hlive] at hdead
      | none =>
          rw [hfree] at hplace
          dsimp only at hplace
          have hall : ∀ j, ∃ other, table.slot j = some other ∧
              other.age (ticks call.time) < BRIDGE_DEDUP_TTL_MS ∧
                other.hash ≠ call.hash := by
            intro j
            have halive := List.find?_eq_none.mp hfree j (List.mem_finRange j)
            have hnew := habsent j (List.mem_finRange j)
            cases hj : table.slot j with
            | none => simp [hj, isLive] at halive
            | some other =>
                exact ⟨other, rfl, by simpa [hj, isLive] using halive,
                  by simpa [hj, holds] using hnew⟩
          refine ⟨hall, fun j other hother => ?_⟩
          have hfull : ∀ j, (table.slot j).isSome := by
            intro j
            obtain ⟨some_entry, hj, -⟩ := hall j
            rw [hj]
            rfl
          obtain ⟨oldest, holdest, hle⟩ :=
            @age_le_oldest table (ticks call.time) hfull j other hother
          rw [← hplace, hslot] at holdest
          obtain rfl := Option.some.inj holdest
          exact hle

/-! ## Within one period of the clock -/

/-- The calls are made in this order, and the clock does not come round meanwhile. -/
def InOnePeriod (calls : List Call) : Prop :=
  calls.Pairwise fun earlier later =>
    earlier.time ≤ later.time ∧ later.time < earlier.time + 2 ^ 32

/-- The age of an entry is the time since its last call. -/
theorem toNat_age {calls : List Call} {call : Call} (hperiod : InOnePeriod (calls ++ [call]))
    {h : UInt32} {time : ℕ} (hlast : lastCall calls h = some time) :
    time ≤ call.time ∧ (ticks call.time - ticks time).toNat = call.time - time := by
  obtain ⟨last, hmem, -, rfl⟩ := exists_of_lastCall hlast
  obtain ⟨hle, hlt⟩ := (List.pairwise_append.mp hperiod).2.2 last hmem call (by simp)
  refine ⟨hle, ?_⟩
  rw [toNat_ticks_sub hle, Nat.mod_eq_of_lt (by omega)]

/-- A hash is found for the window after its last call, until it is evicted. -/
theorem seen_iff_recent {calls : List Call} {call : Call}
    (hperiod : InOnePeriod (calls ++ [call])) :
    ((after calls).seenAndRecord call.hash (ticks call.time)).1 = true ↔
      ∃ time, lastCall calls call.hash = some time ∧
        call.time - time < BRIDGE_DEDUP_TTL_MS.toNat ∧ ¬ Evicted calls call.hash := by
  rw [Table.seenAndRecord, isSeen_after_iff]
  refine exists_congr fun time => and_congr_right fun hlast => ?_
  rw [UInt32.lt_iff_toNat_lt, (toNat_age hperiod hlast).2]

/-- What one call does to the window, in a history that fits a period. -/
structure WindowStep (calls : List Call) (call : Call) : Prop where
  unique : ∀ h i j, holds h ((after calls).slot i) = true →
    holds h ((after calls).slot j) = true → i = j
  seen : ((after calls).seenAndRecord call.hash (ticks call.time)).1 = true ↔
    ∃ time, lastCall calls call.hash = some time ∧
      call.time - time < BRIDGE_DEDUP_TTL_MS.toNat ∧ ¬ Evicted calls call.hash
  full : ∀ h time, lastCall calls h = some time →
    call.time - time < BRIDGE_DEDUP_TTL_MS.toNat → Evicts (after calls) call h →
      ∀ i, ∃ entry time', (after calls).slot i = some entry ∧ entry.hash ≠ call.hash ∧
        lastCall calls entry.hash = some time' ∧
          call.time - time' < BRIDGE_DEDUP_TTL_MS.toNat ∧ time ≤ time'

theorem windowStep {calls : List Call} {call : Call}
    (hperiod : InOnePeriod (calls ++ [call])) : WindowStep calls call where
  unique := (after calls).distinct
  seen := seen_iff_recent hperiod
  full := by
    intro h time hlast hrecent hevicts i
    obtain ⟨j, hj⟩ := hevicts.1
    obtain ⟨entry, hslot, rfl⟩ := holds_iff.mp hj
    obtain ⟨time₀, hlast₀, hstamp⟩ := stamp_after hslot
    obtain rfl := Option.some.inj (hlast.symm.trans hlast₀)
    have hage := (toNat_age hperiod hlast).2
    have hlive : entry.age (ticks call.time) < BRIDGE_DEDUP_TTL_MS := by
      rw [Entry.age, hstamp, UInt32.lt_iff_toNat_lt, hage]
      exact hrecent
    obtain ⟨hfull, holdest⟩ := oldest_of_evicts hslot hlive hevicts
    obtain ⟨other, hother, hlive', hne⟩ := hfull i
    obtain ⟨time', hlast', hstamp'⟩ := stamp_after hother
    have hage' := toNat_age hperiod hlast'
    have hle := holdest i other hother
    rw [Entry.age, hstamp', UInt32.lt_iff_toNat_lt, hage'.2] at hlive'
    rw [Entry.age, Entry.age, hstamp, hstamp', UInt32.le_iff_toNat_le, hage, hage'.2] at hle
    refine ⟨other, time', hother, hne, hlast', hlive', ?_⟩
    have htime := (toNat_age hperiod hlast).1
    omega

/-- The window semantics, at every call of every history that fits a period. -/
theorem window_semantics (calls : List Call) (hperiod : InOnePeriod calls) :
    ∀ before call, before ++ [call] <+: calls → WindowStep before call := by
  rintro before call ⟨later, rfl⟩
  exact windowStep (List.pairwise_append.mp hperiod).1

/-- A packet, and its echo ten seconds later. -/
theorem echo_in_window : WindowStep [⟨.record, 7, 1000⟩] ⟨.seenAndRecord, 7, 11000⟩ := by
  refine window_semantics [⟨.record, 7, 1000⟩, ⟨.seenAndRecord, 7, 11000⟩] ?_ _ _
    List.prefix_rfl
  unfold InOnePeriod
  simp

/-! ## Over whole periods -/

/-- The calls are made in this order. -/
def InOrder (calls : List Call) : Prop :=
  calls.Pairwise fun earlier later => earlier.time ≤ later.time

/-- At this call, the entries whose last call is out of the window count as expired, and the
call does not find a hash that nobody called with in the window. -/
structure StaysExpired (calls : List Call) (call : Call) : Prop where
  expired : ∀ i entry time, (after calls).slot i = some entry →
    lastCall calls entry.hash = some time → BRIDGE_DEDUP_TTL_MS.toNat ≤ call.time - time →
      isLive (ticks call.time) (some entry) = false
  unseen : (∀ earlier ∈ calls, earlier.hash = call.hash →
      BRIDGE_DEDUP_TTL_MS.toNat ≤ call.time - earlier.time) →
    ((after calls).seenAndRecord call.hash (ticks call.time)).1 = false

def NoResurrection (calls : List Call) : Prop :=
  ∀ before call, before ++ [call] <+: calls → StaysExpired before call

/-- No entry that is out of the window has come round to it: its age is not short of the
window behind some number of whole periods. -/
def NotComeRound (calls : List Call) (call : Call) : Prop :=
  ∀ i entry time, (after calls).slot i = some entry →
    lastCall calls entry.hash = some time → BRIDGE_DEDUP_TTL_MS.toNat ≤ call.time - time →
      BRIDGE_DEDUP_TTL_MS.toNat ≤ (call.time - time) % 2 ^ 32

/-- An entry is live by its age modulo the period. -/
theorem isLive_iff {calls : List Call} {call : Call} (hordered : InOrder (calls ++ [call]))
    {i : Index} {entry : Entry} {time : ℕ} (hslot : (after calls).slot i = some entry)
    (hlast : lastCall calls entry.hash = some time) :
    isLive (ticks call.time) (some entry) = true ↔
      (call.time - time) % 2 ^ 32 < BRIDGE_DEDUP_TTL_MS.toNat := by
  obtain ⟨time', hlast', hstamp⟩ := stamp_after hslot
  obtain rfl := Option.some.inj (hlast.symm.trans hlast')
  obtain ⟨last, hmem, -, rfl⟩ := exists_of_lastCall hlast
  have hle := (List.pairwise_append.mp hordered).2.2 last hmem call (by simp)
  rw [isLive, Option.any_some, decide_eq_true_eq, Entry.age, hstamp, UInt32.lt_iff_toNat_lt,
    toNat_ticks_sub hle]

theorem staysExpired_iff {calls : List Call} {call : Call}
    (hordered : InOrder (calls ++ [call])) :
    StaysExpired calls call ↔ NotComeRound calls call := by
  constructor
  · intro hstays i entry time hslot hlast hold
    have hdead := hstays.expired i entry time hslot hlast hold
    rw [Bool.eq_false_iff, ne_eq, isLive_iff hordered hslot hlast] at hdead
    omega
  · intro hround
    have hexpired : ∀ i entry time, (after calls).slot i = some entry →
        lastCall calls entry.hash = some time → BRIDGE_DEDUP_TTL_MS.toNat ≤ call.time - time →
          isLive (ticks call.time) (some entry) = false := by
      intro i entry time hslot hlast hold
      have hout := hround i entry time hslot hlast hold
      rw [Bool.eq_false_iff, ne_eq, isLive_iff hordered hslot hlast]
      omega
    refine ⟨hexpired, fun hquiet => ?_⟩
    rw [Table.seenAndRecord, Bool.eq_false_iff, ne_eq, Table.isSeen_iff]
    rintro ⟨i, entry, hslot, hhash, hage⟩
    obtain ⟨time, hlast, -⟩ := stamp_after hslot
    obtain ⟨last, hmem, hlastHash, rfl⟩ := exists_of_lastCall hlast
    have hdead := hexpired i entry last.time hslot hlast
      (hquiet last hmem (hlastHash.trans hhash))
    rw [isLive, Option.any_some, decide_eq_false_iff_not] at hdead
    exact hdead hage

/-- Expired entries stay expired, over any number of periods, exactly when no call meets
one that has come round. -/
theorem noResurrection_iff (calls : List Call) (hordered : InOrder calls) :
    NoResurrection calls ↔
      ∀ before call, before ++ [call] <+: calls → NotComeRound before call := by
  refine forall_congr' fun before => forall_congr' fun call => forall_congr' fun hinitial => ?_
  obtain ⟨later, rfl⟩ := hinitial
  exact staysExpired_iff (List.pairwise_append.mp hordered).1

/-- A packet, and another one with its hash a minute later. -/
theorem forgotten_in_a_minute :
    NoResurrection [⟨.record, 7, 0⟩, ⟨.seenAndRecord, 7, 60000⟩] := by
  refine (noResurrection_iff [⟨.record, 7, 0⟩, ⟨.seenAndRecord, 7, 60000⟩] ?_).mpr ?_
  · unfold InOrder
    simp
  · rintro before call ⟨later, hcalls⟩ i entry time - - hold
    have hmem : call ∈ [(⟨.record, 7, 0⟩ : Call), ⟨.seenAndRecord, 7, 60000⟩] := by
      rw [← hcalls]
      simp
    have htime : call.time ≤ 60000 := by
      rcases List.mem_pair.mp hmem with rfl | rfl
      · exact Nat.zero_le _
      · exact Nat.le_refl _
    rw [Nat.mod_eq_of_lt (by omega)]
    exact hold

/-- A packet that was sent at boot is found again when the clock has come round. -/
theorem found_after_a_period :
    ¬ NoResurrection [⟨.record, 7, 0⟩, ⟨.seenAndRecord, 7, 2 ^ 32 + 5⟩] := by
  intro hnone
  have hquiet := (hnone [⟨.record, 7, 0⟩] ⟨.seenAndRecord, 7, 2 ^ 32 + 5⟩
    List.prefix_rfl).unseen (by simp [BRIDGE_DEDUP_TTL_MS])
  have htable : after [⟨.record, 7, 0⟩] = Table.insert .empty 7 (ticks 0) :=
    after_snoc [] ⟨.record, 7, 0⟩
  rw [htable, Table.seenAndRecord, Table.isSeen_insert] at hquiet
  revert hquiet
  decide

end LoraBridge.DedupWindow
