import LoraBridge.Core.Interleaving
import LoraBridge.Core.WrapClock
import LoraBridge.Dispatch.DedupCache

/-!
# Two tasks on the dedup cache

`seenAndRecord` reads the clock before it takes the lock.  A task that is overtaken
between the two asks with a reading older than the entry, whose age comes out at almost
2^32 milliseconds: the entry looks expired.
-/

namespace LoraBridge.DedupTasks

open LoraBridge.DedupCache LoraBridge.Program LoraBridge.WrapClock

/-- The table, and how many steps the tasks have made. -/
structure Shared where
  steps : ℕ
  table : Table

/-- `seenAndRecord` as two steps; `millis` is the time at each step of the run. -/
def seenAndRecord (millis : ℕ → ℕ) (h : UInt32) : Program Shared Empty Bool :=
  .step (fun shared => ({ shared with steps := shared.steps + 1 }, [])) fun shared =>
    let now := ticks (millis shared.steps)
    .step (fun shared => (⟨shared.steps + 1, shared.table.insert h now⟩, []))
      fun shared => .done (shared.table.isSeen h now)

/-- The task that reads the clock first takes the lock last. -/
def Overtaken (trace : List Side) : Prop :=
  ∃ first : Side, trace = [first, first.other, first.other, first]

/-- One of two calls is overtaken by the other, which reads the clock later and does not
find the hash either. -/
def Crosses (millis : ℕ → ℕ) (h : UInt32) (shared : Shared) (trace : List Side) : Prop :=
  Overtaken trace ∧ millis shared.steps < millis (shared.steps + 1) ∧
    shared.table.isSeen h (ticks (millis (shared.steps + 1))) = false

theorem age_in_window {earlier later : ℕ} (horder : earlier ≤ later)
    (hshort : later - earlier < BRIDGE_DEDUP_TTL_MS.toNat) :
    ticks later - ticks earlier < BRIDGE_DEDUP_TTL_MS := by
  have hage := toNat_ticks_sub horder
  have hwindow : BRIDGE_DEDUP_TTL_MS.toNat = 60000 := rfl
  rw [UInt32.lt_iff_toNat_lt, hage]
  omega

/-- Seen from an earlier reading, an entry is out of the window. -/
theorem age_from_earlier {earlier later : ℕ} (horder : earlier ≤ later)
    (hshort : later - earlier < BRIDGE_DEDUP_TTL_MS.toNat) :
    ticks earlier - ticks later < BRIDGE_DEDUP_TTL_MS ↔ ¬ earlier < later := by
  have hwindow : BRIDGE_DEDUP_TTL_MS.toNat = 60000 := rfl
  rw [UInt32.lt_iff_toNat_lt, UInt32.toNat_sub, toNat_ticks, toNat_ticks]
  omega

theorem overtaken_left {trace : List Side} :
    Overtaken (.left :: trace) ↔ trace = [.right, .right, .left] := by
  constructor
  · rintro ⟨first, htrace⟩
    rw [List.cons.injEq] at htrace
    obtain ⟨rfl, hrest⟩ := htrace
    exact hrest
  · rintro rfl
    exact ⟨.left, rfl⟩

theorem Overtaken.map_other {trace : List Side} (hovertaken : Overtaken trace) :
    Overtaken (trace.map Side.other) := by
  obtain ⟨first, rfl⟩ := hovertaken
  exact ⟨first.other, rfl⟩

theorem overtaken_map_other {trace : List Side} :
    Overtaken (trace.map Side.other) ↔ Overtaken trace := by
  refine ⟨fun hovertaken => ?_, Overtaken.map_other⟩
  have hback := hovertaken.map_other
  rwa [map_other_other] at hback

section Pair

variable {millis : ℕ → ℕ} {h : UInt32} {shared : Shared} {trace : List Side}
  {outcome : Outcome Shared Bool Bool}

/-- The task that reads the clock first is the left one. -/
theorem one_sees_iff_of_left (hclock : Monotone millis)
    (hshort : millis (shared.steps + 2) - millis shared.steps < BRIDGE_DEDUP_TTL_MS.toNat)
    (hruns : Interleaves (seenAndRecord millis h) (seenAndRecord millis h) shared
      (.left :: trace) outcome) :
    (outcome.left = true ∨ outcome.right = true) ↔
      ¬ Crosses millis h shared (.left :: trace) := by
  have hfirst : millis shared.steps ≤ millis (shared.steps + 1) := hclock (by omega)
  have hsecond : millis (shared.steps + 1) ≤ millis (shared.steps + 2) := hclock (by omega)
  unfold seenAndRecord at hruns
  cases hruns with
  | left hread =>
      cases hread with
      | left hlock =>
          -- the left call is over before the right one begins
          cases hlock with
          | right hread' =>
              cases hread' with
              | right hlock' =>
                  cases hlock'
                  have hage := age_in_window (hfirst.trans hsecond) hshort
                  refine iff_of_true (.inr ?_) fun hcrosses => ?_
                  · rw [Table.isSeen_insert, decide_eq_true_eq]
                    exact hage
                  · simpa using overtaken_left.mp hcrosses.1
      | right hread' =>
          cases hread' with
          | left hlock =>
              -- both have read; the one that read first locks first
              cases hlock with
              | right hlock' =>
                  cases hlock'
                  have hage := age_in_window hfirst (by omega)
                  refine iff_of_true (.inr ?_) fun hcrosses => ?_
                  · rw [Table.isSeen_insert, decide_eq_true_eq]
                    exact hage
                  · simpa using overtaken_left.mp hcrosses.1
          | right hlock =>
              -- the left task is overtaken
              cases hlock with
              | left hlock' =>
                  cases hlock'
                  have hage := age_from_earlier hfirst (by omega)
                  simp only [Crosses, overtaken_left, true_and, not_and_or,
                    Bool.not_eq_false, Table.isSeen_insert, decide_eq_true_eq, hage]

end Pair

/-- Two calls with one hash: one of them finds it, exactly when they do not cross. -/
theorem one_sees_iff (millis : ℕ → ℕ) (h : UInt32) (shared : Shared) (trace : List Side)
    (outcome : Outcome Shared Bool Bool) (hclock : Monotone millis)
    (hshort : millis (shared.steps + 2) - millis shared.steps < BRIDGE_DEDUP_TTL_MS.toNat)
    (hruns : Interleaves (seenAndRecord millis h) (seenAndRecord millis h) shared trace
      outcome) :
    (outcome.left = true ∨ outcome.right = true) ↔ ¬ Crosses millis h shared trace := by
  cases trace with
  | nil => cases hruns
  | cons side rest =>
      cases side with
      | left => exact one_sees_iff_of_left hclock hshort hruns
      | right =>
          have hswapped := one_sees_iff_of_left hclock hshort hruns.swap
          have hovertaken : Overtaken ((Side.right :: rest).map Side.other) ↔
              Overtaken (.right :: rest) := overtaken_map_other
          rw [or_comm, Crosses, ← hovertaken]
          exact hswapped

/-! ## Two radios hear one packet -/

/-- A clock that shows 1000, and 1001 from the second step on. -/
def millis (step : ℕ) : ℕ := 1000 + min step 1

/-- Two radio tasks hear the same packet; one is overtaken within the millisecond, and
both forward it. -/
theorem both_forward : ∃ outcome,
    Interleaves (seenAndRecord millis 7) (seenAndRecord millis 7) ⟨0, .empty⟩
      [.left, .right, .right, .left] outcome ∧
    outcome.left = false ∧ outcome.right = false := by
  refine ⟨_, .left (.right (.right (.left (.done _ _ _)))), ?_, Table.isSeen_empty _ _⟩
  rw [Table.isSeen_insert]
  decide

/-- One call after the other: the second finds the hash. -/
theorem second_sees : ∃ outcome,
    Interleaves (seenAndRecord millis 7) (seenAndRecord millis 7) ⟨0, .empty⟩
      [.left, .left, .right, .right] outcome ∧
    (outcome.left = true ∨ outcome.right = true) := by
  have hclock : Monotone millis := fun earlier later horder => by
    unfold millis
    omega
  refine ⟨_, .left (.left (.right (.right (.done _ _ _)))), ?_⟩
  refine (one_sees_iff millis 7 ⟨0, .empty⟩ [.left, .left, .right, .right] _ hclock (by decide)
    (.left (.left (.right (.right (.done _ _ _)))))).mpr fun hcrosses => ?_
  simpa using overtaken_left.mp hcrosses.1

end LoraBridge.DedupTasks
