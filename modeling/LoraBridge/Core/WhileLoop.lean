import Mathlib.Tactic
import Mathlib.Data.Fintype.Card
import Mathlib.Logic.Relation

/-!
# While loops over a cursor

A `while` loop is a guard, a body that may stop the loop for a stated reason,
and the state it started from.  The loop is executed with a fuel bound, and the
bound is removed again here: a loop whose cursor strictly advances on every
continuing iteration finishes within the distance to its limit, and a loop
whose next cursor depends on the current cursor alone either stops within
`limit + 1` iterations or never stops.
-/

namespace LoraBridge.WhileLoop

variable {State Stop : Type*}

/-- How a bounded execution ended: the guard failed, the body stopped the loop,
or the fuel ran out. -/
inductive Outcome (State Stop : Type*) where
  | finished (state : State)
  | stopped (reason : Stop) (state : State)
  | running (state : State)
  deriving DecidableEq, Repr

/-- `while (guard) body`, for at most `fuel` iterations. -/
def run (guard : State → Bool) (body : State → Except Stop State) :
    ℕ → State → Outcome State Stop
  | 0, state => .running state
  | fuel + 1, state =>
      if guard state then
        match body state with
        | .ok next => run guard body fuel next
        | .error reason => .stopped reason state
      else .finished state

/-- One iteration that neither returns nor breaks. -/
def Continues (guard : State → Bool) (body : State → Except Stop State)
    (state next : State) : Prop :=
  guard state = true ∧ body state = .ok next

/-- The states at the loop head, in any number of iterations. -/
def Reached (guard : State → Bool) (body : State → Except Stop State) :
    State → State → Prop :=
  Relation.ReflTransGen (Continues guard body)

/-- Every continuing iteration moves the cursor strictly forward and keeps it
at most `limit`. -/
def Forward (guard : State → Bool) (body : State → Except Stop State)
    (cursor : State → ℕ) (limit : ℕ) (start : State) : Prop :=
  ∀ state next, Reached guard body start state →
    Continues guard body state next →
      cursor state < cursor next ∧ cursor next ≤ limit

/-- The loop is over after some number of iterations. -/
def Terminates (guard : State → Bool) (body : State → Except Stop State)
    (start : State) : Prop :=
  ∃ fuel, ∀ state, run guard body fuel start ≠ .running state

section Run

variable {guard : State → Bool} {body : State → Except Stop State}

theorem run_succ_of_continues {state next : State}
    (hstep : Continues guard body state next) (fuel : ℕ) :
    run guard body (fuel + 1) state = run guard body fuel next := by
  simp [run, hstep.1, hstep.2]

/-- A loop still running after `fuel + 1` iterations continued from its first
state, and is still running `fuel` iterations later. -/
theorem continues_of_run_eq_running {fuel : ℕ} {state last : State}
    (hrun : run guard body (fuel + 1) state = .running last) :
    ∃ next, Continues guard body state next ∧
      run guard body fuel next = .running last := by
  simp only [run] at hrun
  split at hrun
  · rename_i hguard
    split at hrun
    · rename_i next hbody
      exact ⟨next, ⟨hguard, hbody⟩, hrun⟩
    · cases hrun
  · cases hrun

theorem Forward.next {cursor : State → ℕ} {limit : ℕ} {start next : State}
    (hforward : Forward guard body cursor limit start)
    (hstep : Continues guard body start next) :
    Forward guard body cursor limit next := fun state after hreached =>
  hforward state after (Relation.ReflTransGen.head hstep hreached)

/-- A forward loop is over once the fuel exceeds the distance to the limit. -/
theorem Forward.run_ne_running {cursor : State → ℕ} {limit fuel : ℕ}
    {start : State} (hforward : Forward guard body cursor limit start)
    (hfuel : limit - cursor start < fuel) (last : State) :
    run guard body fuel start ≠ .running last := by
  induction fuel generalizing start with
  | zero => omega
  | succ fuel ih =>
      intro hrun
      obtain ⟨next, hstep, hrest⟩ := continues_of_run_eq_running hrun
      have hmove := hforward start next Relation.ReflTransGen.refl hstep
      exact ih (hforward.next hstep) (by omega) hrest

theorem Forward.terminates {cursor : State → ℕ} {limit : ℕ} {start : State}
    (hforward : Forward guard body cursor limit start) :
    Terminates guard body start :=
  ⟨limit - cursor start + 1,
    fun last => hforward.run_ne_running (Nat.lt_succ_self _) last⟩

end Run

/-! ## The result does not depend on the fuel -/

section Result

variable {guard : State → Bool} {body : State → Except Stop State}

theorem run_eq_of_le {first second : ℕ} (hle : first ≤ second) {state : State}
    {outcome : Outcome State Stop} (hrun : run guard body first state = outcome)
    (hended : ∀ last, outcome ≠ .running last) :
    run guard body second state = outcome := by
  induction first generalizing second state with
  | zero => exact absurd hrun.symm (hended state)
  | succ first ih =>
      obtain ⟨rest, rfl⟩ : ∃ rest, second = rest + 1 := ⟨second - 1, by omega⟩
      by_cases hguard : guard state = true
      · cases hbody : body state with
        | error reason => simpa [run, hguard, hbody] using hrun
        | ok next =>
            have hstep : Continues guard body state next := ⟨hguard, hbody⟩
            rw [run_succ_of_continues hstep] at hrun ⊢
            exact ih (Nat.le_of_succ_le_succ hle) hrun
      · simpa [run, hguard] using hrun

/-- Two bounds that both see the loop end see it end the same way. -/
theorem run_unique {first second : ℕ} {state : State}
    {left right : Outcome State Stop}
    (hleft : ∀ last, left ≠ .running last) (hright : ∀ last, right ≠ .running last)
    (hfirst : run guard body first state = left)
    (hsecond : run guard body second state = right) : left = right := by
  rcases Nat.le_total first second with hle | hle
  · exact (run_eq_of_le hle hfirst hleft).symm.trans hsecond
  · exact hfirst.symm.trans (run_eq_of_le hle hsecond hright)

theorem run_eq_stopped_of_reached {start state : State} {reason : Stop}
    (hreached : Reached guard body start state) (hguard : guard state = true)
    (hbody : body state = .error reason) :
    ∃ fuel, run guard body fuel start = .stopped reason state := by
  induction hreached using Relation.ReflTransGen.head_induction_on with
  | refl => exact ⟨1, by simp [run, hguard, hbody]⟩
  | head hstep _ ih =>
      obtain ⟨fuel, hrun⟩ := ih
      exact ⟨fuel + 1, by rw [run_succ_of_continues hstep, hrun]⟩

/-- A loop that ended did so at a loop head: by its guard or by its body. -/
theorem reached_of_run {fuel : ℕ} {start : State} :
    (∀ state, run guard body fuel start = .finished state →
      Reached guard body start state ∧ guard state = false) ∧
    (∀ reason state, run guard body fuel start = .stopped reason state →
      Reached guard body start state ∧ guard state = true ∧
        body state = .error reason) := by
  induction fuel generalizing start with
  | zero => simp [run]
  | succ fuel ih =>
      by_cases hguard : guard start = true
      · cases hbody : body start with
        | error reason =>
            simp only [run, hguard, if_true, hbody]
            refine ⟨by simp, fun _ state hrun => ?_⟩
            cases hrun
            exact ⟨Relation.ReflTransGen.refl, hguard, hbody⟩
        | ok next =>
            have hstep : Continues guard body start next := ⟨hguard, hbody⟩
            rw [run_succ_of_continues hstep]
            refine ⟨fun state hrun => ?_, fun reason state hrun => ?_⟩
            · obtain ⟨hreached, hend⟩ := ih.1 state hrun
              exact ⟨Relation.ReflTransGen.head hstep hreached, hend⟩
            · obtain ⟨hreached, hend⟩ := ih.2 reason state hrun
              exact ⟨Relation.ReflTransGen.head hstep hreached, hend⟩
      · simp only [run, hguard, Bool.false_eq_true, if_false]
        refine ⟨fun state hrun => ?_, by simp⟩
        cases hrun
        exact ⟨Relation.ReflTransGen.refl, by simpa using hguard⟩

end Result

/-! ## Enough fuel to tell a stopping loop from an endless one -/

section Fuel

variable {guard : State → Bool} {body : State → Except Stop State}

/-- The loop has not stopped after `fuel` iterations. -/
def Survives (guard : State → Bool) (body : State → Except Stop State)
    (fuel : ℕ) (state : State) : Prop :=
  ∃ last, run guard body fuel state = .running last

theorem run_add_of_running {first : ℕ} (second : ℕ) {state middle : State}
    (hrun : run guard body first state = .running middle) :
    run guard body (first + second) state = run guard body second middle := by
  induction first generalizing state with
  | zero =>
      simp only [run, Outcome.running.injEq] at hrun
      rw [Nat.zero_add, hrun]
  | succ first ih =>
      obtain ⟨next, hstep, hrest⟩ := continues_of_run_eq_running hrun
      rw [Nat.add_right_comm, run_succ_of_continues hstep, ih hrest]

theorem Survives.split {first second : ℕ} {state : State}
    (hsurvives : Survives guard body (first + second) state) :
    ∃ middle, run guard body first state = .running middle ∧
      Survives guard body second middle := by
  induction first generalizing state with
  | zero => exact ⟨state, rfl, by simpa using hsurvives⟩
  | succ first ih =>
      obtain ⟨last, hrun⟩ := hsurvives
      rw [Nat.succ_add] at hrun
      obtain ⟨next, hstep, hrest⟩ := continues_of_run_eq_running hrun
      obtain ⟨middle, hmiddle, hsecond⟩ := ih ⟨last, hrest⟩
      exact ⟨middle, by rw [run_succ_of_continues hstep, hmiddle], hsecond⟩

/-- The next cursor is a function of the cursor alone. -/
def CursorDetermined (guard : State → Bool) (body : State → Except Stop State)
    (cursor : State → ℕ) : Prop :=
  ∀ left right next, cursor left = cursor right →
    Continues guard body left next →
      ∃ next', Continues guard body right next' ∧ cursor next' = cursor next

theorem Survives.of_cursor_eq {cursor : State → ℕ}
    (hdetermined : CursorDetermined guard body cursor) {fuel : ℕ}
    {left right : State} (hcursor : cursor left = cursor right)
    (hsurvives : Survives guard body fuel left) :
    Survives guard body fuel right := by
  induction fuel generalizing left right with
  | zero => exact ⟨right, rfl⟩
  | succ fuel ih =>
      obtain ⟨last, hrun⟩ := hsurvives
      obtain ⟨next, hstep, hrest⟩ := continues_of_run_eq_running hrun
      obtain ⟨next', hstep', hcursor'⟩ := hdetermined left right next hcursor hstep
      obtain ⟨last', hrun'⟩ := ih hcursor'.symm ⟨last, hrest⟩
      exact ⟨last', by rw [run_succ_of_continues hstep', hrun']⟩

/-- A cursor that comes back to its own value goes on coming back. -/
theorem survives_of_cycle {cursor : State → ℕ}
    (hdetermined : CursorDetermined guard body cursor) {period : ℕ}
    (hperiod : 0 < period) {state again : State}
    (hrun : run guard body period state = .running again)
    (hcursor : cursor again = cursor state) (fuel : ℕ) :
    Survives guard body fuel state := by
  induction fuel using Nat.strong_induction_on with
  | _ fuel ih =>
      by_cases hle : fuel ≤ period
      · have hwhole : Survives guard body (fuel + (period - fuel)) state :=
          ⟨again, by rw [Nat.add_sub_cancel' hle, hrun]⟩
        obtain ⟨middle, hmiddle, -⟩ := hwhole.split
        exact ⟨middle, hmiddle⟩
      · have hrest : Survives guard body (fuel - period) again :=
          (ih (fuel - period) (by omega)).of_cursor_eq hdetermined hcursor.symm
        obtain ⟨last, hlast⟩ := hrest
        refine ⟨last, ?_⟩
        have hsplit := run_add_of_running (fuel - period) hrun
        rw [Nat.add_sub_cancel' (by omega)] at hsplit
        rw [hsplit, hlast]

/-- `limit + 1` iterations decide a loop whose guard keeps the cursor below
`limit` and whose next cursor is a function of the cursor: past that, two loop
heads share a cursor by the pigeonhole principle. -/
theorem not_terminates_of_survives {cursor : State → ℕ} {limit : ℕ}
    (hdetermined : CursorDetermined guard body cursor)
    (hguard : ∀ state, guard state = true → cursor state < limit)
    {start : State} (hsurvives : Survives guard body (limit + 1) start) :
    ¬ Terminates guard body start := by
  have hheads : ∀ index : Fin (limit + 1), ∃ state,
      run guard body index start = .running state ∧ cursor state < limit := by
    intro index
    have hsplit : limit + 1 = (index : ℕ) + ((limit - index) + 1) := by omega
    rw [hsplit] at hsurvives
    obtain ⟨state, hrun, last, hlast⟩ := hsurvives.split
    obtain ⟨next, hstep, -⟩ := continues_of_run_eq_running hlast
    exact ⟨state, hrun, hguard state hstep.1⟩
  choose heads hrun hbelow using hheads
  obtain ⟨left, right, hne, heq⟩ := Fintype.exists_ne_map_eq_of_card_lt
    (fun index => (⟨cursor (heads index), hbelow index⟩ : Fin limit)) (by simp)
  have hcursor : cursor (heads left) = cursor (heads right) := by
    simpa using congrArg Fin.val heq
  rintro ⟨fuel, hstop⟩
  have hcycle : ∀ early late : Fin (limit + 1), (early : ℕ) < late →
      cursor (heads early) = cursor (heads late) → False := by
    intro early late hlt hsame
    have hperiod := run_add_of_running ((late : ℕ) - early) (hrun early)
    rw [Nat.add_sub_cancel' hlt.le, hrun late] at hperiod
    obtain ⟨last, hlast⟩ := survives_of_cycle hdetermined
      (Nat.sub_pos_of_lt hlt) hperiod.symm hsame.symm fuel
    have hlong := run_add_of_running fuel (hrun early)
    rw [hlast, Nat.add_comm] at hlong
    have hsurvive : Survives guard body (fuel + early) start := ⟨last, hlong⟩
    obtain ⟨middle, hmiddle, -⟩ := hsurvive.split
    exact hstop middle hmiddle
  rcases Nat.lt_or_gt_of_ne (fun h => hne (Fin.ext h)) with hlt | hgt
  · exact hcycle left right hlt hcursor
  · exact hcycle right left hgt hcursor.symm

end Fuel

end LoraBridge.WhileLoop
