import LoraBridge.Core.Machine
import LoraBridge.Core.WrapClock
import LoraBridge.Dispatch.VirtualNodeMap

/-!
# How often a virtual node is advertised

Tasks call `idForLabel` and then `nodeInfoDue`, which reads the clock before it takes the
lock.  The stamps of the table are all that is known of the past: an id that is evicted is
due again at once, and a task that is overtaken between its reading and its lock finds a
stamp ahead of the reading, whose age comes out at almost 2^32 milliseconds.
-/

namespace LoraBridge.Advertising

open LoraBridge.Machine LoraBridge.VirtualNodeMap LoraBridge.WrapClock

variable {Task : Type} [DecidableEq Task]

/-- Where a task is: between two messages, with the id of a label, or with a reading of
the clock and in front of the lock. -/
inductive Phase where
  | idle
  | minted (id : UInt32)
  | reading (id : UInt32) (time : ℕ)
  deriving DecidableEq

/-- The id a task works on. -/
def Phase.id? : Phase → Option UInt32
  | .idle => none
  | .minted id | .reading id _ => some id

/-- The table, the time of the last reading, and the tasks. -/
structure State (Task : Type) where
  table : Table
  clock : ℕ
  phase : Task → Phase

/-- A task calls `idForLabel`, reads the clock some time after the last reading, or passes
the locked part of `nodeInfoDue`. -/
inductive Event (Task : Type) where
  | mint (task : Task) (label : List UInt8) (avoidId : UInt32)
  | read (task : Task) (wait : ℕ)
  | mark (task : Task)

/-- An answer of `nodeInfoDue`, with the time the call read. -/
structure Check where
  id : UInt32
  time : ℕ
  due : Bool
  deriving DecidableEq

def State.setPhase (state : State Task) (task : Task) (phase : Phase) : State Task :=
  { state with phase := Function.update state.phase task phase }

def step (state : State Task) : Event Task → State Task × List Check
  | .mint task label avoidId =>
      match state.phase task with
      | .idle =>
          let minted := idForLabel label avoidId state.table
          ({ state with table := minted.2 }.setPhase task (.minted minted.1), [])
      | _ => (state, [])
  | .read task wait =>
      match state.phase task with
      | .minted id =>
          let time := state.clock + wait
          ({ state with clock := time }.setPhase task (.reading id time), [])
      | _ => (state, [])
  | .mark task =>
      match state.phase task with
      | .reading id time =>
          let checked := nodeInfoDue id (ticks time) state.table
          ({ state with table := checked.2 }.setPhase task .idle, [⟨id, time, checked.1⟩])
      | _ => (state, [])

/-- After `begin`. -/
def start (bootMs : ℕ) : State Task := ⟨Table.empty, bootMs, fun _ => .idle⟩

def period : ℕ := BRIDGE_VIRT_NODEINFO_PERIOD_MS.toNat

/-- The first sighting of an id is due, and two due reports of it are a period apart. -/
structure RateLimited (history : List Check) : Prop where
  first : ∀ before check after, history = before ++ check :: after →
    (∀ earlier ∈ before, earlier.id ≠ check.id) → check.due = true
  apart : history.Pairwise fun earlier later =>
    earlier.id = later.id → earlier.due = true → later.due = true →
      earlier.time + period ≤ later.time

/-- The time of the last due report of an id. -/
def lastDue (history : List Check) (id : UInt32) : Option ℕ :=
  history.foldl (fun last check =>
    if check.id = id ∧ check.due = true then some check.time else last) none

/-- What a due report at a time leaves in the table; 0 is not used. -/
def stampMs (time : ℕ) : UInt32 := if ticks time = 0 then 1 else ticks time

/-- The time that stamp stands for. -/
def stampTime (time : ℕ) : ℕ := if ticks time = 0 then time + 1 else time

/-- A period has passed, by the clock and by every reading in front of the lock. -/
def Over (state : State Task) (id : UInt32) (last : ℕ) : Prop :=
  last + period ≤ state.clock ∧
    ∀ task time, state.phase task = .reading id time → last + period ≤ time

/-- The slot `touch` writes when it does not find the id. -/
def slotFor (table : Table) : Index :=
  ((List.finRange BRIDGE_VIRT_NODES_MAX).find? fun i => (table i).isNone).getD table.oldest

/-- The steps that keep the limit: `idForLabel` evicts only an id whose last due report is
a period ago, and no reading is behind the stamp of the id's last due report. -/
def Allowed (state : State Task) (history : List Check) : Event Task → Prop
  | .mint task label avoidId => state.phase task = .idle →
      state.table.find (nudge avoidId 8 (hashLabel label)) = none →
      ∀ victim, state.table (slotFor state.table) = some victim →
        ∃ last, lastDue history victim.id = some last ∧ Over state victim.id last
  | .read _ _ => True
  | .mark task => ∀ id time, state.phase task = .reading id time →
      ∀ last, lastDue history id = some last → stampTime last ≤ time

/-! ## The table -/

/-- Some slot holds this id and this stamp. -/
def Stamped (table : Table) (id stamp : UInt32) : Prop := ∃ i, table i = some ⟨id, stamp⟩

/-- No id is in two slots. -/
def Unique (table : Table) : Prop :=
  ∀ i j id stamp stamp', table i = some ⟨id, stamp⟩ → table j = some ⟨id, stamp'⟩ → i = j

theorem find_eq_none_iff {table : Table} {id : UInt32} :
    table.find id = none ↔ ∀ stamp, ¬ Stamped table id stamp := by
  rw [Table.find, List.find?_eq_none]
  constructor
  · rintro hnone stamp ⟨i, hslot⟩
    exact hnone i (List.mem_finRange i) (by simp [holds, hslot])
  · intro hnone i _ hholds
    cases hslot : table i with
    | none => simp [holds, hslot] at hholds
    | some entry =>
        have hid : entry.id = id := by simpa [holds, hslot] using hholds
        exact hnone entry.lastNodeInfoMs ⟨i, by rw [hslot, ← hid]⟩

theorem slot_of_find {table : Table} {id : UInt32} {i : Index} (hfind : table.find id = some i) :
    ∃ stamp, table i = some ⟨id, stamp⟩ := by
  have hholds := List.find?_some hfind
  cases hslot : table i with
  | none => simp [holds, hslot] at hholds
  | some entry =>
      have hid : entry.id = id := by simpa [holds, hslot] using hholds
      exact ⟨entry.lastNodeInfoMs, by rw [← hid]⟩

theorem touch_of_find {table : Table} {id : UInt32} {i : Index} (hfind : table.find id = some i) :
    table.touch id = table := by
  rw [Table.touch, hfind]

theorem touch_of_not_find {table : Table} {id : UInt32} (hfind : table.find id = none) :
    table.touch id = Function.update table (slotFor table) (some ⟨id, 0⟩) := by
  rw [Table.touch, hfind]
  rfl

/-- One slot is written. -/
theorem stamped_update {table : Table} {i : Index} {id stamp id' stamp' : UInt32} :
    Stamped (Function.update table i (some ⟨id, stamp⟩)) id' stamp' ↔
      (id' = id ∧ stamp' = stamp) ∨ ∃ j, j ≠ i ∧ table j = some ⟨id', stamp'⟩ := by
  constructor
  · rintro ⟨j, hslot⟩
    by_cases hj : j = i
    · subst hj
      rw [Function.update_self] at hslot
      injection Option.some.inj hslot with hid hstamp
      exact .inl ⟨hid.symm, hstamp.symm⟩
    · rw [Function.update_of_ne hj] at hslot
      exact .inr ⟨j, hj, hslot⟩
  · rintro (⟨rfl, rfl⟩ | ⟨j, hj, hslot⟩)
    · exact ⟨i, Function.update_self _ _ _⟩
    · exact ⟨j, by rwa [Function.update_of_ne hj]⟩

/-- Writing an id keeps the slots apart when no other slot holds it. -/
theorem unique_update {table : Table} (hunique : Unique table) {i : Index} {id stamp : UInt32}
    (hother : ∀ j stamp', table j = some ⟨id, stamp'⟩ → j = i) :
    Unique (Function.update table i (some ⟨id, stamp⟩)) := by
  intro j k id' stamp₁ stamp₂ hfirst hsecond
  by_cases hj : j = i <;> by_cases hk : k = i
  · rw [hj, hk]
  · subst hj
    rw [Function.update_self] at hfirst
    rw [Function.update_of_ne hk] at hsecond
    injection Option.some.inj hfirst with hid
    exact absurd (hother k stamp₂ (hid ▸ hsecond)) hk
  · subst hk
    rw [Function.update_self] at hsecond
    rw [Function.update_of_ne hj] at hfirst
    injection Option.some.inj hsecond with hid
    exact absurd (hother j stamp₁ (hid ▸ hfirst)) hj
  · rw [Function.update_of_ne hj] at hfirst
    rw [Function.update_of_ne hk] at hsecond
    exact hunique j k id' stamp₁ stamp₂ hfirst hsecond

/-! ## Stamps -/

theorem stampMs_ne_zero (time : ℕ) : stampMs time ≠ 0 := by
  unfold stampMs
  split
  · decide
  · assumption

theorem stampMs_eq (time : ℕ) : stampMs time = ticks (stampTime time) := by
  unfold stampMs stampTime
  split
  · rename_i hzero
    have hadd := ticks_add time 1
    rw [hzero] at hadd
    exact hadd
  · rfl

theorem le_stampTime (time : ℕ) : time ≤ stampTime time := by
  unfold stampTime
  split
  · exact Nat.le_succ time
  · exact Nat.le_refl time

/-- A stamp that looks a period old is a period old, unless it is ahead of the reading. -/
theorem period_le_of_aged {last time : ℕ} (hordered : stampTime last ≤ time)
    (haged : BRIDGE_VIRT_NODEINFO_PERIOD_MS ≤ ticks time - stampMs last) :
    last + period ≤ time := by
  rw [UInt32.le_iff_toNat_le, stampMs_eq, toNat_ticks_sub hordered] at haged
  have hstamp := le_stampTime last
  have hmod := Nat.mod_le (time - stampTime last) (2 ^ 32)
  unfold period
  omega

theorem lastDue_append (history : List Check) (check : Check) (id : UInt32) :
    lastDue (history ++ [check]) id =
      if check.id = id ∧ check.due = true then some check.time else lastDue history id := by
  simp [lastDue]

/-- A due report before is at or before the last one. -/
theorem lastDue_of_mem {history : List Check} (hlimited : RateLimited history) {check : Check}
    (hmem : check ∈ history) (hdue : check.due = true) :
    ∃ last, lastDue history check.id = some last ∧ check.time ≤ last := by
  induction history using List.reverseRecOn with
  | nil => cases hmem
  | append_singleton earlier later ih =>
      have hapart := List.pairwise_append.mp hlimited.apart
      rw [lastDue_append]
      by_cases hlater : later.id = check.id ∧ later.due = true
      · rw [if_pos hlater]
        refine ⟨later.time, rfl, ?_⟩
        rcases List.mem_append.mp hmem with hold | hnew
        · have hperiod := hapart.2.2 check hold later List.mem_cons_self hlater.1.symm hdue
            hlater.2
          omega
        · rw [List.mem_singleton.mp hnew]
      · rw [if_neg hlater]
        rcases List.mem_append.mp hmem with hold | hnew
        · have hearlier : RateLimited earlier := by
            refine ⟨fun before found after heq hfresh => ?_, hapart.1⟩
            exact hlimited.first before found (after ++ [later]) (by rw [heq]; simp) hfresh
          exact ih hearlier hold
        · rw [List.mem_singleton.mp hnew] at hdue hlater
          exact absurd ⟨rfl, hdue⟩ hlater

/-- No due report, no last one. -/
theorem lastDue_eq_none {history : List Check} {id : UInt32}
    (hnone : ∀ check ∈ history, check.id ≠ id) : lastDue history id = none := by
  induction history using List.reverseRecOn with
  | nil => rfl
  | append_singleton earlier later ih =>
      rw [lastDue_append, if_neg fun hlater => hnone later (by simp) hlater.1]
      exact ih fun check hmem => hnone check (List.mem_append_left _ hmem)

/-! ## The steps -/

/-- What the table knows of the past. -/
structure Remembers (state : State Task) (history : List Check) : Prop where
  unique : Unique state.table
  sighted : ∀ task id, (state.phase task).id? = some id → lastDue history id = none →
    Stamped state.table id 0
  stamps : ∀ id stamp, Stamped state.table id stamp → stamp ≠ 0 →
    ∃ last, lastDue history id = some last ∧ stamp = stampMs last
  last : ∀ id last, lastDue history id = some last →
    Stamped state.table id (stampMs last) ∨ Over state id last

omit [DecidableEq Task] in
/-- An id that was never due has the stamp 0 if it is in the table. -/
theorem Remembers.stamp_eq_zero {state : State Task} {history : List Check}
    (hremembers : Remembers state history) {id stamp : UInt32}
    (hstamped : Stamped state.table id stamp) (hnever : lastDue history id = none) :
    stamp = 0 := by
  by_contra hne
  obtain ⟨last, hlast, -⟩ := hremembers.stamps id stamp hstamped hne
  rw [hnever] at hlast
  cases hlast

/-- A task's step to a phase without a reading keeps what is over. -/
theorem Over.setPhase {state : State Task} {id : UInt32} {last : ℕ} (hover : Over state id last)
    (table : Table) (task : Task) {phase : Phase} (hphase : ∀ id time, phase ≠ .reading id time) :
    Over ({ state with table := table }.setPhase task phase) id last := by
  refine ⟨hover.1, fun other time hreading => ?_⟩
  by_cases hother : other = task
  · subst hother
    simp only [State.setPhase, Function.update_self] at hreading
    exact absurd hreading (hphase id time)
  · simp only [State.setPhase, Function.update_of_ne hother] at hreading
    exact hover.2 other time hreading

/-- The table after `touch`: the id is in it, and nothing else is lost but what may be. -/
theorem remembers_mint {state : State Task} {history : List Check}
    (hremembers : Remembers state history) (task : Task) (id : UInt32)
    (hevicts : state.table.find id = none → ∀ victim,
      state.table (slotFor state.table) = some victim →
        ∃ last, lastDue history victim.id = some last ∧ Over state victim.id last) :
    Remembers ({ state with table := state.table.touch id }.setPhase task (.minted id))
      history := by
  have hkeeps : ∀ id' last, Over state id' last →
      Over ({ state with table := state.table.touch id }.setPhase task (.minted id)) id' last :=
    fun id' last hover => hover.setPhase _ task (by simp)
  have hpending : ∀ other id', ((Function.update state.phase task (.minted id)) other).id? =
      some id' → id' = id ∨ (state.phase other).id? = some id' := by
    intro other id' hid
    by_cases hother : other = task
    · subst hother
      rw [Function.update_self] at hid
      exact .inl (Option.some.inj hid).symm
    · rw [Function.update_of_ne hother] at hid
      exact .inr hid
  cases hfind : state.table.find id with
  | some i =>
      have hsame := touch_of_find hfind
      rw [hsame] at hkeeps ⊢
      obtain ⟨stamp, hslot⟩ := slot_of_find hfind
      refine ⟨hremembers.unique, fun other id' hid hnever => ?_, hremembers.stamps,
        fun id' last hlast => (hremembers.last id' last hlast).imp_right (hkeeps id' last)⟩
      rcases hpending other id' hid with rfl | hold
      · have hzero := hremembers.stamp_eq_zero ⟨i, hslot⟩ hnever
        exact ⟨i, hzero ▸ hslot⟩
      · exact hremembers.sighted other id' hold hnever
  | none =>
      have hnew := touch_of_not_find hfind
      rw [hnew] at hkeeps ⊢
      have hfresh := find_eq_none_iff.mp hfind
      refine ⟨unique_update hremembers.unique fun j stamp hslot => absurd ⟨j, hslot⟩ (hfresh stamp),
        fun other id' hid hnever => ?_, fun id' stamp hstamped hne => ?_,
        fun id' last hlast => ?_⟩
      · rw [State.setPhase, stamped_update]
        rcases hpending other id' hid with rfl | hold
        · exact .inl ⟨rfl, rfl⟩
        · obtain ⟨i, hslot⟩ := hremembers.sighted other id' hold hnever
          refine .inr ⟨i, ?_, hslot⟩
          rintro rfl
          obtain ⟨last, hlast, -⟩ := hevicts hfind _ hslot
          rw [hnever] at hlast
          cases hlast
      · rcases stamped_update.mp hstamped with ⟨-, rfl⟩ | ⟨i, -, hslot⟩
        · exact absurd rfl hne
        · exact hremembers.stamps id' stamp ⟨i, hslot⟩ hne
      · rcases hremembers.last id' last hlast with ⟨i, hslot⟩ | hover
        · by_cases hi : i = slotFor state.table
          · subst hi
            obtain ⟨last', hlast', hover⟩ := hevicts hfind _ hslot
            obtain rfl := Option.some.inj (hlast.symm.trans hlast')
            exact .inr (hkeeps id' last hover)
          · exact .inl (stamped_update.mpr (.inr ⟨i, hi, hslot⟩))
        · exact .inr (hkeeps id' last hover)

theorem remembers_read {state : State Task} {history : List Check}
    (hremembers : Remembers state history) {task : Task} {id : UInt32}
    (hphase : state.phase task = .minted id) (wait : ℕ) :
    Remembers ({ state with clock := state.clock + wait }.setPhase task
      (.reading id (state.clock + wait))) history := by
  refine ⟨hremembers.unique, fun other id' hid hnever => ?_, hremembers.stamps,
    fun id' last hlast => (hremembers.last id' last hlast).imp_right fun hover => ?_⟩
  · by_cases hother : other = task
    · subst hother
      simp only [State.setPhase, Function.update_self, Phase.id?] at hid
      exact hremembers.sighted other id' (by rw [hphase]; exact hid) hnever
    · simp only [State.setPhase, Function.update_of_ne hother] at hid
      exact hremembers.sighted other id' hid hnever
  · refine ⟨Nat.le_add_right_of_le hover.1, fun other time hreading => ?_⟩
    by_cases hother : other = task
    · subst hother
      simp only [State.setPhase, Function.update_self, Phase.reading.injEq] at hreading
      rw [← hreading.2]
      exact Nat.le_add_right_of_le hover.1
    · simp only [State.setPhase, Function.update_of_ne hother] at hreading
      exact hover.2 other time hreading

theorem nodeInfoDue_cases (id now : UInt32) (table : Table) :
    (table.find id = none ∧ nodeInfoDue id now table = (false, table)) ∨
      ∃ i stamp, table i = some ⟨id, stamp⟩ ∧
        ((stamp = 0 ∨ BRIDGE_VIRT_NODEINFO_PERIOD_MS ≤ now - stamp) ∧
            nodeInfoDue id now table =
              (true, Function.update table i (some ⟨id, if now = 0 then 1 else now⟩)) ∨
          stamp ≠ 0 ∧ nodeInfoDue id now table = (false, table)) := by
  cases hfind : table.find id with
  | none => exact .inl ⟨rfl, by simp [nodeInfoDue, hfind]⟩
  | some i =>
      obtain ⟨stamp, hslot⟩ := slot_of_find hfind
      refine .inr ⟨i, stamp, hslot, ?_⟩
      by_cases hdue : stamp = 0 ∨ BRIDGE_VIRT_NODEINFO_PERIOD_MS ≤ now - stamp
      · exact .inl ⟨hdue, by simp [nodeInfoDue, hfind, hslot, hdue]⟩
      · exact .inr ⟨(not_or.mp hdue).1, by simp [nodeInfoDue, hfind, hslot, hdue]⟩

/-- The id of another task's phase. -/
theorem id_of_setPhase_idle {state : State Task} {table : Table} {task other : Task} {id : UInt32}
    (hid : ((({ state with table := table }.setPhase task .idle).phase) other).id? = some id) :
    (state.phase other).id? = some id := by
  by_cases hother : other = task
  · subst hother
    simp only [State.setPhase, Function.update_self] at hid
    cases hid
  · simpa only [State.setPhase, Function.update_of_ne hother] using hid

/-- A message whose sender is not due. -/
theorem remembers_silent {state : State Task} {history : List Check}
    (hremembers : Remembers state history) (task : Task) (id : UInt32) (time : ℕ) :
    Remembers ({ state with table := state.table }.setPhase task .idle)
      (history ++ [⟨id, time, false⟩]) := by
  have hlastDue : ∀ id', lastDue (history ++ [⟨id, time, false⟩]) id' = lastDue history id' :=
    fun id' => by simp [lastDue_append]
  constructor
  · exact hremembers.unique
  · intro other id' hid hnever
    rw [hlastDue] at hnever
    exact hremembers.sighted other id' (id_of_setPhase_idle hid) hnever
  · intro id' stamp hstamped hne
    rw [hlastDue]
    exact hremembers.stamps id' stamp hstamped hne
  · intro id' last hlast
    rw [hlastDue] at hlast
    exact (hremembers.last id' last hlast).imp_right fun hover =>
      hover.setPhase state.table task (by simp)

/-- A message whose sender is advertised. -/
theorem remembers_due {state : State Task} {history : List Check}
    (hremembers : Remembers state history) (task : Task) {id stamp : UInt32} {i : Index}
    (hslot : state.table i = some ⟨id, stamp⟩) (time : ℕ) :
    Remembers
      ({ state with
          table := Function.update state.table i (some ⟨id, stampMs time⟩) }.setPhase task .idle)
      (history ++ [⟨id, time, true⟩]) := by
  have hlastDue : ∀ id', lastDue (history ++ [⟨id, time, true⟩]) id' =
      if id = id' then some time else lastDue history id' :=
    fun id' => by simp [lastDue_append]
  have hother : ∀ id' stamp', id ≠ id' → Stamped state.table id' stamp' →
      Stamped (Function.update state.table i (some ⟨id, stampMs time⟩)) id' stamp' := by
    rintro id' stamp' hne ⟨j, hold⟩
    refine stamped_update.mpr (.inr ⟨j, ?_, hold⟩)
    rintro rfl
    rw [hslot] at hold
    injection Option.some.inj hold with hid
    exact hne hid
  constructor
  · exact unique_update hremembers.unique fun j stamp' hold =>
      hremembers.unique j i id stamp' stamp hold hslot
  · intro other id' hid hnever
    rw [hlastDue] at hnever
    by_cases hid' : id = id'
    · rw [if_pos hid'] at hnever
      cases hnever
    · rw [if_neg hid'] at hnever
      exact hother id' 0 hid' (hremembers.sighted other id' (id_of_setPhase_idle hid) hnever)
  · intro id' stamp' hstamped hne
    rw [hlastDue]
    rcases stamped_update.mp hstamped with ⟨rfl, rfl⟩ | ⟨j, hj, hold⟩
    · exact ⟨time, if_pos rfl, rfl⟩
    · rw [if_neg]
      · exact hremembers.stamps id' stamp' ⟨j, hold⟩ hne
      · rintro rfl
        exact hj (hremembers.unique j i id stamp' stamp hold hslot)
  · intro id' last hlast
    rw [hlastDue] at hlast
    by_cases hid' : id = id'
    · rw [if_pos hid'] at hlast
      obtain rfl := Option.some.inj hlast
      exact .inl (stamped_update.mpr (.inl ⟨hid'.symm, rfl⟩))
    · rw [if_neg hid'] at hlast
      exact (hremembers.last id' last hlast).imp (hother id' _ hid') fun hover =>
        hover.setPhase _ task (by simp)

/-- The table of a task that is done with its message. -/
theorem remembers_mark {state : State Task} {history : List Check}
    (hremembers : Remembers state history) (task : Task) (id : UInt32) (time : ℕ) :
    Remembers
      ({ state with table := (nodeInfoDue id (ticks time) state.table).2 }.setPhase task .idle)
      (history ++ [⟨id, time, (nodeInfoDue id (ticks time) state.table).1⟩]) := by
  rcases nodeInfoDue_cases id (ticks time) state.table with
    ⟨-, hresult⟩ | ⟨i, stamp, hslot, ⟨-, hresult⟩ | ⟨-, hresult⟩⟩
  · rw [hresult]
    exact remembers_silent hremembers task id time
  · rw [hresult]
    exact remembers_due hremembers task hslot time
  · rw [hresult]
    exact remembers_silent hremembers task id time

omit [DecidableEq Task] in
/-- The first look-up of an id finds it due. -/
theorem due_of_never {state : State Task} {history : List Check}
    (hremembers : Remembers state history) {task : Task} {id : UInt32} {time : ℕ}
    (hphase : state.phase task = .reading id time) (hnever : lastDue history id = none) :
    (nodeInfoDue id (ticks time) state.table).1 = true := by
  have hstamped := hremembers.sighted task id (by rw [hphase]; rfl) hnever
  rcases nodeInfoDue_cases id (ticks time) state.table with
    ⟨hfind, -⟩ | ⟨i, stamp, hslot, ⟨-, hresult⟩ | ⟨hne, -⟩⟩
  · exact absurd hstamped (find_eq_none_iff.mp hfind 0)
  · rw [hresult]
  · exact absurd (hremembers.stamp_eq_zero ⟨i, hslot⟩ hnever) hne

omit [DecidableEq Task] in
/-- A due report is a period after the last one. -/
theorem period_le_of_due {state : State Task} {history : List Check}
    (hremembers : Remembers state history) {task : Task} {id : UInt32} {time last : ℕ}
    (hphase : state.phase task = .reading id time) (hlast : lastDue history id = some last)
    (hordered : stampTime last ≤ time)
    (hdue : (nodeInfoDue id (ticks time) state.table).1 = true) : last + period ≤ time := by
  rcases nodeInfoDue_cases id (ticks time) state.table with
    ⟨-, hresult⟩ | ⟨i, stamp, hslot, ⟨haged, -⟩ | ⟨-, hresult⟩⟩
  · rw [hresult] at hdue
    cases hdue
  · by_cases hzero : stamp = 0
    · subst hzero
      rcases hremembers.last id last hlast with ⟨j, hold⟩ | hover
      · obtain rfl := hremembers.unique i j id 0 _ hslot hold
        rw [hslot] at hold
        injection Option.some.inj hold with _ hstamp
        exact absurd hstamp.symm (stampMs_ne_zero last)
      · exact hover.2 task time hphase
    · obtain ⟨last', hlast', rfl⟩ := hremembers.stamps id stamp ⟨i, hslot⟩ hzero
      obtain rfl := Option.some.inj (hlast.symm.trans hlast')
      exact period_le_of_aged hordered (haged.resolve_left hzero)
  · rw [hresult] at hdue
    cases hdue

theorem RateLimited.append {history : List Check} (hlimited : RateLimited history)
    {check : Check} (hfirst : lastDue history check.id = none → check.due = true)
    (hapart : ∀ last, lastDue history check.id = some last → check.due = true →
      last + period ≤ check.time) : RateLimited (history ++ [check]) := by
  constructor
  · intro before found after heq hfresh
    rcases List.eq_nil_or_concat after with rfl | ⟨rest, last, rfl⟩
    · obtain ⟨rfl, hsame⟩ := List.append_inj' heq rfl
      obtain rfl := List.singleton_inj.mp hsame
      exact hfirst (lastDue_eq_none hfresh)
    · rw [List.concat_eq_append, ← List.cons_append, ← List.append_assoc] at heq
      exact hlimited.first before found rest (List.append_inj' heq rfl).1 hfresh
  · refine List.pairwise_append.mpr ⟨hlimited.apart, List.pairwise_singleton _ _, ?_⟩
    intro earlier hmem later hlater hid hdue hdue'
    obtain rfl := List.mem_singleton.mp hlater
    obtain ⟨last, hlast, hle⟩ := lastDue_of_mem hlimited hmem hdue
    rw [hid] at hlast
    have hperiod := hapart last hlast hdue'
    omega

/-- An allowed step keeps the table's memory and the limit. -/
theorem step_keeps {state : State Task} {history : List Check} {event : Event Task}
    (hremembers : Remembers state history) (hlimited : RateLimited history)
    (hallowed : Allowed state history event) :
    Remembers (step state event).1 (history ++ (step state event).2) ∧
      RateLimited (history ++ (step state event).2) := by
  cases event with
  | mint task label avoidId =>
      cases hphase : state.phase task with
      | idle =>
          simp only [step, hphase, List.append_nil]
          exact ⟨remembers_mint hremembers task _ (hallowed hphase), hlimited⟩
      | minted id => simpa only [step, hphase, List.append_nil] using ⟨hremembers, hlimited⟩
      | reading id time => simpa only [step, hphase, List.append_nil] using ⟨hremembers, hlimited⟩
  | read task wait =>
      cases hphase : state.phase task with
      | minted id =>
          simp only [step, hphase, List.append_nil]
          exact ⟨remembers_read hremembers hphase wait, hlimited⟩
      | idle => simpa only [step, hphase, List.append_nil] using ⟨hremembers, hlimited⟩
      | reading id time => simpa only [step, hphase, List.append_nil] using ⟨hremembers, hlimited⟩
  | mark task =>
      cases hphase : state.phase task with
      | reading id time =>
          simp only [step, hphase]
          exact ⟨remembers_mark hremembers task id time,
            hlimited.append (due_of_never hremembers hphase) fun last hlast =>
              period_le_of_due hremembers hphase hlast (hallowed id time hphase last hlast)⟩
      | idle => simpa only [step, hphase, List.append_nil] using ⟨hremembers, hlimited⟩
      | minted id => simpa only [step, hphase, List.append_nil] using ⟨hremembers, hlimited⟩

omit [DecidableEq Task] in
theorem remembers_start (bootMs : ℕ) : Remembers (@start Task bootMs) [] := by
  constructor
  · intro i j id stamp stamp' hslot
    cases hslot
  · intro task id hid
    cases hid
  · rintro id stamp ⟨i, hslot⟩
    cases hslot
  · intro id last hlast
    cases hlast

/-- In every run of any number of tasks all of whose steps are allowed, the first sighting of
an id is due, and two due reports of it are a period apart. -/
theorem rateLimited_of_allowed (bootMs : ℕ) (events : List (Event Task))
    (hallowed : AlongHistory step Allowed (start bootMs) [] events) :
    RateLimited (run step (start bootMs) events).2 := by
  have hstep : ∀ (state : State Task) history event,
      (Remembers state history ∧ RateLimited history) → Allowed state history event →
        Remembers (step state event).1 (history ++ (step state event).2) ∧
          RateLimited (history ++ (step state event).2) :=
    fun _ _ _ hinv hnext => step_keeps hinv.1 hinv.2 hnext
  have hlimited : RateLimited [] := ⟨by simp, List.Pairwise.nil⟩
  have hboth := invariant_alongHistory hstep events ⟨remembers_start bootMs, hlimited⟩ hallowed
  simpa using hboth.2

/-- The whole of one message. -/
def message (task : Task) (label : List UInt8) (wait : ℕ) : List (Event Task) :=
  [.mint task label 0, .read task wait, .mark task]

/-- One sender on two radios, a period apart. -/
def oneSender : List (Event Bool) := message false [0x41] 1000 ++ message true [0x41] 900000

theorem oneSender_rateLimited :
    (run step (start 0) oneSender).2 =
        [⟨hashLabel [0x41], 1000, true⟩, ⟨hashLabel [0x41], 901000, true⟩] ∧
      RateLimited (run step (start 0) oneSender).2 := by
  have hfree : ∀ victim, Table.empty (slotFor Table.empty) ≠ some victim := fun _ => nofun
  let heard := run step (start 0) (message false [0x41] 1000)
  have hfound : heard.1.table.find (nudge 0 8 (hashLabel [0x41])) ≠ none := by
    decide +kernel
  have hreading : (run step heard.1 [.mint true [0x41] 0, .read true 900000]).1.phase true =
      .reading (hashLabel [0x41]) 901000 := by
    decide +kernel
  have hlast : lastDue heard.2 (hashLabel [0x41]) = some 1000 := by
    decide +kernel
  refine ⟨by decide +kernel, rateLimited_of_allowed 0 oneSender ⟨?_, trivial, ?_, ?_, trivial, ?_,
    trivial⟩⟩
  · exact fun _ _ victim hvictim => absurd hvictim (hfree victim)
  · exact fun id time _ last hlast => nomatch hlast
  · exact fun _ hnone => absurd hnone hfound
  · intro id time hphase last hdue
    obtain ⟨rfl, rfl⟩ := Phase.reading.inj (hreading.symm.trans hphase)
    obtain rfl := Option.some.inj (hlast.symm.trans hdue)
    decide +kernel

/-! ## Runs that break the limit -/

/-- Two tasks with the same sender; the first reads the clock a millisecond before the
second, and takes the lock after it. -/
def overtaken : List (Event Bool) :=
  [.mint false [0x41] 0, .mint true [0x41] 0, .read false 1000, .read true 1, .mark true,
    .mark false]

/-- One task and 33 senders, and then the first of them again. -/
def manySenders : List (Event Bool) :=
  ((List.range 33).flatMap fun i => message false [0x41, UInt8.ofNat (0x30 + i)] 1000) ++
    message false [0x41, 0x30] 1000

/-- In both runs a sender is advertised twice within a period: a millisecond apart, and after
the half minute in which 32 others were heard. -/
theorem not_rateLimited :
    ¬ RateLimited (run step (start 0) overtaken).2 ∧
      ¬ RateLimited (run step (start 0) manySenders).2 :=
  ⟨fun hlimited => absurd hlimited.apart (by decide +kernel),
    fun hlimited => absurd hlimited.apart (by decide +kernel)⟩

end LoraBridge.Advertising
