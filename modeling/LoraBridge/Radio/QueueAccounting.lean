import LoraBridge.Radio.RadioTask

/-!
# What becomes of a queued packet

A ledger gives every accepted packet, in the order of the pushes, exactly one fate:
still queued, latched, transmitted, dropped by the queue, or given up by the
scheduler.  Every step of the tasks keeps such a ledger.
-/

namespace LoraBridge.QueueAccounting

open LoraBridge.Machine LoraBridge.RadioTask LoraBridge.RouteQueue LoraBridge.WrapClock

inductive Fate where
  | queued
  | latched
  | transmitted
  | overflow
  | stale
  | logged (reason : Drop)
  deriving DecidableEq

abbrev Ledger := List (Entry × Fate)

/-- The packets of one fate, in the order they were pushed. -/
def withFate (fate : Fate) (ledger : Ledger) : List Entry :=
  (ledger.filter fun row => row.2 = fate).map Prod.fst

/-- Packets that share a fate. -/
def rows (fate : Fate) (entries : List Entry) : Ledger :=
  entries.map fun entry => (entry, fate)

@[simp]
def pushedBy : Output → List Entry
  | .pushed entry => [entry]
  | _ => []

@[simp]
def startedBy : Output → List Entry
  | .started entry _ _ => [entry]
  | _ => []

@[simp]
def droppedBy (reason : Drop) : Output → List Entry
  | .dropped other entry => if other = reason then [entry] else []
  | _ => []

/-- The packets pushed, transmitted and given up in a history. -/
def pushedOf (history : List Output) : List Entry := history.flatMap pushedBy

def startedOf (history : List Output) : List Entry := history.flatMap startedBy

def droppedOf (reason : Drop) (history : List Output) : List Entry :=
  history.flatMap (droppedBy reason)

/-- A ledger accounts for a state and its history. -/
structure Accounts {cap : ℕ} (state : State cap) (history : List Output)
    (ledger : Ledger) : Prop where
  pushed : pushedOf history = ledger.map Prod.fst
  queued : state.queue.entries = withFate .queued ledger
  latched : state.pending.toList = withFate .latched ledger
  transmitted : startedOf history = withFate .transmitted ledger
  counted : state.queue.dropped = UInt32.ofNat
    ((withFate .overflow ledger).length + (withFate .stale ledger).length)
  logged : ∀ reason, droppedOf reason history = withFate (.logged reason) ledger

/-! ## Ledgers -/

@[simp]
theorem pushedOf_nil : pushedOf [] = [] := rfl

@[simp]
theorem startedOf_nil : startedOf [] = [] := rfl

@[simp]
theorem droppedOf_nil (reason : Drop) : droppedOf reason [] = [] := rfl

@[simp]
theorem pushedOf_cons (output : Output) (rest : List Output) :
    pushedOf (output :: rest) = pushedBy output ++ pushedOf rest := rfl

@[simp]
theorem startedOf_cons (output : Output) (rest : List Output) :
    startedOf (output :: rest) = startedBy output ++ startedOf rest := rfl

@[simp]
theorem droppedOf_cons (reason : Drop) (output : Output) (rest : List Output) :
    droppedOf reason (output :: rest) =
      droppedBy reason output ++ droppedOf reason rest := rfl

@[simp]
theorem pushedOf_append (before after : List Output) :
    pushedOf (before ++ after) = pushedOf before ++ pushedOf after := by
  simp [pushedOf]

@[simp]
theorem startedOf_append (before after : List Output) :
    startedOf (before ++ after) = startedOf before ++ startedOf after := by
  simp [startedOf]

@[simp]
theorem droppedOf_append (reason : Drop) (before after : List Output) :
    droppedOf reason (before ++ after) =
      droppedOf reason before ++ droppedOf reason after := by
  simp [droppedOf]

@[simp]
theorem withFate_append (fate : Fate) (before after : Ledger) :
    withFate fate (before ++ after) = withFate fate before ++ withFate fate after := by
  simp [withFate]

@[simp]
theorem withFate_nil (fate : Fate) : withFate fate [] = [] := rfl

@[simp]
theorem withFate_cons (fate : Fate) (row : Entry × Fate) (ledger : Ledger) :
    withFate fate (row :: ledger) =
      if row.2 = fate then row.1 :: withFate fate ledger else withFate fate ledger := by
  by_cases hfate : row.2 = fate <;> simp [withFate, hfate]

@[simp]
theorem withFate_rows (fate other : Fate) (entries : List Entry) :
    withFate fate (rows other entries) = if other = fate then entries else [] := by
  by_cases hfate : other = fate <;> simp [withFate, rows, hfate, List.filter_map,
    Function.comp_def]

@[simp]
theorem map_fst_rows (fate : Fate) (entries : List Entry) :
    (rows fate entries).map Prod.fst = entries := by
  simp [rows, Function.comp_def]

theorem rows_append (fate : Fate) (before after : List Entry) :
    rows fate (before ++ after) = rows fate before ++ rows fate after := by
  simp [rows]

/-- The ledger of a state: settled packets, the latched one, what the queue dropped
behind it, and the queue. -/
def ledgerOf {cap : ℕ} (state : State cap) (settled skipped : Ledger) : Ledger :=
  settled ++ rows .latched state.pending.toList ++ skipped ++
    rows .queued state.queue.entries

/-- Behind the latched packet the queue has only dropped. -/
structure Shape {cap : ℕ} (state : State cap) (history : List Output)
    (settled skipped : Ledger) : Prop where
  settled_fates : ∀ row ∈ settled, row.2 ≠ .queued ∧ row.2 ≠ .latched
  skipped_fates : ∀ row ∈ skipped, row.2 = .overflow ∨ row.2 = .stale
  pushed : pushedOf history = (ledgerOf state settled skipped).map Prod.fst
  transmitted : startedOf history = withFate .transmitted settled
  counted : state.queue.dropped = UInt32.ofNat
    ((withFate .overflow (settled ++ skipped)).length +
      (withFate .stale (settled ++ skipped)).length)
  logged : ∀ reason, droppedOf reason history = withFate (.logged reason) settled

def Accounted {cap : ℕ} (state : State cap) (history : List Output) : Prop :=
  ∃ settled skipped, Shape state history settled skipped

theorem withFate_eq_nil {fate : Fate} {ledger : Ledger}
    (hnone : ∀ row ∈ ledger, row.2 ≠ fate) : withFate fate ledger = [] := by
  have hfilter : ledger.filter (fun row => row.2 = fate) = [] :=
    List.filter_eq_nil_iff.mpr fun row hmem => by simpa using hnone row hmem
  rw [withFate, hfilter]
  rfl

section Shape

variable {cap : ℕ} {settings : Settings} {config : Config} {state : State cap}
  {history : List Output} {settled skipped : Ledger}

/-- What the queue dropped has no other fate. -/
theorem Shape.skipped_eq_nil (hshape : Shape state history settled skipped) {fate : Fate}
    (hoverflow : fate ≠ .overflow) (hstale : fate ≠ .stale) :
    withFate fate skipped = [] := by
  refine withFate_eq_nil fun row hmem hfate => ?_
  rcases hshape.skipped_fates row hmem with hrow | hrow
  · exact hoverflow (hfate.symm.trans hrow)
  · exact hstale (hfate.symm.trans hrow)

theorem Shape.accounts (hshape : Shape state history settled skipped) :
    Accounts state history (ledgerOf state settled skipped) where
  pushed := hshape.pushed
  queued := by
    have hsettled : withFate .queued settled = [] :=
      withFate_eq_nil fun row hmem => (hshape.settled_fates row hmem).1
    simp [ledgerOf, hsettled, hshape.skipped_eq_nil]
  latched := by
    have hsettled : withFate .latched settled = [] :=
      withFate_eq_nil fun row hmem => (hshape.settled_fates row hmem).2
    simp [ledgerOf, hsettled, hshape.skipped_eq_nil]
  transmitted := by simp [ledgerOf, hshape.transmitted, hshape.skipped_eq_nil]
  counted := by simpa [ledgerOf] using hshape.counted
  logged reason := by simp [ledgerOf, hshape.logged, hshape.skipped_eq_nil]

theorem accounted_start (settings : Settings) (first : Fin cap) (allocated : Bool)
    (bootMs : ℕ) : Accounted (start settings first allocated bootMs) [] :=
  ⟨[], [], by simp, by simp, by simp [ledgerOf, start, rows], rfl,
    by cases allocated <;> rfl, fun _ => rfl⟩

/-! ## The parts of a turn -/

theorem accounted_pushOne (packet : Push) (haccounted : Accounted state history) :
    Accounted (pushOne state packet).1 (history ++ (pushOne state packet).2) := by
  rcases pushOne_cases state packet with heq | ⟨queue, hpush, heq⟩
  · simpa [heq] using haccounted
  · obtain ⟨settled, skipped, hshape⟩ := haccounted
    rw [heq]
    obtain ⟨-, ⟨-, hdropped, hentries⟩ | ⟨oldest, rest, hfull, -, hdropped, hentries⟩⟩ :=
      push_spec hpush
    · refine ⟨settled, skipped, hshape.settled_fates, hshape.skipped_fates, ?_, ?_, ?_, ?_⟩
      · simp [hshape.pushed, ledgerOf, hentries, rows_append]
      · simp [hshape.transmitted]
      · exact hdropped.trans hshape.counted
      · simp [hshape.logged]
    · -- the oldest queued packet joins those dropped behind the latched one
      refine ⟨settled, skipped ++ [(oldest, .overflow)], hshape.settled_fates, ?_, ?_, ?_, ?_, ?_⟩
      · intro row hmem
        rcases List.mem_append.mp hmem with hold | hnew
        · exact hshape.skipped_fates row hold
        · exact .inl (by rw [List.mem_singleton.mp hnew])
      · simp [hshape.pushed, ledgerOf, hentries, hfull, rows_append]
      · simp [hshape.transmitted]
      · simp only [hdropped, hshape.counted]
        apply UInt32.toNat_inj.mp
        simp
        omega
      · simp [hshape.logged]

/-- The packets in front of the next fresh one become stale, and it is latched. -/
theorem accounted_latch (turn : Turn) (haccounted : Accounted state history) :
    Accounted (latch turn state) history := by
  obtain ⟨settled, skipped, hshape⟩ := haccounted
  cases hpending : state.pending with
  | some entry => exact ⟨settled, skipped, by simpa [latch, hpending] using hshape⟩
  | none =>
      obtain ⟨hvalue, hrest, hdropped, -⟩ := pop_spec turn.popAt state.queue
      let old := rows .stale
        (state.queue.entries.takeWhile (stale state.queue.maxAgeMs turn.popAt))
      have hsplit : state.queue.entries =
          state.queue.entries.takeWhile (stale state.queue.maxAgeMs turn.popAt) ++
            ((pop turn.popAt state.queue).1.toList ++
              (pop turn.popAt state.queue).2.entries) := by
        rw [hvalue, hrest]
        conv_lhs => rw [← List.takeWhile_append_dropWhile
          (p := stale state.queue.maxAgeMs turn.popAt) (l := state.queue.entries)]
        cases state.queue.entries.dropWhile (stale state.queue.maxAgeMs turn.popAt) <;> rfl
      refine ⟨settled ++ skipped ++ old, [], ?_, by simp, ?_, ?_, ?_, ?_⟩
      · intro row hmem
        rcases List.mem_append.mp hmem with hmem | hnew
        · rcases List.mem_append.mp hmem with hold | hskip
          · exact hshape.settled_fates row hold
          · rcases hshape.skipped_fates row hskip with hfate | hfate <;> simp [hfate]
        · obtain ⟨entry, -, rfl⟩ := List.mem_map.mp hnew
          simp
      · have hpushed := hshape.pushed
        rw [ledgerOf, hpending] at hpushed
        rw [hpushed]
        conv_lhs => rw [hsplit]
        simp [ledgerOf, latch, hpending, old]
      · simp [hshape.transmitted, hshape.skipped_eq_nil, old]
      · have hcounted := hshape.counted
        simp only [latch, hpending, hdropped, hcounted]
        apply UInt32.toNat_inj.mp
        simp [old]
        omega
      · intro reason
        simp [hshape.logged, hshape.skipped_eq_nil, old]

/-- The latched packet gets its fate, and what was dropped behind it follows. -/
theorem Shape.settle (hshape : Shape state history settled skipped) {entry : Entry}
    (hpending : state.pending = some entry) {next : State cap} {outputs : List Output}
    (fate : Fate) (hqueue : next.queue = state.queue) (hnone : next.pending = none)
    (hsettled : fate ≠ .queued ∧ fate ≠ .latched ∧ fate ≠ .overflow ∧ fate ≠ .stale)
    (hpushed : pushedOf outputs = [])
    (hstarted : startedOf outputs = withFate .transmitted [(entry, fate)])
    (hdropped : ∀ reason, droppedOf reason outputs =
      withFate (.logged reason) [(entry, fate)]) :
    Shape next (history ++ outputs) (settled ++ (entry, fate) :: skipped) [] := by
  refine ⟨?_, by simp, ?_, ?_, ?_, ?_⟩
  · intro row hmem
    rcases List.mem_append.mp hmem with hold | hnew
    · exact hshape.settled_fates row hold
    · rcases List.mem_cons.mp hnew with rfl | hskip
      · exact ⟨hsettled.1, hsettled.2.1⟩
      · rcases hshape.skipped_fates row hskip with hfate | hfate <;> simp [hfate]
  · simp [hshape.pushed, hpushed, ledgerOf, hpending, hqueue, hnone, rows]
  · simp [hshape.transmitted, hstarted, hshape.skipped_eq_nil]
  · simp [hqueue, hshape.counted, hsettled]
  · intro reason
    simp [hshape.logged, hdropped, hshape.skipped_eq_nil]

theorem accounted_expire (turn : Turn) (haccounted : Accounted state history) :
    Accounted (expire settings turn state).1
      (history ++ (expire settings turn state).2) := by
  rcases expire_cases settings turn state with ⟨heq, -⟩ | ⟨entry, hpending, -, heq⟩
  · simpa [heq] using haccounted
  · obtain ⟨settled, skipped, hshape⟩ := haccounted
    rw [heq]
    exact ⟨_, [], hshape.settle hpending (.logged .latchStale) rfl rfl (by simp)
      (by simp) (by simp) (by simp)⟩

/-- Every way CAD and TX go keeps the latched packet or settles it. -/
theorem accounted_attempt (turn : Turn) (entry : Entry)
    (haccounted : Accounted state history) (hpending : state.pending = some entry) :
    Accounted (attempt settings config turn entry state).1
      (history ++ (attempt settings config turn entry state).2) := by
  obtain ⟨settled, skipped, hshape⟩ := haccounted
  unfold attempt
  split
  · refine ⟨settled, skipped, hshape.settled_fates, hshape.skipped_fates, ?_, ?_,
      hshape.counted, ?_⟩
    · simpa [ledgerOf] using hshape.pushed
    · simpa using hshape.transmitted
    · simpa using hshape.logged
  · split
    · exact ⟨_, [], hshape.settle hpending (.logged .dwell) rfl rfl (by simp)
        (by simp) (by simp) (by simp)⟩
    · split
      · exact ⟨_, [], hshape.settle hpending .transmitted rfl rfl (by simp)
          (by simp) (by simp) (by simp)⟩
      · exact ⟨_, [], hshape.settle hpending (.logged .startFail) rfl rfl (by simp)
          (by simp) (by simp) (by simp)⟩

theorem accounted_serviceTx (turn : Turn) (haccounted : Accounted state history) :
    Accounted (serviceTx settings turn state) history := by
  obtain ⟨settled, skipped, hshape⟩ := haccounted
  unfold serviceTx
  split
  · exact ⟨settled, skipped, hshape.settled_fates, hshape.skipped_fates, hshape.pushed,
      hshape.transmitted, hshape.counted, hshape.logged⟩
  · exact ⟨settled, skipped, hshape⟩

theorem invariant_accounted : Invariant settings config (@Accounted cap) where
  push packet _ _ haccounted := accounted_pushOne packet haccounted
  nodeInfo _ _ _ haccounted :=
    have ⟨settled, skipped, hshape⟩ := haccounted
    ⟨settled, skipped, hshape.settled_fates, hshape.skipped_fates, hshape.pushed,
      hshape.transmitted, hshape.counted, hshape.logged⟩
  latch turn _ _ haccounted := accounted_latch turn haccounted
  expire turn _ _ haccounted := accounted_expire turn haccounted
  service turn _ _ haccounted := accounted_serviceTx turn haccounted
  attempt turn entry _ _ haccounted hpending := accounted_attempt turn entry haccounted hpending

end Shape

/-! ## Ages -/

section Ages

variable {cap : ℕ} {settings : Settings} {config : Config} {turn : Turn}
  {state : State cap} {entry : Entry} {time : ℕ} {gap : UInt32}

/-- Only a send that was latched at the gate starts. -/
theorem pending_of_started
    (hstarted : .started entry time gap ∈ (radioTask settings config turn state).2) :
    (atGate settings config turn state).1.pending = some entry := by
  have hnot : ∀ packets, ∀ state : State cap,
      Output.started entry time gap ∉ (run pushOne state packets).2 :=
    fun packets state hmem => quiet_pushes state packets _ hmem
  unfold radioTask at hstarted
  split at hstarted
  · simp only [andThen, List.nil_append, List.mem_append] at hstarted
    rcases hstarted with hearly | hlate
    · exact absurd hearly (hnot _ _)
    · exact absurd hlate (hnot _ _)
  · simp only [andThen, List.mem_append] at hstarted
    rcases hstarted with (hgate | hsend) | hlate
    · exact (quiet_atGate settings config turn state _ hgate).elim
    · generalize (atGate settings config turn state).1 = gate at hsend ⊢
      unfold schedule at hsend
      cases hpending : gate.pending with
      | none => simp [hpending] at hsend
      | some latched =>
          simp only [hpending] at hsend
          split at hsend
          · unfold attempt at hsend
            split at hsend
            · simp at hsend
            · split at hsend
              · simp at hsend
              · split at hsend
                · simp at hsend
                  rw [hsend.1]
                · simp at hsend
          · simp at hsend
    · exact absurd hlate (hnot _ _)

/-- What is latched at the gate has passed the expiry check. -/
theorem fresh_atGate (hpending : (atGate settings config turn state).1.pending = some entry) :
    stale settings.maxAgeMs turn.latchAt entry = false := by
  simp only [atGate, andThen] at hpending
  generalize latch turn (received config turn state).1 = latched at hpending
  rcases expire_cases settings turn latched with ⟨heq, hfresh⟩ | ⟨old, -, -, heq⟩
  · rw [heq] at hpending
    exact hfresh entry hpending
  · simp [heq] at hpending

end Ages

/-- For every interleaving of pushes and turns of the radio's task: each accepted push
has exactly one fate in a ledger that agrees with the transmissions, the counters, the
logs, the queue and the latch; transmissions are a subsequence of the pushes; what is
sent was young enough at its expiry check; the ring's indices agree with its count; and
an overflow drops the oldest entry. -/
theorem queue_accounting {cap : ℕ} (settings : Settings) (config : Config)
    (first : Fin cap) (allocated : Bool) (bootMs : ℕ) (events : List Event) :
    let life := run (step settings config) (start settings first allocated bootMs) events
    (∃ ledger, Accounts life.1 life.2 ledger) ∧
      (startedOf life.2).Sublist (pushedOf life.2) ∧
      (∀ turn entry time gap,
        .started entry time gap ∈ (step settings config life.1 (.turn turn)).2 →
          settings.maxAgeMs = 0 ∨
            ticks turn.latchAt - entry.enqueueMs ≤ settings.maxAgeMs) ∧
      (∀ ring, life.1.queue.ring = some ring →
        ring.tail.val = (ring.head.val + ring.count) % cap ∧ ring.count ≤ cap) ∧
      ∀ data time next, push data time life.1.queue = some next →
        next.entries = (if life.1.queue.entries.length = cap then
          life.1.queue.entries.tail else life.1.queue.entries) ++ [⟨data, ticks time⟩] := by
  intro life
  have haccounted : Accounted life.1 ([] ++ life.2) :=
    invariant_accounted.run [] events (accounted_start settings first allocated bootMs)
  rw [List.nil_append] at haccounted
  obtain ⟨settled, skipped, hshape⟩ := haccounted
  have haccounts := hshape.accounts
  refine ⟨⟨_, haccounts⟩, ?_, ?_, fun ring _ => ⟨ring.tail_eq, ring.count_le⟩, ?_⟩
  · rw [haccounts.transmitted, haccounts.pushed]
    exact List.filter_sublist.map Prod.fst
  · intro turn entry time gap hstarted
    have hfresh := fresh_atGate (pending_of_started hstarted)
    simpa [stale, or_iff_not_imp_left] using hfresh
  · intro data time next hpush
    obtain ⟨-, ⟨hroom, -, hentries⟩ | ⟨oldest, rest, hold, hfull, -, hentries⟩⟩ :=
      push_spec hpush
    · rw [hentries, if_neg hroom.ne]
    · rw [hentries, if_pos hfull, hold, List.tail_cons]

end LoraBridge.QueueAccounting
