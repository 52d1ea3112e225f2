import Mathlib.Tactic

/-!
# Runs of a deterministic machine

A machine takes one event at a time and emits outputs.  A property of the state
and of everything emitted so far that one step preserves holds at the end of
every run; the step may assume a condition that the run meets at each event.
-/

namespace LoraBridge.Machine

variable {State Event Output : Type*}

/-- The final state and all outputs, in order. -/
def run (step : State → Event → State × List Output) :
    State → List Event → State × List Output
  | state, [] => (state, [])
  | state, event :: rest =>
      let (next, emitted) := step state event
      let (last, later) := run step next rest
      (last, emitted ++ later)

/-- Every event of the run meets the condition in the state it finds. -/
def Along (step : State → Event → State × List Output)
    (allowed : State → Event → Prop) : State → List Event → Prop
  | _, [] => True
  | state, event :: rest =>
      allowed state event ∧ Along step allowed (step state event).1 rest

theorem run_append (step : State → Event → State × List Output) (state : State)
    (before after : List Event) :
    run step state (before ++ after) =
      ((run step (run step state before).1 after).1,
        (run step state before).2 ++ (run step (run step state before).1 after).2) := by
  induction before generalizing state with
  | nil => rfl
  | cons event rest ih =>
      simp only [List.cons_append, run, ih, List.append_assoc]

theorem along_append {step : State → Event → State × List Output}
    {allowed : State → Event → Prop} {state : State} {before after : List Event}
    (halong : Along step allowed state (before ++ after)) :
    Along step allowed state before ∧
      Along step allowed (run step state before).1 after := by
  induction before generalizing state with
  | nil => exact ⟨trivial, halong⟩
  | cons event rest ih =>
      obtain ⟨hrest, hafter⟩ := ih halong.2
      exact ⟨⟨halong.1, hrest⟩, hafter⟩

/-- What one allowed step preserves, a run of allowed steps preserves. -/
theorem invariant_run {step : State → Event → State × List Output}
    {allowed : State → Event → Prop} {invariant : State → List Output → Prop}
    (hstep : ∀ state history event, invariant state history → allowed state event →
      invariant (step state event).1 (history ++ (step state event).2))
    {state : State} {history : List Output} (events : List Event)
    (hstart : invariant state history) (hallowed : Along step allowed state events) :
    invariant (run step state events).1 (history ++ (run step state events).2) := by
  induction events generalizing state history with
  | nil => simpa [run] using hstart
  | cons event rest ih =>
      have hnext := ih (hstep state history event hstart hallowed.1) hallowed.2
      rwa [List.append_assoc] at hnext

/-- Every event of the run meets a condition on the state it finds and all that was
emitted before. -/
def AlongHistory (step : State → Event → State × List Output)
    (allowed : State → List Output → Event → Prop) : State → List Output → List Event → Prop
  | _, _, [] => True
  | state, history, event :: rest =>
      allowed state history event ∧
        AlongHistory step allowed (step state event).1 (history ++ (step state event).2) rest

theorem invariant_alongHistory {step : State → Event → State × List Output}
    {allowed : State → List Output → Event → Prop} {invariant : State → List Output → Prop}
    (hstep : ∀ state history event, invariant state history → allowed state history event →
      invariant (step state event).1 (history ++ (step state event).2))
    {state : State} {history : List Output} (events : List Event)
    (hstart : invariant state history)
    (hallowed : AlongHistory step allowed state history events) :
    invariant (run step state events).1 (history ++ (run step state events).2) := by
  induction events generalizing state history with
  | nil => simpa [run] using hstart
  | cons event rest ih =>
      have hnext := ih (hstep state history event hstart hallowed.1) hallowed.2
      rwa [List.append_assoc] at hnext

/-- What every step preserves, every run preserves. -/
theorem invariant_run_always {step : State → Event → State × List Output}
    {invariant : State → List Output → Prop}
    (hstep : ∀ state history event, invariant state history →
      invariant (step state event).1 (history ++ (step state event).2))
    {state : State} {history : List Output} (events : List Event)
    (hstart : invariant state history) :
    invariant (run step state events).1 (history ++ (run step state events).2) := by
  have halong : ∀ state, Along step (fun _ _ => True) state events := by
    induction events with
    | nil => exact fun _ => trivial
    | cons event rest ih => exact fun state => ⟨trivial, ih _⟩
  exact invariant_run (fun state history event hinv _ => hstep state history event hinv)
    events hstart (halong state)

/-- Without outputs in the invariant. -/
theorem invariant_state {step : State → Event → State × List Output}
    {allowed : State → Event → Prop} {invariant : State → Prop}
    (hstep : ∀ state event, invariant state → allowed state event →
      invariant (step state event).1)
    {state : State} (events : List Event)
    (hstart : invariant state) (hallowed : Along step allowed state events) :
    invariant (run step state events).1 := by
  induction events generalizing state with
  | nil => exact hstart
  | cons event rest ih => exact ih (hstep state event hstart hallowed.1) hallowed.2

theorem along_snoc {step : State → Event → State × List Output}
    {allowed : State → Event → Prop} {state : State} {before : List Event} {event : Event} :
    Along step allowed state (before ++ [event]) ↔
      Along step allowed state before ∧ allowed (run step state before).1 event := by
  induction before generalizing state with
  | nil => simp [Along, run]
  | cons first rest ih =>
      simp only [List.cons_append, Along, run, ih, and_assoc]

theorem along_iff {step : State → Event → State × List Output}
    {allowed : State → Event → Prop} {state : State} (events : List Event) :
    Along step allowed state events ↔ ∀ before event, before ++ [event] <+: events →
      allowed (run step state before).1 event := by
  induction events using List.reverseRecOn with
  | nil => simp [Along]
  | append_singleton earlier last ih =>
      rw [along_snoc, ih]
      constructor
      · rintro ⟨hearlier, hlast⟩ before event hinitial
        rcases List.prefix_concat_iff.mp hinitial with heq | hshorter
        · obtain ⟨rfl, heq'⟩ := List.append_inj' heq rfl
          obtain rfl := List.singleton_inj.mp heq'
          exact hlast
        · exact hearlier before event hshorter
      · intro hall
        exact ⟨fun before event hinitial => hall before event
          (hinitial.trans (List.prefix_append _ _)), hall earlier last List.prefix_rfl⟩

/-- A property of histories that holds at the start and that an event keeps exactly when
it is allowed holds all along exactly when every event is allowed. -/
theorem always_iff_each {allowed : List Event → Event → Prop}
    {property : List Event → Prop} (hstart : property []) (events : List Event)
    (hstep : ∀ before event, before ++ [event] <+: events →
      (∀ earlier, earlier <+: before → property earlier) →
        (property (before ++ [event]) ↔ allowed before event)) :
    (∀ before, before <+: events → property before) ↔
      ∀ before event, before ++ [event] <+: events → allowed before event := by
  constructor
  · intro hall before event hinitial
    refine (hstep before event hinitial fun earlier hearlier => ?_).mp (hall _ hinitial)
    exact hall earlier (hearlier.trans ((List.prefix_append _ _).trans hinitial))
  · intro hallowed before hinitial
    have hall : ∀ earlier, earlier <+: before → property earlier := by
      induction before using List.reverseRecOn with
      | nil =>
          intro earlier hearlier
          rw [List.prefix_nil.mp hearlier]
          exact hstart
      | append_singleton before event ih =>
          have hbefore := ih ((List.prefix_append _ _).trans hinitial)
          intro earlier hearlier
          rcases List.prefix_concat_iff.mp hearlier with rfl | hshorter
          · exact (hstep before event hinitial hbefore).mpr (hallowed before event hinitial)
          · exact hbefore earlier hshorter
    exact hall before List.prefix_rfl

theorem always_iff_along {step : State → Event → State × List Output}
    {allowed : State → Event → Prop} {state : State} {property : List Event → Prop}
    (hstart : property []) (events : List Event)
    (hstep : ∀ before event, before ++ [event] <+: events →
      (∀ earlier, earlier <+: before → property earlier) →
        (property (before ++ [event]) ↔ allowed (run step state before).1 event)) :
    (∀ before, before <+: events → property before) ↔ Along step allowed state events :=
  (always_iff_each hstart events hstep).trans (along_iff events).symm

end LoraBridge.Machine
