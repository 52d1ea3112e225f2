import LoraBridge.Core.Machine
import Mathlib.Data.List.Sort

/-!
# Machines side by side

Several machines of which each takes its own events.  However the events are interleaved,
each machine comes to the state, and emits the outputs, of a run of its own events alone.
-/

namespace LoraBridge.Machine

variable {Index State Event Output : Type*} [DecidableEq Index]

/-- An event is for one of the machines. -/
def parallel (step : Index → State → Event → State × List Output) (states : Index → State)
    (event : Index × Event) : (Index → State) × List (Index × Output) :=
  (Function.update states event.1 (step event.1 (states event.1) event.2).1,
    (step event.1 (states event.1) event.2).2.map (Prod.mk event.1))

/-- What is of one of the machines. -/
def ofIndex {Value : Type*} (index : Index) (tagged : List (Index × Value)) : List Value :=
  tagged.filterMap fun entry => if entry.1 = index then some entry.2 else none

theorem ofIndex_append {Value : Type*} (index : Index) (before after : List (Index × Value)) :
    ofIndex index (before ++ after) = ofIndex index before ++ ofIndex index after :=
  List.filterMap_append

theorem ofIndex_map_self {Value : Type*} (index : Index) (values : List Value) :
    ofIndex index (values.map (Prod.mk index)) = values := by
  simp [ofIndex, List.filterMap_map]

theorem ofIndex_map_of_ne {Value : Type*} {index other : Index} (hother : other ≠ index)
    (values : List Value) : ofIndex index (values.map (Prod.mk other)) = [] := by
  simp [ofIndex, List.filterMap_map, hother]

/-- A run of the whole is a run of each machine on its own events. -/
theorem run_parallel (step : Index → State → Event → State × List Output)
    (states : Index → State) (events : List (Index × Event)) (index : Index) :
    (run (parallel step) states events).1 index =
        (run (step index) (states index) (ofIndex index events)).1 ∧
      ofIndex index (run (parallel step) states events).2 =
        (run (step index) (states index) (ofIndex index events)).2 := by
  induction events generalizing states with
  | nil => exact ⟨rfl, rfl⟩
  | cons event rest ih =>
      obtain ⟨other, event⟩ := event
      obtain ⟨hstate, houtputs⟩ := ih (parallel step states (other, event)).1
      simp only [run, ofIndex_append, hstate, houtputs]
      by_cases hother : other = index
      · subst hother
        simp only [parallel, Function.update_self, ofIndex_map_self]
        simp [ofIndex, run]
      · simp only [parallel, Function.update_of_ne (Ne.symm hother), ofIndex_map_of_ne hother]
        simp [ofIndex, hother]

/-- One of two lists in strict order that has nothing but what is in the other is part of
it. -/
theorem sublist_of_subset_of_pairwise {Value : Type*} {less : Value → Value → Prop}
    [Std.Irrefl less] [Std.Antisymm less] {fewer values : List Value}
    (hfewer : fewer.Pairwise less) (hvalues : values.Pairwise less) (hsubset : fewer ⊆ values) :
    fewer.Sublist values :=
  List.sublist_of_subperm_of_pairwise (List.subperm_of_subset hfewer.nodup hsubset) hfewer
    hvalues

end LoraBridge.Machine
