import Mathlib.Tactic

/-!
# Programs of atomic steps

A program reads and changes a shared state in atomic steps, and may emit outputs.
It runs to its end, or it is cut off after any number of steps.  An invariant that
each step keeps holds at every point where the program can be cut off.
-/

namespace LoraBridge

/-- Either done, or a step that sees the state, changes it and emits; what comes
next depends on the state the step found. -/
inductive Program (State Output Result : Type) where
  | done (result : Result)
  | step (effect : State → State × List Output)
      (next : State → Program State Output Result)

namespace Program

variable {State Output Result Next : Type}

def bind : Program State Output Result → (Result → Program State Output Next) →
    Program State Output Next
  | .done result, rest => rest result
  | .step effect next, rest => .step effect fun state => (next state).bind rest

instance : Monad (Program State Output) where
  pure := .done
  bind := bind

/-- Read something of the state. -/
def read (view : State → Result) : Program State Output Result :=
  .step (fun state => (state, [])) fun state => .done (view state)

/-- Change the state. -/
def modify (change : State → State) : Program State Output Unit :=
  .step (fun state => (change state, [])) fun _ => .done ()

/-- Change the state and emit something in the same step. -/
def modifyEmit (change : State → State) (outputs : List Output) :
    Program State Output Unit :=
  .step (fun state => (change state, outputs)) fun _ => .done ()

def emit (output : Output) : Program State Output Unit :=
  modifyEmit id [output]

/-! ## Runs -/

/-- A program that ran to its end. -/
structure Run (State Output Result : Type) where
  state : State
  outputs : List Output
  result : Result

def run : Program State Output Result → State → Run State Output Result
  | .done result, state => ⟨state, [], result⟩
  | .step effect next, state =>
      let rest := (next state).run (effect state).1
      ⟨rest.state, (effect state).2 ++ rest.outputs, rest.result⟩

/-- The state and the outputs of a program that is cut off after `steps` steps. -/
def cut : ℕ → Program State Output Result → State → State × List Output
  | 0, _, state => (state, [])
  | _ + 1, .done _, state => (state, [])
  | steps + 1, .step effect next, state =>
      let rest := cut steps (next state) (effect state).1
      (rest.1, (effect state).2 ++ rest.2)

@[simp]
theorem run_pure (result : Result) (state : State) :
    (pure result : Program State Output Result).run state = ⟨state, [], result⟩ := rfl

@[simp]
theorem run_done (result : Result) (state : State) :
    (done result : Program State Output Result).run state = ⟨state, [], result⟩ := rfl

@[simp]
theorem run_bind (program : Program State Output Result)
    (rest : Result → Program State Output Next) (state : State) :
    (program >>= rest).run state =
      let first := program.run state
      let second := (rest first.result).run first.state
      ⟨second.state, first.outputs ++ second.outputs, second.result⟩ := by
  change (program.bind rest).run state = _
  induction program generalizing state with
  | done result => rfl
  | step effect next ih =>
      simp only [bind, run]
      rw [ih]
      simp only [List.append_assoc]

@[simp]
theorem run_read (view : State → Result) (state : State) :
    (read view : Program State Output Result).run state = ⟨state, [], view state⟩ := rfl

@[simp]
theorem run_modify (change : State → State) (state : State) :
    (modify change : Program State Output Unit).run state = ⟨change state, [], ()⟩ := rfl

@[simp]
theorem run_modifyEmit (change : State → State) (outputs : List Output) (state : State) :
    (modifyEmit change outputs).run state = ⟨change state, outputs, ()⟩ := by
  simp [modifyEmit, run]

@[simp]
theorem run_emit (output : Output) (state : State) :
    (emit output).run state = ⟨state, [output], ()⟩ := rfl

theorem bind_assoc {Last : Type} (program : Program State Output Result)
    (rest : Result → Program State Output Next) (last : Next → Program State Output Last) :
    program >>= rest >>= last = program >>= fun result => rest result >>= last := by
  change (program.bind rest).bind last = program.bind fun result => (rest result).bind last
  induction program with
  | done result => rfl
  | step effect next ih => exact congrArg (step effect) (funext fun state => ih state)

/-- What is emitted before the cut is what the whole program emits first. -/
theorem outputs_cut_isPrefix (program : Program State Output Result) (steps : ℕ) (state : State) :
    (program.cut steps state).2 <+: (program.run state).outputs := by
  induction steps generalizing program state with
  | zero => exact List.nil_prefix
  | succ steps ih =>
      cases program with
      | done result => exact List.prefix_rfl
      | step effect next => exact (List.prefix_append_right_inj _).mpr (ih (next state) _)

/-! ## What holds at every point of a program -/

/-- The invariant holds before the first step and after each, of the state and of
everything emitted so far. -/
def Keeps (invariant : State → List Output → Prop) :
    Program State Output Result → State → List Output → Prop
  | .done _, state, history => invariant state history
  | .step effect next, state, history =>
      invariant state history ∧
        Keeps invariant (next state) (effect state).1 (history ++ (effect state).2)

section Keeps

variable {invariant : State → List Output → Prop} {state : State} {history : List Output}

theorem Keeps.start {program : Program State Output Result}
    (hkeeps : program.Keeps invariant state history) : invariant state history := by
  cases program with
  | done result => exact hkeeps
  | step effect next => exact hkeeps.1

theorem Keeps.mono {invariant' : State → List Output → Prop}
    {program : Program State Output Result} (hkeeps : program.Keeps invariant state history)
    (himplies : ∀ state history, invariant state history → invariant' state history) :
    program.Keeps invariant' state history := by
  induction program generalizing state history with
  | done result => exact himplies _ _ hkeeps
  | step effect next ih => exact ⟨himplies _ _ hkeeps.1, ih state hkeeps.2⟩

theorem Keeps.run {program : Program State Output Result}
    (hkeeps : program.Keeps invariant state history) :
    invariant (program.run state).state (history ++ (program.run state).outputs) := by
  induction program generalizing state history with
  | done result =>
      have hinv : invariant state history := hkeeps
      simpa [Program.run] using hinv
  | step effect next ih =>
      have hrest := ih state hkeeps.2
      rwa [List.append_assoc] at hrest

/-- Wherever the program is cut off, the invariant holds. -/
theorem Keeps.cut {program : Program State Output Result}
    (hkeeps : program.Keeps invariant state history) (steps : ℕ) :
    invariant (program.cut steps state).1 (history ++ (program.cut steps state).2) := by
  induction steps generalizing program state history with
  | zero => simpa [Program.cut] using hkeeps.start
  | succ steps ih =>
      cases program with
      | done result => simpa [Program.cut] using hkeeps.start
      | step effect next =>
          have hrest := ih hkeeps.2
          rwa [List.append_assoc] at hrest

theorem keeps_bind {program : Program State Output Result}
    {rest : Result → Program State Output Next}
    (hfirst : program.Keeps invariant state history)
    (hrest : (rest (program.run state).result).Keeps invariant (program.run state).state
      (history ++ (program.run state).outputs)) :
    (program >>= rest).Keeps invariant state history := by
  change (program.bind rest).Keeps invariant state history
  induction program generalizing state history with
  | done result => simpa [bind, Program.run] using hrest
  | step effect next ih =>
      refine ⟨hfirst.1, ih state hfirst.2 ?_⟩
      simpa only [Program.run, List.append_assoc] using hrest

theorem keeps_read {view : State → Result} (hinv : invariant state history) :
    (read view : Program State Output Result).Keeps invariant state history := by
  refine ⟨hinv, ?_⟩
  simpa [Keeps] using hinv

theorem keeps_modifyEmit {change : State → State} {outputs : List Output}
    (hbefore : invariant state history)
    (hafter : invariant (change state) (history ++ outputs)) :
    (modifyEmit change outputs).Keeps invariant state history :=
  ⟨hbefore, hafter⟩

theorem keeps_modify {change : State → State} (hbefore : invariant state history)
    (hafter : invariant (change state) history) :
    (modify change : Program State Output Unit).Keeps invariant state history :=
  ⟨hbefore, by simpa [Keeps] using hafter⟩

theorem keeps_emit {output : Output} (hbefore : invariant state history)
    (hafter : invariant state (history ++ [output])) :
    (emit output).Keeps invariant state history :=
  keeps_modifyEmit hbefore hafter

end Keeps

/-! ## What every run does -/

/-- The body for each item in turn. -/
def forEach {Item : Type} (items : List Item) (body : Item → Program State Output Unit) :
    Program State Output Unit :=
  match items with
  | [] => pure ()
  | item :: rest => do
      body item
      forEach rest body

/-- The body for each item in turn, until it says to stop. -/
def forEachWhile {Item : Type} (items : List Item) (body : Item → Program State Output Bool) :
    Program State Output Unit :=
  match items with
  | [] => pure ()
  | item :: rest => do
      if ← body item then forEachWhile rest body else pure ()

/-- A relation of two states, with what was emitted in between, that holds where nothing
was done and of one thing done after another. -/
structure Contract (State Output : Type) where
  holds : State → List Output → State → Prop
  nil : ∀ state, holds state [] state
  append : ∀ {first middle last : State} {before after : List Output},
    holds first before middle → holds middle after last → holds first (before ++ after) last

/-- Nothing is emitted but what is allowed. -/
def Contract.emitsOnly (State : Type) (allowed : Output → Prop) : Contract State Output where
  holds _ outputs _ := ∀ output ∈ outputs, allowed output
  nil _ _ hmem := absurd hmem List.not_mem_nil
  append hbefore hafter output hmem :=
    (List.mem_append.mp hmem).elim (hbefore output) (hafter output)

/-- Every run of the program keeps to the contract. -/
def Respects (contract : Contract State Output) (program : Program State Output Result) : Prop :=
  ∀ state, contract.holds state (program.run state).outputs (program.run state).state

section Respects

variable {contract : Contract State Output}

theorem respects_pure (result : Result) :
    (pure result : Program State Output Result).Respects contract := contract.nil

/-- The rest has to keep to the contract behind the results that can come. -/
theorem respects_bind_result {program : Program State Output Result}
    {rest : Result → Program State Output Next} (hfirst : program.Respects contract)
    (hrest : ∀ state, (rest (program.run state).result).Respects contract) :
    (program >>= rest).Respects contract := by
  intro state
  rw [run_bind]
  exact contract.append (hfirst state) (hrest state _)

theorem respects_bind {program : Program State Output Result}
    {rest : Result → Program State Output Next} (hfirst : program.Respects contract)
    (hrest : ∀ result, (rest result).Respects contract) :
    (program >>= rest).Respects contract :=
  respects_bind_result hfirst fun _ => hrest _

theorem Respects.mono {contract' : Contract State Output} {program : Program State Output Result}
    (hrespects : program.Respects contract)
    (himplies : ∀ first outputs last, contract.holds first outputs last →
      contract'.holds first outputs last) : program.Respects contract' :=
  fun state => himplies _ _ _ (hrespects state)

theorem respects_read (view : State → Result) :
    (read view : Program State Output Result).Respects contract := contract.nil

theorem respects_modifyEmit {change : State → State} {outputs : List Output}
    (hchange : ∀ state, contract.holds state outputs (change state)) :
    (modifyEmit change outputs).Respects contract := by
  intro state
  rw [run_modifyEmit]
  exact hchange state

theorem respects_modify {change : State → State}
    (hchange : ∀ state, contract.holds state [] (change state)) :
    (modify change : Program State Output Unit).Respects contract := hchange

theorem respects_ite {condition : Prop} [Decidable condition]
    {yes no : Program State Output Result} (hyes : condition → yes.Respects contract)
    (hno : ¬ condition → no.Respects contract) :
    (if condition then yes else no).Respects contract := by
  split
  · exact hyes ‹_›
  · exact hno ‹_›

theorem respects_forEach {Item : Type} {items : List Item}
    {body : Item → Program State Output Unit}
    (hbody : ∀ item ∈ items, (body item).Respects contract) :
    (forEach items body).Respects contract := by
  induction items with
  | nil => exact respects_pure ()
  | cons item rest ih =>
      exact respects_bind (hbody item List.mem_cons_self) fun _ =>
        ih fun other hother => hbody other (List.mem_cons_of_mem item hother)

theorem respects_forEachWhile {Item : Type} {items : List Item}
    {body : Item → Program State Output Bool}
    (hbody : ∀ item ∈ items, (body item).Respects contract) :
    (forEachWhile items body).Respects contract := by
  induction items with
  | nil => exact respects_pure ()
  | cons item rest ih =>
      refine respects_bind (hbody item List.mem_cons_self) fun goOn => ?_
      refine respects_ite (fun _ => ?_) fun _ => respects_pure ()
      exact ih fun other hother => hbody other (List.mem_cons_of_mem item hother)

end Respects

/-- A loop whose body always goes on: every item gets a value that describes its turn, and what
is emitted is that of the values in order. -/
theorem run_forEachWhile {Item Value : Type} {items : List Item}
    {body : Item → Program State Output Bool} {invariant : State → Prop}
    {good : Item → Value → Prop} {outputs : Value → List Output}
    (hbody : ∀ item ∈ items, ∀ state, invariant state →
      ((body item).run state).result = true ∧ invariant ((body item).run state).state ∧
        ∃ value, good item value ∧ ((body item).run state).outputs = outputs value)
    {state : State} (hstate : invariant state) :
    ∃ values, List.Forall₂ good items values ∧
      ((forEachWhile items body).run state).outputs = values.flatMap outputs := by
  induction items generalizing state with
  | nil => exact ⟨[], .nil, rfl⟩
  | cons item rest ih =>
      obtain ⟨hresult, hnext, value, hgood, houtputs⟩ :=
        hbody item List.mem_cons_self state hstate
      obtain ⟨values, hvalues, hrest⟩ :=
        ih (fun other hother => hbody other (List.mem_cons_of_mem item hother)) hnext
      refine ⟨value :: values, .cons hgood hvalues, ?_⟩
      rw [forEachWhile, run_bind, List.flatMap_cons, ← houtputs, ← hrest]
      simp only [hresult, if_true]

/-- A loop each of whose turns keeps the invariant and comes back to what the next turn
starts from. -/
theorem keeps_forEachWhile {Item : Type} {items : List Item}
    {body : Item → Program State Output Bool}
    {invariant : State → List Output → Prop} (boundary : State → List Output → Prop)
    (hboundary : ∀ state history, boundary state history → invariant state history)
    (hbody : ∀ item ∈ items, ∀ state history, boundary state history →
      (body item).Keeps invariant state history ∧
        boundary ((body item).run state).state (history ++ ((body item).run state).outputs))
    {state : State} {history : List Output} (hstart : boundary state history) :
    (forEachWhile items body).Keeps invariant state history := by
  induction items generalizing state history with
  | nil => exact hboundary _ _ hstart
  | cons item rest ih =>
      obtain ⟨hkeeps, hnext⟩ := hbody item List.mem_cons_self state history hstart
      refine keeps_bind hkeeps ?_
      split
      · exact ih (fun other hother => hbody other (List.mem_cons_of_mem item hother)) hnext
      · exact hboundary _ _ hnext

theorem emitsOnly_nil (State : Type) (allowed : Output → Prop) (first last : State) :
    (Contract.emitsOnly State allowed).holds first [] last :=
  fun _ hmem => absurd hmem List.not_mem_nil

theorem emitsOnly_modifyEmit {allowed : Output → Prop} {change : State → State}
    {outputs : List Output} (hallowed : ∀ output ∈ outputs, allowed output) :
    (modifyEmit change outputs).Respects (.emitsOnly State allowed) :=
  respects_modifyEmit fun _ => hallowed

/-! ## Programs on a part of the state -/

/-- A part of a larger state. -/
structure Part (Whole Piece : Type) where
  view : Whole → Piece
  put : Whole → Piece → Whole
  view_put : ∀ whole piece, view (put whole piece) = piece
  put_put : ∀ whole piece piece', put (put whole piece) piece' = put whole piece'
  put_view : ∀ whole, put whole (view whole) = whole

/-- The same program on the whole state. -/
def within {Whole : Type} (part : Part Whole State) :
    Program State Output Result → Program Whole Output Result
  | .done result => .done result
  | .step effect next =>
      .step (fun whole => (part.put whole (effect (part.view whole)).1,
          (effect (part.view whole)).2))
        fun whole => (next (part.view whole)).within part

section Within

variable {Whole : Type} (part : Part Whole State)

@[simp]
theorem run_within (program : Program State Output Result) (whole : Whole) :
    (program.within part).run whole =
      ⟨part.put whole (program.run (part.view whole)).state,
        (program.run (part.view whole)).outputs, (program.run (part.view whole)).result⟩ := by
  induction program generalizing whole with
  | done result => simp only [within, run, part.put_view]
  | step effect next ih =>
      simp only [within, run]
      rw [ih, part.view_put, part.put_put]

theorem emitsOnly_within {allowed : Output → Prop} {program : Program State Output Result}
    (hrespects : program.Respects (Contract.emitsOnly State allowed)) :
    (program.within part).Respects (Contract.emitsOnly Whole allowed) := by
  intro whole
  rw [run_within]
  exact hrespects (part.view whole)

theorem keeps_within {invariant : Whole → List Output → Prop} {whole : Whole}
    {history : List Output} {program : Program State Output Result}
    (hkeeps : program.Keeps (fun state history => invariant (part.put whole state) history)
      (part.view whole) history) :
    (program.within part).Keeps invariant whole history := by
  induction program generalizing whole history with
  | done result =>
      have hdone : invariant (part.put whole (part.view whole)) history := hkeeps
      rwa [part.put_view] at hdone
  | step effect next ih =>
      obtain ⟨hstart, hrest⟩ := hkeeps
      rw [part.put_view] at hstart
      refine ⟨hstart, ih _ ?_⟩
      simpa only [part.put_put, part.view_put] using hrest

end Within

end Program

end LoraBridge
