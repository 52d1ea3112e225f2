import LoraBridge.Core.Program

/-!
# Two programs at once

Two tasks run their programs on one state, one atomic step at a time in any order.
Together they are serializable when results and final state are those of one program
after the other.  Programs that read once and then write in a straight line can only
fail to be when both have read before either has finished.
-/

namespace LoraBridge.Program

variable {State Output Left Right View : Type}

inductive Side where
  | left
  | right
  deriving DecidableEq

def Side.other : Side → Side
  | .left => .right
  | .right => .left

/-- The results of two tasks and the state they leave. -/
structure Outcome (State Left Right : Type) where
  left : Left
  right : Right
  state : State

/-- Both tasks run to their ends; the trace says who makes each step. -/
inductive Interleaves : Program State Output Left → Program State Output Right → State →
    List Side → Outcome State Left Right → Prop
  | done (left : Left) (right : Right) (state : State) :
      Interleaves (.done left) (.done right) state [] ⟨left, right, state⟩
  | left {effect : State → State × List Output}
      {next : State → Program State Output Left} {other : Program State Output Right}
      {state : State} {trace : List Side} {outcome : Outcome State Left Right}
      (rest : Interleaves (next state) other (effect state).1 trace outcome) :
      Interleaves (.step effect next) other state (.left :: trace) outcome
  | right {effect : State → State × List Output}
      {next : State → Program State Output Right} {other : Program State Output Left}
      {state : State} {trace : List Side} {outcome : Outcome State Left Right}
      (rest : Interleaves other (next state) (effect state).1 trace outcome) :
      Interleaves other (.step effect next) state (.right :: trace) outcome

/-- The left program runs alone, and then the right one. -/
def leftFirst (left : Program State Output Left) (right : Program State Output Right)
    (state : State) : Outcome State Left Right :=
  let first := left.run state
  let second := right.run first.state
  ⟨first.result, second.result, second.state⟩

def rightFirst (left : Program State Output Left) (right : Program State Output Right)
    (state : State) : Outcome State Left Right :=
  let first := right.run state
  let second := left.run first.state
  ⟨second.result, first.result, second.state⟩

/-- The outcome is that of one program after the other. -/
def Serializable (left : Program State Output Left) (right : Program State Output Right)
    (state : State) (outcome : Outcome State Left Right) : Prop :=
  outcome = leftFirst left right state ∨ outcome = rightFirst left right state

/-- One task has finished before the other begins. -/
def Apart (trace : List Side) : Prop :=
  ∃ first before after,
    trace = List.replicate before first ++ List.replicate after first.other

/-! ## One task at a time -/

theorem interleaves_done_left {left : Left} {right : Program State Output Right}
    {state : State} {trace : List Side} {outcome : Outcome State Left Right}
    (hruns : Interleaves (.done left) right state trace outcome) :
    outcome = ⟨left, (right.run state).result, (right.run state).state⟩ ∧
      trace = List.replicate trace.length .right := by
  induction right generalizing state trace with
  | done result =>
      cases hruns
      exact ⟨rfl, rfl⟩
  | step effect next ih =>
      cases hruns with
      | right rest =>
          obtain ⟨houtcome, htrace⟩ := ih state rest
          refine ⟨houtcome, ?_⟩
          rw [List.length_cons, List.replicate_succ, ← htrace]

theorem interleaves_done_right {left : Program State Output Left} {right : Right}
    {state : State} {trace : List Side} {outcome : Outcome State Left Right}
    (hruns : Interleaves left (.done right) state trace outcome) :
    outcome = ⟨(left.run state).result, right, (left.run state).state⟩ ∧
      trace = List.replicate trace.length .left := by
  induction left generalizing state trace with
  | done result =>
      cases hruns
      exact ⟨rfl, rfl⟩
  | step effect next ih =>
      cases hruns with
      | left rest =>
          obtain ⟨houtcome, htrace⟩ := ih state rest
          refine ⟨houtcome, ?_⟩
          rw [List.length_cons, List.replicate_succ, ← htrace]

/-- The tasks exchanged. -/
def Outcome.swap (outcome : Outcome State Left Right) : Outcome State Right Left :=
  ⟨outcome.right, outcome.left, outcome.state⟩

theorem Interleaves.swap {left : Program State Output Left}
    {right : Program State Output Right} {state : State} {trace : List Side}
    {outcome : Outcome State Left Right}
    (hruns : Interleaves left right state trace outcome) :
    Interleaves right left state (trace.map Side.other) outcome.swap := by
  induction hruns with
  | done left right state => exact .done right left state
  | left rest ih => exact .right ih
  | right rest ih => exact .left ih

theorem Side.other_other (side : Side) : side.other.other = side := by
  cases side <;> rfl

theorem map_other_other (trace : List Side) :
    (trace.map Side.other).map Side.other = trace := by
  rw [List.map_map]
  exact List.map_id'' Side.other_other trace

theorem Apart.map_other {trace : List Side} (hapart : Apart trace) :
    Apart (trace.map Side.other) := by
  obtain ⟨first, before, after, rfl⟩ := hapart
  exact ⟨first.other, before, after, by simp⟩

theorem Serializable.swap {left : Program State Output Left}
    {right : Program State Output Right} {state : State}
    {outcome : Outcome State Left Right}
    (hserializable : Serializable left right state outcome) :
    Serializable right left state outcome.swap := by
  rcases hserializable with rfl | rfl
  · exact .inr rfl
  · exact .inl rfl

/-- A task that gets no turn has nothing to do. -/
theorem interleaves_only_right {left : Program State Output Left}
    {right : Program State Output Right} {state : State} {after : ℕ}
    {outcome : Outcome State Left Right}
    (hruns : Interleaves left right state (List.replicate after .right) outcome) :
    ∃ result, left = .done result := by
  induction after generalizing right state with
  | zero =>
      cases hruns
      exact ⟨_, rfl⟩
  | succ after ih =>
      rw [List.replicate_succ] at hruns
      cases hruns with
      | right rest => exact ih rest

/-- A task that is over before the other's first step. -/
theorem interleaves_left_then_right {left : Program State Output Left}
    {right : Program State Output Right} {state : State} {before after : ℕ}
    {outcome : Outcome State Left Right}
    (hruns : Interleaves left right state
      (List.replicate before .left ++ List.replicate after .right) outcome) :
    outcome = leftFirst left right state := by
  induction before generalizing left state with
  | zero =>
      obtain ⟨result, rfl⟩ := interleaves_only_right hruns
      exact (interleaves_done_left hruns).1
  | succ before ih =>
      rw [List.replicate_succ, List.cons_append] at hruns
      cases hruns with
      | left rest =>
          have hrest := ih rest
          exact hrest

theorem serializable_of_apart {left : Program State Output Left}
    {right : Program State Output Right} {state : State} {trace : List Side}
    {outcome : Outcome State Left Right} (hapart : Apart trace)
    (hruns : Interleaves left right state trace outcome) :
    Serializable left right state outcome := by
  obtain ⟨first, before, after, rfl⟩ := hapart
  cases first with
  | left => exact .inl (interleaves_left_then_right hruns)
  | right =>
      have hswap := hruns.swap
      simp only [List.map_append, List.map_replicate, Side.other] at hswap
      have houtcome : Serializable right left state outcome.swap :=
        .inl (interleaves_left_then_right hswap)
      exact houtcome.swap

/-! ## Programs that differ where they never are -/

/-- The same steps from every state the invariant holds of, and it holds after them. -/
def Same {Result : Type} (invariant : State → Prop) :
    Program State Output Result → Program State Output Result → Prop
  | .done result, .done result' => result = result'
  | .step effect next, .step effect' next' => ∀ state, invariant state →
      effect state = effect' state ∧ invariant (effect state).1 ∧
        Same invariant (next state) (next' state)
  | _, _ => False

theorem Same.run {Result : Type} {invariant : State → Prop}
    {program program' : Program State Output Result} (hsame : program.Same invariant program')
    {state : State} (hstate : invariant state) : program.run state = program'.run state := by
  induction program generalizing program' state with
  | done result =>
      cases program' with
      | done result' => rw [show result = result' from hsame]
      | step effect next => exact hsame.elim
  | step effect next ih =>
      cases program' with
      | done result => exact hsame.elim
      | step effect' next' =>
          obtain ⟨heffect, hlater, hrest⟩ := hsame state hstate
          simp only [Program.run, ← heffect, ih state hrest hlater]

theorem Same.invariant_run {Result : Type} {invariant : State → Prop}
    {program program' : Program State Output Result} (hsame : program.Same invariant program')
    {state : State} (hstate : invariant state) : invariant (program.run state).state := by
  induction program generalizing program' state with
  | done result => exact hstate
  | step effect next ih =>
      cases program' with
      | done result => exact hsame.elim
      | step effect' next' =>
          obtain ⟨-, hlater, hrest⟩ := hsame state hstate
          exact ih state hrest hlater

theorem Interleaves.same {invariant : State → Prop}
    {left left' : Program State Output Left} {right right' : Program State Output Right}
    {state : State} {trace : List Side} {outcome : Outcome State Left Right}
    (hruns : Interleaves left right state trace outcome)
    (hleft : left.Same invariant left') (hright : right.Same invariant right')
    (hstate : invariant state) : Interleaves left' right' state trace outcome := by
  induction hruns generalizing left' right' with
  | done resultLeft resultRight state =>
      cases left' with
      | step effect next => exact hleft.elim
      | done result =>
          cases right' with
          | step effect next => exact hright.elim
          | done result' =>
              rw [← show resultLeft = result from hleft, ← show resultRight = result' from hright]
              exact .done _ _ _
  | left rest ih =>
      cases left' with
      | done result => exact hleft.elim
      | step effect next =>
          obtain ⟨heffect, hlater, hrest⟩ := hleft _ hstate
          rw [heffect] at hlater ih
          exact .left (ih hrest hright hlater)
  | right rest ih =>
      cases right' with
      | done result => exact hright.elim
      | step effect next =>
          obtain ⟨heffect, hlater, hrest⟩ := hright _ hstate
          rw [heffect] at hlater ih
          exact .right (ih hleft hrest hlater)

theorem serializable_same_iff {invariant : State → Prop}
    {left left' : Program State Output Left} {right right' : Program State Output Right}
    {state : State} {outcome : Outcome State Left Right}
    (hleft : left.Same invariant left') (hright : right.Same invariant right')
    (hstate : invariant state) :
    Serializable left right state outcome ↔ Serializable left' right' state outcome := by
  have hafterLeft := hleft.invariant_run hstate
  have hafterRight := hright.invariant_run hstate
  simp only [Serializable, leftFirst, rightFirst, hleft.run hstate, hright.run hstate]
  rw [hleft.run hstate] at hafterLeft
  rw [hright.run hstate] at hafterRight
  rw [hright.run hafterLeft, hleft.run hafterRight]

/-! ## Programs on parts of the state -/

/-- Two parts of a state that do not overlap. -/
structure Part.Independent {Whole First Second : Type} (first : Part Whole First)
    (second : Part Whole Second) : Prop where
  view_put : ∀ whole piece, first.view (second.put whole piece) = first.view whole
  view_put' : ∀ whole piece, second.view (first.put whole piece) = second.view whole
  put_comm : ∀ whole piece piece', second.put (first.put whole piece) piece' =
    first.put (second.put whole piece') piece

theorem Part.Independent.symm {Whole First Second : Type} {first : Part Whole First}
    {second : Part Whole Second} (hindependent : first.Independent second) :
    second.Independent first :=
  ⟨hindependent.view_put', hindependent.view_put,
    fun whole piece piece' => (hindependent.put_comm whole piece' piece).symm⟩

section Parts

variable {Whole First Second : Type}

/-- Programs on parts that do not overlap do not meet. -/
theorem serializable_of_independent {first : Part Whole First}
    {second : Part Whole Second} (hindependent : first.Independent second)
    {left : Program First Output Left} {right : Program Second Output Right}
    {whole : Whole} {trace : List Side} {outcome : Outcome Whole Left Right}
    (hruns : Interleaves (left.within first) (right.within second) whole trace outcome) :
    Serializable (left.within first) (right.within second) whole outcome := by
  refine .inl ?_
  simp only [leftFirst, run_within, hindependent.view_put']
  generalize hfirst : left.within first = left' at hruns
  generalize hsecond : right.within second = right' at hruns
  induction hruns generalizing left right with
  | done result result' state =>
      cases left with
      | step effect next => simp [within] at hfirst
      | done value =>
          cases right with
          | step effect next => simp [within] at hsecond
          | done value' =>
              obtain rfl := Program.done.inj hfirst
              obtain rfl := Program.done.inj hsecond
              simp only [run, first.put_view, second.put_view]
  | left rest ih =>
      cases left with
      | done value => simp [within] at hfirst
      | step effect next =>
          simp only [within, Program.step.injEq] at hfirst
          obtain ⟨rfl, rfl⟩ := hfirst
          rw [ih rfl hsecond]
          simp only [run, first.view_put, first.put_put, hindependent.view_put']
  | right rest ih =>
      cases right with
      | done value => simp [within] at hsecond
      | step effect next =>
          simp only [within, Program.step.injEq] at hsecond
          obtain ⟨rfl, rfl⟩ := hsecond
          rw [ih hfirst rfl]
          simp only [run, second.view_put, hindependent.view_put, ← hindependent.put_comm,
            second.put_put]

/-- Two programs on one part meet on that part only. -/
theorem interleaves_within {part : Part Whole State} {left : Program State Output Left}
    {right : Program State Output Right} {whole : Whole} {trace : List Side}
    {outcome : Outcome Whole Left Right}
    (hruns : Interleaves (left.within part) (right.within part) whole trace outcome) :
    ∃ piece, Interleaves left right (part.view whole) trace
        ⟨outcome.left, outcome.right, piece⟩ ∧
      outcome.state = part.put whole piece := by
  generalize hleft : left.within part = left' at hruns
  generalize hright : right.within part = right' at hruns
  induction hruns generalizing left right with
  | done result result' state =>
      cases left with
      | step effect next => simp [within] at hleft
      | done value =>
          cases right with
          | step effect next => simp [within] at hright
          | done value' =>
              obtain rfl := Program.done.inj hleft
              obtain rfl := Program.done.inj hright
              exact ⟨_, .done _ _ _, (part.put_view _).symm⟩
  | left rest ih =>
      cases left with
      | done value => simp [within] at hleft
      | step effect next =>
          simp only [within, Program.step.injEq] at hleft
          obtain ⟨rfl, rfl⟩ := hleft
          obtain ⟨piece, hpiece, hstate⟩ := ih rfl hright
          rw [part.view_put] at hpiece
          exact ⟨piece, .left hpiece, by rw [hstate, part.put_put]⟩
  | right rest ih =>
      cases right with
      | done value => simp [within] at hright
      | step effect next =>
          simp only [within, Program.step.injEq] at hright
          obtain ⟨rfl, rfl⟩ := hright
          obtain ⟨piece, hpiece, hstate⟩ := ih hleft rfl
          rw [part.view_put] at hpiece
          exact ⟨piece, .right hpiece, by rw [hstate, part.put_put]⟩

/-- Whether two programs are serializable shows on the part they work on. -/
theorem serializable_within_iff {part : Part Whole State}
    {left : Program State Output Left} {right : Program State Output Right}
    {whole : Whole} {outcome : Outcome Whole Left Right} {piece : State}
    (hstate : outcome.state = part.put whole piece) :
    Serializable (left.within part) (right.within part) whole outcome ↔
      Serializable left right (part.view whole) ⟨outcome.left, outcome.right, piece⟩ := by
  have hput : ∀ piece piece', part.put whole piece = part.put whole piece' ↔
      piece = piece' := by
    refine fun piece piece' => ⟨fun heq => ?_, fun heq => by rw [heq]⟩
    rw [← part.view_put whole piece, heq, part.view_put]
  obtain ⟨resultLeft, resultRight, state⟩ := outcome
  simp only at hstate
  subst hstate
  simp only [Serializable, leftFirst, rightFirst, run_within, part.view_put, part.put_put,
    Outcome.mk.injEq, hput]

/-- Programs that are the same as some on a part meet on that part only. -/
theorem interleaves_part {part : Part Whole State} {invariant : Whole → Prop}
    {left : Program Whole Output Left} {right : Program Whole Output Right}
    {left' : Program State Output Left} {right' : Program State Output Right}
    {whole : Whole} {trace : List Side} {outcome : Outcome Whole Left Right}
    (hleft : left.Same invariant (left'.within part))
    (hright : right.Same invariant (right'.within part)) (hwhole : invariant whole)
    (hruns : Interleaves left right whole trace outcome) :
    ∃ piece, Interleaves left' right' (part.view whole) trace
        ⟨outcome.left, outcome.right, piece⟩ ∧
      (Serializable left right whole outcome ↔
        Serializable left' right' (part.view whole)
          ⟨outcome.left, outcome.right, piece⟩) := by
  obtain ⟨piece, hpiece, hstate⟩ := interleaves_within (hruns.same hleft hright hwhole)
  refine ⟨piece, hpiece, ?_⟩
  rw [serializable_same_iff hleft hright hwhole, serializable_within_iff hstate]

theorem Same.refl {Result : Type} (program : Program State Output Result) :
    program.Same (fun _ => True) program := by
  induction program with
  | done result => exact rfl
  | step effect next ih => exact fun state _ => ⟨rfl, trivial, ih state⟩

end Parts

/-! ## Programs that read once -/

/-- A change of the state together with what is emitted. -/
abbrev Effect (State Output : Type) := State → State × List Output

/-- Effects one after another. -/
def applyAll (effects : List (Effect State Output)) (state : State) : State :=
  effects.foldl (fun state effect => (effect state).1) state

/-- A straight line of effects. -/
def writes {Result : Type} : List (Effect State Output) → Result →
    Program State Output Result
  | [], result => .done result
  | effect :: rest, result => .step effect fun _ => writes rest result

/-- Read once, and then write what the value read asks for. -/
def readWrite {Result : Type} (view : State → View)
    (effects : View → List (Effect State Output)) (result : View → Result) :
    Program State Output Result :=
  .step (fun state => (state, [])) fun state =>
    writes (effects (view state)) (result (view state))

theorem run_writes {Result : Type} (effects : List (Effect State Output))
    (result : Result) (state : State) :
    ((writes effects result).run state).state = applyAll effects state ∧
      ((writes effects result).run state).result = result := by
  induction effects generalizing state with
  | nil => exact ⟨rfl, rfl⟩
  | cons effect rest ih => exact ih (effect state).1

theorem run_readWrite {Result : Type} (view : State → View)
    (effects : View → List (Effect State Output)) (result : View → Result)
    (state : State) :
    ((readWrite view effects result).run state).state =
        applyAll (effects (view state)) state ∧
      ((readWrite view effects result).run state).result = result (view state) :=
  run_writes (effects (view state)) (result (view state)) state

/-- Two lists in the order a trace takes them. -/
def merge {Value : Type} : List Side → List Value → List Value → List Value
  | .left :: trace, value :: left, right => value :: merge trace left right
  | .right :: trace, left, value :: right => value :: merge trace left right
  | _, left, right => left ++ right

/-- The trace without the two reads. -/
def writeOrder (trace : List Side) : List Side := (trace.erase .left).erase .right

/-- The orders in which two tasks can make so many steps. -/
def shuffles : ℕ → ℕ → List (List Side)
  | 0, right => [List.replicate right .right]
  | left + 1, 0 => [List.replicate (left + 1) .left]
  | left + 1, right + 1 =>
      (shuffles left (right + 1)).map (.left :: ·) ++
        (shuffles (left + 1) right).map (.right :: ·)

theorem mem_shuffles (trace : List Side) :
    trace ∈ shuffles (trace.count .left) (trace.count .right) := by
  induction trace with
  | nil => simp [shuffles]
  | cons side trace ih =>
      cases side with
      | left =>
          have hright : (Side.left :: trace).count .right = trace.count .right := by simp
          rw [List.count_cons_self, hright]
          cases hcount : trace.count .right with
          | zero =>
              rw [hcount] at ih
              cases hleft : trace.count .left with
              | zero => simpa [shuffles, hleft, List.replicate_succ] using ih
              | succ left => simpa [shuffles, hleft, List.replicate_succ] using ih
          | succ right =>
              rw [hcount] at ih
              rw [shuffles]
              exact List.mem_append_left _ (List.mem_map_of_mem ih)
      | right =>
          have hleft : (Side.right :: trace).count .left = trace.count .left := by simp
          rw [List.count_cons_self, hleft]
          cases hcount : trace.count .left with
          | zero =>
              rw [hcount] at ih
              simpa [shuffles, List.replicate_succ] using ih
          | succ left =>
              rw [hcount] at ih
              rw [shuffles]
              exact List.mem_append_right _ (List.mem_map_of_mem ih)

theorem interleaves_writes {left right : List (Effect State Output)} {resultLeft : Left}
    {resultRight : Right} {state : State} {trace : List Side}
    {outcome : Outcome State Left Right}
    (hruns : Interleaves (writes left resultLeft) (writes right resultRight) state trace
      outcome) :
    outcome = ⟨resultLeft, resultRight, applyAll (merge trace left right) state⟩ ∧
      trace.count .left = left.length ∧ trace.count .right = right.length := by
  induction trace generalizing left right state with
  | nil =>
      generalize hfirst : writes left resultLeft = first at hruns
      generalize hsecond : writes right resultRight = second at hruns
      cases hruns
      cases left <;> cases right <;> simp [writes] at hfirst hsecond
      subst hfirst hsecond
      exact ⟨rfl, rfl, rfl⟩
  | cons side trace ih =>
      generalize hfirst : writes left resultLeft = first at hruns
      generalize hsecond : writes right resultRight = second at hruns
      cases hruns with
      | left hrest =>
          cases left with
          | nil => simp [writes] at hfirst
          | cons effect rest =>
              simp only [writes, Program.step.injEq] at hfirst
              obtain ⟨rfl, rfl⟩ := hfirst
              subst hsecond
              obtain ⟨houtcome, hleft, hright⟩ := ih hrest
              exact ⟨houtcome, by simp [hleft], by simpa using hright⟩
      | right hrest =>
          cases right with
          | nil => simp [writes] at hsecond
          | cons effect rest =>
              simp only [writes, Program.step.injEq] at hsecond
              obtain ⟨rfl, rfl⟩ := hsecond
              subst hfirst
              obtain ⟨houtcome, hleft, hright⟩ := ih hrest
              refine ⟨?_, by simpa using hleft, by simp [hright]⟩
              rw [houtcome]
              cases left <;> rfl

/-- The reads of a task are not disturbed before the other's last write. -/
def Undisturbed (view : State → View) (effects : List (Effect State Output)) : Prop :=
  ∀ effect ∈ effects.dropLast, ∀ state, view (effect state).1 = view state

/-- One task has read, and the other has not: it reads now or later, unless the first
one is done by then. -/
theorem interleaves_read {left : List (Effect State Output)} {resultLeft : Left}
    {view : State → View} {effects : View → List (Effect State Output)}
    {result : View → Right} {state : State} {trace : List Side}
    {outcome : Outcome State Left Right} (hundisturbed : Undisturbed view left)
    (hruns : Interleaves (writes left resultLeft) (readWrite view effects result) state
      trace outcome) :
    (∃ after, trace = List.replicate left.length .left ++ List.replicate after .right) ∨
      (outcome = ⟨resultLeft, result (view state),
          applyAll (merge (trace.erase .right) left (effects (view state))) state⟩ ∧
        (trace.erase .right).count .left = left.length ∧
        (trace.erase .right).count .right = (effects (view state)).length) := by
  induction left generalizing state trace with
  | nil => exact .inl ⟨trace.length, by simpa using (interleaves_done_left hruns).2⟩
  | cons effect rest ih =>
      cases hruns with
      | right hread =>
          refine .inr ?_
          rw [List.erase_cons_head]
          exact interleaves_writes hread
      | left hrest =>
          have hlater : Undisturbed view rest := by
            cases rest with
            | nil => exact fun _ hmem => by simp at hmem
            | cons second others =>
                exact fun other hmem => hundisturbed other (List.mem_cons_of_mem _ hmem)
          rcases ih hlater hrest with ⟨after, htrace⟩ | ⟨houtcome, hleft, hright⟩
          · exact .inl ⟨after, by rw [htrace]; rfl⟩
          · cases rest with
            | nil =>
                rename_i trace
                refine .inl ⟨trace.length, ?_⟩
                rw [(interleaves_done_left hrest).2]
                simp
            | cons second others =>
                have hview : view (effect state).1 = view state :=
                  hundisturbed effect List.mem_cons_self state
                rw [hview] at houtcome hright
                refine .inr ?_
                rw [List.erase_cons_tail (by decide)]
                exact ⟨houtcome, by simp [hleft], by simpa using hright⟩

theorem merge_map_other {Value : Type} (trace : List Side) (left right : List Value)
    (hleft : trace.count .left = left.length)
    (hright : trace.count .right = right.length) :
    merge (trace.map Side.other) right left = merge trace left right := by
  induction trace generalizing left right with
  | nil =>
      obtain rfl : left = [] := List.length_eq_zero_iff.mp hleft.symm
      obtain rfl : right = [] := List.length_eq_zero_iff.mp hright.symm
      rfl
  | cons side trace ih =>
      cases side with
      | left =>
          cases left with
          | nil => simp at hleft
          | cons value rest =>
              have hrest := ih rest right (by simpa using hleft) (by simpa using hright)
              cases right <;> simp [merge, Side.other, hrest]
      | right =>
          cases right with
          | nil => simp at hright
          | cons value rest =>
              have hrest := ih left rest (by simpa using hleft) (by simpa using hright)
              cases left <;> simp [merge, Side.other, hrest]

theorem erase_map_other (trace : List Side) (side : Side) :
    (trace.map Side.other).erase side.other = (trace.erase side).map Side.other := by
  have hinjective : Function.Injective Side.other := by
    intro first second heq
    cases first <;> cases second <;> simp [Side.other] at heq ⊢
  exact (List.map_erase hinjective trace).symm

theorem count_map_other (trace : List Side) (side : Side) :
    (trace.map Side.other).count side.other = trace.count side := by
  have hinjective : Function.Injective Side.other := by
    intro first second heq
    cases first <;> cases second <;> simp [Side.other] at heq ⊢
  exact List.count_map_of_injective trace Side.other hinjective side

/-- Two tasks that read once: one is done before the other reads, or both act on what
they see in the first state. -/
theorem interleaves_readWrite {viewLeft viewRight : State → View}
    {left right : View → List (Effect State Output)} {resultLeft : View → Left}
    {resultRight : View → Right} {state : State} {trace : List Side}
    {outcome : Outcome State Left Right}
    (hleft : ∀ value, Undisturbed viewRight (left value))
    (hright : ∀ value, Undisturbed viewLeft (right value))
    (hruns : Interleaves (readWrite viewLeft left resultLeft)
      (readWrite viewRight right resultRight) state trace outcome) :
    Apart trace ∨
      (outcome = ⟨resultLeft (viewLeft state), resultRight (viewRight state),
          applyAll (merge (writeOrder trace) (left (viewLeft state))
            (right (viewRight state))) state⟩ ∧
        (writeOrder trace).count .left = (left (viewLeft state)).length ∧
        (writeOrder trace).count .right = (right (viewRight state)).length) := by
  cases hruns with
  | left hrest =>
      rename_i trace
      rcases interleaves_read (hleft _) hrest with ⟨after, htrace⟩ | hboth
      · refine .inl ⟨.left, (left (viewLeft state)).length + 1, after, ?_⟩
        rw [htrace]
        rfl
      · refine .inr ?_
        rw [writeOrder, List.erase_cons_head]
        exact hboth
  | right hrest =>
      rename_i trace
      rcases interleaves_read (hright _) hrest.swap with ⟨after, htrace⟩ | ⟨hout, hr, hl⟩
      · refine .inl ⟨.right, (right (viewRight state)).length + 1, after, ?_⟩
        have hback : trace = (trace.map Side.other).map Side.other := by
          rw [List.map_map]
          exact (List.map_id'' (fun side => by cases side <;> rfl) trace).symm
        rw [hback, htrace]
        simp [Side.other, List.replicate_succ]
      · have herase : (trace.map Side.other).erase .right =
            (trace.erase .left).map Side.other := erase_map_other trace .left
        have horder : writeOrder (.right :: trace) = trace.erase .left := by
          rw [writeOrder, List.erase_cons_tail (by decide), List.erase_cons_head]
        have hcountLeft := count_map_other (trace.erase .left) .left
        have hcountRight := count_map_other (trace.erase .left) .right
        rw [herase] at hout hr hl
        simp only [Side.other] at hcountLeft hcountRight
        rw [hcountRight] at hr
        rw [hcountLeft] at hl
        rw [horder, ← merge_map_other (trace.erase .left) _ _ hl hr]
        refine .inr ⟨?_, hl, hr⟩
        obtain ⟨resultLeft', resultRight', state'⟩ := outcome
        simp only [Outcome.swap, Outcome.mk.injEq] at hout ⊢
        exact ⟨hout.2.1, hout.1, hout.2.2⟩

/-! ## Writes that commute -/

/-- Effects that leave the same state in either order. -/
def Commute (first second : Effect State Output) : Prop :=
  ∀ state, (second (first state).1).1 = (first (second state).1).1

theorem applyAll_comm {effect : Effect State Output} {effects : List (Effect State Output)}
    (hcommute : ∀ other ∈ effects, Commute other effect) (state : State) :
    applyAll effects (effect state).1 = (effect (applyAll effects state)).1 := by
  induction effects generalizing state with
  | nil => rfl
  | cons other rest ih =>
      have hrest := ih (fun later hmem => hcommute later (List.mem_cons_of_mem _ hmem))
        (other state).1
      have hhead := hcommute other List.mem_cons_self state
      simp only [applyAll, List.foldl_cons] at hrest ⊢
      rw [← hhead, hrest]

/-- Writes that commute can be taken task by task. -/
theorem applyAll_merge {left right : List (Effect State Output)}
    (hcommute : ∀ first ∈ left, ∀ second ∈ right, Commute first second)
    (trace : List Side) (state : State) :
    applyAll (merge trace left right) state = applyAll right (applyAll left state) := by
  induction trace generalizing left right state with
  | nil => simp [merge, applyAll]
  | cons side trace ih =>
      cases side with
      | left =>
          cases left with
          | nil => cases right <;> simp [merge, applyAll]
          | cons effect rest =>
              exact ih (fun first hmem => hcommute first (List.mem_cons_of_mem _ hmem))
                (effect state).1
      | right =>
          cases right with
          | nil => cases left <;> simp [merge, applyAll]
          | cons effect rest =>
              have hrest := ih (fun first hfirst second hmem =>
                hcommute first hfirst second (List.mem_cons_of_mem _ hmem)) (effect state).1
              have hhead := applyAll_comm (fun first hfirst =>
                hcommute first hfirst effect List.mem_cons_self) state
              rw [hhead] at hrest
              cases left <;> exact hrest

/-- Tasks that only read. -/
theorem serializable_of_no_writes {viewLeft viewRight : State → View}
    {resultLeft : View → Left} {resultRight : View → Right} {state : State}
    {trace : List Side} {outcome : Outcome State Left Right}
    {left : Program State Output Left} {right : Program State Output Right}
    (hleft : left = readWrite viewLeft (fun _ => []) resultLeft)
    (hright : right = readWrite viewRight (fun _ => []) resultRight)
    (hruns : Interleaves left right state trace outcome) :
    Serializable left right state outcome := by
  subst hleft hright
  have hundisturbed : ∀ view : State → View,
      Undisturbed view ([] : List (Effect State Output)) :=
    fun view effect hmem => by simp at hmem
  rcases interleaves_readWrite (fun _ => hundisturbed viewRight)
    (fun _ => hundisturbed viewLeft) hruns with hapart | ⟨rfl, -, -⟩
  · exact serializable_of_apart hapart hruns
  · refine .inl ?_
    rw [applyAll_merge (by simp)]
    rfl

end LoraBridge.Program
