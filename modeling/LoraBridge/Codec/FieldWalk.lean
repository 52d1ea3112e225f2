import LoraBridge.Core.WhileLoop
import LoraBridge.Codec.Protobuf

/-!
# Loops that read one protobuf field per iteration

Every protobuf loop of the decoders reads a tag, handles the field by its
number and wire type, and goes on while the cursor is below the length.  A
`FieldWalk` is such a loop: its body as the code has it, together with the fact
that the body reads one field, does something with it, and leaves the cursor
behind it.
-/

namespace LoraBridge

open LoraBridge.Memory LoraBridge.Protobuf LoraBridge.WhileLoop

/-- A loop over the fields of the `n` bytes at `b`. -/
structure FieldWalk (b : Pointer) (n : ℕ) (State : Type) where
  cursor : State → ℕ
  body : State → Except Halt State
  apply : State → Field → Except Halt State
  body_eq : ∀ state, body state = parseField b n (cursor state) >>= apply state
  cursor_apply : ∀ {state field next},
    apply state field = .ok next → cursor next = field.next

namespace FieldWalk

variable {b : Pointer} {n : ℕ} {State : Type}

/-- `while (cursor < n)`. -/
def guard (walk : FieldWalk b n State) (state : State) : Bool :=
  decide (walk.cursor state < n)

/-- The loop, for as many iterations as tell an endless one. -/
def loop (walk : FieldWalk b n State) (start : State) : Outcome State Halt :=
  run (guard walk) walk.body (n + 1) start

/-- After `break` on malformed bytes the code goes on with what it has. -/
def resumed : Outcome State Halt → Except Halt State
  | .finished state => .ok state
  | .stopped .malformed state => .ok state
  | .stopped halt _ => .error halt
  | .running _ => .error .spinning

/-- `return false` on malformed bytes leaves what was written so far. -/
def returned : Outcome State Halt → Except Halt (Bool × State)
  | .finished state => .ok (true, state)
  | .stopped .malformed state => .ok (false, state)
  | .stopped halt _ => .error halt
  | .running _ => .error .spinning

/-- The loop heads the walk comes through. -/
abbrev Heads (walk : FieldWalk b n State) (start state : State) : Prop :=
  Reached (guard walk) walk.body start state

/-- The loop ends, and each iteration that neither returns nor breaks moves the
cursor strictly forward and keeps it at most the length. -/
def Progress (walk : FieldWalk b n State) (start : State) : Prop :=
  Terminates (guard walk) walk.body start ∧
    Forward (guard walk) walk.body walk.cursor n start

@[simp]
theorem guard_eq_true (walk : FieldWalk b n State) (state : State) :
    guard walk state = true ↔ walk.cursor state < n := by
  simp [guard]

theorem body_of_parse (walk : FieldWalk b n State) {state : State} {field : Field}
    (hparse : parseField b n (walk.cursor state) = .ok field) :
    walk.body state = walk.apply state field := by
  rw [walk.body_eq, hparse]
  rfl

theorem body_of_error (walk : FieldWalk b n State) {state : State} {halt : Halt}
    (hparse : parseField b n (walk.cursor state) = .error halt) :
    walk.body state = .error halt := by
  rw [walk.body_eq, hparse]
  rfl

/-- A continuing iteration has read a field and handled it. -/
theorem continues_iff (walk : FieldWalk b n State) {state next : State} :
    Continues (guard walk) walk.body state next ↔
      walk.cursor state < n ∧ ∃ field,
        parseField b n (walk.cursor state) = .ok field ∧
          walk.apply state field = .ok next := by
  unfold Continues
  rw [guard_eq_true]
  cases hparse : parseField b n (walk.cursor state) with
  | error halt => simp [body_of_error walk hparse]
  | ok field => simp [body_of_parse walk hparse]

theorem fieldStart_of_heads (walk : FieldWalk b n State) {start state : State}
    (hstart : walk.cursor start = 0) (hheads : Heads walk start state) :
    FieldStart b n (walk.cursor state) := by
  induction hheads with
  | refl => exact hstart ▸ FieldStart.first
  | tail hreached hstep ih =>
      obtain ⟨hlt, field, hparse, happly⟩ := (continues_iff walk).mp hstep
      rw [walk.cursor_apply happly]
      exact ih.next hlt hparse

/-- A walk that handles every field it reads comes to every field start. -/
theorem heads_of_fieldStart (walk : FieldWalk b n State) {start : State}
    (hstart : walk.cursor start = 0)
    (htotal : ∀ state field, Heads walk start state →
      walk.cursor state < n → parseField b n (walk.cursor state) = .ok field →
        ∃ next, walk.apply state field = .ok next)
    {p : ℕ} (hfield : FieldStart b n p) :
    ∃ state, Heads walk start state ∧ walk.cursor state = p := by
  induction hfield with
  | first => exact ⟨start, Relation.ReflTransGen.refl, hstart⟩
  | next hfield hlt hparse ih =>
      obtain ⟨state, hheads, rfl⟩ := ih
      obtain ⟨next, happly⟩ := htotal state _ hheads hlt hparse
      exact ⟨next, hheads.tail ((continues_iff walk).mpr ⟨hlt, _, hparse, happly⟩),
        walk.cursor_apply happly⟩

/-- The walk makes progress exactly when no field sends the cursor back. -/
theorem progress_iff (walk : FieldWalk b n State) {start : State}
    (hn : n < 2 ^ 32) (hstart : walk.cursor start = 0)
    (htotal : ∀ state field, Heads walk start state →
      walk.cursor state < n → parseField b n (walk.cursor state) = .ok field →
        ∃ next, walk.apply state field = .ok next) :
    Progress walk start ↔ NeverRegresses b n := by
  constructor
  · rintro ⟨-, hforward⟩ p field hfield hlt hparse
    obtain ⟨state, hheads, rfl⟩ := heads_of_fieldStart walk hstart htotal hfield
    obtain ⟨next, happly⟩ := htotal state field hheads hlt hparse
    have hmove := hforward state next hheads
      ((continues_iff walk).mpr ⟨hlt, field, hparse, happly⟩)
    rw [walk.cursor_apply happly] at hmove
    exact (parseField_forward_iff hn hparse).mp hmove
  · intro hnever
    have hforward : Forward (guard walk) walk.body walk.cursor n start := by
      intro state next hheads hstep
      obtain ⟨hlt, field, hparse, happly⟩ := (continues_iff walk).mp hstep
      rw [walk.cursor_apply happly]
      exact (parseField_forward_iff hn hparse).mpr
        (hnever _ field (fieldStart_of_heads walk hstart hheads) hlt hparse)
    exact ⟨hforward.terminates, hforward⟩

theorem Progress.loop_ne_running {walk : FieldWalk b n State} {start : State}
    (hprogress : Progress walk start) (last : State) :
    loop walk start ≠ .running last :=
  hprogress.2.run_ne_running (by omega) last

/-! ## How the loop ends -/

/-- Whether a field can be handled does not depend on what was read before. -/
def Uniform (walk : FieldWalk b n State) : Prop :=
  ∀ left right field next, walk.apply left field = .ok next →
    ∃ next', walk.apply right field = .ok next'

theorem Uniform.cursorDetermined {walk : FieldWalk b n State}
    (huniform : Uniform walk) :
    CursorDetermined (guard walk) walk.body walk.cursor := by
  intro left right next hcursor hstep
  obtain ⟨hlt, field, hparse, happly⟩ := (continues_iff walk).mp hstep
  obtain ⟨next', happly'⟩ := huniform left right field next happly
  refine ⟨next', (continues_iff walk).mpr ?_, ?_⟩
  · exact hcursor ▸ ⟨hlt, field, hparse, happly'⟩
  · rw [walk.cursor_apply happly, walk.cursor_apply happly']

/-- The bound of `loop` is generous enough: a loop cut short never ends. -/
theorem Uniform.not_terminates {walk : FieldWalk b n State}
    (huniform : Uniform walk) {start last : State}
    (hloop : loop walk start = .running last) :
    ¬ Terminates (guard walk) walk.body start :=
  not_terminates_of_survives huniform.cursorDetermined
    (fun state hguard => (guard_eq_true walk state).mp hguard) ⟨last, hloop⟩

theorem Uniform.loop_eq_stopped {walk : FieldWalk b n State}
    (huniform : Uniform walk) {start state : State} {halt : Halt}
    (hheads : Heads walk start state) (hlt : walk.cursor state < n)
    (hbody : walk.body state = .error halt) :
    loop walk start = .stopped halt state := by
  obtain ⟨fuel, hrun⟩ := run_eq_stopped_of_reached hheads
    ((guard_eq_true walk state).mpr hlt) hbody
  have hended : ∀ last, loop walk start ≠ .running last := fun last hloop =>
    absurd ⟨fuel, fun other => by rw [hrun]; simp⟩ (huniform.not_terminates hloop)
  exact run_unique hended (by simp) rfl hrun

/-- A walk stops early for a reason of its body at a loop head. -/
theorem loop_stopped {walk : FieldWalk b n State} {start state : State} {halt : Halt}
    (hloop : loop walk start = .stopped halt state) :
    Heads walk start state ∧ walk.cursor state < n ∧
      (parseField b n (walk.cursor state) = .error halt ∨
        ∃ field, parseField b n (walk.cursor state) = .ok field ∧
          walk.apply state field = .error halt) := by
  obtain ⟨hheads, hguard, hbody⟩ := reached_of_run.2 halt state hloop
  rw [walk.body_eq] at hbody
  exact ⟨hheads, (guard_eq_true walk state).mp hguard, bind_eq_error.mp hbody⟩

/-- Over readable bytes, a walk that handles every field it reads only stops on
malformed bytes. -/
theorem halt_eq_malformed {walk : FieldWalk b n State} (hreadable : Readable b n)
    {start state : State} {halt : Halt}
    (htotal : ∀ state field, Heads walk start state →
      walk.cursor state < n → parseField b n (walk.cursor state) = .ok field →
        ∃ next, walk.apply state field = .ok next)
    (hloop : loop walk start = .stopped halt state) : halt = .malformed := by
  obtain ⟨hheads, hlt, hparse | ⟨field, hparse, happly⟩⟩ := loop_stopped hloop
  · exact parseField_error hreadable hparse
  · obtain ⟨next, hnext⟩ := htotal state field hheads hlt hparse
    simp [hnext] at happly

/-! ## What a loop that breaks on malformed bytes has read -/

theorem foldlM_cons_eq_ok {walk : FieldWalk b n State} {state last : State}
    {field : Field} {fields : List Field} :
    (field :: fields).foldlM walk.apply state = .ok last ↔
      ∃ next, walk.apply state field = .ok next ∧
        fields.foldlM walk.apply next = .ok last := by
  rw [List.foldlM_cons]
  exact bind_eq_ok

/-- A walk that handles every field of the message reads it to its end. -/
theorem foldlM_of_message (walk : FieldWalk b n State) {p : ℕ} {fields : List Field}
    (hmessage : Message b n p fields)
    (htotal : ∀ state field p, p < n → parseField b n p = .ok field →
      ∃ next, walk.apply state field = .ok next) (state : State) :
    ∃ last, fields.foldlM walk.apply state = .ok last := by
  induction hmessage generalizing state with
  | done => exact ⟨state, rfl⟩
  | malformed => exact ⟨state, rfl⟩
  | field hlt hparse _ ih =>
      obtain ⟨next, hnext⟩ := htotal state _ _ hlt hparse
      obtain ⟨last, hlast⟩ := ih next
      exact ⟨last, foldlM_cons_eq_ok.mpr ⟨next, hnext, hlast⟩⟩

theorem run_of_message {walk : FieldWalk b n State} {state last : State}
    {fields : List Field} (hmessage : Message b n (walk.cursor state) fields)
    (happly : fields.foldlM walk.apply state = .ok last) :
    ∃ fuel, run (guard walk) walk.body fuel state = .finished last ∨
      run (guard walk) walk.body fuel state = .stopped .malformed last := by
  induction fields generalizing state with
  | nil =>
      obtain rfl : state = last := Except.ok.inj happly
      refine ⟨1, ?_⟩
      cases hmessage with
      | done hend => exact .inl (by simp [run, guard, hend])
      | malformed hlt hparse =>
          exact .inr (by simp [run, guard, hlt, body_of_error walk hparse])
  | cons field fields ih =>
      obtain ⟨next, hnext, hrest⟩ := foldlM_cons_eq_ok.mp happly
      cases hmessage with
      | field hlt hparse hmessage =>
          rw [← walk.cursor_apply hnext] at hmessage
          obtain ⟨fuel, hrun⟩ := ih hmessage hrest
          refine ⟨fuel + 1, ?_⟩
          rwa [run_succ_of_continues
            ((continues_iff walk).mpr ⟨hlt, field, hparse, hnext⟩)]

theorem message_of_run {walk : FieldWalk b n State} {fuel : ℕ} {state last : State}
    (hhandled : ∀ state field, walk.apply state field ≠ .error .malformed)
    (hrun : run (guard walk) walk.body fuel state = .finished last ∨
      run (guard walk) walk.body fuel state = .stopped .malformed last) :
    ∃ fields, Message b n (walk.cursor state) fields ∧
      fields.foldlM walk.apply state = .ok last := by
  induction fuel generalizing state with
  | zero => simp [run] at hrun
  | succ fuel ih =>
      by_cases hlt : walk.cursor state < n
      · have hguard : guard walk state = true := (guard_eq_true walk state).mpr hlt
        cases hparse : parseField b n (walk.cursor state) with
        | error halt =>
            simp only [run, hguard, if_true, body_of_error walk hparse] at hrun
            obtain ⟨rfl, rfl⟩ : halt = .malformed ∧ state = last := by
              simpa using hrun
            exact ⟨[], .malformed hlt hparse, rfl⟩
        | ok field =>
            have hbody := body_of_parse walk hparse
            cases hnext : walk.apply state field with
            | error halt =>
                simp only [run, hguard, if_true, hbody, hnext] at hrun
                obtain ⟨rfl, -⟩ : halt = .malformed ∧ state = last := by
                  simpa using hrun
                exact absurd hnext (hhandled state field)
            | ok next =>
                rw [run_succ_of_continues
                  ((continues_iff walk).mpr ⟨hlt, field, hparse, hnext⟩)] at hrun
                obtain ⟨fields, hmessage, hfields⟩ := ih hrun
                rw [walk.cursor_apply hnext] at hmessage
                exact ⟨field :: fields, .field hlt hparse hmessage,
                  foldlM_cons_eq_ok.mpr ⟨next, hnext, hfields⟩⟩
      · have hguard : guard walk state = false := by simp [guard, hlt]
        simp only [run, hguard, Bool.false_eq_true, if_false] at hrun
        obtain rfl : state = last := by simpa using hrun
        exact ⟨[], .done (by omega), rfl⟩

theorem resumed_eq_ok {outcome : Outcome State Halt} {state : State} :
    resumed outcome = .ok state ↔
      outcome = .finished state ∨ outcome = .stopped .malformed state := by
  rcases outcome with _ | ⟨_ | _ | _, _⟩ | _ <;> simp [resumed]

/-- A loop that breaks on malformed bytes goes on exactly when the message has
an end, with the fields up to there read in turn. -/
theorem resumed_loop_eq_ok {walk : FieldWalk b n State} {start last : State}
    (huniform : Uniform walk)
    (hhandled : ∀ state field, walk.apply state field ≠ .error .malformed) :
    resumed (loop walk start) = .ok last ↔
      ∃ fields, Message b n (walk.cursor start) fields ∧
        fields.foldlM walk.apply start = .ok last := by
  rw [resumed_eq_ok]
  constructor
  · exact message_of_run hhandled
  · rintro ⟨fields, hmessage, happly⟩
    obtain ⟨fuel, hrun⟩ := run_of_message hmessage happly
    have hended : ∀ other, loop walk start ≠ .running other := fun other hloop =>
      huniform.not_terminates hloop ⟨fuel, fun state => by
        rcases hrun with hrun | hrun <;> rw [hrun] <;> simp⟩
    exact hrun.imp (run_unique hended (by simp) rfl) (run_unique hended (by simp) rfl)

end FieldWalk

end LoraBridge
