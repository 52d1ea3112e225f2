import LoraBridge.Core.Machine
import LoraBridge.Core.WrapClock
import LoraBridge.Portal.FormText

/-!
# The sessions of the camera portal

Two slots with a token and the second at which it expires, by a clock that shows seconds
since boot modulo 2^32 milliseconds.  A ledger keeps what the slots stand for: which token
was issued, and when it was last used in real time.
-/

namespace LoraBridge.CamSessions

open LoraBridge.FormText LoraBridge.Machine LoraBridge.WrapClock

def SESS_TTL : UInt32 := 1800

/-- `s_sess[2]`. -/
def SESSIONS : ℕ := 2

abbrev Slot := Fin SESSIONS

abbrev Token := List.Vector UInt8 16

structure Session where
  tok : Token
  expSec : UInt32
  used : Bool

abbrev Table := Slot → Session

/-- After boot. -/
def Table.empty : Table := fun _ => ⟨List.Vector.replicate 16 0, 0, false⟩

/-- `millis() / 1000`, at a time since boot in milliseconds. -/
def nowSec (time : ℕ) : UInt32 := ticks time / 1000

theorem toNat_nowSec (time : ℕ) : (nowSec time).toNat = time % 2 ^ 32 / 1000 := by
  rw [nowSec, UInt32.toNat_div, toNat_ticks]
  rfl

/-- `s.used && s.expSec > now && ctEqual(s.tok, tok, 16)`. -/
def Session.answers (session : Session) (tok : Token) (now : UInt32) : Bool :=
  session.used ∧ now < session.expSec ∧ session.tok = tok

/-- `findSession`: the slot, whose expiry is put off. -/
def findSession (hextok : Text) (time : ℕ) (table : Table) : Option Slot × Table :=
  match hexToBytes hextok 16 with
  | none => (none, table)
  | some tok =>
      match (List.finRange SESSIONS).find? fun i => (table i).answers tok (nowSec time) with
      | none => (none, table)
      | some i =>
          (some i, Function.update table i { table i with expSec := nowSec time + SESS_TTL })

/-- `!s.used || s.expSec <= now`. -/
def Session.isFree (session : Session) (now : UInt32) : Bool :=
  !session.used || session.expSec ≤ now

/-- `pickSlot`: a free slot, or else the one that expires first. -/
def pickSlot (time : ℕ) (table : Table) : Slot :=
  match (List.finRange SESSIONS).find? fun i => (table i).isFree (nowSec time) with
  | some i => i
  | none => (List.finRange SESSIONS).foldl (fun oldest i =>
      if (table i).expSec < (table oldest).expSec then i else oldest) ⟨0, by decide⟩

/-- A login with what the password check says, sixteen random bytes and the times of its
two clock readings; any page or stream asked for with a token; a logout with a token. -/
inductive Event where
  | login (passed : Bool) (tok : Token) (picked issued : ℕ)
  | request (hextok : Text) (time : ℕ)
  | logout (hextok : Text) (time : ℕ)

/-- `handleLoginPost`, `requireAuth` or `sessionValid`, and `handleLogout`, each with the
slot it chose or found. -/
def handle : Event → Table → Option Slot × Table
  | .login passed tok picked issued, table =>
      if passed then
        let s := pickSlot picked table
        (some s, Function.update table s ⟨tok, nowSec issued + SESS_TTL, true⟩)
      else (none, table)
  | .request hextok time, table => findSession hextok time table
  | .logout hextok time, table =>
      match findSession hextok time table with
      | (none, next) => (none, next)
      | (some s, next) => (some s, Function.update next s { next s with used := false })

/-! ## What the slots stand for -/

/-- A token that was issued, and when it was last used or issued. -/
structure Grant where
  tok : Token
  lastUsed : ℕ

abbrev Ledger := Slot → Option Grant

/-- A login grants its token, in place of what was granted in the slot; a request is a use;
a logout ends the grant. -/
def Event.note : Event → Option Slot → Ledger → Ledger
  | _, none, ledger => ledger
  | .login _ tok _ issued, some s, ledger => Function.update ledger s (some ⟨tok, issued⟩)
  | .request _ time, some s, ledger =>
      Function.update ledger s ((ledger s).map fun grant => { grant with lastUsed := time })
  | .logout _ _, some s, ledger => Function.update ledger s none

structure State where
  table : Table
  ledger : Ledger

def boot : State := ⟨.empty, fun _ => none⟩

def step (state : State) (event : Event) : State × List (Option Slot) :=
  let (slot, table) := handle event state.table
  (⟨table, event.note slot state.ledger⟩, [slot])

/-- The state after boot and these events. -/
def after (events : List Event) : State := (run step boot events).1

theorem after_snoc (events : List Event) (event : Event) :
    after (events ++ [event]) = (step (after events) event).1 := by
  unfold after
  rw [run_append]
  rfl

/-- A slot holds its grant: the token, and the expiry that the last use put in. -/
def Session.Stands (session : Session) : Option Grant → Prop
  | none => session.used = false
  | some grant => session.used = true ∧ session.tok = grant.tok ∧
      session.expSec = nowSec grant.lastUsed + SESS_TTL

def Consistent (state : State) : Prop := ∀ i, (state.table i).Stands (state.ledger i)

/-- What `findSession` does: nothing, or one slot answers and has its expiry put off. -/
theorem findSession_cases (hextok : Text) (time : ℕ) (table : Table) :
    findSession hextok time table = (none, table) ∨
      ∃ tok i, hexToBytes hextok 16 = some tok ∧
        (table i).answers tok (nowSec time) = true ∧
        findSession hextok time table = (some i,
          Function.update table i { table i with expSec := nowSec time + SESS_TTL }) := by
  unfold findSession
  cases hexToBytes hextok 16 with
  | none => exact .inl rfl
  | some tok =>
      dsimp only
      cases hfind : (List.finRange SESSIONS).find?
          fun i => (table i).answers tok (nowSec time) with
      | none => exact .inl rfl
      | some i =>
          have hanswers := List.find?_some hfind
          exact .inr ⟨tok, i, rfl, hanswers, rfl⟩

/-- Only a used slot answers. -/
theorem stands_of_answers {session : Session} {grant : Option Grant} {tok : Token}
    {now : UInt32} (hstands : session.Stands grant) (hanswers : session.answers tok now = true) :
    ∃ granted, grant = some granted ∧ granted.tok = tok ∧
      now < nowSec granted.lastUsed + SESS_TTL := by
  obtain ⟨hused, hlive, htok⟩ : session.used = true ∧ now < session.expSec ∧
    session.tok = tok := by simpa [Session.answers] using hanswers
  cases grant with
  | none =>
      rw [Session.Stands, hused] at hstands
      cases hstands
  | some granted =>
      obtain ⟨-, hgranted, hexp⟩ := hstands
      exact ⟨granted, rfl, hgranted.symm.trans htok, hexp ▸ hlive⟩

/-- A change of one slot and its grant keeps the others. -/
theorem consistent_update {table : Table} {ledger : Ledger}
    (hconsistent : Consistent ⟨table, ledger⟩) (i : Slot) {session : Session}
    {grant : Option Grant} (hstands : session.Stands grant) :
    Consistent ⟨Function.update table i session, Function.update ledger i grant⟩ := by
  intro j
  by_cases hj : j = i
  · subst hj
    simpa using hstands
  · simpa [Function.update_of_ne hj] using hconsistent j

theorem consistent_step {state : State} (event : Event) (hconsistent : Consistent state) :
    Consistent (step state event).1 := by
  obtain ⟨table, ledger⟩ := state
  cases event with
  | login passed tok picked issued =>
      cases passed with
      | false => exact hconsistent
      | true => exact consistent_update hconsistent _ ⟨rfl, rfl, rfl⟩
  | request hextok time =>
      rcases findSession_cases hextok time table with hnone | ⟨tok, i, -, hanswers, hfound⟩
      · simpa only [step, handle, hnone, Event.note] using hconsistent
      · obtain ⟨grant, hgrant, -, -⟩ := stands_of_answers (hconsistent i) hanswers
        change ledger i = some grant at hgrant
        have hstands : (table i).Stands (ledger i) := hconsistent i
        rw [hgrant] at hstands
        simp only [step, handle, hfound, Event.note, hgrant]
        exact consistent_update hconsistent i ⟨hstands.1, hstands.2.1, rfl⟩
  | logout hextok time =>
      rcases findSession_cases hextok time table with hnone | ⟨tok, i, -, -, hfound⟩
      · simpa only [step, handle, hnone, Event.note] using hconsistent
      · simp only [step, handle, hfound, Event.note, Function.update_idem]
        exact consistent_update hconsistent i rfl

theorem consistent_after (events : List Event) : Consistent (after events) := by
  induction events using List.reverseRecOn with
  | nil => exact fun _ => rfl
  | append_singleton events event ih =>
      rw [after_snoc]
      exact consistent_step event ih

/-! ## Which tokens are accepted -/

/-- The token that is presented with an event, and when. -/
def Event.presents : Event → Option (Text × ℕ)
  | .login _ _ _ _ => none
  | .request hextok time | .logout hextok time => some (hextok, time)

/-- The token was issued, neither logged out nor evicted since, and used less than
`SESS_TTL` ago. -/
def Fresh (ledger : Ledger) (tok : Token) (time : ℕ) : Prop :=
  ∃ i grant, ledger i = some grant ∧ grant.tok = tok ∧
    time - grant.lastUsed < 1000 * SESS_TTL.toNat

/-- A token that is accepted is fresh. -/
def Sound (state : State) (hextok : Text) (time : ℕ) : Prop :=
  (findSession hextok time state.table).1.isSome →
    ∃ tok, hexToBytes hextok 16 = some tok ∧ Fresh state.ledger tok time

/-- `millis()` has wrapped since the last use, and shows a second that is not yet 1800 past
the one it showed then. -/
def ComeRound (lastUsed time : ℕ) : Prop :=
  lastUsed / 2 ^ 32 < time / 2 ^ 32 ∧
    time % 2 ^ 32 / 1000 < lastUsed % 2 ^ 32 / 1000 + 1800

/-- A token that was not used in the last 1800 s has no use that has come round. -/
def NotComeRound (ledger : Ledger) (tok : Token) (time : ℕ) : Prop :=
  (∀ i grant, ledger i = some grant → grant.tok = tok → grant.lastUsed + 1800000 ≤ time) →
    ∀ i grant, ledger i = some grant → grant.tok = tok → ¬ ComeRound grant.lastUsed time

/-- A token is accepted by the expiries of its sessions. -/
theorem accepted_iff {state : State} (hconsistent : Consistent state) (hextok : Text)
    (time : ℕ) :
    (findSession hextok time state.table).1.isSome ↔
      ∃ tok i grant, hexToBytes hextok 16 = some tok ∧ state.ledger i = some grant ∧
        grant.tok = tok ∧ nowSec time < nowSec grant.lastUsed + SESS_TTL := by
  constructor
  · intro haccepted
    rcases findSession_cases hextok time state.table with
      hnone | ⟨tok, i, htok, hanswers, -⟩
    · rw [hnone] at haccepted
      cases haccepted
    · obtain ⟨grant, hgrant, hsame, hlive⟩ := stands_of_answers (hconsistent i) hanswers
      exact ⟨tok, i, grant, htok, hgrant, hsame, hlive⟩
  · rintro ⟨tok, i, grant, htok, hgrant, hsame, hlive⟩
    have hstands := hconsistent i
    rw [hgrant] at hstands
    obtain ⟨hused, hheld, hexp⟩ := hstands
    have hanswers : (state.table i).answers tok (nowSec time) = true := by
      simp [Session.answers, hused, hheld, hsame, hexp, hlive]
    unfold findSession
    rw [htok]
    dsimp only
    cases hfind : (List.finRange SESSIONS).find?
        fun j => (state.table j).answers tok (nowSec time) with
    | none => exact absurd hanswers (List.find?_eq_none.mp hfind i (List.mem_finRange i))
    | some j => rfl

/-- Long after its last use, a session is live only by a wrap of the clock. -/
theorem live_iff_comeRound {lastUsed time : ℕ} (hstale : lastUsed + 1800000 ≤ time) :
    nowSec time < nowSec lastUsed + SESS_TTL ↔ ComeRound lastUsed time := by
  have httl : SESS_TTL.toNat = 1800 := rfl
  rw [UInt32.lt_iff_toNat_lt, UInt32.toNat_add, toNat_nowSec, toNat_nowSec, httl, ComeRound]
  omega

theorem not_fresh_iff {ledger : Ledger} {tok : Token} {time : ℕ} :
    ¬ Fresh ledger tok time ↔ ∀ i grant, ledger i = some grant → grant.tok = tok →
      grant.lastUsed + 1800000 ≤ time := by
  have httl : 1000 * SESS_TTL.toNat = 1800000 := rfl
  rw [Fresh, httl]
  constructor
  · intro hstale i grant hgrant hsame
    by_contra hrecent
    exact hstale ⟨i, grant, hgrant, hsame, by omega⟩
  · rintro hstale ⟨i, grant, hgrant, hsame, hrecent⟩
    have hlong := hstale i grant hgrant hsame
    omega

theorem sound_iff {state : State} (hconsistent : Consistent state) (hextok : Text)
    (time : ℕ) : Sound state hextok time ↔
      ∀ tok, hexToBytes hextok 16 = some tok → NotComeRound state.ledger tok time := by
  rw [Sound, accepted_iff hconsistent]
  constructor
  · intro hsound tok htok hstale i grant hgrant hsame hround
    have hlive := (live_iff_comeRound (hstale i grant hgrant hsame)).mpr hround
    obtain ⟨tok', htok', hfresh⟩ := hsound ⟨tok, i, grant, htok, hgrant, hsame, hlive⟩
    obtain rfl := Option.some.inj (htok.symm.trans htok')
    exact not_fresh_iff.mpr hstale hfresh
  · rintro hround ⟨tok, i, grant, htok, hgrant, hsame, hlive⟩
    refine ⟨tok, htok, ?_⟩
    by_contra hnot
    have hstale := not_fresh_iff.mp hnot
    have hcome := (live_iff_comeRound (hstale i grant hgrant hsame)).mp hlive
    exact hround tok htok hstale i grant hgrant hsame hcome

/-- Of every run, with any real times: all tokens that are accepted are fresh exactly when
no token is presented that was not used in the last 1800 s and has a use that has come
round. -/
theorem sessions_sound_iff (events : List Event) :
    (∀ before event hextok time, before ++ [event] <+: events →
        event.presents = some (hextok, time) → Sound (after before) hextok time) ↔
      ∀ before event hextok time tok, before ++ [event] <+: events →
        event.presents = some (hextok, time) → hexToBytes hextok 16 = some tok →
          NotComeRound (after before).ledger tok time := by
  constructor
  · intro hsound before event hextok time tok hprefix hpresents htok
    have hcall := hsound before event hextok time hprefix hpresents
    exact (sound_iff (consistent_after before) hextok time).mp hcall tok htok
  · intro hround before event hextok time hprefix hpresents
    refine (sound_iff (consistent_after before) hextok time).mpr fun tok htok => ?_
    exact hround before event hextok time tok hprefix hpresents htok

/-- A session of the last minute before the clock comes round is accepted an hour later. -/
theorem accepted_after_wrap :
    ¬ ∀ before event hextok time,
        before ++ [event] <+: [.login true (List.Vector.replicate 16 0) 4294960000 4294960000,
          .request (List.replicate 32 '0') 4298560000] →
        event.presents = some (hextok, time) → Sound (after before) hextok time := by
  intro hsound
  obtain ⟨tok, -, i, grant, hgrant, -, hfresh⟩ := hsound
    [.login true (List.Vector.replicate 16 0) 4294960000 4294960000]
    (.request (List.replicate 32 '0') 4298560000) _ _ List.prefix_rfl rfl (by decide)
  revert hgrant hfresh
  fin_cases i
  · rintro hgrant
    obtain rfl := Option.some.inj hgrant
    decide
  · rintro hgrant
    cases hgrant

end LoraBridge.CamSessions
