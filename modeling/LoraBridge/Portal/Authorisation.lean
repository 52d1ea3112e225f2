import LoraBridge.Portal.CamPortal

/-!
# Nothing is done without a login

Whatever is asked of the portal, in any order and through any restarts: what stands behind the
login is done only for a request with the token of an open session, and a session is opened by
the credentials alone.  It ends with a logout, with a restart, and half an hour after its last
use.
-/

namespace LoraBridge.Authorisation

open LoraBridge.CamPortal LoraBridge.CamPortalConfig LoraBridge.FormText LoraBridge.Machine
open LoraBridge.WrapClock
open LoraBridge.CamSessions (SESS_TTL Session Slot Table Token findSession nowSec pickSlot
  toNat_nowSec)

/-! ## The clock -/

/-- In the first period of the clock. -/
theorem toNat_nowSec_of_lt {time : ℕ} (hperiod : time < 2 ^ 32) :
    (nowSec time).toNat = time / 1000 := by
  rw [toNat_nowSec, Nat.mod_eq_of_lt hperiod]

theorem nowSec_le {earlier later : ℕ} (horder : earlier ≤ later) (hperiod : later < 2 ^ 32) :
    nowSec earlier ≤ nowSec later := by
  rw [UInt32.le_iff_toNat_le, toNat_nowSec_of_lt hperiod,
    toNat_nowSec_of_lt (horder.trans_lt hperiod)]
  exact Nat.div_le_div_right horder

/-- Before the expiry that a use puts in, less than `SESS_TTL` has gone by. -/
theorem lt_of_live {last time : ℕ} (horder : last ≤ time) (hperiod : time < 2 ^ 32)
    (hlive : nowSec time < nowSec last + SESS_TTL) : time < last + 1000 * SESS_TTL.toNat := by
  have httl : SESS_TTL.toNat = 1800 := rfl
  rw [UInt32.lt_iff_toNat_lt, UInt32.toNat_add, toNat_nowSec_of_lt hperiod,
    toNat_nowSec_of_lt (horder.trans_lt hperiod), httl] at hlive
  rw [httl]
  omega

/-! ## The session a request is given -/

/-- A text that the first server looks up only at its full length. -/
def guarded (sid : Text) : List Text := if sid.length = 32 then [sid] else []

/-- The texts that a route looks up. -/
def sidsOf (request : Request) : List Text :=
  match request.route with
  | .loginForm | .login | .notFound => []
  | .photo => guarded (cookieSid request.cookie) ++ guarded (request.arg "sid")
  | .stream | .jpg => request.querySid.toList
  | _ => guarded (cookieSid request.cookie)

def Presents (request : Request) (tok : Token) : Prop :=
  ∃ sid ∈ sidsOf request, hexToBytes sid 16 = some tok

/-- The table with the expiry of a slot put off. -/
def renew (table : Table) (i : Slot) (time : ℕ) : Table :=
  Function.update table i { table i with expSec := nowSec time + SESS_TTL }

/-- No slot answers any of the texts, or one answers one of them and has its expiry put off. -/
def Finds (sids : List Text) (time : ℕ) (table : Table) (result : Option Slot × Table) : Prop :=
  (result = (none, table) ∧ ∀ sid ∈ sids, ∀ tok, hexToBytes sid 16 = some tok →
      ∀ i, (table i).answers tok (nowSec time) = false) ∨
    ∃ sid ∈ sids, ∃ tok i, hexToBytes sid 16 = some tok ∧
      (table i).answers tok (nowSec time) = true ∧ result = (some i, renew table i time)

theorem finds_findSession (sid : Text) (time : ℕ) (table : Table) :
    Finds [sid] time table (findSession sid time table) := by
  rw [findSession]
  cases hbytes : hexToBytes sid 16 with
  | none =>
      refine .inl ⟨rfl, fun sid' hmem tok htok => ?_⟩
      rw [List.mem_singleton.mp hmem, hbytes] at htok
      cases htok
  | some tok =>
      dsimp only
      cases hfind : (List.finRange CamSessions.SESSIONS).find?
          fun i => (table i).answers tok (nowSec time) with
      | none =>
          refine .inl ⟨rfl, fun sid' hmem tok' htok i => ?_⟩
          rw [List.mem_singleton.mp hmem, hbytes] at htok
          obtain rfl := Option.some.inj htok
          simpa using List.find?_eq_none.mp hfind i (List.mem_finRange i)
      | some i => exact .inr ⟨sid, List.mem_singleton_self sid, tok, i, hbytes,
          List.find?_some (p := fun i => (table i).answers tok (nowSec time)) hfind, rfl⟩

theorem finds_nothing (time : ℕ) (table : Table) : Finds [] time table (none, table) :=
  .inl ⟨rfl, fun _ hmem => absurd hmem List.not_mem_nil⟩

theorem finds_guarded (sid : Text) (time : ℕ) (table : Table) :
    Finds (guarded sid) time table
      (if sid.length = 32 then findSession sid time table else (none, table)) := by
  rw [guarded]
  split
  · exact finds_findSession sid time table
  · exact finds_nothing time table

theorem finds_media (cookie sid : Text) (time : ℕ) (table : Table) :
    Finds (guarded (cookieSid cookie) ++ guarded sid) time table
      (mediaSession cookie sid time table) := by
  rw [mediaSession, currentSession]
  rcases finds_guarded (cookieSid cookie) time table with
    ⟨hnone, hsilent⟩ | ⟨sid', hmem, tok, i, hbytes, hanswers, hfound⟩
  · rw [hnone]
    rcases finds_guarded sid time table with
      ⟨hnone', hsilent'⟩ | ⟨sid', hmem, tok, i, hbytes, hanswers, hfound⟩
    · refine .inl ⟨hnone', fun sid' hmem => ?_⟩
      rcases List.mem_append.mp hmem with hfirst | hsecond
      · exact hsilent sid' hfirst
      · exact hsilent' sid' hsecond
    · exact .inr ⟨sid', List.mem_append_right _ hmem, tok, i, hbytes, hanswers, hfound⟩
  · rw [hfound]
    exact .inr ⟨sid', List.mem_append_left _ hmem, tok, i, hbytes, hanswers, rfl⟩

theorem finds_stream (sid : Option Text) (time : ℕ) (table : Table) :
    Finds sid.toList time table (streamSession sid time table) := by
  cases sid with
  | none => exact finds_nothing time table
  | some sid => exact finds_findSession sid time table

theorem finds_sessionOf (request : Request) (time : ℕ) (table : Table) :
    Finds (sidsOf request) time table (sessionOf request time table) := by
  obtain ⟨route, cookie, arg, querySid⟩ := request
  cases route with
  | loginForm | login | notFound => exact finds_nothing time table
  | photo => exact finds_media cookie (arg "sid") time table
  | stream | jpg => exact finds_stream querySid time table
  | _ => exact finds_guarded (cookieSid cookie) time table

/-- Only a used slot answers, before its expiry, and its own token. -/
theorem answers_iff {session : Session} {tok : Token} {now : UInt32} :
    session.answers tok now = true ↔ session.used = true ∧ now < session.expSec ∧
      session.tok = tok := by
  simp [Session.answers]

/-! ## What a handler can do -/

section Model

variable (sha256 : List UInt8 → Hash)

/-- A handler changes nothing and does nothing; or it is a login that passes, a logout of a
session, or what stands behind the login, with a session. -/
inductive Answers (request : Request) (time later : ℕ) (tok : Token) (salt : Salt)
    (opened : Bool) (s : State) : State → Response → Prop
  | refused {response : Response} (hserved : ∀ held effect, response ≠ .served held effect)
      (hsilent : request.route = .logout → ∀ held, Presents request held →
        ∀ i, (s.table i).answers held (nowSec time) = false) :
      Answers request time later tok salt opened s s response
  | granted (hroute : request.route = .login)
      (hcheck : checkLogin sha256 (request.arg "user") (request.arg "pass") s.store = true) :
      Answers request time later tok salt opened s
        { s with
          table := Function.update s.table (pickSlot time s.table)
            ⟨tok, nowSec (time + later) + SESS_TTL, true⟩ } (.granted tok)
  | loggedOut {i : Slot} {held : Token} (hroute : request.route = .logout)
      (hpresents : Presents request held)
      (hanswers : (s.table i).answers held (nowSec time) = true) :
      Answers request time later tok salt opened s
        { s with
          table := Function.update (renew s.table i time) i
            { renew s.table i time i with used := false } } (.redirect "/login")
  | served {i : Slot} {held : Token} (hlogin : request.route ≠ .login)
      (hlogout : request.route ≠ .logout) (hpresents : Presents request held)
      (hanswers : (s.table i).answers held (nowSec time) = true) :
      Answers request time later tok salt opened s
        { s with
          table := renew s.table i time
          store := (serve sha256 request salt opened s.store).1 }
        (.served held (serve sha256 request salt opened s.store).2)

variable {sha256} {request : Request} {time later : ℕ} {tok : Token} {salt : Salt}
  {opened : Bool} {s : State}

theorem refusal_ne_served (route : Route) (held : Token) (effect : Effect) :
    refusal route ≠ .served held effect := by
  cases route <;> exact Response.noConfusion

theorem behindLogin_answers (hlogin : request.route ≠ .login)
    (hlogout : request.route ≠ .logout) :
    Answers sha256 request time later tok salt opened s
      (behindLogin sha256 request time salt opened s).1
      (behindLogin sha256 request time salt opened s).2 := by
  simp only [behindLogin]
  rcases finds_sessionOf request time s.table with
    ⟨hnone, -⟩ | ⟨sid, hmem, held, i, hbytes, hanswers, hfound⟩
  · rw [hnone]
    exact .refused (refusal_ne_served request.route) fun hroute => absurd hroute hlogout
  · have htok : (renew s.table i time i).tok = held := by
      rw [renew, Function.update_self]
      exact (answers_iff.mp hanswers).2.2
    rw [hfound]
    dsimp only
    rw [htok]
    exact .served hlogin hlogout ⟨sid, hmem, hbytes⟩ hanswers

theorem handleLogout_answers (hroute : request.route = .logout) :
    Answers sha256 request time later tok salt opened s (handleLogout request time s).1
      (handleLogout request time s).2 := by
  simp only [handleLogout]
  rcases finds_sessionOf request time s.table with
    ⟨hnone, hsilent⟩ | ⟨sid, hmem, held, i, hbytes, hanswers, hfound⟩
  · rw [hnone]
    refine .refused (fun held effect => Response.noConfusion) fun _ held hpresents => ?_
    obtain ⟨sid, hmem, hbytes⟩ := hpresents
    exact hsilent sid hmem held hbytes
  · rw [hfound]
    exact .loggedOut hroute ⟨sid, hmem, hbytes⟩ hanswers

theorem handleLoginPost_answers (hroute : request.route = .login) :
    Answers sha256 request time later tok salt opened s
      (handleLoginPost sha256 request time later tok s).1
      (handleLoginPost sha256 request time later tok s).2 := by
  rw [handleLoginPost]
  split
  · rename_i hcheck
    exact .granted hroute hcheck
  · refine .refused (fun held effect => Response.noConfusion) fun hlogout => ?_
    rw [hroute] at hlogout
    cases hlogout

/-- What `respond` can do, with all that each case rests on. -/
theorem respond_answers (sha256 : List UInt8 → Hash) (request : Request) (time later : ℕ)
    (tok : Token) (salt : Salt) (opened : Bool) (s : State) :
    Answers sha256 request time later tok salt opened s
      (respond sha256 request time later tok salt opened s).1
      (respond sha256 request time later tok salt opened s).2 := by
  obtain ⟨route, cookie, arg, querySid⟩ := request
  cases route with
  | loginForm | notFound =>
      exact .refused (fun held effect => Response.noConfusion) Route.noConfusion
  | login => exact handleLoginPost_answers rfl
  | logout => exact handleLogout_answers rfl
  | _ => exact behindLogin_answers Route.noConfusion Route.noConfusion

end Model

/-! ## Open sessions -/

section Runs

variable (sha256 : List UInt8 → Hash) (start : State)

/-- The session of a token after some events, last used at a time: opened by a login that
passes the check, used each time within `SESS_TTL` of the time before, and neither logged out
nor ended by a restart. -/
inductive Open (tok : Token) : List Event → ℕ → Prop
  | login {before : List Event} {request : Request} {elapsed later : ℕ} {salt : Salt}
      {opened : Bool} (hroute : request.route = .login)
      (hcheck : checkLogin sha256 (request.arg "user") (request.arg "pass")
        (after sha256 start before).store = true) :
      Open tok (before ++ [.request request elapsed later tok salt opened])
        ((after sha256 start before).clock + elapsed + later)
  | used {before : List Event} {last : ℕ} {request : Request} {elapsed later : ℕ}
      {drawn : Token} {salt : Salt} {opened : Bool} (hopen : Open tok before last)
      (hlogout : request.route ≠ .logout) (hpresents : Presents request tok)
      (hrecent : (after sha256 start before).clock + elapsed < last + 1000 * SESS_TTL.toNat) :
      Open tok (before ++ [.request request elapsed later drawn salt opened])
        ((after sha256 start before).clock + elapsed)
  | kept {before : List Event} {last : ℕ} {request : Request} {elapsed later : ℕ}
      {drawn : Token} {salt : Salt} {opened : Bool} (hopen : Open tok before last)
      (hstays : ¬ (request.route = .logout ∧ Presents request tok)) :
      Open tok (before ++ [.request request elapsed later drawn salt opened]) last

/-- An event that presents the token of an open session, less than `SESS_TTL` after its last
use. -/
def Authorised (before : List Event) (tok : Token) : Event → Prop
  | .request request elapsed _ _ _ _ => Presents request tok ∧ ∃ last,
      Open sha256 start tok before last ∧
        (after sha256 start before).clock + elapsed < last + 1000 * SESS_TTL.toNat
  | .restart _ _ => False

/-- The board has not been up for a whole period of its clock, and the random bytes of a
login are not the token of a slot in use. -/
def Sane (s : State) : Event → Prop
  | .request request elapsed later tok _ _ => s.clock + elapsed + later < 2 ^ 32 ∧
      (request.route = .login → ∀ i, (s.table i).used = true → (s.table i).tok ≠ tok)
  | .restart _ _ => True

/-- A used slot has expired or holds an open session. -/
def Backed (events : List Event) (clock : ℕ) (session : Session) : Prop :=
  session.used = true → session.expSec ≤ nowSec clock ∨ ∃ last, last ≤ clock ∧
    Open sha256 start session.tok events last ∧ session.expSec = nowSec last + SESS_TTL

/-- No two used slots hold one token. -/
def Distinct (table : Table) : Prop :=
  ∀ i j, (table i).used = true → (table j).used = true → (table i).tok = (table j).tok → i = j

/-- What holds of the table and the clock after some events. -/
structure Inv (events : List Event) (clock : ℕ) (table : Table) : Prop where
  backed : ∀ i, Backed sha256 start events clock (table i)
  distinct : Distinct table

variable {sha256 start}

/-- Fewer used slots, with the tokens they had. -/
theorem Distinct.mono {table next : Table} (hdistinct : Distinct table)
    (hheld : ∀ i, (next i).used = true → (table i).used = true ∧ (next i).tok = (table i).tok) :
    Distinct next := by
  intro i j hi hj htok
  rw [(hheld i hi).2, (hheld j hj).2] at htok
  exact hdistinct i j (hheld i hi).1 (hheld j hj).1 htok

theorem Distinct.renew {table : Table} (hdistinct : Distinct table) (i : Slot) (time : ℕ) :
    Distinct (renew table i time) := by
  refine hdistinct.mono fun j hused => ?_
  by_cases hj : j = i
  · subst hj
    simpa [Authorisation.renew] using hused
  · simpa [Authorisation.renew, Function.update_of_ne hj] using hused

section Requests

variable {events : List Event} {s : State} {request : Request} {elapsed later : ℕ}
  {tok held : Token} {salt : Salt} {opened : Bool}

/-- A slot that a request leaves alone. -/
theorem Backed.kept {session : Session} (hbacked : Backed sha256 start events s.clock session)
    (hperiod : s.clock + elapsed + later < 2 ^ 32)
    (hstays : ¬ (request.route = .logout ∧ Presents request session.tok)) :
    Backed sha256 start (events ++ [.request request elapsed later tok salt opened])
      (s.clock + elapsed + later) session := by
  intro hused
  rcases hbacked hused with hexpired | ⟨last, hlast, hopen, hexp⟩
  · exact .inl (UInt32.le_trans hexpired (nowSec_le (by omega) hperiod))
  · exact .inr ⟨last, by omega, .kept hopen hstays, hexp⟩

/-- The session of a slot that answers is open, and was used recently. -/
theorem Backed.recent {clock time : ℕ} {session : Session}
    (hbacked : Backed sha256 start events clock session) (horder : clock ≤ time)
    (hperiod : time < 2 ^ 32) (hanswers : session.answers tok (nowSec time) = true) :
    ∃ last, Open sha256 start tok events last ∧ time < last + 1000 * SESS_TTL.toNat := by
  obtain ⟨hused, hlive, rfl⟩ := answers_iff.mp hanswers
  rcases hbacked hused with hexpired | ⟨last, hlast, hopen, hexp⟩
  · have hpast := UInt32.le_trans hexpired (nowSec_le horder hperiod)
    rw [UInt32.le_iff_toNat_le] at hpast
    rw [UInt32.lt_iff_toNat_lt] at hlive
    omega
  · rw [hexp] at hlive
    exact ⟨last, hopen, lt_of_live (hlast.trans horder) hperiod hlive⟩

/-- A logout presents one token at most. -/
theorem presents_unique {other : Token} (hroute : request.route = .logout)
    (hpresents : Presents request tok) (hother : Presents request other) : tok = other := by
  obtain ⟨sid, hmem, hbytes⟩ := hpresents
  obtain ⟨sid', hmem', hbytes'⟩ := hother
  have hsids : sidsOf request = guarded (cookieSid request.cookie) := by
    rw [sidsOf, hroute]
  have hsame : ∀ text ∈ sidsOf request, text = cookieSid request.cookie := by
    intro text htext
    rw [hsids, guarded] at htext
    split at htext
    · exact List.mem_singleton.mp htext
    · cases htext
  rw [hsame sid hmem] at hbytes
  rw [hsame sid' hmem', hbytes] at hbytes'
  exact Option.some.inj hbytes'

theorem expired_of_silent {session : Session} {now : UInt32} (hused : session.used = true)
    (hsilent : session.answers session.tok now = false) : session.expSec ≤ now := by
  by_contra hlate
  rw [answers_iff.mpr ⟨hused, UInt32.not_le.mp hlate, rfl⟩] at hsilent
  cases hsilent

/-- The random bytes of a login are of no other used slot. -/
theorem Distinct.granted {table : Table} (hdistinct : Distinct table) (slot : Slot)
    {session : Session} (hfresh : ∀ i, (table i).used = true → (table i).tok ≠ session.tok) :
    Distinct (Function.update table slot session) := by
  intro i j hi hj htok
  by_cases hi' : i = slot
  · by_cases hj' : j = slot
    · rw [hi', hj']
    · subst hi'
      rw [Function.update_of_ne hj'] at hj htok
      rw [Function.update_self] at htok
      exact absurd htok.symm (hfresh j hj)
  · rw [Function.update_of_ne hi'] at hi htok
    by_cases hj' : j = slot
    · subst hj'
      rw [Function.update_self] at htok
      exact absurd htok (hfresh i hi)
    · rw [Function.update_of_ne hj'] at hj htok
      exact hdistinct i j hi hj htok

theorem Inv.refused (hinv : Inv sha256 start events s.clock s.table)
    (hperiod : s.clock + elapsed + later < 2 ^ 32)
    (hsilent : request.route = .logout → ∀ held, Presents request held →
      ∀ i, (s.table i).answers held (nowSec (s.clock + elapsed)) = false) :
    Inv sha256 start (events ++ [.request request elapsed later tok salt opened])
      (s.clock + elapsed + later) s.table := by
  refine ⟨fun i => ?_, hinv.distinct⟩
  by_cases hends : request.route = .logout ∧ Presents request (s.table i).tok
  · intro hused
    have hexpired := expired_of_silent hused (hsilent hends.1 _ hends.2 i)
    exact .inl (UInt32.le_trans hexpired (nowSec_le (by omega) hperiod))
  · exact (hinv.backed i).kept hperiod hends

theorem Inv.granted (hs : after sha256 start events = s)
    (hinv : Inv sha256 start events s.clock s.table)
    (hperiod : s.clock + elapsed + later < 2 ^ 32) (hroute : request.route = .login)
    (hcheck : checkLogin sha256 (request.arg "user") (request.arg "pass") s.store = true)
    (hfresh : ∀ i, (s.table i).used = true → (s.table i).tok ≠ tok) (slot : Slot) :
    Inv sha256 start (events ++ [.request request elapsed later tok salt opened])
      (s.clock + elapsed + later) (Function.update s.table slot
        ⟨tok, nowSec (s.clock + elapsed + later) + SESS_TTL, true⟩) := by
  refine ⟨fun i => ?_, hinv.distinct.granted slot hfresh⟩
  by_cases hi : i = slot
  · subst hs
    rw [hi, Function.update_self]
    exact fun _ => .inr ⟨_, le_rfl, .login hroute hcheck, rfl⟩
  · rw [Function.update_of_ne hi]
    refine (hinv.backed i).kept hperiod fun hends => ?_
    rw [hroute] at hends
    cases hends.1

theorem Inv.loggedOut (hinv : Inv sha256 start events s.clock s.table)
    (hperiod : s.clock + elapsed + later < 2 ^ 32) (hroute : request.route = .logout)
    (hpresents : Presents request held) {k : Slot} (time : ℕ)
    (hanswers : (s.table k).answers held (nowSec time) = true) :
    Inv sha256 start (events ++ [.request request elapsed later tok salt opened])
      (s.clock + elapsed + later) (Function.update (renew s.table k time) k
        { renew s.table k time k with used := false }) := by
  obtain ⟨hused, -, htok⟩ := answers_iff.mp hanswers
  constructor
  · intro i
    by_cases hi : i = k
    · rw [hi, Function.update_self]
      exact fun hused => Bool.noConfusion hused
    · rw [Function.update_of_ne hi, renew, Function.update_of_ne hi]
      intro hused'
      refine (hinv.backed i).kept hperiod (fun hends => hi ?_) hused'
      apply hinv.distinct i k hused' hused
      rw [htok]
      exact presents_unique hroute hends.2 hpresents
  · refine (hinv.distinct.renew k time).mono fun j hj => ?_
    by_cases hj' : j = k
    · rw [hj', Function.update_self] at hj
      cases hj
    · rw [Function.update_of_ne hj'] at hj ⊢
      exact ⟨hj, rfl⟩

theorem Inv.served (hs : after sha256 start events = s)
    (hinv : Inv sha256 start events s.clock s.table)
    (hperiod : s.clock + elapsed + later < 2 ^ 32) (hroute : request.route ≠ .logout)
    (hpresents : Presents request held) {k : Slot}
    (hanswers : (s.table k).answers held (nowSec (s.clock + elapsed)) = true) :
    Inv sha256 start (events ++ [.request request elapsed later tok salt opened])
      (s.clock + elapsed + later) (renew s.table k (s.clock + elapsed)) := by
  refine ⟨fun i => ?_, hinv.distinct.renew k (s.clock + elapsed)⟩
  rw [renew]
  by_cases hi : i = k
  · obtain ⟨last, hopen, hrecent⟩ :=
      (hinv.backed k).recent (Nat.le_add_right _ _) (by omega) hanswers
    obtain ⟨-, -, rfl⟩ := answers_iff.mp hanswers
    subst hs
    rw [hi, Function.update_self]
    exact fun _ => .inr ⟨_, Nat.le_add_right _ _, .used hopen hroute hpresents hrecent, rfl⟩
  · rw [Function.update_of_ne hi]
    exact (hinv.backed i).kept hperiod fun hends => hroute hends.1

/-- A request, by what its handler can do. -/
theorem inv_request (hs : after sha256 start events = s)
    (hinv : Inv sha256 start events s.clock s.table)
    (hsane : Sane s (.request request elapsed later tok salt opened)) {next : State}
    {response : Response} (hanswers : Answers sha256 request (s.clock + elapsed) later tok salt
      opened s next response) :
    Inv sha256 start (events ++ [.request request elapsed later tok salt opened])
      (s.clock + elapsed + later) next.table := by
  obtain ⟨hperiod, hfresh⟩ := hsane
  cases hanswers with
  | refused _ hsilent => exact hinv.refused hperiod hsilent
  | granted hroute hcheck => exact hinv.granted hs hperiod hroute hcheck (hfresh hroute) _
  | loggedOut hroute hpresents hheld => exact hinv.loggedOut hperiod hroute hpresents _ hheld
  | served _ hlogout hpresents hheld => exact hinv.served hs hperiod hlogout hpresents hheld

end Requests

theorem inv_after (opened : Bool) (salt : Salt) (blob : Option Persist) (events : List Event)
    (hsane : Along (step sha256) Sane (boot sha256 opened salt blob) events) :
    Inv sha256 (boot sha256 opened salt blob) events
      (after sha256 (boot sha256 opened salt blob) events).clock
      (after sha256 (boot sha256 opened salt blob) events).table := by
  induction events using List.reverseRecOn with
  | nil => exact ⟨fun i hused => Bool.noConfusion hused, fun i j hi => Bool.noConfusion hi⟩
  | append_singleton events event ih =>
      obtain ⟨hearlier, hlast⟩ := along_snoc.mp hsane
      rw [after_snoc]
      cases event with
      | request request elapsed later tok salt opened =>
          have hnext := inv_request rfl (ih hearlier) hlast
            (respond_answers sha256 request _ later tok salt opened _)
          exact hnext
      | restart opened salt =>
          exact ⟨fun i hused => Bool.noConfusion hused, fun i j hi => Bool.noConfusion hi⟩

/-! ## Nothing without a session -/

/-- A request that has something done, or changes the credentials, is authorised. -/
theorem authorised_request {events : List Event}
    (hinv : Inv sha256 start events (after sha256 start events).clock
      (after sha256 start events).table)
    {request : Request} {elapsed later : ℕ} {tok : Token} {salt : Salt} {opened : Bool}
    (hsane : Sane (after sha256 start events) (.request request elapsed later tok salt opened))
    {response : Response} {next : State}
    (hanswers : Answers sha256 request ((after sha256 start events).clock + elapsed) later tok salt
      opened (after sha256 start events) next response) :
    (∀ held effect, response = .served held effect → Authorised sha256 start events held
      (.request request elapsed later tok salt opened)) ∧
    (next.store ≠ (after sha256 start events).store → ∃ held, Authorised sha256 start events held
      (.request request elapsed later tok salt opened)) := by
  cases hanswers with
  | refused hserved =>
      exact ⟨fun held effect heq => absurd heq (hserved held effect), fun hne => absurd rfl hne⟩
  | granted => exact ⟨fun held effect => Response.noConfusion, fun hne => absurd rfl hne⟩
  | loggedOut => exact ⟨fun held effect => Response.noConfusion, fun hne => absurd rfl hne⟩
  | @served k held _ _ hpresents hheld =>
      have hauthorised : Authorised sha256 start events held
          (.request request elapsed later tok salt opened) := by
        have hperiod := hsane.1
        exact ⟨hpresents, (hinv.backed k).recent (Nat.le_add_right _ _) (by omega) hheld⟩
      refine ⟨fun held' effect heq => ?_, fun _ => ⟨held, hauthorised⟩⟩
      obtain ⟨rfl, -⟩ := Response.served.inj heq
      exact hauthorised

end Runs

/-- In every run of the portal, with any requests and restarts: what stands behind the login
is done for authorised requests alone, and nothing else changes the credentials. -/
theorem effects_authorised (sha256 : List UInt8 → Hash) (opened : Bool) (salt : Salt)
    (blob : Option Persist) (events : List Event)
    (hsane : Along (step sha256) Sane (boot sha256 opened salt blob) events)
    (before : List Event) (event : Event) (hinitial : before ++ [event] <+: events) :
    (∀ tok effect, Response.served tok effect ∈
        (step sha256 (after sha256 (boot sha256 opened salt blob) before) event).2 →
      Authorised sha256 (boot sha256 opened salt blob) before tok event) ∧
    ((after sha256 (boot sha256 opened salt blob) (before ++ [event])).store ≠
        (after sha256 (boot sha256 opened salt blob) before).store →
      (∃ opened salt, event = .restart opened salt) ∨
        ∃ tok, Authorised sha256 (boot sha256 opened salt blob) before tok event) := by
  obtain ⟨later, rfl⟩ := hinitial
  obtain ⟨hbefore, hevent⟩ := along_snoc.mp (along_append hsane).1
  have hinv := inv_after opened salt blob before hbefore
  rw [after_snoc]
  cases event with
  | restart opened salt =>
      exact ⟨fun tok effect hmem => absurd hmem List.not_mem_nil,
        fun _ => .inl ⟨opened, salt, rfl⟩⟩
  | request request elapsed later tok salt opened =>
      obtain ⟨hserved, hstore⟩ := authorised_request hinv hevent
        (respond_answers sha256 request _ later tok salt opened _)
      refine ⟨fun held effect hmem => hserved held effect ?_, fun hne => .inr (hstore hne)⟩
      exact (List.mem_singleton.mp hmem).symm

/-- The first bytes, for a hash. -/
def exampleHash (bytes : List UInt8) : Hash := ⟨(bytes ++ List.replicate 32 0).take 32, by simp⟩

def exampleToken : Token := List.Vector.replicate 16 0

def exampleSalt : Salt := List.Vector.replicate 8 1

/-- A login with the credentials of a new board. -/
def exampleLogin : Event :=
  .request ⟨.login, [], fun name => if name = "user" then BRIDGE_PORTAL_USER
    else BRIDGE_PORTAL_PASS, none⟩ 5000 1 exampleToken exampleSalt true

/-- The home page, ten minutes later. -/
def exampleVisit : Event :=
  .request ⟨.home, 's' :: 'i' :: 'd' :: '=' :: List.replicate 32 '0', fun _ => [], none⟩
    600000 0 exampleToken exampleSalt true

theorem effects_authorised_visit :
    Authorised exampleHash (boot exampleHash true exampleSalt none) [exampleLogin] exampleToken
      exampleVisit := by
  have hall := effects_authorised exampleHash true exampleSalt none [exampleLogin, exampleVisit]
    ⟨⟨by decide, fun _ i hused => Bool.noConfusion hused⟩, ⟨by decide, Route.noConfusion⟩, trivial⟩
    [exampleLogin] exampleVisit List.prefix_rfl
  exact hall.1 exampleToken .homePage (List.mem_singleton.mpr rfl)

end LoraBridge.Authorisation
