import LoraBridge.Portal.Authorisation

/-!
# A new login stays

Once the portal has answered that a login was changed, and NVS has taken it, exactly this user
name and password pass, whatever is asked later and however often the board starts again, until
a login is changed once more.
-/

namespace LoraBridge.Credentials

open LoraBridge.Authorisation LoraBridge.CamPortal LoraBridge.CamPortalConfig LoraBridge.FormText
open LoraBridge.CamSessions (Token)
open LoraBridge.Machine

section Model

variable (sha256 : List UInt8 → Hash)

/-- Exactly this user name passes, with the passwords of one hash. -/
def Passes (user pass : Text) (store : Store) : Prop :=
  ∀ u p, checkLogin sha256 u p store = true ↔ cstr u = cstr user ∧
    sha256Salted sha256 store.cfg.salt p = sha256Salted sha256 store.cfg.salt pass

/-- Two records of one login. -/
structure SameLogin (cfg other : Persist) : Prop where
  ver : cfg.ver = other.ver
  user : cfg.user = other.user
  salt : cfg.salt = other.salt
  hash : cfg.hash = other.hash

/-- A login stands in the live record and in NVS. -/
structure Kept (user pass : Text) (store : Store) : Prop where
  short : (cstr user).length ≤ USER_MAX
  ver : store.cfg.ver = BLOB_VER
  user : store.cfg.user = cstr user
  hash : store.cfg.hash = sha256Salted sha256 store.cfg.salt pass
  stored : ∃ tmp, store.blob = some tmp ∧ SameLogin tmp store.cfg

/-- What a served request leaves of the credentials. -/
inductive Serves (request : Request) (salt : Salt) (opened : Bool) (store : Store) :
    Store → Effect → Prop
  | same (effect : Effect) (hlogin : effect ≠ .loginChanged) :
      Serves request salt opened store store effect
  | passphrase {next : Store} (hset : setApPass (request.arg "appass") opened store = .ok next) :
      Serves request salt opened store next .passphraseChanged
  | login {next : Store}
      (hset : setLogin sha256 (request.arg "user") (request.arg "pass") salt opened store =
        .ok next) : Serves request salt opened store next .loginChanged

variable {sha256}

theorem Kept.passes {user pass : Text} {store : Store} (hkept : Kept sha256 user pass store) :
    Passes sha256 user pass store := by
  intro u p
  have hshort := hkept.short
  have huser : (cstr u).take (USER_MAX + 1) = (cstr user).take (USER_MAX + 1) ↔
      cstr u = cstr user := by
    refine ⟨fun htake => ?_, fun heq => by rw [heq]⟩
    have hlength := congrArg List.length htake
    rw [List.length_take, List.length_take] at hlength
    rwa [List.take_of_length_le (by omega), List.take_of_length_le (by omega)] at htake
  simp [checkLogin, hkept.user, hkept.hash, huser]

/-! ## What the handlers do to the credentials -/

/-- The version is that of this build, whatever NVS held. -/
theorem load_ver (opened : Bool) (salt : Salt) (blob : Option Persist) :
    (load sha256 opened salt blob).cfg.ver = BLOB_VER := by
  rw [load]
  split
  · rename_i tmp hsome
    cases opened with
    | false => cases hsome
    | true => simpa using (Option.mem_filter_iff.mp hsome).2
  · rfl

theorem Kept.load {user pass : Text} {store : Store} (hkept : Kept sha256 user pass store)
    (salt : Salt) : Kept sha256 user pass (load sha256 true salt store.blob) := by
  obtain ⟨tmp, hblob, hsame⟩ := hkept.stored
  have hver : tmp.ver = BLOB_VER := hsame.ver.trans hkept.ver
  have hload : CamPortalConfig.load sha256 true salt store.blob =
      ⟨tmp, tmp.provisioned = 0, some tmp⟩ := by
    simp [CamPortalConfig.load, hblob, Option.filter, hver]
  rw [hload]
  refine ⟨hkept.short, hver, hsame.user.trans hkept.user, ?_, tmp, rfl, rfl, rfl, rfl, rfl⟩
  rw [hsame.hash, hsame.salt]
  exact hkept.hash

variable {request : Request} {salt : Salt} {opened : Bool} {store : Store}

theorem saveSecurity_serves :
    Serves sha256 request salt opened store
      (saveSecurity sha256 request.arg salt opened store).1
      (saveSecurity sha256 request.arg salt opened store).2 := by
  rw [saveSecurity]
  split
  · cases hset : setApPass (request.arg "appass") opened store with
    | ok next => exact .passphrase hset
    | error text => exact .same _ Effect.noConfusion
  · split
    · cases hset : setLogin sha256 (request.arg "user") (request.arg "pass") salt opened store with
      | ok next => exact .login hset
      | error text => exact .same _ Effect.noConfusion
    · exact .same _ Effect.noConfusion

theorem commandEffect_ne (action : Text) : commandEffect action ≠ .loginChanged := by
  rw [commandEffect]
  split_ifs <;> exact Effect.noConfusion

theorem messageEffect_ne (peerText text : Text) :
    messageEffect peerText text ≠ .loginChanged := by
  simp only [messageEffect]
  split_ifs <;> exact Effect.noConfusion

theorem serve_serves :
    Serves sha256 request salt opened store
      (serve sha256 request salt opened store).1 (serve sha256 request salt opened store).2 := by
  obtain ⟨route, cookie, arg, querySid⟩ := request
  cases route with
  | saveSecurity => exact saveSecurity_serves
  | cmd => exact .same _ (commandEffect_ne _)
  | message => exact .same _ (messageEffect_ne _ _)
  | _ => exact .same _ Effect.noConfusion

/-- The record after a new passphrase holds the login it held. -/
theorem setApPass_spec {pass : Text} {next : Store}
    (hset : setApPass pass opened store = .ok next) :
    SameLogin next.cfg store.cfg ∧
      next.blob = if opened then some next.cfg else store.blob := by
  rw [setApPass] at hset
  split at hset
  · cases hset
  · obtain rfl := Except.ok.inj hset
    cases opened <;> exact ⟨⟨rfl, rfl, rfl, rfl⟩, rfl⟩

theorem setLogin_spec {user pass : Text} {next : Store}
    (hset : setLogin sha256 user pass salt opened store = .ok next) :
    (cstr user).length ≤ USER_MAX ∧ next.cfg.ver = store.cfg.ver ∧
      next.cfg.user = cstr user ∧ next.cfg.hash = sha256Salted sha256 next.cfg.salt pass ∧
      next.blob = if opened then some next.cfg else store.blob := by
  rw [setLogin] at hset
  split at hset
  · cases hset
  · rename_i hlength
    split at hset
    · cases hset
    · obtain rfl := Except.ok.inj hset
      have hshort : (cstr user).length ≤ USER_MAX := by omega
      refine ⟨hshort, ?_⟩
      cases opened <;> exact ⟨rfl, List.take_of_length_le hshort, rfl, rfl⟩

theorem Kept.passphrase {user pass appass : Text} {next : Store}
    (hkept : Kept sha256 user pass store) (hset : setApPass appass opened store = .ok next) :
    Kept sha256 user pass next := by
  obtain ⟨hsame, hblob⟩ := setApPass_spec hset
  refine ⟨hkept.short, hsame.ver.trans hkept.ver, hsame.user.trans hkept.user, ?_, ?_⟩
  · rw [hsame.hash, hsame.salt]
    exact hkept.hash
  · rw [hblob]
    cases opened with
    | true => exact ⟨next.cfg, rfl, rfl, rfl, rfl, rfl⟩
    | false =>
        obtain ⟨tmp, htmp, hstored⟩ := hkept.stored
        exact ⟨tmp, htmp, hstored.ver.trans hsame.ver.symm, hstored.user.trans hsame.user.symm,
          hstored.salt.trans hsame.salt.symm, hstored.hash.trans hsame.hash.symm⟩

theorem Kept.serves {user pass : Text} {next : Store} {effect : Effect}
    (hkept : Kept sha256 user pass store)
    (hserves : Serves sha256 request salt opened store next effect)
    (hlogin : effect ≠ .loginChanged) : Kept sha256 user pass next := by
  cases hserves with
  | same => exact hkept
  | passphrase hset => exact hkept.passphrase hset
  | login => exact absurd rfl hlogin

theorem Serves.changed {next : Store} {effect : Effect}
    (hserves : Serves sha256 request salt opened store next effect)
    (hlogin : effect = .loginChanged) :
    setLogin sha256 (request.arg "user") (request.arg "pass") salt opened store = .ok next := by
  cases hserves with
  | same _ hother => exact absurd hlogin hother
  | passphrase => cases hlogin
  | login hset => exact hset

theorem Serves.ver {next : Store} {effect : Effect}
    (hserves : Serves sha256 request salt opened store next effect) :
    next.cfg.ver = store.cfg.ver := by
  cases hserves with
  | same => rfl
  | passphrase hset => exact (setApPass_spec hset).1.ver
  | login hset => exact (setLogin_spec hset).2.1

/-- A change of the login that NVS takes. -/
theorem kept_setLogin {user pass : Text} {next : Store} (hver : store.cfg.ver = BLOB_VER)
    (hset : setLogin sha256 user pass salt true store = .ok next) :
    Kept sha256 user pass next := by
  obtain ⟨hshort, hsame, huser, hhash, hblob⟩ := setLogin_spec hset
  exact ⟨hshort, hsame.trans hver, huser, hhash, next.cfg, hblob, rfl, rfl, rfl, rfl⟩

/-! ## Over a run -/

/-- No login is changed here, and a start finds NVS. -/
def Steady (sha256 : List UInt8 → Hash) (s : State) (event : Event) : Prop :=
  (∀ held, Response.served held .loginChanged ∉ (step sha256 s event).2) ∧
    ∀ opened salt, event = .restart opened salt → opened = true

/-- What a request leaves of the credentials: the answers of `respond` in one. -/
theorem respond_serves {request : Request} {time later : ℕ} {tok : Token} {salt : Salt}
    {opened : Bool} {s next : State} {response : Response}
    (hanswers : Answers sha256 request time later tok salt opened s next response) :
    next.store = s.store ∧ (∀ held, response ≠ .served held .loginChanged) ∨
      ∃ held effect, response = .served held effect ∧
        Serves sha256 request salt opened s.store next.store effect := by
  cases hanswers with
  | refused hserved => exact .inl ⟨rfl, fun held => hserved held _⟩
  | granted => exact .inl ⟨rfl, fun held => Response.noConfusion⟩
  | loggedOut => exact .inl ⟨rfl, fun held => Response.noConfusion⟩
  | served => exact .inr ⟨_, _, rfl, serve_serves⟩

theorem ver_step {s : State} (event : Event) (hver : s.store.cfg.ver = BLOB_VER) :
    (step sha256 s event).1.store.cfg.ver = BLOB_VER := by
  cases event with
  | restart opened salt => exact load_ver opened salt _
  | request request elapsed later tok salt opened =>
      rcases respond_serves (respond_answers sha256 request (s.clock + elapsed) later tok salt
        opened s) with ⟨hstore, -⟩ | ⟨held, effect, -, hserves⟩
      · exact (congrArg (fun store => store.cfg.ver) hstore).trans hver
      · exact hserves.ver.trans hver

theorem ver_after (opened : Bool) (salt : Salt) (blob : Option Persist) (events : List Event) :
    (after sha256 (boot sha256 opened salt blob) events).store.cfg.ver = BLOB_VER := by
  induction events using List.reverseRecOn with
  | nil => exact load_ver opened salt blob
  | append_singleton events event ih =>
      rw [after_snoc]
      exact ver_step event ih

theorem kept_step {user pass : Text} {s : State} {event : Event}
    (hkept : Kept sha256 user pass s.store) (hsteady : Steady sha256 s event) :
    Kept sha256 user pass (step sha256 s event).1.store := by
  cases event with
  | restart opened salt =>
      obtain rfl := hsteady.2 opened salt rfl
      exact hkept.load salt
  | request request elapsed later tok salt opened =>
      rcases respond_serves (respond_answers sha256 request (s.clock + elapsed) later tok salt
        opened s) with ⟨hstore, -⟩ | ⟨held, effect, hresponse, hserves⟩
      · exact (congrArg (Kept sha256 user pass) hstore).mpr hkept
      · refine hkept.serves hserves ?_
        rintro rfl
        exact hsteady.1 held (List.mem_singleton.mpr hresponse.symm)

theorem kept_run {user pass : Text} {s : State} (events : List Event)
    (hkept : Kept sha256 user pass s.store)
    (hsteady : Along (step sha256) (Steady sha256) s events) :
    Kept sha256 user pass (after sha256 s events).store :=
  @invariant_state State Event Response (step sha256) (Steady sha256)
    (fun s => Kept sha256 user pass s.store) (fun _ _ => kept_step) s events hkept hsteady

end Model

/-- A login that was changed, with NVS open, is the one that passes from then on. -/
theorem login_stays (sha256 : List UInt8 → Hash) (opened : Bool) (salt : Salt)
    (blob : Option Persist) (before : List Event) (request : Request) (elapsed later : ℕ)
    (tok held : Token) (fresh : Salt) (events : List Event)
    (hchanged : Response.served held .loginChanged ∈
      (step sha256 (after sha256 (boot sha256 opened salt blob) before)
        (.request request elapsed later tok fresh true)).2)
    (hsteady : Along (step sha256) (Steady sha256)
      (after sha256 (boot sha256 opened salt blob)
        (before ++ [.request request elapsed later tok fresh true])) events) :
    Passes sha256 (request.arg "user") (request.arg "pass")
      (after sha256 (boot sha256 opened salt blob)
        (before ++ [.request request elapsed later tok fresh true] ++ events)).store := by
  rw [after_append]
  refine (kept_run events ?_ hsteady).passes
  rw [after_snoc]
  rcases respond_serves (respond_answers sha256 request _ later tok fresh true
      (after sha256 (boot sha256 opened salt blob) before)) with
    ⟨-, hother⟩ | ⟨held', effect, hresponse, hserves⟩
  · exact absurd (List.mem_singleton.mp hchanged).symm (hother held)
  · have hserved := hresponse.symm.trans (List.mem_singleton.mp hchanged).symm
    exact kept_setLogin (ver_after opened salt blob before)
      (hserves.changed (Response.served.inj hserved).2)

/-- A new user name and password, from the session of the example. -/
def exampleChange : Request :=
  ⟨.saveSecurity, 's' :: 'i' :: 'd' :: '=' :: List.replicate 32 '0',
    fun name => if name = "user" then "ann".toList else if name = "pass" then "secret".toList
      else [], none⟩

theorem login_stays_restart :
    Passes exampleHash "ann".toList "secret".toList
      (after exampleHash (boot exampleHash true exampleSalt none) ([exampleLogin] ++
        [.request exampleChange 1000 0 exampleToken exampleSalt true] ++
          [.restart true exampleSalt])).store :=
  login_stays exampleHash true exampleSalt none [exampleLogin] exampleChange 1000 0 exampleToken
    exampleToken exampleSalt [.restart true exampleSalt] (List.mem_singleton.mpr rfl)
    ⟨⟨fun _ => List.not_mem_nil, by rintro _ _ ⟨⟩; rfl⟩, trivial⟩

end LoraBridge.Credentials
