import LoraBridge.Control.CamC2
import LoraBridge.Portal.CamPortalConfig
import LoraBridge.Portal.CamSessions

/-!
# The camera portal

The handlers of the web server on port 80 and of the stream server on port 81: which of them
ask for a session, and what each does behind it.
-/

namespace LoraBridge.CamPortal

open LoraBridge.CamC2 (CMD_GET_STATUS CMD_RECORD CMD_START_CAPTURE CMD_STOP)
open LoraBridge.CamPortalConfig LoraBridge.FormText
open LoraBridge.CamSessions (SESS_TTL Slot Table Token findSession nowSec pickSlot)

/-- What `begin()` registers, and the two handlers of the stream server. -/
inductive Route where
  | home | loginForm | login | logout
  | config | save | cmd | messages | message
  | peers | savePeers | photos | photo | deletePhoto | security | saveSecurity
  | notFound | stream | jpg
  deriving DecidableEq

/-- A request: its Cookie header, its arguments, and the `sid` that the stream server finds
in its query. -/
structure Request where
  route : Route
  cookie : Text
  arg : String → Text
  querySid : Option Text

/-- What a handler does for someone who is logged in; what follows from it in other modules
is not part of the portal. -/
inductive Effect where
  | homePage
  | configPage
  | saveConfig (arg : String → Text)
  | badAction
  | executeCommand (cmd : UInt8) (args : List UInt8)
  | messageList
  | badMessage
  | sendMessage (peerId : UInt32) (text : Text)
  | peersPage
  | savePeers (arg : String → Text)
  | photosPage
  | sendPhoto (idx : UInt32) (vid : Bool)
  | deletePhoto (idx : UInt32) (vid : Bool)
  | securityPage
  | securityError (text : String)
  | loginChanged
  | passphraseChanged
  | streamVideo
  | sendPicture

inductive Response where
  | loginForm (flash : Option String)
  | redirect (location : String)
  | unauthorized
  | granted (tok : Token)
  | served (tok : Token) (effect : Effect)

/-! ## Sessions -/

/-- The text behind the first occurrence of a mark. -/
def behind (mark : Text) : Text → Option Text
  | [] => if mark = [] then some [] else none
  | c :: rest =>
      if mark <+: c :: rest then some ((c :: rest).drop mark.length) else behind mark rest

/-- Up to the next semicolon; empty without a mark. -/
def cookieSid (cookie : Text) : Text :=
  (behind ['s', 'i', 'd', '='] cookie).elim [] fun rest => trim (rest.takeWhile fun c => c ≠ ';')

def currentSession (cookie : Text) (time : ℕ) (table : Table) : Option Slot × Table :=
  if (cookieSid cookie).length = 32 then findSession (cookieSid cookie) time table
  else (none, table)

/-- `requireAuthMedia`: the cookie, or else the argument. -/
def mediaSession (cookie sid : Text) (time : ℕ) (table : Table) : Option Slot × Table :=
  match currentSession cookie time table with
  | (some s, next) => (some s, next)
  | (none, next) => if sid.length = 32 then findSession sid time next else (none, next)

/-- `authed`, of the stream server. -/
def streamSession (sid : Option Text) (time : ℕ) (table : Table) : Option Slot × Table :=
  sid.elim (none, table) fun sid => findSession sid time table

/-- The session a route asks for; none for the routes that ask for none. -/
def sessionOf (request : Request) (time : ℕ) (table : Table) : Option Slot × Table :=
  match request.route with
  | .loginForm | .login | .notFound => (none, table)
  | .photo => mediaSession request.cookie (request.arg "sid") time table
  | .stream | .jpg => streamSession request.querySid time table
  | _ => currentSession request.cookie time table

/-! ## The handlers -/

/-- `handleCmd`. -/
def commandEffect (action : Text) : Effect :=
  if action = "snap".toList then .executeCommand CMD_START_CAPTURE []
  else if action = "record".toList then .executeCommand CMD_RECORD [30, 0]
  else if action = "stop".toList then .executeCommand CMD_STOP []
  else if action = "status".toList then .executeCommand CMD_GET_STATUS []
  else .badAction

/-- `handleMsgPost`. -/
def messageEffect (peerText text : Text) : Effect :=
  let peerId := strtoul16 (trim peerText)
  if peerId = 0 ∨ text = [] then .badMessage else .sendMessage peerId text

/-- `(uint32_t)srv().arg("i").toInt()`. -/
def indexArg (arg : String → Text) : UInt32 := .ofInt (toInt (arg "i"))

/-- `handleSecPost`: what becomes of the credentials, and what the page says. -/
def saveSecurity (sha256 : List UInt8 → Hash) (arg : String → Text) (salt : Salt) (opened : Bool)
    (store : Store) : Store × Effect :=
  if (arg "appass").length > 0 then
    match setApPass (arg "appass") opened store with
    | .ok next => (next, .passphraseChanged)
    | .error text => (store, .securityError text)
  else if (arg "user").length > 0 ∧ (arg "pass").length > 0 then
    match setLogin sha256 (arg "user") (arg "pass") salt opened store with
    | .ok next => (next, .loginChanged)
    | .error text => (store, .securityError text)
  else (store, .securityError "Nothing to change.")

/-- What a route that asks for a session does once it has one. -/
def serve (sha256 : List UInt8 → Hash) (request : Request) (salt : Salt) (opened : Bool)
    (store : Store) : Store × Effect :=
  match request.route with
  | .saveSecurity => saveSecurity sha256 request.arg salt opened store
  | .config => (store, .configPage)
  | .save => (store, .saveConfig request.arg)
  | .cmd => (store, commandEffect (request.arg "action"))
  | .messages => (store, .messageList)
  | .message => (store, messageEffect (request.arg "to") (request.arg "text"))
  | .peers => (store, .peersPage)
  | .savePeers => (store, .savePeers request.arg)
  | .photos => (store, .photosPage)
  | .photo => (store, .sendPhoto (indexArg request.arg) (request.arg "v" = ['1']))
  | .deletePhoto => (store, .deletePhoto (indexArg request.arg) (request.arg "v" = ['1']))
  | .security => (store, .securityPage)
  | .stream => (store, .streamVideo)
  | .jpg => (store, .sendPicture)
  | _ => (store, .homePage)

/-- What a route answers to someone without a session. -/
def refusal : Route → Response
  | .photo | .stream | .jpg => .unauthorized
  | _ => .redirect "/login"

/-- The portal, and the time since the board started. -/
structure State where
  table : Table
  store : Store
  clock : ℕ

/-- A request some time after the last, with the time to a login's second look at the clock,
the random bytes of a login and of a new password, and whether NVS can be opened; or the
board starts again. -/
inductive Event where
  | request (request : Request) (elapsed later : ℕ) (tok : Token) (salt : Salt) (opened : Bool)
  | restart (opened : Bool) (salt : Salt)

section Model

variable (sha256 : List UInt8 → Hash)

/-- A handler that asks for a session. -/
def behindLogin (request : Request) (time : ℕ) (salt : Salt) (opened : Bool) (s : State) :
    State × Response :=
  match sessionOf request time s.table with
  | (none, next) => ({ s with table := next }, refusal request.route)
  | (some slot, next) =>
      let (store, effect) := serve sha256 request salt opened s.store
      ({ s with table := next, store := store }, .served (next slot).tok effect)

/-- `handleLoginPost`; the clock is read again for the expiry. -/
def handleLoginPost (request : Request) (time later : ℕ) (tok : Token) (s : State) :
    State × Response :=
  if checkLogin sha256 (request.arg "user") (request.arg "pass") s.store then
    let slot := pickSlot time s.table
    let session := ⟨tok, nowSec (time + later) + SESS_TTL, true⟩
    ({ s with table := Function.update s.table slot session }, .granted tok)
  else (s, .loginForm (some "Wrong username or password."))

def handleLogout (request : Request) (time : ℕ) (s : State) : State × Response :=
  match sessionOf request time s.table with
  | (none, next) => ({ s with table := next }, .redirect "/login")
  | (some slot, next) =>
      ({ s with table := Function.update next slot { next slot with used := false } },
        .redirect "/login")

/-- A request, handled at a time. -/
def respond (request : Request) (time later : ℕ) (tok : Token) (salt : Salt) (opened : Bool)
    (s : State) : State × Response :=
  match request.route with
  | .loginForm => (s, .loginForm none)
  | .notFound => (s, .redirect "/")
  | .login => handleLoginPost sha256 request time later tok s
  | .logout => handleLogout request time s
  | _ => behindLogin sha256 request time salt opened s

def step (s : State) : Event → State × List Response
  | .request request elapsed later tok salt opened =>
      let time := s.clock + elapsed
      let (next, response) := respond sha256 request time later tok salt opened s
      ({ next with clock := time + later }, [response])
  | .restart opened salt => (⟨.empty, load sha256 opened salt s.store.blob, 0⟩, [])

/-- A start with what NVS holds. -/
def boot (opened : Bool) (salt : Salt) (blob : Option Persist) : State :=
  ⟨.empty, load sha256 opened salt blob, 0⟩

/-- The state after some events. -/
def after (start : State) (events : List Event) : State :=
  (Machine.run (step sha256) start events).1

theorem after_append (start : State) (events later : List Event) :
    after sha256 start (events ++ later) = after sha256 (after sha256 start events) later := by
  unfold after
  rw [Machine.run_append]

theorem after_snoc (start : State) (events : List Event) (event : Event) :
    after sha256 start (events ++ [event]) = (step sha256 (after sha256 start events) event).1 := by
  rw [after_append]
  rfl

end Model

end LoraBridge.CamPortal
