import LoraBridge.Core.Machine
import LoraBridge.Portal.FormText

/-!
# The camera portal's credentials

The login with its salted hash and the passphrase of the access point, kept in NVS in one
blob once the operator has changed either.  The hash function is a parameter.
-/

namespace LoraBridge.CamPortalConfig

open LoraBridge.FormText

def USER_MAX : ℕ := 23

def AP_PASS_MAX : ℕ := 63

def AP_PASS_MIN : ℕ := 8

def BLOB_VER : UInt8 := 1

def BRIDGE_PORTAL_USER : Text := "admin".toList

def BRIDGE_PORTAL_PASS : Text := "loracam-admin".toList

def BRIDGE_PORTAL_AP_PASS : Text := "loracam-portal".toList

/-- What a C string holds of a text. -/
def cstr (text : Text) : Text := text.takeWhile fun c => c.toNat ≠ 0

abbrev Salt := List.Vector UInt8 8

abbrev Hash := List.Vector UInt8 32

/-- `Persist`; the strings end at their terminators. -/
structure Persist where
  ver : UInt8
  provisioned : UInt8
  user : Text
  salt : Salt
  hash : Hash
  apPass : Text
  deriving DecidableEq

/-- `s_cfg` and `s_defaults`, with the blob in NVS. -/
structure Store where
  cfg : Persist
  defaults : Bool
  blob : Option Persist
  deriving DecidableEq

section Api

variable (sha256 : List UInt8 → Hash)

def sha256Salted (salt : Salt) (pass : Text) : Hash :=
  sha256 (salt.toList ++ (cstr pass).map fun c => UInt8.ofNat c.toNat)

def seedDefaults (salt : Salt) : Persist where
  ver := BLOB_VER
  provisioned := 0
  user := BRIDGE_PORTAL_USER.take USER_MAX
  salt := salt
  hash := sha256Salted sha256 salt BRIDGE_PORTAL_PASS
  apPass := BRIDGE_PORTAL_AP_PASS.take AP_PASS_MAX

/-- `begin()`; `opened` says whether the namespace could be opened. -/
def load (opened : Bool) (salt : Salt) (blob : Option Persist) : Store :=
  match if opened then blob.filter fun tmp => tmp.ver = BLOB_VER else none with
  | some tmp => ⟨tmp, tmp.provisioned = 0, blob⟩
  | none => ⟨seedDefaults sha256 salt, true, blob⟩

/-- `strncmp` and the constant-time comparison, both made. -/
def checkLogin (u p : Text) (store : Store) : Bool :=
  let userOk := (cstr u).take (USER_MAX + 1) = store.cfg.user.take (USER_MAX + 1)
  let passOk := sha256Salted sha256 store.cfg.salt p = store.cfg.hash
  userOk ∧ passOk

/-- `persist()`; `opened` as for `begin()`. -/
def persist (opened : Bool) (store : Store) : Store :=
  if opened then { store with blob := some store.cfg } else store

def setApPass (pass : Text) (opened : Bool) (store : Store) : Except String Store :=
  if (cstr pass).length < AP_PASS_MIN ∨ AP_PASS_MAX < (cstr pass).length then
    .error "WiFi passphrase must be 8-63 characters."
  else
    .ok (persist opened { store with
      cfg := { store.cfg with apPass := (cstr pass).take AP_PASS_MAX, provisioned := 1 }
      defaults := false })

def setLogin (u pass : Text) (salt : Salt) (opened : Bool) (store : Store) :
    Except String Store :=
  if (cstr u).length < 1 ∨ USER_MAX < (cstr u).length then
    .error "Username must be 1-23 characters."
  else if (cstr pass).length < 6 then .error "Portal password must be at least 6 characters."
  else
    .ok (persist opened { store with
      cfg := { store.cfg with
        user := (cstr u).take USER_MAX
        salt := salt
        hash := sha256Salted sha256 salt pass
        provisioned := 1 }
      defaults := false })

end Api

end LoraBridge.CamPortalConfig
