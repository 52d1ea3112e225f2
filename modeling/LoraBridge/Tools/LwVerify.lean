import LoraBridge.Tools.PythonCrypto

/-!
# The uplink verifier

`lw-verify.py` checks the MIC of a captured uplink and decrypts its payload, given the
session keys and the upper half of the frame counter.
-/

namespace LoraBridge.LwVerify

open LoraBridge.Cipher LoraBridge.PythonCrypto

/-- `--tagged`: the first five decrypted bytes. -/
structure SourceTag where
  proto : ℕ
  srcId : ℕ
  body : List UInt8
  deriving DecidableEq

/-- What `main` prints. -/
structure Report where
  mhdr : ℕ
  mtype : ℕ
  devAddr : ℕ
  fctrl : ℕ
  fcnt16 : ℕ
  fcnt32 : ℕ
  fport : Option ℕ
  frm : List UInt8
  micOk : Bool
  decrypted : Option (List UInt8)
  tag : Option SourceTag
  deriving DecidableEq

def splitTag (pt : List UInt8) : SourceTag where
  proto := (pt.getD 0 0).toNat
  srcId := rd32 pt 1
  body := pt.drop 5

/-- `main`, on the decoded arguments. -/
def main (aes : BlockCipher) (phy nwk app : List UInt8) (fcntMsb : ℕ) (tagged : Bool) :
    Except String Report :=
  if nwk.length ≠ 16 ∨ app.length ≠ 16 then
    .error "error: keys must be 32 hex chars (16 bytes)"
  else if phy.length < 12 then .error "error: PHYPayload too short for a data frame"
  else
    let mhdr := (phy.getD 0 0).toNat
    let devAddr := rd32 phy 1
    let fctrl := (phy.getD 5 0).toNat
    let fcnt16 := (phy.getD 6 0).toNat ||| ((phy.getD 7 0).toNat <<< 8)
    let foptsLen := fctrl &&& 0x0F
    let fportIdx := 8 + foptsLen
    let msg := phy.take (phy.length - 4)
    let mic := phy.drop (phy.length - 4)
    let hasFport := fportIdx < msg.length
    let fport := if hasFport then some (msg.getD fportIdx 0).toNat else none
    let frm := if hasFport then msg.drop (fportIdx + 1) else []
    let fcnt32 := (fcntMsb <<< 16) ||| fcnt16
    let b0 := [0x49, 0, 0, 0, 0, 0x00] ++ le32 devAddr ++ le32 fcnt32 ++
      [0x00, byte (msg.length &&& 0xFF)]
    let calc_ := (aesCmac aes nwk (b0 ++ msg)).take 4
    let decrypted :=
      if hasFport ∧ frm ≠ [] then
        some (cryptFrmPayload aes (if fport = some 0 then nwk else app) devAddr fcnt32 frm)
      else none
    .ok
      { mhdr := mhdr
        mtype := mhdr >>> 5
        devAddr := devAddr
        fctrl := fctrl
        fcnt16 := fcnt16
        fcnt32 := fcnt32
        fport := fport
        frm := frm
        micOk := calc_ = mic
        decrypted := decrypted
        tag := decrypted.bind fun pt =>
          if tagged ∧ 5 ≤ pt.length then some (splitTag pt) else none }

end LoraBridge.LwVerify
