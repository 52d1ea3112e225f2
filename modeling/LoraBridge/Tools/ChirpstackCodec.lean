import Mathlib.Data.Rat.Defs
import LoraBridge.Portal.FormPrint

/-!
# The network server's codec

`chirpstack-codec.js`: what ChirpStack shows of a decrypted uplink.  A tagged device
carries the protocol and the id of the source in front of the payload; an untagged one
is itself the source.
-/

namespace LoraBridge.ChirpstackCodec

open LoraBridge.FormText

def DEFAULT_SOURCE_TAG : Bool := false

def DEFAULT_STATION_FPORT : ℤ := 13

/-- The variables of the device. -/
structure Variables where
  sourceTag : Option Text
  stationFport : Option Text

/-- `input`; the decoder is the runtime's `TextDecoder`. -/
structure Input where
  bytes : List UInt8
  fPort : UInt8
  vars : Variables
  decoder : List UInt8 → Text

structure Source where
  proto : Text
  protoId : UInt8
  srcId : Text
  deriving DecidableEq

/-- Exact quotients, where JavaScript has doubles. -/
structure Station where
  tempC : ℚ
  humidityPct : ℚ
  pressureHpa : ℚ
  deriving DecidableEq

structure Data where
  fPort : UInt8
  source : Option Source
  rawHex : Option Text
  station : Option Station
  text : Option Text
  deriving DecidableEq

structure Output where
  data : Data
  warnings : List Text
  errors : List Text
  deriving DecidableEq

/-- A digit of `toString(16)`. -/
def hexDigit (n : ℕ) : Char :=
  ['0', '1', '2', '3', '4', '5', '6', '7', '8', '9', 'a', 'b', 'c', 'd', 'e', 'f'].getD n '0'

/-- The `digits` lowest hexadecimal digits. -/
def hexText : ℕ → ℕ → Text
  | 0, _ => []
  | digits + 1, n => hexText digits (n / 16) ++ [hexDigit (n % 16)]

/-- `("00000000" + (v >>> 0).toString(16)).slice(-8)`. -/
def hex8 (v : UInt32) : Text := hexText 8 v.toNat

def toHex (a : List UInt8) : Text := a.flatMap fun b => hexText 2 b.toNat

def protoName (p : UInt8) : Text :=
  if p = 1 then ['m', 'e', 's', 'h', 't', 'a', 's', 't', 'i', 'c']
  else if p = 2 then ['m', 'e', 's', 'h', 'c', 'o', 'r', 'e']
  else if p = 3 then ['r', 'e', 't', 'i', 'c', 'u', 'l', 'u', 'm']
  else if p = 4 then ['c', 'u', 's', 't', 'o', 'm']
  else if p = 5 then ['l', 'o', 'r', 'a', 'w', 'a', 'n']
  else ['p', 'r', 'o', 't', 'o'] ++ (toString p.toNat).toList

/-- What `parseInt` skips: white space and line ends, the Unicode ones as well. -/
def isBlank (c : Char) : Bool :=
  isSpace c ∨ (0x2000 ≤ c.toNat ∧ c.toNat ≤ 0x200A) ∨
    c.toNat ∈ [0xA0, 0x1680, 0x2028, 0x2029, 0x202F, 0x205F, 0x3000, 0xFEFF]

/-- `parseInt(text, 10)`; `none` is NaN. -/
def parseInt (text : Text) : Option ℤ :=
  let (negative, digits) := splitSign (text.dropWhile isBlank)
  let number := digits.takeWhile Char.isDigit
  if number = [] then none
  else
    let magnitude := number.foldl (fun value c => value * 10 + (c.toNat - '0'.toNat)) 0
    some (if negative then -(magnitude : ℤ) else magnitude)

def hasTag (vars : Variables) : Bool :=
  match vars.sourceTag with
  | some tag => tag.map Char.toLower = ['t', 'r', 'u', 'e'] ∨ tag = ['1']
  | none => DEFAULT_SOURCE_TAG

def stationFPort (vars : Variables) : Option ℤ :=
  match vars.stationFport with
  | some port => parseInt port
  | none => some DEFAULT_STATION_FPORT

/-- The placeholder layout of a weather station. -/
def decodeStation (p : List UInt8) : Option Station :=
  if p.length < 6 then none
  else
    let word (i : ℕ) : ℤ := (p.getD i 0).toNat + 256 * (p.getD (i + 1) 0).toNat
    let t := if 0x8000 ≤ word 0 then word 0 - 0x10000 else word 0
    some ⟨t / 100, word 2 / 10, word 4 / 10⟩

/-- `(bytes[1] | (bytes[2] << 8) | (bytes[3] << 16) | (bytes[4] << 24)) >>> 0`. -/
def srcIdOf (bytes : List UInt8) : UInt32 :=
  (bytes.getD 1 0).toUInt32 ||| ((bytes.getD 2 0).toUInt32 <<< 8) |||
    ((bytes.getD 3 0).toUInt32 <<< 16) ||| ((bytes.getD 4 0).toUInt32 <<< 24)

/-- `decodeUplink` behind the source tag. -/
def decodePayload (input : Input) (tagged : Bool) (source : Option Source)
    (warnings : List Text) (payload : List UInt8) : Output :=
  let data : Data := ⟨input.fPort, source, some (toHex payload), none, none⟩
  if payload.length = 0 then
    ⟨data, warnings ++ ["empty payload".toList ++
      if tagged then " after the source tag".toList else []], []⟩
  else if some (input.fPort.toNat : ℤ) = stationFPort input.vars then
    match decodeStation payload with
    | some station => ⟨{ data with station := some station }, warnings, []⟩
    | none =>
        ⟨data, warnings ++ ["station payload < 6 bytes (placeholder layout)".toList], []⟩
  else ⟨{ data with text := some (input.decoder payload) }, warnings, []⟩

def decodeUplink (input : Input) : Output :=
  if hasTag input.vars then
    if input.bytes.length < 5 then
      ⟨⟨input.fPort, none, none, none, none⟩, [],
        ["source_tag is on but the payload is shorter than the 5-byte tag".toList]⟩
    else
      let proto := input.bytes.getD 0 0
      let source : Source := ⟨protoName proto, proto, hex8 (srcIdOf input.bytes)⟩
      let warnings := if proto < 1 ∨ 5 < proto then
        ["unrecognised source proto byte ".toList ++ (toString proto.toNat).toList] else []
      decodePayload input true (some source) warnings (input.bytes.drop 5)
  else decodePayload input false none [] input.bytes

/-! ## Reading the digits back -/

theorem hexText_eq (digits n : ℕ) :
    hexText digits n = FormPrint.hexText FormPrint.lowerDigit digits n := by
  induction digits generalizing n with
  | zero => rfl
  | succ digits ih =>
      rw [hexText, FormPrint.hexText, ih]
      rfl

theorem toHex_eq (bytes : List UInt8) : toHex bytes = FormPrint.lwHexFromBytes bytes := by
  simp only [toHex, FormPrint.lwHexFromBytes, hexText_eq]

/-- `raw_hex` determines the bytes. -/
@[simp]
theorem hexPairs_toHex (bytes : List UInt8) : hexPairs (toHex bytes) = some bytes := by
  rw [toHex_eq]
  exact FormPrint.hexPairs_lwHexFromBytes bytes

/-- The digits of a source id determine it. -/
theorem hexValue_hex8 (v : UInt32) : hexValue (hex8 v) 0 = v.toNat := by
  rw [hex8, hexText_eq]
  exact FormPrint.hexValue_word FormPrint.prints_lowerDigit v

/-- Behind the tag every branch shows the payload, and none reports an error. -/
theorem decodePayload_spec (input : Input) (tagged : Bool) (source : Option Source)
    (warnings : List Text) (payload : List UInt8) :
    (decodePayload input tagged source warnings payload).data.source = source ∧
      (decodePayload input tagged source warnings payload).data.rawHex =
        some (toHex payload) ∧
      (decodePayload input tagged source warnings payload).errors = [] := by
  unfold decodePayload
  split
  · exact ⟨rfl, rfl, rfl⟩
  · split
    · split <;> exact ⟨rfl, rfl, rfl⟩
    · exact ⟨rfl, rfl, rfl⟩

end LoraBridge.ChirpstackCodec
