import LoraBridge.Config.ChannelKeys
import LoraBridge.Portal.FormFields
import LoraBridge.Portal.FormPrint

/-!
# Channels between the form and the radio

The portal checks the name and the key of a channel as they were typed, the configuration
keeps 23 and 47 characters of them, and the resolver decodes what was kept.  The text of a
Meshtastic key can be longer, and the key index 0 is accepted but cannot be resolved.
-/

namespace LoraBridge.ChannelStorage

open LoraBridge.Base64 LoraBridge.BridgeConfig LoraBridge.ChannelKeys LoraBridge.CharArray
open LoraBridge.ConfigForm LoraBridge.FormFields LoraBridge.FormText LoraBridge.Memory
open LoraBridge.RadioForm LoraBridge.ReserveAhead

/-! ## The key a text denotes -/

/-- The key that decoded bytes stand for; index 0 stands for no encryption. -/
def keyOfBytes (dec : List UInt8) : Option (List UInt8) :=
  match dec with
  | [idx] => if idx = 0 then none else some (shortKey idx)
  | _ => some dec

/-- The key of a Meshtastic text; a blank one denotes the default key. -/
def denotedPsk (base64 : Coder) (psk : List UInt8) : Option (List UInt8) :=
  if psk = [] then some DEFAULT_PSK else (base64.decode 48 psk).bind keyOfBytes

/-- The portal accepts the bytes of a key. -/
def KeyLength (dec : List UInt8) : Prop := dec.length = 1 ∨ dec.length = 16 ∨ dec.length = 32

theorem keyLength_mod {dec : List UInt8} (hlength : KeyLength dec) : dec.length % 3 ≠ 0 := by
  unfold KeyLength at hlength
  omega

/-- Bytes other than the index 0 resolve to the key they stand for. -/
theorem keyOfBytes_eq_expandKey {dec : List UInt8} (hlength : KeyLength dec) (hindex : dec ≠ [0]) :
    keyOfBytes dec = some (expandKey dec) := by
  unfold keyOfBytes expandKey
  split
  · rename_i idx
    have hidx : idx ≠ 0 := fun hzero => hindex (by rw [hzero])
    rw [if_neg hidx]
    exact congrArg some (if_neg hidx).symm
  · rename_i hshort
    split
    · exact absurd hlength (by unfold KeyLength; decide)
    · exact absurd rfl (hshort _)
    · rw [if_pos]
      rcases hlength with hone | hkey
      · obtain ⟨idx, rfl⟩ := List.length_eq_one_iff.mp hone
        exact absurd rfl (hshort idx)
      · exact hkey

/-- Whole groups of three bytes are no key. -/
theorem usesDefault_of_mod {raw : List UInt8} (hmod : raw.length % 3 = 0) :
    usesDefault raw = true :=
  usesDefault_of_length ⟨by omega, by omega, by omega⟩

section Keys

variable {base64 : Coder}

/-- What the resolver makes of the first characters of an accepted key. -/
theorem expandKey_cut_iff {psk dec : List UInt8} (k : ℕ)
    (hdecode : base64.decode 48 psk = some dec) (hlength : KeyLength dec) :
    keyOfBytes dec = some (expandKey (rawPsk base64 (psk.take k))) ↔
      keyOfBytes dec = some DEFAULT_PSK ∨
        (base64.decode 48 (psk.take k) = some dec ∧ dec ≠ [0]) := by
  have hsmall : dec.length ≤ 32 := by
    unfold KeyLength at hlength
    omega
  have hraw : rawPsk base64 (psk.take k) = (base64.decode 32 (psk.take k)).getD [] := by
    unfold rawPsk
    split
    · rename_i hempty
      rw [hempty, base64.decode_nil]
      rfl
    · rfl
  rw [hraw]
  cases hcut : base64.decode 32 (psk.take k) with
  | none =>
      have hnot : base64.decode 48 (psk.take k) ≠ some dec := fun hsome => by
        rw [base64.decode_room hsome (keyLength_mod hlength) hsmall] at hcut
        cases hcut
      exact ⟨.inl, fun h => h.resolve_right fun hsome => hnot hsome.1⟩
  | some cut =>
      rw [Option.getD_some]
      rcases base64.decode_take hdecode hcut with hmod | rfl
      · have hnot : base64.decode 48 (psk.take k) ≠ some dec := fun hsome => by
          have hsame := base64.decode_same hsome hcut
          exact keyLength_mod hlength (hsame ▸ hmod)
        rw [expandKey_of_usesDefault (usesDefault_of_mod hmod)]
        exact ⟨.inl, fun h => h.resolve_right fun hsome => hnot hsome.1⟩
      · have hagain : base64.decode 48 (psk.take k) = some cut :=
          base64.decode_room hcut (keyLength_mod hlength) (hsmall.trans (by decide))
        by_cases hindex : cut = [0]
        · subst hindex
          exact iff_of_false (by decide) (by simp [keyOfBytes])
        · exact iff_of_true (keyOfBytes_eq_expandKey hlength hindex) (.inr ⟨hagain, hindex⟩)

/-- An accepted text is blank or decodes to a key's bytes. -/
theorem psk_cases {chKey : Text} (haccepted : chKey = [] ∨ pskAccepted base64 chKey = true) :
    bytesOf chKey = [] ∨
      ∃ dec, base64.decode 48 (bytesOf chKey) = some dec ∧ KeyLength dec := by
  rcases haccepted with rfl | hpsk
  · exact .inl rfl
  · unfold pskAccepted at hpsk
    split at hpsk
    · exact .inr ⟨_, ‹_›, by simpa [KeyLength] using hpsk⟩
    · cases hpsk

/-- What is kept of an accepted Meshtastic key denotes the same key exactly when the key is the
default one, or the cut spares its bytes and it is not the index 0. -/
theorem denotedPsk_stored_iff {chKey : Text}
    (haccepted : chKey = [] ∨ pskAccepted base64 chKey = true) :
    denotedPsk base64 (bytesOf chKey) = some (expandKey (rawPsk base64
        (copyStr RADIO_CHANNEL_KEY_MAX (bytesOf chKey)).text)) ↔
      denotedPsk base64 (bytesOf chKey) = some DEFAULT_PSK ∨
        (base64.decode 48 ((bytesOf chKey).take RADIO_CHANNEL_KEY_MAX) =
            base64.decode 48 (bytesOf chKey) ∧
          base64.decode 48 (bytesOf chKey) ≠ some [0]) := by
  rw [text_copyStr]
  rcases psk_cases haccepted with hblank | ⟨dec, hdecode, hlength⟩
  · rw [hblank]
    exact iff_of_true rfl (.inl rfl)
  · have hpsk : bytesOf chKey ≠ [] := by
      intro hempty
      rw [hempty, base64.decode_nil] at hdecode
      obtain rfl := Option.some.inj hdecode
      exact absurd hlength (by unfold KeyLength; decide)
    have hdenoted : denotedPsk base64 (bytesOf chKey) = keyOfBytes dec := by
      rw [denotedPsk, if_neg hpsk, hdecode]
      rfl
    rw [cString_of_notMem (base64.zero_notMem_decode hdecode), hdenoted, hdecode,
      expandKey_cut_iff _ hdecode hlength]
    simp only [ne_eq, Option.some.injEq]

end Keys

/-! ## MeshCore keys -/

/-- The key of a MeshCore text. -/
def denotedHex (chKey : Text) : Option (List UInt8) := hexPairs chKey

theorem hexNibble_toLower (c : Char) : hexNibble c.toLower = hexNibble c := by
  have hascii : ∀ n < 128, hexNibble (Char.ofNat n).toLower = hexNibble (Char.ofNat n) := by
    decide +kernel
  by_cases hc : c.toNat < 128
  · have hdigit := hascii c.toNat hc
    rwa [Char.ofNat_toNat] at hdigit
  · have hsame : c.toLower = c := by
      unfold Char.toLower
      refine dif_neg fun hrange => hc ?_
      have hle : c.toNat ≤ 'Z'.toNat := hrange.2
      exact lt_of_le_of_lt hle (by decide)
    rw [hsame]

theorem hexPairs_toLower (text : Text) : hexPairs (toLower text) = hexPairs text := by
  induction text using hexPairs.induct with
  | case1 hi lo rest ih =>
      have hcons : toLower (hi :: lo :: rest) = hi.toLower :: lo.toLower :: toLower rest := rfl
      rw [hcons, hexPairs, hexPairs, hexNibble_toLower, hexNibble_toLower, ih]
  | case2 text hshort =>
      cases text with
      | nil => rfl
      | cons hi tail =>
          cases tail with
          | nil => rfl
          | cons lo rest => exact absurd rfl (hshort hi lo rest)

/-- A digit is an ASCII character. -/
theorem byte_of_nibble {c : Char} (hnibble : (hexNibble c).isSome) :
    Char.ofNat (UInt8.ofNat c.toNat).toNat = c ∧ UInt8.ofNat c.toNat ≠ 0 := by
  have hrange := FormPrint.range_of_nibble hnibble
  have hbyte : (UInt8.ofNat c.toNat).toNat = c.toNat := by
    rw [UInt8.toNat_ofNat', Nat.mod_eq_of_lt (by omega)]
  refine ⟨by rw [hbyte, Char.ofNat_toNat], fun hzero => ?_⟩
  rw [hzero, UInt8.toNat_zero] at hbyte
  omega

/-- The bytes of digits are the digits. -/
theorem chars_bytesOf {text : Text} (hdigits : ∀ c ∈ text, (hexNibble c).isSome) :
    ((bytesOf text).map fun b => Char.ofNat b.toNat) = text := by
  rw [bytesOf, List.map_map]
  calc text.map _ = text.map id :=
        List.map_congr_left fun c hc => (byte_of_nibble (hdigits c hc)).1
    _ = text := List.map_id text

theorem hexPairs_of_digits {text : Text} (hdigits : ∀ c ∈ text, (hexNibble c).isSome) :
    (hexPairs text).isSome := by
  induction text using hexPairs.induct with
  | case1 hi lo rest ih =>
      obtain ⟨high, hhigh⟩ := Option.isSome_iff_exists.mp (hdigits hi (by simp))
      obtain ⟨low, hlow⟩ := Option.isSome_iff_exists.mp (hdigits lo (by simp))
      obtain ⟨bytes, hbytes⟩ := Option.isSome_iff_exists.mp
        (ih fun c hc => hdigits c (by simp [hc]))
      rw [hexPairs, hhigh, hlow, hbytes]
      rfl
  | case2 text hshort =>
      cases text with
      | nil => rfl
      | cons hi tail =>
          cases tail with
          | nil => rfl
          | cons lo rest => exact absurd rfl (hshort hi lo rest)

/-- Thirty-two typed digits are stored and parsed as they are. -/
theorem parseKeyHex_stored {chKey : Text} (hhex : isHexString (toLower chKey) 32 = true) :
    parseKeyHex (copyStr RADIO_CHANNEL_KEY_MAX (bytesOf (toLower chKey))).text =
      denotedHex chKey ∧ (denotedHex chKey).isSome := by
  simp only [isHexString, decide_eq_true_eq, List.all_eq_true] at hhex
  obtain ⟨hlength, hdigits⟩ := hhex
  have hbytes : (bytesOf (toLower chKey)).length = 32 := by rw [bytesOf, List.length_map, hlength]
  have hclean : 0 ∉ bytesOf (toLower chKey) := by
    intro hzero
    obtain ⟨c, hc, hbyte⟩ := List.mem_map.mp hzero
    exact (byte_of_nibble (hdigits c hc)).2 hbyte
  have hstored : (copyStr RADIO_CHANNEL_KEY_MAX (bytesOf (toLower chKey))).text =
      bytesOf (toLower chKey) := by
    rw [text_copyStr, cString_of_notMem hclean]
    exact List.take_of_length_le (hbytes.trans_le (by decide))
  rw [hstored, parseKeyHex, if_pos hbytes, chars_bytesOf hdigits, denotedHex,
    ← hexPairs_toLower chKey]
  exact ⟨rfl, hexPairs_of_digits hdigits⟩

/-! ## The channel of an accepted radio -/

/-- The name fits into its array. -/
def NameFits (name : List UInt8) : Prop := 0 ∉ name ∧ name.length ≤ RADIO_CHANNEL_NAME_MAX

theorem nameOf_stored_iff (name : List UInt8) :
    nameOf (copyStr RADIO_CHANNEL_NAME_MAX name).text = name ↔ NameFits name := by
  have hmax : RADIO_CHANNEL_NAME_MAX = 23 := rfl
  rw [text_copyStr, nameOf, cString_of_notMem fun hmem =>
    notMem_cString name (List.mem_of_mem_take hmem), hmax, List.take_take, Nat.min_self]
  constructor
  · intro hsame
    refine ⟨fun hzero => ?_, ?_⟩
    · rw [← hsame] at hzero
      exact notMem_cString name (List.mem_of_mem_take hzero)
    · have hlength := congrArg List.length hsame
      rw [List.length_take] at hlength
      omega
  · rintro ⟨hclean, hlength⟩
    rw [cString_of_notMem hclean]
    exact List.take_of_length_le hlength

/-- The key that a radio's text denotes. -/
def denotedKey (base64 : Coder) (proto : UInt8) (chKey : Text) : Option (List UInt8) :=
  if proto = PROTO_MT then denotedPsk base64 (bytesOf chKey) else denotedHex chKey

/-- The resolver takes a key that is not in the stored string. -/
def fallsBack (base64 : Coder) (slot : RadioSlot) : Bool :=
  if slot.protocol = PROTO_MT then usesDefault (rawPsk base64 slot.channelKey.text)
  else (parseKeyHex slot.channelKey.text).isNone

/-- The resolved channel has the submitted name and the key its text denotes, and a fallback is
only taken where a Meshtastic text denotes the default key. -/
structure KeepsChannel (base64 : Coder) (sha256 : List UInt8 → UInt8) (form : Fields)
    (slot : RadioSlot) : Prop where
  name : (resolveRadioChannel base64 sha256 slot.syncWord slot.channelName.text
    slot.channelKey.text).name = bytesOf (trim form.channelName)
  key : denotedKey base64 slot.protocol (trim form.channelKey) = some (resolveRadioChannel base64
    sha256 slot.syncWord slot.channelName.text slot.channelKey.text).channel.aesKey
  fallback : fallsBack base64 slot = true → slot.protocol = PROTO_MT ∧
    denotedPsk base64 (bytesOf (trim form.channelKey)) = some DEFAULT_PSK

/-- The name fits, and a Meshtastic key denotes the default key, or is not the index 0 and keeps
its bytes when it is cut to 47 characters. -/
def Fits (base64 : Coder) (form : Fields) : Prop :=
  NameFits (bytesOf (trim form.channelName)) ∧
    (byteOf form.proto = PROTO_MT →
      denotedPsk base64 (bytesOf (trim form.channelKey)) = some DEFAULT_PSK ∨
        (base64.decode 48 ((bytesOf (trim form.channelKey)).take RADIO_CHANNEL_KEY_MAX) =
            base64.decode 48 (bytesOf (trim form.channelKey)) ∧
          base64.decode 48 (bytesOf (trim form.channelKey)) ≠ some [0]))

section Variants

variable {base64 : Coder} {floats : Floats} {region : UInt8} {i : Radio} {form : Fields}
  {modem : Modem} {variant : Variant} {lwRegion : UInt8} {sha256 : List UInt8 → UInt8}

theorem aesKey_resolveMeshtastic base64 (psk name : List UInt8) :
    (resolveMeshtastic base64 psk name).channel.aesKey = expandKey (rawPsk base64 psk) := by
  have hlength := length_expandKey (rawPsk base64 psk)
  have hlen : (UInt8.ofNat (expandKey (rawPsk base64 psk)).length).toNat =
      (expandKey (rawPsk base64 psk)).length := by
    rw [UInt8.toNat_ofNat', Nat.mod_eq_of_lt (by omega)]
  have hkey : (resolveMeshtastic base64 psk name).channel.aesKey =
      (keyBuffer (expandKey (rawPsk base64 psk))).toList.take
        (UInt8.ofNat (expandKey (rawPsk base64 psk)).length).toNat := rfl
  rw [hkey, hlen, take_keyBuffer (by omega)]

theorem keepsChannel_meshtastic_iff (hproto : byteOf form.proto = PROTO_MT)
    (hvariant : variantOf base64 (byteOf form.proto) form modem lwRegion = .ok variant) :
    KeepsChannel base64 sha256 form (activeSlot floats region i form variant) ↔
      Fits base64 form := by
  obtain ⟨horder, hasked⟩ := variantOf_eq_ok_iff.mp hvariant
  have hsync : variant.sync = 0x2B := by
    rw [hasked, syncAsked, hproto]
    rfl
  have hkey : variant.chKey = trim form.channelKey := by
    rw [hasked, keyAsked, hproto]
    rfl
  have hresolved : resolveRadioChannel base64 sha256
      (activeSlot floats region i form variant).syncWord
      (activeSlot floats region i form variant).channelName.text
      (activeSlot floats region i form variant).channelKey.text = resolveMeshtastic base64
        (copyStr RADIO_CHANNEL_KEY_MAX (bytesOf (trim form.channelKey))).text
        (copyStr RADIO_CHANNEL_NAME_MAX (bytesOf (trim form.channelName))).text := by
    rw [activeSlot, hsync, hkey]
    rfl
  have hstored := denotedPsk_stored_iff (horder.psk hproto)
  have hname := nameOf_stored_iff (bytesOf (trim form.channelName))
  have hslot : (activeSlot floats region i form variant).protocol = PROTO_MT := hproto
  have hslotKey : (activeSlot floats region i form variant).channelKey =
      copyStr RADIO_CHANNEL_KEY_MAX (bytesOf (trim form.channelKey)) := by
    rw [activeSlot, hkey]
  constructor
  · intro hkeeps
    have hsameName := hkeeps.name
    have hsameKey := hkeeps.key
    rw [hresolved] at hsameName hsameKey
    rw [hslot, denotedKey, if_pos rfl, aesKey_resolveMeshtastic] at hsameKey
    exact ⟨hname.mp hsameName, fun _ => hstored.mp hsameKey⟩
  · rintro ⟨hfits, hcut⟩
    have hsameKey := hstored.mpr (hcut hproto)
    refine ⟨?_, ?_, fun hfallback => ⟨hslot, ?_⟩⟩
    · rw [hresolved]
      exact hname.mpr hfits
    · rw [hresolved, hslot, denotedKey, if_pos rfl, aesKey_resolveMeshtastic]
      exact hsameKey
    · rw [fallsBack, hslot, if_pos rfl, hslotKey] at hfallback
      rw [hsameKey, expandKey_of_usesDefault hfallback]

theorem keepsChannel_meshcore_iff (hproto : byteOf form.proto = PROTO_MC)
    (hvariant : variantOf base64 (byteOf form.proto) form modem lwRegion = .ok variant) :
    KeepsChannel base64 sha256 form (activeSlot floats region i form variant) ↔
      Fits base64 form := by
  obtain ⟨horder, hasked⟩ := variantOf_eq_ok_iff.mp hvariant
  have hhex := horder.key hproto
  have hsync : variant.sync = 0x12 := by
    rw [hasked, syncAsked, hproto]
    rfl
  have hkey : variant.chKey = toLower (trim form.channelKey) := by
    rw [hasked, keyAsked, hproto]
    rfl
  obtain ⟨hparse, hsome⟩ := parseKeyHex_stored hhex
  obtain ⟨key, hdenoted⟩ := Option.isSome_iff_exists.mp hsome
  have hlength : key.length = 16 := by
    have hhexLength : (trim form.channelKey).length = 32 := by
      simp only [isHexString, decide_eq_true_eq, toLower, List.length_map] at hhex
      exact hhex.1
    rw [length_of_hexPairs hdenoted, hhexLength]
  have hresolved : resolveRadioChannel base64 sha256
      (activeSlot floats region i form variant).syncWord
      (activeSlot floats region i form variant).channelName.text
      (activeSlot floats region i form variant).channelKey.text = resolveMeshCore sha256
        (copyStr RADIO_CHANNEL_KEY_MAX (bytesOf (toLower (trim form.channelKey)))).text
        (copyStr RADIO_CHANNEL_NAME_MAX (bytesOf (trim form.channelName))).text := by
    rw [activeSlot, hsync, hkey]
    rfl
  have hname := nameOf_stored_iff (bytesOf (trim form.channelName))
  have hslot : (activeSlot floats region i form variant).protocol = PROTO_MC := hproto
  have hslotKey : (activeSlot floats region i form variant).channelKey =
      copyStr RADIO_CHANNEL_KEY_MAX (bytesOf (toLower (trim form.channelKey))) := by
    rw [activeSlot, hkey]
  constructor
  · intro hkeeps
    have hsameName := hkeeps.name
    rw [hresolved] at hsameName
    refine ⟨hname.mp hsameName, fun hmeshtastic => ?_⟩
    exact absurd (hproto.symm.trans hmeshtastic) (by decide)
  · rintro ⟨hfits, -⟩
    refine ⟨?_, ?_, fun hfallback => ?_⟩
    · rw [hresolved]
      exact hname.mpr hfits
    · have haes : (resolveMeshCore sha256
          (copyStr RADIO_CHANNEL_KEY_MAX (bytesOf (toLower (trim form.channelKey)))).text
          (copyStr RADIO_CHANNEL_NAME_MAX (bytesOf (trim form.channelName))).text).channel.aesKey =
          (keyBuffer key).toList.take key.length := by
        rw [resolveMeshCore, hparse, hdenoted, hlength]
        rfl
      rw [hresolved, hslot, denotedKey, if_neg (by decide), hdenoted, haes,
        take_keyBuffer (by omega)]
    · rw [fallsBack, hslot, if_neg (by decide), hslotKey, hparse, hdenoted] at hfallback
      cases hfallback

end Variants

section Saved

variable {portal : Portal} {form : Form} {opened : Bool} {writeDevices writeConfig : Write}
  {state : State}

/-- An active Meshtastic or MeshCore radio of an accepted form keeps its channel exactly when
its name and key fit. -/
theorem active_radio_keeps_channel_iff (sha256 : List UInt8 → UInt8)
    (haccepted : (handleSave portal form opened writeDevices writeConfig state).2 = none)
    (i : Radio)
    (hproto : ((saved portal form opened writeDevices writeConfig state).radio i).protocol =
        PROTO_MT ∨
      ((saved portal form opened writeDevices writeConfig state).radio i).protocol = PROTO_MC) :
    KeepsChannel portal.base64 sha256 (form.radio i)
        ((saved portal form opened writeDevices writeConfig state).radio i) ↔
      Fits portal.base64 (form.radio i) := by
  have hactive : ((saved portal form opened writeDevices writeConfig state).radio i).protocol ≠
      PROTO_NONE := by
    rcases hproto with hmeshtastic | hmeshcore
    · rw [hmeshtastic]
      decide
    · rw [hmeshcore]
      decide
  obtain ⟨-, modem, variant, lwRegion, -, hvariant, hslot⟩ := radio_saved haccepted hactive
  rw [hslot] at hproto ⊢
  rcases hproto with hmeshtastic | hmeshcore
  · exact keepsChannel_meshtastic_iff hmeshtastic hvariant
  · exact keepsChannel_meshcore_iff hmeshcore hvariant

end Saved

/-! ## A key that becomes the public one -/

theorem active_radio_keeps_channel_blank :
    KeepsChannel stockPortal.base64 (fun _ => 0) ((r1Form ['1'] []).radio 0)
        ((stored (r1Form ['1'] [])).radio 0) ↔
      Fits stockPortal.base64 ((r1Form ['1'] []).radio 0) :=
  active_radio_keeps_channel_iff (fun _ => 0) (by decide) 0 (by decide)

/-- The key index 0 is accepted, and the radio is on the default key. -/
theorem index_zero_public :
    ¬ ∀ form : Form, (handleSave stockPortal form true .confirmed .confirmed stockState).2 = none →
      ∀ i, ((stored form).radio i).protocol = PROTO_MT →
        KeepsChannel stockPortal.base64 (fun _ => 0) (form.radio i) ((stored form).radio i) := by
  intro hall
  have hkeeps := hall (r1Form ['1'] ['A', 'A', '=', '=']) (by decide) 0 (by decide)
  exact absurd (hkeeps.fallback (by decide)).2 (by decide)

end LoraBridge.ChannelStorage
