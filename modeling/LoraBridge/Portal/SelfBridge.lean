import LoraBridge.Config.ChannelKeys
import LoraBridge.Portal.FormFields

/-!
# Bridging a channel to itself

The portal rejects a routed pair of Meshtastic or MeshCore radios on one frequency whose names
and keys are the same strings; the dispatcher compares the channels these resolve to.  A channel
has many spellings, so that an accepted form can bridge one to itself.
-/

namespace LoraBridge.SelfBridge

open LoraBridge.Base64 LoraBridge.BridgeConfig LoraBridge.ChannelKeys LoraBridge.CharArray
open LoraBridge.ConfigForm LoraBridge.FormFields LoraBridge.FormText LoraBridge.Memory
open LoraBridge.RadioForm LoraBridge.ReserveAhead

/-! ## Channels that are the same at run time -/

section Channels

variable {base64 : Coder} {sha256 : List UInt8 → UInt8}

theorem toNat_keyLen (raw : List UInt8) :
    (UInt8.ofNat (expandKey raw).length).toNat = (expandKey raw).length := by
  rcases length_expandKey raw with hlength | hlength <;> rw [hlength] <;> rfl

/-- The key that a Meshtastic channel is compared by. -/
theorem take_expandKey (raw : List UInt8) :
    (keyBuffer (expandKey raw)).toList.take (UInt8.ofNat (expandKey raw).length).toNat =
      expandKey raw := by
  rw [toNat_keyLen]
  apply take_keyBuffer
  rcases length_expandKey raw with hlength | hlength <;> rw [hlength]
  decide

theorem sameChannel_resolveMeshtastic (psk name psk' name' : List UInt8) :
    sameChannel (resolveMeshtastic base64 psk name).channel
        (resolveMeshtastic base64 psk' name').channel = true ↔
      expandKey (rawPsk base64 psk) = expandKey (rawPsk base64 psk') ∧
        xorFold (nameOf name) = xorFold (nameOf name') := by
  simp only [sameChannel, resolveMeshtastic, decide_eq_true_eq, true_and]
  rw [take_expandKey]
  constructor
  · rintro ⟨hhash, hlength, hkey⟩
    rw [hlength, take_expandKey] at hkey
    rw [hkey, UInt8.xor_left_inj] at hhash
    exact ⟨hkey, hhash⟩
  · rintro ⟨hkey, hname⟩
    rw [hkey, hname, take_expandKey]
    exact ⟨rfl, rfl, rfl⟩

/-- The key of a MeshCore channel. -/
def meshCoreKey (keyHex : List UInt8) : List UInt8 :=
  (parseKeyHex keyHex).getD FALLBACK_PUBLIC_KEY

theorem length_meshCoreKey (keyHex : List UInt8) : (meshCoreKey keyHex).length = 16 := by
  unfold meshCoreKey parseKeyHex
  split
  · rename_i hlength
    cases hpairs : hexPairs (keyHex.map fun b => Char.ofNat b.toNat) with
    | none => rfl
    | some key =>
        have hkey := length_of_hexPairs hpairs
        rw [List.length_map, hlength] at hkey
        exact hkey
  · rfl

theorem sameChannel_resolveMeshCore (keyHex name keyHex' name' : List UInt8) :
    sameChannel (resolveMeshCore sha256 keyHex name).channel
        (resolveMeshCore sha256 keyHex' name').channel = true ↔
      meshCoreKey keyHex = meshCoreKey keyHex' := by
  have htake : ∀ keyHex, (keyBuffer (meshCoreKey keyHex)).toList.take (16 : UInt8).toNat =
      meshCoreKey keyHex := by
    intro keyHex
    have hshort : (meshCoreKey keyHex).length ≤ 32 := by
      rw [length_meshCoreKey]
      decide
    have hkey := take_keyBuffer hshort
    rwa [length_meshCoreKey] at hkey
  simp only [sameChannel, resolveMeshCore, decide_eq_true_eq, true_and]
  rw [← meshCoreKey, ← meshCoreKey, htake, htake]
  constructor
  · exact And.right
  · intro hkey
    rw [hkey]
    exact ⟨rfl, rfl⟩

end Channels

/-! ## What the guard overlooks -/

/-- The channel of a slot at run time. -/
def channelOf (base64 : Coder) (sha256 : List UInt8 → UInt8) (slot : RadioSlot) :
    MeshtasticDecoder.RadioChannel :=
  (resolveRadioChannel base64 sha256 slot.syncWord slot.channelName.text
    slot.channelKey.text).channel

/-- Radio `i` is bridged to radio `j` on one frequency, both are on, and they have the same
channel at run time. -/
def BridgedToItself (portal : Portal) (sha256 : List UInt8 → UInt8)
    (radio : Radio → RadioSlot) (i j : Radio) : Prop :=
  ((radio i).protocol ≠ PROTO_NONE ∧ (radio j).protocol ≠ PROTO_NONE) ∧
    j ≠ i ∧ routes (radio i).routeMask j = true ∧
    near portal.floats (radio i).frequency (radio j).frequency = true ∧
    sameChannel (channelOf portal.base64 sha256 (radio i))
      (channelOf portal.base64 sha256 (radio j)) = true

/-- The build leaves the radio off. -/
def buildOff (flags : BuildFlags) : Radio → Bool
  | 0 => flags.radio1Disable
  | 1 => flags.radio2Disable
  | 2 => false
  | 3 => false

/-- The form has the radio on. -/
def On (portal : Portal) (form : Form) (i : Radio) : Prop :=
  byteOf (form.radio i).proto ≠ PROTO_NONE ∧ buildOff portal.flags i = false

/-- Two radios that the guard compares and finds equal: both Meshtastic or both MeshCore, with
one name and one key as they are kept. -/
def Compared (fields other : Fields) : Prop :=
  (byteOf fields.proto = PROTO_MT ∨ byteOf fields.proto = PROTO_MC) ∧
    byteOf other.proto = byteOf fields.proto ∧
    nameKept fields = nameKept other ∧ keyKept fields = keyKept other

/-- One channel that the guard does not see as one. -/
inductive OneChannel (base64 : Coder) (fields other : Fields) : Prop
  /-- One sync word without keys: Reticulum, LoRaWAN, and Custom radios. -/
  | keyless (hsync : syncAsked fields = syncAsked other)
      (hkeyless : syncAsked fields ≠ 0x2B ∧ syncAsked fields ≠ 0x12)
  /-- Two spellings of one Meshtastic key, and names of one fold. -/
  | meshtastic (hsync : syncAsked fields = 0x2B ∧ syncAsked other = 0x2B)
      (hkey : expandKey (rawPsk base64 (keyKept fields)) =
        expandKey (rawPsk base64 (keyKept other)))
      (hname : xorFold (nameKept fields) = xorFold (nameKept other))
      (hspelling : ¬ Compared fields other)
  /-- One MeshCore key under two names, or on a Custom radio. -/
  | meshCore (hsync : syncAsked fields = 0x12 ∧ syncAsked other = 0x12)
      (hkey : meshCoreKey (keyKept fields) = meshCoreKey (keyKept other))
      (hspelling : ¬ Compared fields other)

/-- The form routes radio `i` to radio `j` on one frequency, both are on, and they have one
channel in two spellings, or one without keys. -/
def Overlooked (portal : Portal) (form : Form) (i j : Radio) : Prop :=
  (On portal form i ∧ On portal form j) ∧ j ≠ i ∧ (form.radio i).routeTo j = ['1'] ∧
    near portal.floats (portal.floats.toFloat (form.radio i).freq)
      (portal.floats.toFloat (form.radio j).freq) = true ∧
    OneChannel portal.base64 (form.radio i) (form.radio j)

section Guard

variable {portal : Portal} {form : Form} {opened : Bool} {writeDevices writeConfig : Write}
  {state : State}

/-- What is live behind an accepted form. -/
theorem radio_saved_eq
    (haccepted : (handleSave portal form opened writeDevices writeConfig state).2 = none) :
    (∀ i, (saved portal form opened writeDevices writeConfig state).radio i =
      Migration.disable (buildOff portal.flags i) (askedSlot portal.floats (regionOf form) i
        (form.radio i) (state.config.live.radio i))) ∧
      ∀ i j, ¬ LoopsBack portal.floats form i j := by
  obtain ⟨mtNodeId, radio, hradios, hguard, hconfig⟩ := handleSave_accepted haccepted
  have hasked : radio = fun i => askedSlot portal.floats (regionOf form) i (form.radio i)
      (state.config.live.radio i) := by
    funext i
    have hradio := hradios i
    rw [applyRadio_of_inOrder (radioInOrder_of_ok hradio)] at hradio
    exact (Except.ok.inj hradio).symm
  subst hasked
  refine ⟨fun i => ?_, ((radiosError_asked_iff _ _).mp hguard).2⟩
  rw [saved, hconfig, Migration.live_save]
  fin_cases i <;> rfl

theorem nameOf_nameKept (fields : Fields) : nameOf (nameKept fields) = nameKept fields := by
  have hclean : 0 ∉ nameKept fields :=
    fun hmem => notMem_cString _ (List.mem_of_mem_take hmem)
  rw [nameOf, cString_of_notMem hclean, nameKept, List.take_take]
  rfl

/-- The channel of a radio that is on. -/
theorem channelOf_asked {sha256 : List UInt8 → UInt8} {region : UInt8} {i : Radio}
    {fields : Fields} {slot : RadioSlot} (hactive : byteOf fields.proto ≠ PROTO_NONE) :
    channelOf portal.base64 sha256 (askedSlot portal.floats region i fields slot) =
      (resolveRadioChannel portal.base64 sha256 (syncAsked fields) (nameKept fields)
        (keyKept fields)).channel := by
  obtain ⟨-, -, hname, hkey⟩ := askedSlot_of_active portal.floats region i slot hactive
  rw [channelOf, hname, hkey, askedSlot, if_neg hactive]
  rfl

/-- Two radios that are on have one channel at run time. -/
theorem sameChannel_asked_iff {sha256 : List UInt8 → UInt8} {region : UInt8}
    (slot : Radio → RadioSlot) {i j : Radio} (hi : byteOf (form.radio i).proto ≠ PROTO_NONE)
    (hj : byteOf (form.radio j).proto ≠ PROTO_NONE)
    (hspelling : ¬ Compared (form.radio i) (form.radio j)) :
    sameChannel
        (channelOf portal.base64 sha256
          (askedSlot portal.floats region i (form.radio i) (slot i)))
        (channelOf portal.base64 sha256
          (askedSlot portal.floats region j (form.radio j) (slot j))) = true ↔
      OneChannel portal.base64 (form.radio i) (form.radio j) := by
  rw [channelOf_asked hi, channelOf_asked hj]
  have hprotocol : ∀ sync name key,
      (resolveRadioChannel portal.base64 sha256 sync name key).channel.protocol = sync := by
    intro sync name key
    unfold resolveRadioChannel
    split
    · rename_i hsync
      exact hsync.symm
    · split
      · rename_i hsync
        exact hsync.symm
      · rfl
  constructor
  · intro hsame
    have hsync : syncAsked (form.radio i) = syncAsked (form.radio j) := by
      have hboth := (of_decide_eq_true hsame).1
      rwa [hprotocol, hprotocol] at hboth
    rw [← hsync] at hsame
    by_cases hmeshtastic : syncAsked (form.radio i) = 0x2B
    · rw [resolveRadioChannel, resolveRadioChannel, if_pos hmeshtastic, if_pos hmeshtastic,
        sameChannel_resolveMeshtastic, nameOf_nameKept, nameOf_nameKept] at hsame
      exact .meshtastic ⟨hmeshtastic, hsync ▸ hmeshtastic⟩ hsame.1 hsame.2 hspelling
    · by_cases hmeshcore : syncAsked (form.radio i) = 0x12
      · rw [resolveRadioChannel, resolveRadioChannel, if_neg hmeshtastic, if_neg hmeshtastic,
          if_pos hmeshcore, if_pos hmeshcore, sameChannel_resolveMeshCore] at hsame
        exact .meshCore ⟨hmeshcore, hsync ▸ hmeshcore⟩ hsame hspelling
      · exact .keyless hsync ⟨hmeshtastic, hmeshcore⟩
  · intro hone
    cases hone with
    | keyless hsync hkeyless =>
        rw [← hsync, resolveRadioChannel, resolveRadioChannel, if_neg hkeyless.1,
          if_neg hkeyless.1, if_neg hkeyless.2, if_neg hkeyless.2]
        simp [sameChannel]
    | meshtastic hsync hkey hname =>
        rw [resolveRadioChannel, resolveRadioChannel, if_pos hsync.1, if_pos hsync.2,
          sameChannel_resolveMeshtastic, nameOf_nameKept, nameOf_nameKept]
        exact ⟨hkey, hname⟩
    | meshCore hsync hkey =>
        rw [hsync.1, hsync.2, resolveRadioChannel, resolveRadioChannel, if_neg (by decide),
          if_pos rfl, if_neg (by decide), if_pos rfl, sameChannel_resolveMeshCore]
        exact hkey

/-- An accepted form bridges no channel to itself exactly when it routes no radio to another one
on its frequency with a channel that the guard overlooks. -/
theorem accepted_selfBridge_iff (portal : Portal) (form : Form) (opened : Bool)
    (writeDevices writeConfig : Write) (state : State) (sha256 : List UInt8 → UInt8)
    (haccepted : (handleSave portal form opened writeDevices writeConfig state).2 = none) :
    (∀ i j, ¬ BridgedToItself portal sha256
        (saved portal form opened writeDevices writeConfig state).radio i j) ↔
      ∀ i j, ¬ Overlooked portal form i j := by
  obtain ⟨hsaved, hnoLoop⟩ := radio_saved_eq haccepted
  have hon : ∀ i, ((saved portal form opened writeDevices writeConfig state).radio i).protocol ≠
      PROTO_NONE ↔ On portal form i := by
    intro i
    rw [hsaved i, Migration.disable, On]
    cases buildOff portal.flags i with
    | true => simp
    | false => simp [askedSlot_protocol]
  refine forall_congr' fun i => forall_congr' fun j => not_congr ?_
  unfold BridgedToItself Overlooked
  rw [hon, hon]
  refine and_congr_right fun ⟨hi, hj⟩ => and_congr_right fun hne => ?_
  have hslot : ∀ k, On portal form k →
      (saved portal form opened writeDevices writeConfig state).radio k =
        askedSlot portal.floats (regionOf form) k (form.radio k)
          (state.config.live.radio k) := by
    intro k hk
    rw [hsaved k, hk.2]
    rfl
  obtain ⟨hmask, hfreq, -⟩ := askedSlot_of_active portal.floats (regionOf form) i
    (state.config.live.radio i) hi.1
  obtain ⟨-, hfreq', -⟩ := askedSlot_of_active portal.floats (regionOf form) j
    (state.config.live.radio j) hj.1
  rw [hslot i hi, hslot j hj, hmask, hfreq, hfreq', routes_routeMaskOf, and_iff_right hne]
  refine and_congr_right fun hroutes => and_congr_right fun hnear => ?_
  refine sameChannel_asked_iff state.config.live.radio hi.1 hj.1 fun hcompared => ?_
  exact hnoLoop i j ⟨hcompared.1, hne, hroutes, hcompared.2.1, hnear, hcompared.2.2⟩

end Guard

/-! ## A blank key and the default key -/

/-- R1 and R2 have one protocol and route to each other. -/
def pairForm (proto : Text) (key : Radio → Text) : Form :=
  radiosForm fun i => if i.val < 2 then fieldsOf proto (key i) fun _ => ['1']
    else fieldsOf ['0'] [] fun _ => []

/-- Two Meshtastic radios: R1 has a blank key and R2 the key `AQ==`. -/
def blankPair : Form :=
  pairForm ['1'] fun i => if i.val = 0 then [] else ['A', 'Q', '=', '=']

theorem accepted_selfBridge_blankPair : ¬ ∀ i j, ¬ Overlooked stockPortal blankPair i j := by
  intro hnone
  have haccepted : (handleSave stockPortal blankPair true .confirmed .confirmed stockState).2 =
    none := by decide
  exact (accepted_selfBridge_iff stockPortal blankPair true .confirmed .confirmed stockState
    (fun _ => 0) haccepted).mpr hnone 0 1
      ⟨⟨by decide, by decide⟩, by decide, by decide, by decide, by decide⟩

/-- The pair is accepted, and bridges its channel to itself. -/
theorem blankPair_bridged :
    ¬ ∀ form : Form, (handleSave stockPortal form true .confirmed .confirmed stockState).2 = none →
      ∀ i j, ¬ BridgedToItself stockPortal (fun _ => 0) (stored form).radio i j := by
  intro hall
  exact hall blankPair (by decide) 0 1
    ⟨⟨by decide, by decide⟩, by decide, by decide, by decide, by decide⟩

end LoraBridge.SelfBridge
