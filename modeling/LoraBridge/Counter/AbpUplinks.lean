import LoraBridge.Codec.LoRaWANCrypto
import LoraBridge.Counter.FrameCounters
import LoraBridge.Portal.LoRaWANDevices

/-!
# ABP uplinks

`enqueueAbpUplink` up to the encoded frame: the device slot or the build-flag
identity a source resolves to, a frame counter, and the payload under its keys.
Each slot and the fallback keep their own counter while the reservation in NVS is
keyed by DevAddr, so two identities that share an address can issue one FCnt twice.
-/

namespace LoraBridge.AbpUplinks

open LoraBridge.Cipher LoraBridge.LoRaWANConfig LoraBridge.LoRaWANCrypto
open LoraBridge.LoRaWANDevices LoraBridge.Machine LoraBridge.Memory
open LoraBridge.ReserveAhead

/-- The build-flag identity; `ready` when both keys parsed. -/
structure LwEncCreds where
  ready : Bool
  devAddr : UInt32
  fport : UInt8
  nwkSKey : List.Vector UInt8 16
  appSKey : List.Vector UInt8 16

/-- What does not change between boots: the AES block function, the build-flag
identity, and `g_lwCryptoOk`. -/
structure Encoder where
  aes : BlockCipher
  creds : LwEncCreds
  cryptoOk : Bool

/-- The identity an uplink is sent under, and the counter it draws from. -/
structure Identity where
  devAddr : UInt32
  nwkSKey : List.Vector UInt8 16
  appSKey : List.Vector UInt8 16
  fport : UInt8
  tagSrc : Bool
  cursor : Cursor

def Encoder.identity (encoder : Encoder) (ram : Ram) (srcSync : UInt8) (srcId : UInt32) :
    Option Identity :=
  match resolve ram.dev srcSync srcId with
  | some slot =>
      let dev := ram.dev slot
      some ⟨dev.devAddr, dev.nwkSKey, dev.appSKey, dev.fport,
        dev.flags &&& FLAG_TAG_SRC ≠ 0, .slot slot⟩
  | none =>
      let lw := encoder.creds
      if lw.ready then some ⟨lw.devAddr, lw.nwkSKey, lw.appSKey, lw.fport, false, .ext⟩
      else none

/-- The counter call an identity makes. -/
def Identity.nextFcnt (identity : Identity) (write : Write) (state : State) :
    State × List Issue :=
  match identity.cursor with
  | .slot slot => LoRaWANConfig.nextFcnt slot write state
  | .ext => nextFcntForDevAddr identity.devAddr write state

/-- An encoded uplink. -/
structure Uplink where
  issue : Issue
  frame : List UInt8
  deriving DecidableEq

/-- How `enqueueAbpUplink` comes out before the frame is queued. -/
inductive Attempt where
  | noIdentity
  | selftestFail
  | fcntFail
  | payloadOverflow (len cap : ℕ)
  | encodeFail
  | encoded (uplink : Uplink)
  deriving DecidableEq

def Attempt.uplinks : Attempt → List Uplink
  | .encoded uplink => [uplink]
  | _ => []

/-- `[proto][srcId LE]`. -/
def sourceTag (srcSync : UInt8) (srcId : UInt32) : List UInt8 :=
  protoOf srcSync :: wordBytes srcId

/-- The source tag, where the identity asks for one. -/
def Identity.tag (identity : Identity) (srcSync : UInt8) (srcId : UInt32) : List UInt8 :=
  if identity.tagSrc then sourceTag srcSync srcId else []

/-- The checks after the FCnt was drawn, and the encoding. -/
def Identity.encode (identity : Identity) (encoder : Encoder) (srcSync : UInt8)
    (srcId : UInt32) (payload : List UInt8) (issued : List Issue) : Attempt :=
  if !encoder.cryptoOk then .selftestFail
  else
    match issued.head? with
    | none => .fcntFail
    | some issue =>
        let tag := identity.tag srcSync srcId
        if 242 - tag.length < payload.length then
          .payloadOverflow payload.length (242 - tag.length)
        else
          match encodeUplink encoder.aes identity.devAddr identity.nwkSKey.toList
            identity.appSKey.toList issue.fcnt identity.fport (tag ++ payload) false 256 with
          | some frame => .encoded ⟨issue, frame⟩
          | none => .encodeFail

/-- `enqueueAbpUplink`, up to the frame. -/
def encodeAbpUplink (encoder : Encoder) (srcSync : UInt8) (srcId : UInt32)
    (payload : List UInt8) (write : Write) (state : State) : State × Attempt :=
  match encoder.identity state.ram srcSync srcId with
  | none => (state, .noIdentity)
  | some identity =>
      let (next, issued) := identity.nextFcnt write state
      (next, identity.encode encoder srcSync srcId payload issued)

/-! ## The device over its life -/

/-- A packet of some source routed to a LoRaWAN radio, or a form saved in the
portal, with what becomes of the NVS write. -/
inductive Action where
  | uplink (srcSync : UInt8) (srcId : UInt32) (payload : List UInt8) (write : Write)
  | portalSave (forms : Slot → DeviceForm) (write : Write)

/-- An action runs to its end, or the power goes between actions or inside one. -/
inductive Event where
  | action (action : Action)
  | powerLoss (during : Option Action)

def Action.apply (encoder : Encoder) : Action → State → State × List Uplink
  | .uplink srcSync srcId payload write, state =>
      let (next, attempt) := encodeAbpUplink encoder srcSync srcId payload write state
      (next, attempt.uplinks)
  | .portalSave forms write, state => ((applyLoRaWANDevices forms write state).1, [])

def step (encoder : Encoder) : State → Event → State × List Uplink
  | state, .action action => action.apply encoder state
  | state, .powerLoss none => (boot state.nvs, [])
  | state, .powerLoss (some action) => (boot (action.apply encoder state).1.nvs, [])

/-- The (DevAddr, FCnt) pairs of all encoded uplinks are different. -/
def NoAliasing (uplinks : List Uplink) : Prop :=
  (uplinks.map Uplink.issue).Nodup

instance (uplinks : List Uplink) : Decidable (NoAliasing uplinks) :=
  inferInstanceAs (Decidable (List.Nodup _))

/-! ## The counter an uplink draws from -/

/-- The state an identity draws its number in: the fallback is bound first. -/
def Identity.bound (identity : Identity) (state : State) : State :=
  match identity.cursor with
  | .slot _ => state
  | .ext => ⟨state.nvs, rebind identity.devAddr state⟩

theorem Identity.bound_reloads (identity : Identity) (state : State) :
    Reloads state (identity.bound state) := by
  unfold Identity.bound
  split
  · exact Reloads.refl state
  · exact rebind_reloads _ state

theorem Identity.nextFcnt_spec (identity : Identity) (write : Write) (state : State) :
    identity.nextFcnt write state = (state, []) ∨
      IssuesFrom (identity.bound state) identity.cursor write
        (identity.nextFcnt write state).1 (identity.nextFcnt write state).2 := by
  unfold Identity.nextFcnt Identity.bound
  cases identity.cursor with
  | slot slot =>
      rcases LoRaWANConfig.nextFcnt_spec slot write state with
        hnone | ⟨other, hother, hissues⟩
      · exact .inl hnone
      · rw [slotOf_slot] at hother
        exact .inr (Option.some.inj hother ▸ hissues)
  | ext =>
      by_cases hzero : identity.devAddr = 0
      · rw [hzero]
        exact .inl (nextFcntForDevAddr_zero write state)
      · exact .inr (nextFcntForDevAddr_spec hzero write state)

/-- An encoded uplink carries the number that was drawn for it. -/
theorem Identity.encode_sublist (identity : Identity) (encoder : Encoder)
    (srcSync : UInt8) (srcId : UInt32) (payload : List UInt8) (issued : List Issue) :
    ((identity.encode encoder srcSync srcId payload issued).uplinks.map
      Uplink.issue).Sublist issued := by
  unfold Identity.encode
  split
  · exact List.nil_sublist issued
  · cases issued with
    | nil => exact List.nil_sublist []
    | cons issue rest =>
        simp only [List.head?_cons]
        split
        · exact List.nil_sublist _
        · split
          · exact (List.nil_sublist rest).cons_cons issue
          · exact List.nil_sublist _

/-- What an event asks of the counter that its uplink draws from. -/
def Event.Draws (encoder : Encoder) (allowed : State → Cursor → Prop) (state : State) :
    Event → Prop
  | .action (.uplink srcSync srcId _ _) | .powerLoss (some (.uplink srcSync srcId _ _)) =>
      ∀ identity ∈ encoder.identity state.ram srcSync srcId,
        allowed (identity.bound state) identity.cursor
  | _ => True

/-- No other counter is bound to the address. -/
def Alone (state : State) (cursor : Cursor) : Prop :=
  ∀ other, state.ram.address other = state.ram.address cursor → other = cursor

/-- If the counter needs a new block, no reservation of the address is above it. -/
def Current (state : State) (cursor : Cursor) : Prop :=
  (state.ram.cursor cursor).Current (state.nvs.fc (state.ram.address cursor))

instance (state : State) (cursor : Cursor) : Decidable (Alone state cursor) :=
  inferInstanceAs (Decidable (∀ _, _ → _))

instance (state : State) (cursor : Cursor) : Decidable (Current state cursor) :=
  inferInstanceAs (Decidable (Counter.Current _ _))

/-- An invariant of counters and issued numbers, and when a counter may issue. -/
structure Carries (inv : State → List Issue → Prop) (allowed : State → Cursor → Prop) :
    Prop where
  start : ∀ nvs, inv (boot nvs) []
  reload : ∀ {state next history}, inv state history → Reloads state next →
    inv next history
  issue : ∀ {state next history cursor write emitted}, inv state history →
    allowed state cursor → IssuesFrom state cursor write next emitted →
    inv next (history ++ emitted)
  restart : ∀ {state history}, inv state history → inv (boot state.nvs) history
  distinct : ∀ {state history}, inv state history → history.Nodup

section Run

variable {inv : State → List Issue → Prop} {allowed : State → Cursor → Prop}
  {encoder : Encoder}

/-- The encoded uplinks are among the numbers an invariant accounts for. -/
def Accounted (inv : State → List Issue → Prop) (state : State)
    (uplinks : List Uplink) : Prop :=
  ∃ history, inv state history ∧ (uplinks.map Uplink.issue).Sublist history

theorem Accounted.reload (hcarries : Carries inv allowed) {state next : State}
    {uplinks : List Uplink} (haccounted : Accounted inv state uplinks)
    (hreloads : Reloads state next) : Accounted inv next uplinks :=
  have ⟨history, hinv, hsublist⟩ := haccounted
  ⟨history, hcarries.reload hinv hreloads, hsublist⟩

theorem Accounted.restart (hcarries : Carries inv allowed) {state : State}
    {uplinks rest : List Uplink} (haccounted : Accounted inv state (uplinks ++ rest)) :
    Accounted inv (boot state.nvs) uplinks :=
  have ⟨history, hinv, hsublist⟩ := haccounted
  ⟨history, hcarries.restart hinv, by
    rw [List.map_append] at hsublist
    exact (List.sublist_append_left _ _).trans hsublist⟩

theorem accounted_uplink (hcarries : Carries inv allowed) {state : State}
    {uplinks : List Uplink} (haccounted : Accounted inv state uplinks)
    {srcSync : UInt8} {srcId : UInt32} (payload : List UInt8) (write : Write)
    (hallowed : ∀ identity ∈ encoder.identity state.ram srcSync srcId,
      allowed (identity.bound state) identity.cursor) :
    Accounted inv (encodeAbpUplink encoder srcSync srcId payload write state).1
      (uplinks ++
        (encodeAbpUplink encoder srcSync srcId payload write state).2.uplinks) := by
  unfold encodeAbpUplink
  cases hidentity : encoder.identity state.ram srcSync srcId with
  | none => simpa [Attempt.uplinks] using haccounted
  | some identity =>
      obtain ⟨history, hinv, hsublist⟩ := haccounted
      have hencode := identity.encode_sublist encoder srcSync srcId payload
        (identity.nextFcnt write state).2
      have hboth := hsublist.append hencode
      rw [← List.map_append] at hboth
      refine ⟨_, ?_, hboth⟩
      rcases identity.nextFcnt_spec write state with hnone | hissues
      · simpa [hnone] using hinv
      · exact hcarries.issue (hcarries.reload hinv (identity.bound_reloads state))
          (hallowed identity hidentity) hissues

theorem accounted_action (hcarries : Carries inv allowed) {state : State}
    {uplinks : List Uplink} (haccounted : Accounted inv state uplinks) (action : Action)
    (hallowed : Event.Draws encoder allowed state (.action action)) :
    Accounted inv (action.apply encoder state).1
      (uplinks ++ (action.apply encoder state).2) := by
  cases action with
  | uplink srcSync srcId payload write =>
      exact accounted_uplink hcarries haccounted payload write hallowed
  | portalSave forms write =>
      simpa [Action.apply] using
        haccounted.reload hcarries (applyLoRaWANDevices_reloads forms write state)

theorem accounted_step (hcarries : Carries inv allowed) {state : State}
    {uplinks : List Uplink} (event : Event) (haccounted : Accounted inv state uplinks)
    (hallowed : event.Draws encoder allowed state) :
    Accounted inv (step encoder state event).1
      (uplinks ++ (step encoder state event).2) := by
  cases event with
  | action action => exact accounted_action hcarries haccounted action hallowed
  | powerLoss during =>
      cases during with
      | none =>
          rw [← List.append_nil uplinks] at haccounted
          simpa [step] using haccounted.restart hcarries
      | some action =>
          have hallowed' : Event.Draws encoder allowed state (.action action) := by
            cases action <;> exact hallowed
          simpa [step] using
            (accounted_action hcarries haccounted action hallowed').restart hcarries

theorem noAliasing_of_carries (hcarries : Carries inv allowed) (nvs : Nvs)
    (events : List Event)
    (hdraws : Along (step encoder) (fun state event => event.Draws encoder allowed state)
      (boot nvs) events) :
    NoAliasing (run (step encoder) (boot nvs) events).2 := by
  have haccounted : Accounted inv (boot nvs) [] :=
    ⟨[], hcarries.start nvs, List.nil_sublist []⟩
  obtain ⟨history, hinv, hsublist⟩ := invariant_run
    (fun _ _ event hstate hallowed => accounted_step hcarries event hstate hallowed)
    events haccounted hdraws
  exact hsublist.nodup (hcarries.distinct hinv)

end Run

end LoraBridge.AbpUplinks
