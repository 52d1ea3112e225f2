import LoraBridge.Codec.Cipher
import LoraBridge.Codec.FieldWalk
import Mathlib.Data.Vector.Basic

/-!
# The Meshtastic extractors

`extractMeshtasticBody`, `extractMeshtasticNodeInfo`, `extractMeshtasticPosition`
and `extractMeshtasticTelemetry`.  The four open with the same header checks,
the same decryption and the same walk over the Data message, written out four
times in the source; each is one definition here.  The loops over the User,
Position, Telemetry and metrics messages are their own.
-/

namespace LoraBridge.MeshtasticDecoder

open LoraBridge.Memory LoraBridge.Protobuf LoraBridge.Cipher LoraBridge.FieldWalk

/-- Per-radio channel context. -/
structure RadioChannel where
  protocol : UInt8
  key : List.Vector UInt8 32
  keyLen : UInt8
  channelHash : UInt8

/-- The key bytes given to `mbedtls_aes_setkey_enc(&aes, ch.key, ch.keyLen * 8)`. -/
def RadioChannel.aesKey (ch : RadioChannel) : List UInt8 :=
  ch.key.toList.take ch.keyLen.toNat

/-- `[packet_id:4 LE][00 00 00 00][src:4 LE][00 00 00 00]`. -/
def nonce (pid src : UInt32) : List UInt8 :=
  wordBytes pid ++ [0, 0, 0, 0] ++ wordBytes src ++ [0, 0, 0, 0]

/-- CTR over the ciphertext of one packet, from an empty stream block. -/
def cryptPacket (aes : BlockCipher) (ch : RadioChannel) (pid src : UInt32)
    (text : List UInt8) : List UInt8 :=
  aes.cryptCtr ch.aesKey 0 (nonce pid src) (List.replicate 16 0) text

/-- The head of every extractor: header checks, then `pt[240]`.  `none` is
`return false`. -/
def decryptData (aes : BlockCipher) (ch : RadioChannel) (buf : Pointer) (len : ℕ) :
    Except Halt (Option (UInt32 × List UInt8)) :=
  if len < 17 then .ok none
  else do
    let channelHash ← buf 13
    if channelHash ≠ ch.channelHash then .ok none
    else do
      let src ← word32 buf 4
      let pid ← word32 buf 8
      let ctLen := len - 16
      if 240 < ctLen then .ok none
      else do
        let ct ← readRange buf 16 ctLen
        let pt ← intoBuffer 240 (cryptPacket aes ch pid src ct)
        .ok (some (src, pt))

/-- The 16-byte transport header. -/
def transportHeader (dest src pid : UInt32) (flags channelHash nextHop relayNode : UInt8) :
    List UInt8 :=
  wordBytes dest ++ wordBytes src ++ wordBytes pid ++
    [flags, channelHash, nextHop, relayNode]

/-- A frame on the channel is opened to its sender and plaintext, whatever its
routing fields are. -/
theorem decryptData_transportHeader (aes : BlockCipher) (ch : RadioChannel)
    (dest src pid : UInt32) (flags nextHop relayNode : UInt8) (text : List UInt8)
    (hshort : text ≠ []) (hlong : text.length ≤ 240) {frame : List UInt8}
    (hframe : frame =
      transportHeader dest src pid flags ch.channelHash nextHop relayNode ++ text) :
    decryptData aes ch (Pointer.ofList frame) frame.length =
      .ok (some (src, cryptPacket aes ch pid src text)) := by
  have hpos : 0 < text.length := List.length_pos_iff.mpr hshort
  have hlength : frame.length = 16 + text.length := by
    rw [hframe, List.length_append]
    rfl
  have hhash : Pointer.ofList frame 13 = .ok ch.channelHash := by
    simp [Pointer.ofList, hframe, transportHeader, wordBytes]
  have hsrc : word32 (Pointer.ofList frame) 4 = .ok src := by
    rw [hframe, transportHeader, List.append_assoc (wordBytes dest),
      List.append_assoc (wordBytes dest), List.append_assoc (wordBytes dest),
      List.append_assoc (wordBytes src), List.append_assoc (wordBytes src)]
    exact word32_wordBytes (wordBytes dest) src _
  have hpid : word32 (Pointer.ofList frame) 8 = .ok pid := by
    rw [hframe, transportHeader, List.append_assoc (wordBytes dest ++ wordBytes src),
      List.append_assoc (wordBytes dest ++ wordBytes src), List.append_assoc (wordBytes pid)]
    exact word32_wordBytes (wordBytes dest ++ wordBytes src) pid _
  have htext : readRange (Pointer.ofList frame) 16 (frame.length - 16) = .ok text := by
    rw [readRange_ofList _ _ (by omega), hlength, Nat.add_sub_cancel_left, hframe,
      List.drop_left' (by simp [transportHeader, wordBytes]), List.take_length]
  have hbuffer : intoBuffer 240 (cryptPacket aes ch pid src text) =
      .ok (cryptPacket aes ch pid src text) := if_pos (by simpa [cryptPacket] using hlong)
  unfold decryptData
  rw [if_neg (by omega), hhash, hsrc, hpid]
  simp only [bind, Except.bind, ne_eq, not_true_eq_false, if_false]
  rw [if_neg (by omega), htext]
  simp only [hbuffer]

/-! ## The Data message -/

structure DataState where
  pos : ℕ
  portnum : ℕ
  payload : Option Slice
  deriving DecidableEq, Repr

def DataState.start : DataState := ⟨0, 0, none⟩

def dataBody (pt : Pointer) (ctLen : ℕ) (state : DataState) :
    Except Halt DataState := do
  let (fieldNum, wireType, pos) ← pbTag pt ctLen state.pos
  if fieldNum = 1 ∧ wireType = 0 then do
    let (v, pos) ← pbVarint pt ctLen pos
    .ok { state with pos := pos, portnum := v % 2 ^ 32 }
  else if fieldNum = 2 ∧ wireType = 2 then do
    let (payload, pos) ← takeSlice pt ctLen pos
    .ok { state with pos := pos, payload := some payload }
  else do
    let pos ← pbSkip pt ctLen pos wireType
    .ok { state with pos := pos }

/-- What one field does to the walk over Data. -/
def DataState.read (state : DataState) (field : Field) : DataState where
  pos := field.next
  portnum :=
    if field.number = 1 ∧ field.wireType = 0 then field.value % 2 ^ 32
    else state.portnum
  payload :=
    if field.number = 2 ∧ field.wireType = 2 then some field.slice
    else state.payload

theorem dataBody_eq (pt : Pointer) (ctLen : ℕ) (state : DataState) :
    dataBody pt ctLen state =
      parseField pt ctLen state.pos >>= fun field => .ok (state.read field) := by
  unfold dataBody parseField
  rw [bind_assoc]
  refine bind_congr fun ⟨fieldNum, wireType, pos⟩ => ?_
  dsimp only
  by_cases hport : fieldNum = 1 ∧ wireType = 0
  · obtain ⟨rfl, rfl⟩ := hport
    exact pbVarint_bind fun v r => by simp [DataState.read]
  by_cases hpayload : fieldNum = 2 ∧ wireType = 2
  · obtain ⟨rfl, rfl⟩ := hpayload
    exact takeSlice_bind fun v r => by simp [DataState.read, Field.slice]
  · rw [if_neg hport, if_neg hpayload]
    exact pbSkip_bind fun field hnumber hwire => by
      simp [DataState.read, hnumber, hwire, hport, hpayload]

/-- The loop over the Data message, the same in all four extractors. -/
def dataWalk (pt : Pointer) (ctLen : ℕ) : FieldWalk pt ctLen DataState where
  cursor := DataState.pos
  body := dataBody pt ctLen
  apply state field := .ok (state.read field)
  body_eq := dataBody_eq pt ctLen
  cursor_apply hread := by
    simp only [Except.ok.injEq] at hread
    exact hread ▸ rfl

/-! ## What a Data message declares

The same two values, read off the list of its fields. -/

def isPortnum (field : Field) : Bool :=
  field.number == 1 && field.wireType == 0

def isPayload (field : Field) : Bool :=
  field.number == 2 && field.wireType == 2

/-- The last portnum of the message, 0 without one. -/
def declaredPortnum (fields : List Field) : ℕ :=
  match fields.reverse.find? isPortnum with
  | some field => field.value % 2 ^ 32
  | none => 0

/-- The last payload of the message. -/
def declaredPayload (fields : List Field) : Option Slice :=
  (fields.reverse.find? isPayload).map Field.slice

theorem read_portnum_payload (fields : List Field) :
    (fields.foldl DataState.read .start).portnum = declaredPortnum fields ∧
      (fields.foldl DataState.read .start).payload = declaredPayload fields := by
  induction fields using List.reverseRecOn with
  | nil => exact ⟨rfl, rfl⟩
  | append_singleton fields field ih =>
      rw [List.foldl_append, List.foldl_cons, List.foldl_nil]
      unfold declaredPortnum declaredPayload at ih ⊢
      rw [List.reverse_append, List.reverse_singleton, List.singleton_append,
        List.find?_cons, List.find?_cons]
      constructor
      · by_cases hport : field.number = 1 ∧ field.wireType = 0
        · simp [DataState.read, isPortnum, hport]
        · have hnot : isPortnum field = false := by simpa [isPortnum] using hport
          simp only [DataState.read, hport, hnot, if_false, ih.1]
      · by_cases hpayload : field.number = 2 ∧ field.wireType = 2
        · simp [DataState.read, isPayload, hpayload]
        · have hnot : isPayload field = false := by simpa [isPayload] using hpayload
          simp only [DataState.read, hpayload, hnot, if_false, ih.2]

theorem foldlM_dataWalk (pt : Pointer) (ctLen : ℕ) (fields : List Field)
    (state : DataState) :
    fields.foldlM (dataWalk pt ctLen).apply state =
      .ok (fields.foldl DataState.read state) := by
  induction fields generalizing state with
  | nil => rfl
  | cons field fields ih => exact ih (state.read field)

theorem dataWalk_uniform (pt : Pointer) (ctLen : ℕ) : Uniform (dataWalk pt ctLen) :=
  fun _ right field _ _ => ⟨right.read field, rfl⟩

/-! ## The User message -/

structure UserState where
  up : ℕ
  longName : List UInt8
  shortName : List UInt8
  deriving DecidableEq, Repr

def UserState.start : UserState := ⟨0, [], []⟩

/-- `copy = slen < cap - 1 ? slen : cap - 1; memcpy(out, payload + up, copy);
out[copy] = 0`. -/
def copyName (payload : Pointer) (up slen cap : ℕ) : Except Halt (List UInt8) := do
  let name ← readRange payload up (min slen (cap - 1))
  intoCString cap name

def userBody (longCap shortCap : ℕ) (payload : Pointer) (payloadLen : ℕ)
    (state : UserState) : Except Halt UserState := do
  let (field, wt, up) ← pbTag payload payloadLen state.up
  if wt = 2 then do
    let (slen, up) ← pbLength payload payloadLen up
    if field = 2 ∧ 1 < longCap then do
      let longName ← copyName payload up slen longCap
      .ok { state with up := addLength up slen, longName := longName }
    else if field = 3 ∧ 1 < shortCap then do
      let shortName ← copyName payload up slen shortCap
      .ok { state with up := addLength up slen, shortName := shortName }
    else .ok { state with up := addLength up slen }
  else do
    let up ← pbSkip payload payloadLen up wt
    .ok { state with up := up }

/-- What one field does to the walk over User. -/
def UserState.read (longCap shortCap : ℕ) (payload : Pointer) (state : UserState)
    (field : Field) : Except Halt UserState :=
  if field.wireType = 2 ∧ field.number = 2 ∧ 1 < longCap then do
    let longName ← copyName payload field.content field.value longCap
    .ok { state with up := field.next, longName := longName }
  else if field.wireType = 2 ∧ field.number = 3 ∧ 1 < shortCap then do
    let shortName ← copyName payload field.content field.value shortCap
    .ok { state with up := field.next, shortName := shortName }
  else .ok { state with up := field.next }

theorem userBody_eq (longCap shortCap : ℕ) (payload : Pointer) (payloadLen : ℕ)
    (state : UserState) :
    userBody longCap shortCap payload payloadLen state =
      parseField payload payloadLen state.up >>=
        state.read longCap shortCap payload := by
  unfold userBody parseField
  rw [bind_assoc]
  refine bind_congr fun ⟨field, wt, up⟩ => ?_
  dsimp only
  by_cases hwire : wt = 2
  · subst hwire
    refine pbLength_bind fun v r => ?_
    simp only [UserState.read, true_and]
  · rw [if_neg hwire]
    exact pbSkip_bind fun field hnumber hwt => by
      simp [UserState.read, hwt, hwire]

theorem UserState.up_of_read {longCap shortCap : ℕ} {payload : Pointer}
    {state next : UserState} {field : Field}
    (hread : state.read longCap shortCap payload field = .ok next) :
    next.up = field.next := by
  unfold UserState.read at hread
  split at hread
  · obtain ⟨name, -, hnext⟩ := bind_eq_ok.mp hread
    cases hnext
    rfl
  · split at hread
    · obtain ⟨name, -, hnext⟩ := bind_eq_ok.mp hread
      cases hnext
      rfl
    · cases hread
      rfl

/-- The loop over the User message. -/
def userWalk (longCap shortCap : ℕ) (payload : Pointer) (payloadLen : ℕ) :
    FieldWalk payload payloadLen UserState where
  cursor := UserState.up
  body := userBody longCap shortCap payload payloadLen
  apply state := state.read longCap shortCap payload
  body_eq := userBody_eq longCap shortCap payload payloadLen
  cursor_apply := UserState.up_of_read

/-! ## The Position message -/

structure MeshtasticPositionInfo where
  latI : Option UInt32
  lonI : Option UInt32
  altM : Option UInt32
  timeUnix : Option UInt32
  deriving DecidableEq, Repr

structure PositionState where
  p : ℕ
  out : MeshtasticPositionInfo
  deriving DecidableEq, Repr

def PositionState.start : PositionState := ⟨0, ⟨none, none, none, none⟩⟩

def positionBody (payload : Pointer) (payloadLen : ℕ) (state : PositionState) :
    Except Halt PositionState := do
  let (field, wt, p) ← pbTag payload payloadLen state.p
  if field = 1 ∧ wt = 5 then do
    let (v, p) ← pbReadFixed32 payload payloadLen p
    .ok { state with p := p, out := { state.out with latI := some v } }
  else if field = 2 ∧ wt = 5 then do
    let (v, p) ← pbReadFixed32 payload payloadLen p
    .ok { state with p := p, out := { state.out with lonI := some v } }
  else if field = 3 ∧ wt = 0 then do
    let (v, p) ← pbVarint payload payloadLen p
    .ok { state with p := p, out := { state.out with altM := some (UInt32.ofNat v) } }
  else if field = 4 ∧ wt = 5 then do
    let (v, p) ← pbReadFixed32 payload payloadLen p
    .ok { state with p := p, out := { state.out with timeUnix := some v } }
  else if field = 7 ∧ wt = 5 ∧ state.out.timeUnix = none then do
    let (v, p) ← pbReadFixed32 payload payloadLen p
    .ok { state with p := p, out := { state.out with timeUnix := some v } }
  else do
    let p ← pbSkip payload payloadLen p wt
    .ok { state with p := p }

/-- What one field does to the walk over Position. -/
def PositionState.read (payload : Pointer) (state : PositionState)
    (field : Field) : Except Halt PositionState :=
  if field.number = 1 ∧ field.wireType = 5 then do
    let v ← word32 payload field.content
    .ok { state with p := field.next, out := { state.out with latI := some v } }
  else if field.number = 2 ∧ field.wireType = 5 then do
    let v ← word32 payload field.content
    .ok { state with p := field.next, out := { state.out with lonI := some v } }
  else if field.number = 3 ∧ field.wireType = 0 then
    .ok { state with
      p := field.next,
      out := { state.out with altM := some (UInt32.ofNat field.value) } }
  else if field.number = 4 ∧ field.wireType = 5 then do
    let v ← word32 payload field.content
    .ok { state with p := field.next, out := { state.out with timeUnix := some v } }
  else if field.number = 7 ∧ field.wireType = 5 ∧ state.out.timeUnix = none then do
    let v ← word32 payload field.content
    .ok { state with p := field.next, out := { state.out with timeUnix := some v } }
  else .ok { state with p := field.next }

theorem positionBody_eq (payload : Pointer) (payloadLen : ℕ)
    (state : PositionState) :
    positionBody payload payloadLen state =
      parseField payload payloadLen state.p >>= state.read payload := by
  unfold positionBody parseField
  rw [bind_assoc]
  refine bind_congr fun ⟨field, wt, p⟩ => ?_
  dsimp only
  by_cases hlat : field = 1 ∧ wt = 5
  · obtain ⟨rfl, rfl⟩ := hlat
    exact pbReadFixed32_bind fun field hnumber hwire => by
      simp [PositionState.read, hnumber, hwire]
  by_cases hlon : field = 2 ∧ wt = 5
  · obtain ⟨rfl, rfl⟩ := hlon
    exact pbReadFixed32_bind fun field hnumber hwire => by
      simp [PositionState.read, hnumber, hwire]
  by_cases halt : field = 3 ∧ wt = 0
  · obtain ⟨rfl, rfl⟩ := halt
    exact pbVarint_bind fun v r => by simp [PositionState.read]
  by_cases htime : field = 4 ∧ wt = 5
  · obtain ⟨rfl, rfl⟩ := htime
    exact pbReadFixed32_bind fun field hnumber hwire => by
      simp [PositionState.read, hnumber, hwire]
  rw [if_neg hlat, if_neg hlon, if_neg halt, if_neg htime]
  by_cases hstamp : field = 7 ∧ wt = 5 ∧ state.out.timeUnix = none
  · obtain ⟨rfl, rfl, hnone⟩ := hstamp
    rw [if_pos ⟨rfl, rfl, hnone⟩]
    exact pbReadFixed32_bind fun field hnumber hwire => by
      simp [PositionState.read, hnumber, hwire, hnone]
  · rw [if_neg hstamp]
    exact pbSkip_bind fun field hnumber hwire => by
      simp [PositionState.read, hnumber, hwire, hlat, hlon, halt, htime, hstamp]

theorem PositionState.p_of_read {payload : Pointer} {state next : PositionState}
    {field : Field} (hread : state.read payload field = .ok next) :
    next.p = field.next := by
  unfold PositionState.read at hread
  split_ifs at hread
  all_goals
    first
    | obtain ⟨v, -, hnext⟩ := bind_eq_ok.mp hread
      cases hnext
      rfl
    | cases hread
      rfl

/-- The loop over the Position message. -/
def positionWalk (payload : Pointer) (payloadLen : ℕ) :
    FieldWalk payload payloadLen PositionState where
  cursor := PositionState.p
  body := positionBody payload payloadLen
  apply state := state.read payload
  body_eq := positionBody_eq payload payloadLen
  cursor_apply := PositionState.p_of_read

/-! ## The Telemetry message and its metrics submessages -/

inductive Kind where
  | none
  | device
  | environment
  | other
  deriving DecidableEq, Repr

/-- The floats are kept as the words `pbFixed32AsFloat` reinterprets. -/
structure MeshtasticTelemetryInfo where
  kind : Kind
  batteryPct : Option UInt32
  voltage : Option UInt32
  tempC : Option UInt32
  rhPct : Option UInt32
  pressureHpa : Option UInt32
  deriving DecidableEq, Repr

def MeshtasticTelemetryInfo.empty : MeshtasticTelemetryInfo where
  kind := .none
  batteryPct := Option.none
  voltage := Option.none
  tempC := Option.none
  rhPct := Option.none
  pressureHpa := Option.none

/-- Where a metrics message stores the float of a field, if it does. -/
abbrev Store :=
  ℕ → Option (UInt32 → MeshtasticTelemetryInfo → MeshtasticTelemetryInfo)

def deviceMetrics : Store
  | 1 => some fun v out => { out with batteryPct := some v }
  | 2 => some fun v out => { out with voltage := some v }
  | _ => Option.none

def environmentMetrics : Store
  | 1 => some fun v out => { out with tempC := some v }
  | 2 => some fun v out => { out with rhPct := some v }
  | 3 => some fun v out => { out with pressureHpa := some v }
  | _ => Option.none

structure MetricsState where
  sp : ℕ
  out : MeshtasticTelemetryInfo
  deriving DecidableEq, Repr

/-- The setter a tag selects: fixed32 fields the message knows. -/
def Store.select (store : Store) (number wireType : ℕ) :
    Option (UInt32 → MeshtasticTelemetryInfo → MeshtasticTelemetryInfo) :=
  if wireType = 5 then store number else Option.none

def metricsBody (store : Store) (sb : Pointer) (sn : ℕ) (state : MetricsState) :
    Except Halt MetricsState := do
  let (sf, sw, sp) ← pbTag sb sn state.sp
  match store.select sf sw with
  | some set => do
      let (v, sp) ← pbReadFixed32 sb sn sp
      .ok ⟨sp, set v state.out⟩
  | Option.none => do
      let sp ← pbSkip sb sn sp sw
      .ok ⟨sp, state.out⟩

/-- What one field does to the walk over a metrics message. -/
def MetricsState.read (store : Store) (sb : Pointer) (state : MetricsState)
    (field : Field) : Except Halt MetricsState :=
  match store.select field.number field.wireType with
  | some set => do
      let v ← word32 sb field.content
      .ok ⟨field.next, set v state.out⟩
  | Option.none => .ok ⟨field.next, state.out⟩

theorem metricsBody_eq (store : Store) (sb : Pointer) (sn : ℕ)
    (state : MetricsState) :
    metricsBody store sb sn state =
      parseField sb sn state.sp >>= state.read store sb := by
  unfold metricsBody parseField
  rw [bind_assoc]
  refine bind_congr fun ⟨sf, sw, sp⟩ => ?_
  dsimp only
  cases hselect : store.select sf sw with
  | none =>
      exact pbSkip_bind fun field hnumber hwire => by
        simp [MetricsState.read, hnumber, hwire, hselect]
  | some set =>
      obtain rfl : sw = 5 := by
        by_contra hwire
        simp [Store.select, hwire] at hselect
      exact pbReadFixed32_bind fun field hnumber hwire => by
        simp [MetricsState.read, hnumber, hwire, hselect]

theorem MetricsState.sp_of_read {store : Store} {sb : Pointer}
    {state next : MetricsState} {field : Field}
    (hread : state.read store sb field = .ok next) : next.sp = field.next := by
  unfold MetricsState.read at hread
  split at hread
  · obtain ⟨v, -, hnext⟩ := bind_eq_ok.mp hread
    cases hnext
    rfl
  · cases hread
    rfl

/-- The loop over a DeviceMetrics or EnvironmentMetrics submessage. -/
def metricsWalk (store : Store) (sb : Pointer) (sn : ℕ) :
    FieldWalk sb sn MetricsState where
  cursor := MetricsState.sp
  body := metricsBody store sb sn
  apply state := state.read store sb
  body_eq := metricsBody_eq store sb sn
  cursor_apply := MetricsState.sp_of_read

/-- A metrics loop as the Telemetry loop runs it; malformed bytes end it. -/
def metricsLoop (store : Store) (sb : Pointer) (sn : ℕ)
    (out : MeshtasticTelemetryInfo) : Except Halt MeshtasticTelemetryInfo := do
  let state ← resumed (loop (metricsWalk store sb sn) ⟨0, out⟩)
  .ok state.out

structure TelemetryState where
  p : ℕ
  out : MeshtasticTelemetryInfo
  deriving DecidableEq, Repr

def TelemetryState.start : TelemetryState := ⟨0, .empty⟩

/-- The submessages the Telemetry loop descends into: the kind it records and
where the floats go. -/
def submessage (number wireType : ℕ) : Option (Kind × Store) :=
  if number = 2 ∧ wireType = 2 then some (.device, deviceMetrics)
  else if number = 3 ∧ wireType = 2 then some (.environment, environmentMetrics)
  else Option.none

/-- Whether a field is one of air_quality, power, local_stats and health. -/
def skippedVariant (number wireType : ℕ) : Prop :=
  4 ≤ number ∧ number ≤ 7 ∧ wireType = 2

instance (number wireType : ℕ) : Decidable (skippedVariant number wireType) :=
  inferInstanceAs (Decidable (_ ∧ _ ∧ _))

def telemetryBody (payload : Pointer) (payloadLen : ℕ) (state : TelemetryState) :
    Except Halt TelemetryState := do
  let (field, wt, p) ← pbTag payload payloadLen state.p
  match submessage field wt with
  | some (kind, store) => do
      let (slice, p) ← takeSlice payload payloadLen p
      let out ← metricsLoop store (slice.pointer payload) slice.length
        { state.out with kind := kind }
      .ok ⟨p, out⟩
  | Option.none =>
      if skippedVariant field wt then do
        let (_, p) ← takeSlice payload payloadLen p
        .ok ⟨p, if state.out.kind = .none then { state.out with kind := .other }
          else state.out⟩
      else do
        let p ← pbSkip payload payloadLen p wt
        .ok ⟨p, state.out⟩

/-- What one field does to the walk over Telemetry. -/
def TelemetryState.read (payload : Pointer) (state : TelemetryState)
    (field : Field) : Except Halt TelemetryState :=
  match submessage field.number field.wireType with
  | some (kind, store) => do
      let out ← metricsLoop store (field.slice.pointer payload) field.slice.length
        { state.out with kind := kind }
      .ok ⟨field.next, out⟩
  | Option.none =>
      .ok ⟨field.next,
        if skippedVariant field.number field.wireType ∧ state.out.kind = .none then
          { state.out with kind := .other }
        else state.out⟩

theorem submessage_wireType {number wireType : ℕ} {target : Kind × Store}
    (htarget : submessage number wireType = some target) : wireType = 2 := by
  unfold submessage at htarget
  split_ifs at htarget with hdevice henvironment
  · exact hdevice.2
  · exact henvironment.2

theorem telemetryBody_eq (payload : Pointer) (payloadLen : ℕ)
    (state : TelemetryState) :
    telemetryBody payload payloadLen state =
      parseField payload payloadLen state.p >>= state.read payload := by
  unfold telemetryBody parseField
  rw [bind_assoc]
  refine bind_congr fun ⟨field, wt, p⟩ => ?_
  dsimp only
  cases htarget : submessage field wt with
  | some target =>
      obtain rfl := submessage_wireType htarget
      exact takeSlice_bind fun v r => by
        simp only [TelemetryState.read, htarget, Field.slice]
  | none =>
      by_cases hskip : skippedVariant field wt
      · obtain rfl := hskip.2.2
        simp only [hskip, if_true]
        exact takeSlice_bind fun v r => by
          simp [TelemetryState.read, htarget, hskip]
      · simp only [hskip, if_false]
        exact pbSkip_bind fun field hnumber hwire => by
          simp [TelemetryState.read, hnumber, hwire, htarget, hskip]

theorem TelemetryState.p_of_read {payload : Pointer} {state next : TelemetryState}
    {field : Field} (hread : state.read payload field = .ok next) :
    next.p = field.next := by
  unfold TelemetryState.read at hread
  split at hread
  · obtain ⟨out, -, hnext⟩ := bind_eq_ok.mp hread
    cases hnext
    rfl
  · cases hread
    rfl

/-- The loop over the Telemetry message. -/
def telemetryWalk (payload : Pointer) (payloadLen : ℕ) :
    FieldWalk payload payloadLen TelemetryState where
  cursor := TelemetryState.p
  body := telemetryBody payload payloadLen
  apply state := state.read payload
  body_eq := telemetryBody_eq payload payloadLen
  cursor_apply := TelemetryState.p_of_read

/-! ## The four extractors -/

/-- An extractor with the capacities of the caller's arrays. -/
inductive Extractor where
  | body (bodyOutCap : ℕ)
  | nodeInfo (shortCap longCap : ℕ)
  | position
  | telemetry
  deriving DecidableEq, Repr

/-- The port number each of them asks for. -/
def Extractor.port : Extractor → ℕ
  | .body _ => 1
  | .nodeInfo _ _ => 4
  | .position => 3
  | .telemetry => 67

section Extractors

variable (aes : BlockCipher) (ch : RadioChannel) (buf : Pointer) (len : ℕ)

/-- Where the walk over Data left off; malformed bytes end it. -/
def dataLoop (pt : Pointer) (ctLen : ℕ) : Except Halt DataState :=
  resumed (loop (dataWalk pt ctLen) .start)

/-- The walk over Data goes on exactly when the message has an end. -/
theorem dataLoop_eq_ok {pt : Pointer} {ctLen : ℕ} {state : DataState} :
    dataLoop pt ctLen = .ok state ↔
      ∃ fields, Message pt ctLen 0 fields ∧
        fields.foldl DataState.read .start = state := by
  unfold dataLoop
  rw [resumed_loop_eq_ok (dataWalk_uniform pt ctLen)
    (fun state field hfail => by cases hfail)]
  refine exists_congr fun fields => and_congr_right fun _ => ?_
  rw [foldlM_dataWalk, Except.ok.injEq]

/-- `if (portnum != port || !payload || payloadLen == 0) return false`. -/
def payloadFor (port portnum : ℕ) (payload : Option Slice) : Option Slice :=
  if portnum ≠ port then none
  else payload.filter fun payload => payload.length ≠ 0

/-- What the extractors have in common: decrypt, walk over Data, check the port
number, then `use` the payload.  `refused` is what an early `return false`
leaves in the outputs. -/
def extractPayload {Result : Type} (port : ℕ) (refused : Result)
    (use : UInt32 → List UInt8 → Slice → Except Halt Result) : Except Halt Result := do
  match ← decryptData aes ch buf len with
  | none => .ok refused
  | some (src, pt) => do
      let state ← dataLoop (Pointer.ofList pt) pt.length
      match payloadFor port state.portnum state.payload with
      | none => .ok refused
      | some payload => use src pt payload

/-- `memcpy(bodyOut, payload, copyLen); bodyOut[copyLen] = 0`. -/
def copyBody (bodyOutCap : ℕ) (pt : List UInt8) (payload : Slice) :
    Except Halt (List UInt8) := do
  let body ← readRange (Pointer.ofList pt) payload.offset
    (min payload.length (bodyOutCap - 1))
  intoCString bodyOutCap body

def extractMeshtasticBody (bodyOutCap : ℕ) : Except Halt (Option (List UInt8)) :=
  if bodyOutCap < 2 then .ok none
  else extractPayload aes ch buf len 1 none fun _ pt payload => do
    let body ← copyBody bodyOutCap pt payload
    .ok (some body)

/-- The caller's three outputs. -/
structure NodeInfo where
  outNodeId : UInt32
  shortName : List UInt8
  longName : List UInt8
  deriving DecidableEq, Repr

def extractMeshtasticNodeInfo (shortCap longCap : ℕ) : Except Halt (Bool × NodeInfo) :=
  extractPayload aes ch buf len 4 (false, ⟨0, [], []⟩) fun src pt payload => do
    let (complete, user) ← returned (loop (userWalk longCap shortCap
      (payload.pointer (Pointer.ofList pt)) payload.length) .start)
    .ok (complete, ⟨if complete then src else 0, user.shortName, user.longName⟩)

def extractMeshtasticPosition : Except Halt (Bool × MeshtasticPositionInfo) :=
  extractPayload aes ch buf len 3 (false, PositionState.start.out) fun _ pt payload => do
    let (complete, position) ← returned (loop
      (positionWalk (payload.pointer (Pointer.ofList pt)) payload.length) .start)
    .ok (complete && (position.out.latI.isSome || position.out.lonI.isSome ||
      position.out.altM.isSome), position.out)

def extractMeshtasticTelemetry : Except Halt (Bool × MeshtasticTelemetryInfo) :=
  extractPayload aes ch buf len 67 (false, .empty) fun _ pt payload => do
    let (complete, telemetry) ← returned (loop
      (telemetryWalk (payload.pointer (Pointer.ofList pt)) payload.length) .start)
    .ok (complete && (telemetry.out.kind == .device ||
      telemetry.out.kind == .environment), telemetry.out)

end Extractors

end LoraBridge.MeshtasticDecoder
