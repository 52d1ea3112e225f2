import LoraBridge.Dispatch.Enqueue

/-!
# What is queued for a destination

Every function that queues something for one destination sends packets of a few forms, with
what is recorded for each, and touches no other queue.
-/

namespace LoraBridge.Sends

open LoraBridge.Bridge LoraBridge.BridgeConfig LoraBridge.Enqueue LoraBridge.Memory
open LoraBridge.MeshEncoder LoraBridge.Program

/-! ## Steps that are not seen -/

/-- Nothing is seen, and neither queues nor frame counters nor the dedup cache change. -/
def still : Contract State Event where
  holds first outputs last := outputs = [] ∧ last.queue = first.queue ∧
    last.lorawan = first.lorawan ∧ last.dedup = first.dedup
  nil _ := ⟨rfl, rfl, rfl, rfl⟩
  append hbefore hafter :=
    ⟨List.append_eq_nil_iff.mpr ⟨hbefore.1, hafter.1⟩, hafter.2.1.trans hbefore.2.1,
      hafter.2.2.1.trans hbefore.2.2.1, hafter.2.2.2.trans hbefore.2.2.2⟩

section Still

variable {bridge : Config} {env : Env} {src dest : Radio}

theorem still_modify {change : State → State}
    (hqueue : ∀ state, (change state).queue = state.queue)
    (hlorawan : ∀ state, (change state).lorawan = state.lorawan)
    (hdedup : ∀ state, (change state).dedup = state.dedup) :
    (modify change : Dispatch Unit).Respects still :=
  respects_modify fun state => ⟨rfl, hqueue state, hlorawan state, hdedup state⟩

theorem still_ask : ask.Respects still :=
  respects_bind (respects_read _) fun _ =>
    respects_bind (still_modify (fun _ => rfl) (fun _ => rfl) fun _ => rfl) fun _ =>
      respects_pure _

theorem still_millis : (millis env).Respects still :=
  respects_bind still_ask fun _ => respects_pure _

theorem still_espRandom : (espRandom env).Respects still :=
  respects_bind still_ask fun _ => respects_pure _

theorem still_nvsWrite : (nvsWrite env).Respects still :=
  respects_bind still_ask fun _ => respects_pure _

theorem still_learnClock (ts : UInt32) : (learnClock env ts).Respects still :=
  respects_ite (fun _ => respects_pure _) fun _ =>
    respects_bind still_millis fun _ =>
      still_modify (fun _ => rfl) (fun _ => rfl) fun _ => rfl

theorem still_bridgeNowUnix : (bridgeNowUnix env).Respects still :=
  respects_bind (respects_read _) fun _ => respects_ite (fun _ => respects_pure _) fun _ =>
    respects_bind still_millis fun _ => respects_pure _

theorem still_meshtasticPacket (dstSrcId : UInt32) (outBody : List UInt8) :
    (meshtasticPacket bridge env dest dstSrcId outBody).Respects still :=
  respects_bind still_espRandom fun _ => respects_pure _

theorem still_meshCorePacket (outBody : List UInt8) :
    (meshCorePacket bridge env dest outBody).Respects still :=
  respects_bind still_bridgeNowUnix fun _ => respects_pure _

theorem still_fragmentPacket (body : List UInt8) :
    (fragmentPacket bridge env dest body).Respects still :=
  respects_ite (fun _ => still_meshtasticPacket _ _) fun _ => still_meshCorePacket _

theorem still_meshCoreBody (srcId : UInt32) (body : List UInt8) :
    (meshCoreBody bridge env src srcId body).Respects still := by
  refine respects_ite (fun _ => respects_bind ?_ fun _ => respects_pure _)
    fun _ => respects_pure _
  exact respects_bind still_millis fun _ => respects_bind (respects_read _) fun _ =>
    respects_bind (still_modify (fun _ => rfl) (fun _ => rfl) fun _ => rfl) fun _ =>
      respects_pure _

end Still

/-! ## Sends -/

/-- Which packets may go to which queue, with what is recorded for them. -/
abbrev Allowed := Kind → Radio → List UInt8 → Option Content → Prop

/-- Nothing is seen but allowed sends, and a queue without one stays as it is. -/
def sendsOnly (allowed : Allowed) : Contract State Event where
  holds first outputs last :=
    (∀ event ∈ outputs, ∃ kind dest frame content,
        event = .sent kind dest frame content ∧ allowed kind dest frame content) ∧
      ∀ j, (∀ kind frame content, .sent kind j frame content ∉ outputs) →
        last.queue j = first.queue j
  nil _ := ⟨fun _ hmem => absurd hmem List.not_mem_nil, fun _ _ => rfl⟩
  append hbefore hafter := by
    refine ⟨fun event hmem => ?_, fun j hnone => ?_⟩
    · exact (List.mem_append.mp hmem).elim (hbefore.1 event) (hafter.1 event)
    · have hfirst := hbefore.2 j fun kind frame content hmem =>
        hnone kind frame content (List.mem_append_left _ hmem)
      have hsecond := hafter.2 j fun kind frame content hmem =>
        hnone kind frame content (List.mem_append_right _ hmem)
      exact hsecond.trans hfirst

/-- The packets that are encoded for a destination. -/
inductive Packed (bridge : Config) (dest : Radio) : Kind → List UInt8 → Option Content → Prop
  | meshtastic {kind : Kind} (hkind : kind = .text ∨ kind = .fragment)
      (hprotocol : (bridge.chan dest).protocol = SYNC_WORD_MESHTASTIC)
      {body frame : List UInt8} {srcId random pid : UInt32} (hbody : 0 ∉ body)
      (hencode : encodeMeshtasticText bridge.aes (bridge.chan dest) srcId body 256 random =
        some (frame, pid)) : Packed bridge dest kind frame (some ⟨body, srcId, pid⟩)
  | meshCore {kind : Kind} (hkind : kind = .text ∨ kind = .fragment)
      (hprotocol : (bridge.chan dest).protocol = SYNC_WORD_MESHCORE)
      {body frame : List UInt8} {ts : UInt32} (hbody : 0 ∉ body)
      (hencode : encodeMeshCoreGrpTxt bridge.aes bridge.hmac (bridge.chan dest) body ts 256 =
        some frame) : Packed bridge dest kind frame (some ⟨body, 0, 0⟩)
  | nodeInfo (frame : List UInt8) : Packed bridge dest .nodeInfo frame none
  | uplink (hprotocol : (bridge.chan dest).protocol = SYNC_WORD_LORAWAN) (frame : List UInt8)
      (devAddr fcnt : UInt32) : Packed bridge dest .uplink frame (some ⟨frame, devAddr, fcnt⟩)

section Sends

variable {Result : Type} {bridge : Config} {env : Env} {allowed allowed' : Allowed}
variable {src dest : Radio}

theorem sends_of_still {program : Dispatch Result} (hstill : program.Respects still) :
    program.Respects (sendsOnly allowed) :=
  hstill.mono fun _ _ _ hholds =>
    ⟨fun _ hmem => absurd (hholds.1 ▸ hmem) List.not_mem_nil,
      fun j _ => congrFun hholds.2.1 j⟩

theorem sendsOnly_mono (himplies : ∀ kind j frame content, allowed kind j frame content →
    allowed' kind j frame content) {first last : State} {outputs : List Event}
    (hsends : (sendsOnly allowed).holds first outputs last) :
    (sendsOnly allowed').holds first outputs last := by
  refine ⟨fun event hmem => ?_, hsends.2⟩
  obtain ⟨kind, j, frame, content, hevent, hallowed⟩ := hsends.1 event hmem
  exact ⟨kind, j, frame, content, hevent, himplies kind j frame content hallowed⟩

theorem sends_modify {change : State → State}
    (hqueue : ∀ state, (change state).queue = state.queue) :
    (modify change : Dispatch Unit).Respects (sendsOnly allowed) :=
  respects_modify fun state =>
    ⟨((sendsOnly allowed).nil state).1, fun j _ => congrFun (hqueue state) j⟩

/-- The one step that changes a queue. -/
theorem sends_push {kind : Kind} {frame : List UInt8} {content : Option Content}
    (hallowed : allowed kind dest frame content) :
    (push env kind dest frame content).Respects (sendsOnly allowed) := by
  refine respects_bind (sends_of_still still_millis) fun now state => ?_
  rw [run_bind, run_read]
  cases hpush : RouteQueue.push frame now (state.queue dest) with
  | none => simpa [hpush] using (sendsOnly allowed).nil state
  | some next =>
      simp only [hpush, run_bind, run_modifyEmit, run_pure, List.nil_append, List.append_nil]
      refine ⟨fun event hmem => ?_, fun j hnone => ?_⟩
      · exact ⟨kind, dest, frame, content, List.mem_singleton.mp hmem, hallowed⟩
      · refine Function.update_of_ne (fun hj => ?_) _ _
        exact hnone kind frame content (hj ▸ List.mem_singleton_self _)

theorem sends_recordAndPush {kind : Kind} {frame : List UInt8} {content : Content}
    (hallowed : allowed kind dest frame (some content)) :
    (recordAndPush env kind dest frame content).Respects (sendsOnly allowed) :=
  respects_bind (respects_bind (sends_of_still still_millis) fun _ => sends_modify fun _ => rfl)
    fun _ => sends_push hallowed

/-- A fan-out loop reaches the radios the routing matrix lets its source reach. -/
theorem sends_fanOut {send : Radio → Dispatch Unit}
    (hsend : ∀ j, bridge.routes src j = true → (send j).Respects (sendsOnly allowed)) :
    (fanOut bridge src send).Respects (sendsOnly allowed) :=
  respects_forEach fun j _ => respects_ite (hsend j) fun _ => respects_pure ()

/-! ## Encoded packets -/

/-- What a program encodes for a destination is of one of the forms. -/
def Encodes (bridge : Config) (dest : Radio) (program : Dispatch (Option Packet)) : Prop :=
  ∀ kind, kind = .text ∨ kind = .fragment → ∀ state packet,
    (program.run state).result = some packet →
      Packed bridge dest kind packet.frame (some packet.content)

theorem encodes_pure_none : Encodes bridge dest (pure none) := by
  intro kind _ state packet hresult
  cases hresult

theorem encodes_bind {program : Dispatch Result} {rest : Result → Dispatch (Option Packet)}
    (hrest : ∀ result, Encodes bridge dest (rest result)) :
    Encodes bridge dest (program >>= rest) := by
  intro kind hkind state packet hresult
  rw [run_bind] at hresult
  exact hrest _ kind hkind _ packet hresult

theorem encodes_meshtasticPacket
    (hprotocol : (bridge.chan dest).protocol = SYNC_WORD_MESHTASTIC) (dstSrcId : UInt32)
    (outBody : List UInt8) :
    Encodes bridge dest (meshtasticPacket bridge env dest dstSrcId outBody) := by
  refine encodes_bind fun random kind hkind state packet hresult => ?_
  obtain ⟨⟨frame, pid⟩, hencode, rfl⟩ := Option.map_eq_some_iff.mp hresult
  exact .meshtastic hkind hprotocol (CharArray.notMem_cString _) hencode

theorem encodes_meshCorePacket (hprotocol : (bridge.chan dest).protocol = SYNC_WORD_MESHCORE)
    (outBody : List UInt8) :
    Encodes bridge dest (meshCorePacket bridge env dest outBody) := by
  refine encodes_bind fun ts kind hkind state packet hresult => ?_
  obtain ⟨frame, hencode, rfl⟩ := Option.map_eq_some_iff.mp hresult
  exact .meshCore hkind hprotocol (CharArray.notMem_cString _) hencode

/-- The fragments go to Meshtastic or to MeshCore. -/
theorem encodes_fragmentPacket (hmesh : (bridge.chan dest).protocol = SYNC_WORD_MESHTASTIC ∨
      (bridge.chan dest).protocol = SYNC_WORD_MESHCORE) (body : List UInt8) :
    Encodes bridge dest (fragmentPacket bridge env dest body) := by
  unfold fragmentPacket
  split
  · exact encodes_meshtasticPacket ‹_› _ _
  · exact encodes_meshCorePacket (hmesh.resolve_left ‹_›) _

theorem encodes_textPacket (srcId : UInt32) (body : List UInt8) :
    Encodes bridge dest (textPacket bridge env src srcId dest body) := by
  unfold textPacket
  split
  · exact encodes_bind fun _ => encodes_meshtasticPacket ‹_› _ _
  · split
    · exact encodes_bind fun _ => encodes_meshCorePacket ‹_› _
    · exact encodes_pure_none

/-! ## Besides a text -/

/-- The contract permits what the packet of a text comes with: steps that are not seen, changes
that leave the queues, and a NodeInfo for the destination. -/
structure Permits (env : Env) (dest : Radio) (contract : Contract State Event) : Prop where
  still : ∀ {Result : Type} {program : Dispatch Result},
    program.Respects Sends.still → program.Respects contract
  modify : ∀ {change : State → State}, (∀ state, (change state).queue = state.queue) →
    (Program.modify change : Dispatch Unit).Respects contract
  nodeInfo : ∀ frame, (push env .nodeInfo dest frame none).Respects contract

section Permits

variable {contract : Contract State Event}

theorem Permits.enqueueVirtualNodeInfo (hpermits : Permits env dest contract) (vid : UInt32)
    (name : List UInt8) :
    (Enqueue.enqueueVirtualNodeInfo bridge env dest vid name).Respects contract := by
  refine respects_bind (hpermits.still still_espRandom) fun random => ?_
  split
  · exact respects_pure _
  · exact respects_bind (hpermits.nodeInfo _) fun _ => respects_pure _

theorem Permits.advertise (hpermits : Permits env dest contract) (vid : UInt32)
    (label : List UInt8) : (Enqueue.advertise bridge env dest vid label).Respects contract := by
  refine respects_bind (hpermits.still still_millis) fun _ => ?_
  refine respects_bind (respects_read _) fun _ => ?_
  refine respects_bind (hpermits.modify fun _ => rfl) fun _ => ?_
  exact respects_ite (fun _ => hpermits.enqueueVirtualNodeInfo _ _) fun _ => respects_pure _

theorem Permits.virtualNode (hpermits : Permits env dest contract) (label : List UInt8) :
    (Enqueue.virtualNode bridge env dest label).Respects contract := by
  refine respects_bind (respects_read _) fun _ => ?_
  refine respects_bind (hpermits.modify fun _ => rfl) fun _ => ?_
  exact respects_bind (hpermits.advertise _ _) fun _ => respects_pure _

theorem Permits.meshtasticSender (hpermits : Permits env dest contract) (body : List UInt8) :
    (Enqueue.meshtasticSender bridge env src dest body).Respects contract := by
  refine respects_ite (fun _ => ?_) fun _ => respects_pure _
  cases parseMcSenderName body (NodeDB.MAX_LONG_NAME + 1) with
  | none =>
      exact respects_ite (fun _ => respects_bind (hpermits.virtualNode _)
        fun _ => respects_pure _) fun _ => respects_pure _
  | some found => exact respects_bind (hpermits.virtualNode _) fun _ => respects_pure _

theorem Permits.textPacket (hpermits : Permits env dest contract) (srcId : UInt32)
    (body : List UInt8) :
    (Enqueue.textPacket bridge env src srcId dest body).Respects contract := by
  refine respects_ite (fun _ => ?_) fun _ => respects_ite (fun _ => ?_) fun _ => respects_pure _
  · exact respects_bind (hpermits.meshtasticSender _) fun _ =>
      hpermits.still (still_meshtasticPacket _ _)
  · exact respects_bind (hpermits.still (still_meshCoreBody _ _)) fun _ =>
      hpermits.still (still_meshCorePacket _)

end Permits

section Destination

variable (hdest : ∀ kind frame content, Packed bridge dest kind frame content →
  allowed kind dest frame content)

include hdest in
theorem sends_enqueueFragment (hmesh : (bridge.chan dest).protocol = SYNC_WORD_MESHTASTIC ∨
      (bridge.chan dest).protocol = SYNC_WORD_MESHCORE) (rawPerFrag : ℕ) (buf : List UInt8)
    (idx : ℕ) :
    (enqueueFragment bridge env dest rawPerFrag buf idx).Respects (sendsOnly allowed) := by
  unfold enqueueFragment
  cases bridge.base64.encode 200 (Fragments.slice rawPerFrag idx buf) with
  | none => exact respects_pure _
  | some b64chunk =>
      refine respects_bind_result (sends_of_still (still_fragmentPacket _)) fun state => ?_
      split
      · exact respects_pure _
      · rename_i packet hresult
        have hpacked := encodes_fragmentPacket hmesh _ .fragment (.inr rfl) state packet hresult
        exact respects_bind (sends_recordAndPush (hdest _ _ _ hpacked)) fun _ => respects_pure _

include hdest in
theorem sends_enqueueReticulumForDest (buf : List UInt8) :
    (enqueueReticulumForDest bridge env dest buf).Respects (sendsOnly allowed) := by
  refine respects_ite (fun _ => respects_pure _) fun _ => ?_
  refine respects_ite (fun _ => respects_pure _) fun _ => ?_
  refine respects_ite (fun _ => respects_pure _) fun hmesh => ?_
  refine respects_ite (fun _ => respects_pure _) fun _ => ?_
  rw [← not_or, not_not] at hmesh
  exact respects_forEachWhile fun idx _ => sends_enqueueFragment hdest hmesh _ _ _

include hdest in
theorem sends_enqueueAbpUplink (hprotocol : (bridge.chan dest).protocol = SYNC_WORD_LORAWAN)
    (srcId : UInt32) (payload : List UInt8) :
    (enqueueAbpUplink bridge env src srcId dest payload).Respects (sendsOnly allowed) := by
  refine respects_bind (sends_of_still still_nvsWrite) fun _ => ?_
  refine respects_bind (respects_read _) fun result => ?_
  obtain ⟨next, attempt⟩ := result
  refine respects_bind (sends_modify fun _ => rfl) fun _ => ?_
  cases attempt with
  | encoded uplink =>
      exact respects_bind (sends_recordAndPush (hdest _ _ _ (.uplink hprotocol _ _ _)))
        fun _ => respects_pure _
  | _ => exact respects_pure _

include hdest in
theorem permits_sendsOnly : Permits env dest (sendsOnly allowed) where
  still := sends_of_still
  modify := sends_modify
  nodeInfo frame := sends_push (hdest _ _ _ (.nodeInfo frame))

include hdest in
theorem sends_enqueueTextForDest (srcId : UInt32) (body : List UInt8) :
    (enqueueTextForDest bridge env src srcId dest body).Respects (sendsOnly allowed) := by
  refine respects_ite (fun _ => respects_pure _) fun _ => ?_
  refine respects_ite (fun hprotocol => ?_) fun _ => ?_
  · exact respects_ite (fun _ => respects_bind (sends_enqueueAbpUplink hdest hprotocol _ _)
      fun _ => respects_pure _) fun _ => respects_pure _
  · refine respects_bind_result ((permits_sendsOnly hdest).textPacket _ _) fun state => ?_
    split
    · exact respects_pure _
    · rename_i packet hresult
      have hpacked := encodes_textPacket srcId body .text (.inl rfl) state packet hresult
      exact respects_bind (sends_recordAndPush (hdest _ _ _ hpacked)) fun _ => respects_pure _

end Destination

theorem sends_rawRepeatForDest (srcId : UInt32) {buf : List UInt8}
    (hdest : ¬ ((bridge.chan dest).protocol = SYNC_WORD_MESHTASTIC ∧ notRepeated bridge srcId buf) →
      allowed .rawRepeat dest (repeatFrame bridge dest buf) none) :
    (rawRepeatForDest bridge env dest srcId buf).Respects (sendsOnly allowed) :=
  respects_ite (fun _ => respects_pure _) fun _ =>
    respects_ite (fun _ => respects_pure _) fun hrepeated =>
      respects_bind (sends_push (hdest hrepeated)) fun _ => respects_pure _

theorem sends_camC2Emit {frame : List UInt8}
    (hdest : allowed .c2 dest frame (some (.raw frame))) :
    (camC2Emit env dest.val frame).Respects (sendsOnly allowed) := by
  have hradio : (0 : ℤ) ≤ dest.val ∧ (dest.val : ℤ).toNat < NUM_RADIOS :=
    ⟨Int.natCast_nonneg _, by rw [Int.toNat_natCast]; exact dest.isLt⟩
  have hsame : (⟨(dest.val : ℤ).toNat, hradio.2⟩ : Radio) = dest := Fin.ext (Int.toNat_natCast _)
  unfold camC2Emit
  rw [dif_pos hradio, hsame]
  exact respects_bind (sends_recordAndPush hdest) fun _ => respects_pure _

end Sends

end LoraBridge.Sends
