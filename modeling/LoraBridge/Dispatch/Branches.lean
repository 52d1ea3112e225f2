import LoraBridge.Control.Acknowledgements
import LoraBridge.Dispatch.Ingest
import LoraBridge.Dispatch.Sends

/-!
# The branches of the dispatcher

Every branch of `ingestAndFanout` does some unseen work, asks the dedup guard once, and sends
packets of known forms to radios in the routing matrix.  A call of C2 in front of them emits
acknowledgements, or leaves the frame.
-/

namespace LoraBridge.Branches

open LoraBridge.Bridge LoraBridge.BridgeConfig LoraBridge.ChannelKeys LoraBridge.Enqueue
open LoraBridge.Ingest LoraBridge.Memory LoraBridge.MeshCoreDecoder LoraBridge.Program
open LoraBridge.Sends
open LoraBridge.MeshtasticDecoder hiding Kind
open LoraBridge.NodeDB hiding State

/-- The frame is not kept as a NodeInfo, or that goes by bytes that are not the frame's. -/
def PassesNodeInfo (bridge : Config) (chan : RadioChannel) (buf : List UInt8) : Prop :=
  (∃ info, extractMeshtasticNodeInfo bridge.aes chan (.ofList buf) buf.length
    (MAX_SHORT_NAME + 1) (MAX_LONG_NAME + 1) = .ok (false, info)) ∨
  extractMeshtasticNodeInfo bridge.aes chan (.ofList buf) buf.length
    (MAX_SHORT_NAME + 1) (MAX_LONG_NAME + 1) = .error .outOfBounds

/-- What the guard is asked about a frame of a mesh on some channel. -/
inductive Decodes (bridge : Config) (chan : RadioChannel) (buf : List UInt8) : Content → Prop
  | meshtastic (hprotocol : chan.protocol = SYNC_WORD_MESHTASTIC)
      (hinfo : PassesNodeInfo bridge chan buf) {text : List UInt8} {time : Option UInt32}
      (hdecode : decodeMeshtastic bridge chan buf = .body text time) :
      Decodes bridge chan buf ⟨text, headerWord buf 4, headerWord buf 8⟩
  | stray (hprotocol : chan.protocol = SYNC_WORD_MESHTASTIC)
      (hinfo : PassesNodeInfo bridge chan buf)
      (hdecode : decodeMeshtastic bridge chan buf = .stray) (found : List UInt8) :
      Decodes bridge chan buf ⟨strayText found, headerWord buf 4, headerWord buf 8⟩
  | meshCore (hprotocol : chan.protocol = SYNC_WORD_MESHCORE) {text : List UInt8}
      {time : Option UInt32} (hdecode : decodeMeshCore bridge chan buf = .body text time) :
      Decodes bridge chan buf ⟨text, 0, 0⟩

/-- The guard knows the frames of the radio by their bytes. -/
def ByBytes (bridge : Config) (i : Radio) : Prop :=
  (bridge.chan i).protocol = SYNC_WORD_RETICULUM ∨
    (bridge.chan i).protocol = SYNC_WORD_LORAWAN ∨
    bridge.radioProtocol i = PROTO_CUSTOM ∧
      (bridge.build.customRepeat = true ∨ bridge.build.lwEncode = true)

/-- What the guard may be asked about a frame on a radio. -/
inductive Asks (bridge : Config) (src : Radio) (buf : List UInt8) : Content → Prop
  | raw (hraw : ByBytes bridge src) : Asks bridge src buf (.raw buf)
  | decoded {content : Content} (hdecoded : ¬ ByBytes bridge src)
      (hdecodes : Decodes bridge (bridge.chan src) buf content) : Asks bridge src buf content

/-- The packets that may be sent to a radio for a frame whose content was asked for. -/
inductive Explained (bridge : Config) (src : Radio) (buf : List UInt8) (asked : Content)
    (dest : Radio) : Kind → List UInt8 → Option Content → Prop
  | packed {kind : Kind} {frame : List UInt8} {content : Option Content}
      (hpacked : Packed bridge dest kind frame content) :
      Explained bridge src buf asked dest kind frame content
  | verbatim (hprotocol : (bridge.chan dest).protocol = SYNC_WORD_RETICULUM ∨
        (bridge.chan dest).protocol = SYNC_WORD_LORAWAN) (hasked : asked = .raw buf) :
      Explained bridge src buf asked dest .rawRepeat buf none
  | custom (hcustom : bridge.radioProtocol src = PROTO_CUSTOM)
      (hrepeat : bridge.build.customRepeat = true)
      (hsame : sameChannel (bridge.chan src) (bridge.chan dest) = true)
      (hasked : asked = .raw buf)
      (hrepeated : ¬ ((bridge.chan dest).protocol = SYNC_WORD_MESHTASTIC ∧
        notRepeated bridge asked.id1 buf)) :
      Explained bridge src buf asked dest .rawRepeat (repeatFrame bridge dest buf) none
  | decoded (hsame : sameChannel (bridge.chan src) (bridge.chan dest) = true)
      (hdecodes : Decodes bridge (bridge.chan src) buf asked)
      (hrepeated : ¬ ((bridge.chan dest).protocol = SYNC_WORD_MESHTASTIC ∧
        notRepeated bridge asked.id1 buf)) :
      Explained bridge src buf asked dest .rawRepeat (repeatFrame bridge dest buf) none

/-- The packets behind the guard. -/
def explained (bridge : Config) (src : Radio) (buf : List UInt8) (asked : Content) : Allowed :=
  fun kind dest frame content =>
    bridge.routes src dest = true ∧ Explained bridge src buf asked dest kind frame content

/-- Unseen work, and at most one question to the guard with the sends behind it. -/
inductive Branch (bridge : Config) (env : Env) (src : Radio) (buf : List UInt8) :
    Dispatch Unit → Prop
  | still {call : Dispatch Unit} (hstill : call.Respects still) : Branch bridge env src buf call
  | after {Result : Type} {program : Dispatch Result} {rest : Result → Dispatch Unit}
      (hprogram : program.Respects Sends.still)
      (hrest : ∀ result, Branch bridge env src buf (rest result)) :
      Branch bridge env src buf (program >>= rest)
  | guarded {fanout : Dispatch Unit} {asked : Content} (hasks : Asks bridge src buf asked)
      (hfanout : fanout.Respects (sendsOnly (explained bridge src buf asked))) :
      Branch bridge env src buf (unlessSeen env asked fanout)

section Branches

variable {bridge : Config} {env : Env} {src : Radio} {buf : List UInt8} {asked : Content}

theorem branch_pure : Branch bridge env src buf (pure ()) := .still (respects_pure ())

theorem branch_ite {condition : Prop} [Decidable condition] {yes no : Dispatch Unit}
    (hyes : condition → Branch bridge env src buf yes)
    (hno : ¬ condition → Branch bridge env src buf no) :
    Branch bridge env src buf (if condition then yes else no) := by
  split
  · exact hyes ‹_›
  · exact hno ‹_›

/-- The encoded packets of a routed radio are explained. -/
theorem explained_packed {j : Radio} (hroutes : bridge.routes src j = true) :
    ∀ kind frame content, Packed bridge j kind frame content →
      explained bridge src buf asked kind j frame content :=
  fun _ _ _ hpacked => ⟨hroutes, .packed hpacked⟩

/-- A raw repeat for a radio whose frames are not rewritten. -/
theorem sends_verbatim {j : Radio} (hroutes : bridge.routes src j = true)
    (hprotocol : (bridge.chan j).protocol = SYNC_WORD_RETICULUM ∨
      (bridge.chan j).protocol = SYNC_WORD_LORAWAN) :
    (rawRepeatForDest bridge env j 0 buf).Respects
      (sendsOnly (explained bridge src buf (.raw buf))) := by
  have hother : (bridge.chan j).protocol ≠ SYNC_WORD_MESHTASTIC :=
    ne_meshtastic_of_verbatim hprotocol
  refine sends_rawRepeatForDest _ fun _ => ?_
  rw [repeatFrame, if_neg hother]
  exact ⟨hroutes, .verbatim hprotocol rfl⟩

theorem branch_ingestReticulum (hprotocol : (bridge.chan src).protocol = SYNC_WORD_RETICULUM) :
    Branch bridge env src buf (ingestReticulum bridge env src buf) :=
  .guarded (.raw (.inl hprotocol)) <| sends_fanOut fun _ hroutes =>
    respects_ite (fun hcondition => sends_verbatim hroutes (.inl hcondition.2))
      fun _ => sends_enqueueReticulumForDest (explained_packed hroutes) _

theorem branch_ingestLoRaWAN (hprotocol : (bridge.chan src).protocol = SYNC_WORD_LORAWAN) :
    Branch bridge env src buf (ingestLoRaWAN bridge env src buf) := by
  refine .guarded (.raw (.inr (.inl hprotocol))) ?_
  split
  · exact respects_pure _
  · have hsummary : ∀ text, (fanOut bridge src fun j =>
        if (bridge.chan j).protocol = SYNC_WORD_MESHTASTIC ∨
            (bridge.chan j).protocol = SYNC_WORD_MESHCORE then
          enqueueTextForDest bridge env src 0 j text
        else pure ()).Respects (sendsOnly (explained bridge src buf (.raw buf))) :=
      fun text => sends_fanOut fun _ hroutes =>
        respects_ite (fun _ => sends_enqueueTextForDest (explained_packed hroutes) _ _)
          fun _ => respects_pure _
    have hrelay : (fanOut bridge src fun j =>
        if (bridge.chan j).protocol = SYNC_WORD_LORAWAN then rawRepeatForDest bridge env j 0 buf
        else pure ()).Respects (sendsOnly (explained bridge src buf (.raw buf))) :=
      sends_fanOut fun _ hroutes =>
        respects_ite (fun hprotocol => sends_verbatim hroutes (.inr hprotocol))
          fun _ => respects_pure _
    exact respects_ite (fun _ => respects_bind (hsummary _) fun _ =>
      respects_ite (fun _ => hrelay) fun _ => respects_pure _) fun _ =>
        respects_ite (fun _ => hrelay) fun _ => respects_pure _

theorem branch_repeatCustom (hcustom : bridge.radioProtocol src = PROTO_CUSTOM)
    (hrepeat : bridge.build.customRepeat = true) :
    Branch bridge env src buf (repeatCustom bridge env src buf) :=
  .guarded (.raw (.inr (.inr ⟨hcustom, .inl hrepeat⟩))) <| sends_fanOut fun _ hroutes =>
    respects_ite (fun hsame => sends_rawRepeatForDest _ fun hrepeated =>
      ⟨hroutes, .custom hcustom hrepeat hsame rfl hrepeated⟩) fun _ => respects_pure _

theorem branch_uplinkCustom (hcustom : bridge.radioProtocol src = PROTO_CUSTOM)
    (hencode : bridge.build.lwEncode = true) :
    Branch bridge env src buf (uplinkCustom bridge env src buf) :=
  .guarded (.raw (.inr (.inr ⟨hcustom, .inr hencode⟩))) <| sends_fanOut fun _ hroutes =>
    respects_ite (fun hprotocol => respects_bind
      (sends_enqueueAbpUplink (explained_packed hroutes) hprotocol _ _)
      fun _ => respects_pure _) fun _ => respects_pure _

theorem branch_fanOutBody (hdecoded : ¬ ByBytes bridge src) {srcId pid : UInt32}
    {body : List UInt8} (hdecodes : Decodes bridge (bridge.chan src) buf ⟨body, srcId, pid⟩) :
    Branch bridge env src buf (fanOutBody bridge env src srcId pid buf body) :=
  .guarded (.decoded hdecoded hdecodes) <| sends_fanOut fun _ hroutes =>
    respects_ite (fun hcondition => sends_rawRepeatForDest _ fun hrepeated =>
      ⟨hroutes, .decoded hcondition.2 hdecodes hrepeated⟩)
      fun _ => sends_enqueueTextForDest (explained_packed hroutes) _ _

theorem branch_ingestDecoded (hdecoded : ¬ ByBytes bridge src) {srcId pid : UInt32}
    {body : List UInt8} (hdecodes : Decodes bridge (bridge.chan src) buf ⟨body, srcId, pid⟩)
    (time : Option UInt32) :
    Branch bridge env src buf (ingestDecoded bridge env src srcId pid buf body time) := by
  refine .after ?_ fun _ => branch_fanOutBody hdecoded hdecodes
  cases time with
  | none => exact respects_pure _
  | some ts => exact still_learnClock ts

theorem branch_ingestBody (hdecoded : ¬ ByBytes bridge src) {srcId pid : UInt32}
    {decoded : Decoded}
    (hdecodes : ∀ text time, decoded = .body text time →
      Decodes bridge (bridge.chan src) buf ⟨text, srcId, pid⟩)
    (hstray : decoded = .stray → ∀ found,
      Decodes bridge (bridge.chan src) buf ⟨strayText found, srcId, pid⟩) :
    Branch bridge env src buf (ingestBody bridge env src srcId pid buf decoded) := by
  cases decoded with
  | refused => exact branch_pure
  | body text time => exact branch_ingestDecoded hdecoded (hdecodes text time rfl) time
  | stray =>
      refine .after still_ask fun asked => ?_
      cases env.strayBody asked with
      | none => exact branch_pure
      | some found => exact branch_ingestDecoded hdecoded (hstray rfl found.1) found.2

theorem still_keepNodeInfo (nodeId : UInt32) (shortName longName : List UInt8) :
    (keepNodeInfo bridge env nodeId shortName longName).Respects still :=
  respects_ite (fun _ => respects_pure _) fun _ =>
    respects_bind still_millis fun _ => respects_bind still_nvsWrite fun _ =>
      still_modify (fun _ => rfl) (fun _ => rfl) fun _ => rfl

theorem branch_ingestMeshtastic (hdecoded : ¬ ByBytes bridge src)
    (hprotocol : (bridge.chan src).protocol = SYNC_WORD_MESHTASTIC) :
    Branch bridge env src buf (ingestMeshtastic bridge env src buf) := by
  have hbody : PassesNodeInfo bridge (bridge.chan src) buf → Branch bridge env src buf
      (ingestBody bridge env src (headerWord buf 4) (headerWord buf 8) buf
        (decodeMeshtastic bridge (bridge.chan src) buf)) := fun hinfo =>
    branch_ingestBody hdecoded (fun _ _ hdecode => .meshtastic hprotocol hinfo hdecode)
      (.stray hprotocol hinfo)
  unfold ingestMeshtastic
  dsimp only
  split
  · rename_i hinfo
    refine .after still_ask fun asked => ?_
    cases env.strayNames asked with
    | none => exact hbody (.inr hinfo)
    | some names => exact .still (still_keepNodeInfo _ _ _)
  · exact branch_pure
  · exact .still (still_keepNodeInfo _ _ _)
  · rename_i info hinfo
    exact hbody (.inl ⟨info, hinfo⟩)

/-- The reads of a MeshCore frame stay inside it. -/
theorem decodeMeshCore_ne_stray (chan : RadioChannel) (buf : List UInt8) :
    decodeMeshCore bridge chan buf ≠ .stray := by
  have hinside := inside_extractMeshCoreBody bridge.aes chan (readable_ofList buf) 256
  unfold decodeMeshCore
  split
  · exact Decoded.noConfusion
  · exact Decoded.noConfusion
  · rename_i halt herror
    cases halt with
    | outOfBounds => exact absurd herror hinside
    | malformed => exact Decoded.noConfusion
    | spinning => exact Decoded.noConfusion

theorem branch_ingestMeshCore (hdecoded : ¬ ByBytes bridge src)
    (hprotocol : (bridge.chan src).protocol = SYNC_WORD_MESHCORE) :
    Branch bridge env src buf (ingestMeshCore bridge env src buf) :=
  branch_ingestBody hdecoded (fun _ _ hdecode => .meshCore hprotocol hdecode)
    fun hstray => absurd hstray (decodeMeshCore_ne_stray _ _)

theorem branch_ingestOther (hreticulum : (bridge.chan src).protocol ≠ SYNC_WORD_RETICULUM)
    (hlorawan : (bridge.chan src).protocol ≠ SYNC_WORD_LORAWAN) :
    Branch bridge env src buf (ingestOther bridge env src buf) := by
  refine branch_ite (fun hcustom => branch_repeatCustom hcustom.2 hcustom.1) fun hrepeat => ?_
  refine branch_ite (fun hencode => branch_uplinkCustom hencode.2 hencode.1) fun hencode => ?_
  have hdecoded : ¬ ByBytes bridge src := by
    rintro (hprotocol | hprotocol | ⟨hcustom, hflag⟩)
    · exact hreticulum hprotocol
    · exact hlorawan hprotocol
    · exact hflag.elim (fun h => hrepeat ⟨h, hcustom⟩) fun h => hencode ⟨h, hcustom⟩
  exact branch_ite (branch_ingestMeshtastic hdecoded) fun _ =>
    branch_ite (branch_ingestMeshCore hdecoded) fun _ => branch_pure

end Branches

/-! ## C2 in front of the branches -/

section C2

variable {bridge : Config} {env : Env} {src : Radio}

theorem still_inboundOf (buf : List UInt8) : (inboundOf env src buf).Respects still :=
  respects_bind still_ask fun _ => respects_bind still_nvsWrite fun _ =>
    respects_bind still_nvsWrite fun _ => respects_pure _

theorem fields_inboundOf (buf : List UInt8) (state : State) :
    ((inboundOf env src buf).run state).result.radioIdx = src.val ∧
      ((inboundOf env src buf).run state).result.buf = buf := by
  simp only [inboundOf, run_bind, run_pure, and_self]

/-- A call of C2 keeps to a contract if the delivery of each of its outputs does. -/
theorem holds_handleInbound {contract : Contract State Event} (buf : List UInt8) (state : State)
    (hinbound : (inboundOf env src buf).Respects contract)
    (hc2 : ∀ state c2, contract.holds state [] { state with c2 := c2 })
    (hdeliver : ∀ inbound : CamC2.Inbound, inbound.radioIdx = src.val → inbound.buf = buf →
      ∀ c2, ((CamC2.handleInbound bridge.device inbound).run c2).result =
        ((handleInbound bridge env src buf).run state).result →
      ∀ output ∈ ((CamC2.handleInbound bridge.device inbound).run c2).outputs,
        (deliver env output).Respects contract) :
    contract.holds state ((handleInbound bridge env src buf).run state).outputs
      ((handleInbound bridge env src buf).run state).state := by
  have hfields : ((inboundOf env src buf).run state).result.radioIdx = src.val ∧
      ((inboundOf env src buf).run state).result.buf = buf := fields_inboundOf buf state
  have hfirst := hinbound state
  simp only [handleInbound, run_bind, run_read, run_modify, run_pure, List.nil_append,
    List.append_nil] at hdeliver ⊢
  generalize (inboundOf env src buf).run state = first at hfields hfirst hdeliver ⊢
  refine contract.append hfirst ?_
  have hrest := respects_forEach
    (hdeliver first.result hfields.1 hfields.2 first.state.c2 rfl)
  exact contract.append (hc2 first.state _) (hrest _)

/-- An acknowledgement for the source. -/
def acknowledgement (src : Radio) : Allowed := fun kind dest frame content =>
  kind = .c2 ∧ dest = src ∧ content = some (.raw frame) ∧
    frame.getD 0 0 = CamC2.MAGIC_VER ∧ frame.getD 1 0 = CamC2.T_ACK

theorem sends_handleInbound (buf : List UInt8) :
    (handleInbound bridge env src buf).Respects (sendsOnly (acknowledgement src)) := by
  intro state
  refine holds_handleInbound buf state (sends_of_still (still_inboundOf buf))
    (fun state _ => (sendsOnly _).nil state) fun inbound hradio _ c2 _ output hmem => ?_
  cases output with
  | emitted radioIdx frame =>
      obtain ⟨-, -, hsame, hhead⟩ :=
        Acknowledgements.emitted_handleInbound bridge.device inbound c2 hmem
      rw [deliver, hsame, hradio]
      exact sends_camC2Emit ⟨rfl, rfl, rfl, hhead⟩
  | _ => exact respects_pure _

/-- A frame is taken as a command of a camera. -/
def TakenAsCommand (bridge : Config) (env : Env) (src : Radio) (buf : List UInt8)
    (state : State) : Prop :=
  bridge.device.camera = true ∧ buf.getD 1 0 = CamC2.T_CMD ∧
    ((handleInbound bridge env src buf).run state).result = true

/-- A frame that is not taken as a command emits nothing. -/
theorem still_of_not_taken (buf : List UInt8) (state : State)
    (hleft : ¬ TakenAsCommand bridge env src buf state) :
    still.holds state ((handleInbound bridge env src buf).run state).outputs
      ((handleInbound bridge env src buf).run state).state := by
  refine holds_handleInbound buf state (still_inboundOf buf)
    (fun _ _ => ⟨rfl, rfl, rfl, rfl⟩) fun inbound _ hbuf c2 hresult output hmem => ?_
  cases output with
  | emitted radioIdx frame =>
      obtain ⟨hconsumed, ⟨hcamera, htype⟩, -⟩ :=
        Acknowledgements.emitted_handleInbound bridge.device inbound c2 hmem
      exact absurd ⟨hcamera, hbuf ▸ htype, hresult ▸ hconsumed⟩ hleft
  | _ => exact respects_pure _

end C2

/-! ## Whole calls -/

/-- The state behind a question to the guard. -/
def afterGuard (env : Env) (content : Content) (state : State) : State :=
  { state with
    asked := state.asked + 1
    dedup := (state.dedup.seenAndRecord content.hash (WrapClock.ticks (env.millis state.asked))).2 }

/-- The guard has seen the content, or the call goes on behind it. -/
theorem run_unlessSeen (env : Env) (content : Content) (fanout : Dispatch Unit) (state : State) :
    (unlessSeen env content fanout).run state =
      if state.dedup.isSeen content.hash (WrapClock.ticks (env.millis state.asked)) then
        ⟨afterGuard env content state, [.guarded content true], ()⟩
      else
        let rest := fanout.run (afterGuard env content state)
        ⟨rest.state, .guarded content false :: rest.outputs, ()⟩ := by
  simp only [unlessSeen, seenAndRecord, millis, ask, run_bind, run_read, run_modify,
    run_modifyEmit, run_pure, List.nil_append, List.append_nil]
  split
  · rename_i hseen
    rw [hseen]
    rfl
  · rename_i hseen
    rw [Bool.not_eq_true] at hseen
    rw [hseen]
    rfl

section Calls

variable {bridge : Config} {env : Env} {src : Radio} {buf : List UInt8}

/-- A run is, behind unseen steps, that of one of the branches. -/
def ComesToBranch (bridge : Config) (env : Env) (src : Radio) (buf : List UInt8) (state : State)
    (run : Run State Event Unit) : Prop :=
  ∃ call middle, Branch bridge env src buf call ∧ still.holds state [] middle ∧
    run.outputs = (call.run middle).outputs ∧ run.state = (call.run middle).state

theorem comesToBranch {call : Dispatch Unit} (hbranch : Branch bridge env src buf call)
    (state : State) : ComesToBranch bridge env src buf state (call.run state) :=
  ⟨call, state, hbranch, still.nil state, rfl, rfl⟩

/-- A call acknowledges a command, or comes to one of the branches. -/
theorem ingestAndFanout_cases (bridge : Config) (env : Env) (src : Radio) (buf : List UInt8)
    (state : State) :
    let run := (ingestAndFanout bridge env src buf).run state
    (TakenAsCommand bridge env src buf state ∧
        (bridge.chan src).protocol ≠ SYNC_WORD_LORAWAN ∧
        (sendsOnly (acknowledgement src)).holds state run.outputs run.state) ∨
      ComesToBranch bridge env src buf state run := by
  unfold ingestAndFanout
  split
  · exact .inr (comesToBranch (branch_ingestReticulum ‹_›) state)
  rename_i hreticulum
  split
  · exact .inr (comesToBranch (branch_ingestLoRaWAN ‹_›) state)
  rename_i hlorawan
  split
  · have hsends : (sendsOnly (acknowledgement src)).holds state
        ((handleInbound bridge env src buf).run state).outputs _ := sends_handleInbound buf state
    have hstill : ¬ TakenAsCommand bridge env src buf state → _ := still_of_not_taken buf state
    by_cases htaken : TakenAsCommand bridge env src buf state
    · refine .inl ⟨htaken, hlorawan, ?_⟩
      have hresult := htaken.2.2
      rw [run_bind]
      generalize (handleInbound bridge env src buf).run state = handled at hsends hresult ⊢
      simpa only [hresult, if_true, run_pure, List.append_nil] using hsends
    · have hleft := hstill htaken
      rw [run_bind]
      generalize (handleInbound bridge env src buf).run state = handled at hleft ⊢
      obtain ⟨middle, outputs, result⟩ := handled
      obtain ⟨hsilent, hleft⟩ := hleft
      dsimp only at hsilent hleft ⊢
      rw [hsilent, List.nil_append]
      cases result with
      | true => exact .inr ⟨pure (), middle, branch_pure, ⟨rfl, hleft⟩, rfl, rfl⟩
      | false =>
          exact .inr ⟨_, middle, branch_ingestOther hreticulum hlorawan, ⟨rfl, hleft⟩, rfl, rfl⟩
  · exact .inr (comesToBranch (branch_ingestOther hreticulum hlorawan) state)

/-- Every packet of a branch is explained by what the guard was asked about. -/
theorem sent_of_branch {call : Dispatch Unit} (hbranch : Branch bridge env src buf call)
    {state : State} {kind : Kind} {dest : Radio} {frame : List UInt8} {content : Option Content}
    (hsent : .sent kind dest frame content ∈ (call.run state).outputs) :
    ∃ asked, .guarded asked false ∈ (call.run state).outputs ∧
      explained bridge src buf asked kind dest frame content := by
  induction hbranch generalizing state with
  | still hstill => exact absurd ((hstill state).1 ▸ hsent) List.not_mem_nil
  | after hprogram hrest ih =>
      rw [run_bind] at hsent ⊢
      dsimp only at hsent ⊢
      rw [(hprogram state).1, List.nil_append] at hsent ⊢
      exact ih _ hsent
  | guarded hasks hfanout =>
      rw [run_unlessSeen] at hsent ⊢
      split at hsent
      · cases List.mem_singleton.mp hsent
      · rename_i hfresh
        have hmem := (List.mem_cons.mp hsent).resolve_left (by simp)
        obtain ⟨kind', dest', frame', content', heq, hexplained⟩ := (hfanout _).1 _ hmem
        cases heq
        rw [if_neg hfresh]
        exact ⟨_, List.mem_cons_self, hexplained⟩

/-- Every packet of a call acknowledges a command, or is explained by what the guard was
asked about. -/
theorem sent_of_ingestAndFanout {state : State} {kind : Kind} {dest : Radio}
    {frame : List UInt8} {content : Option Content}
    (hsent : .sent kind dest frame content ∈
      ((ingestAndFanout bridge env src buf).run state).outputs) :
    ((TakenAsCommand bridge env src buf state ∧ (bridge.chan src).protocol ≠ SYNC_WORD_LORAWAN) ∧
        acknowledgement src kind dest frame content) ∨
      ∃ asked, .guarded asked false ∈ ((ingestAndFanout bridge env src buf).run state).outputs ∧
        explained bridge src buf asked kind dest frame content := by
  rcases ingestAndFanout_cases bridge env src buf state with
    ⟨htaken, hlorawan, hsends⟩ | ⟨call, middle, hbranch, -, houtputs, -⟩
  · obtain ⟨kind', dest', frame', content', heq, hack⟩ := hsends.1 _ hsent
    cases heq
    exact .inl ⟨⟨htaken, hlorawan⟩, hack⟩
  · rw [houtputs] at hsent ⊢
    exact .inr (sent_of_branch hbranch hsent)

/-- A branch asks the guard what it may, of the table it finds. -/
theorem guarded_of_branch {call : Dispatch Unit} (hbranch : Branch bridge env src buf call)
    {state : State} {content : Content} {seen : Bool}
    (hguarded : .guarded content seen ∈ (call.run state).outputs) :
    Asks bridge src buf content ∧
      ∃ n, seen = state.dedup.isSeen content.hash (WrapClock.ticks (env.millis n)) := by
  induction hbranch generalizing state with
  | still hstill => exact absurd ((hstill state).1 ▸ hguarded) List.not_mem_nil
  | after hprogram hrest ih =>
      obtain ⟨hsilent, -, -, hdedup⟩ := hprogram state
      rw [run_bind] at hguarded
      dsimp only at hguarded
      rw [hsilent, List.nil_append] at hguarded
      rw [← hdedup]
      exact ih _ hguarded
  | guarded hasks hfanout =>
      rw [run_unlessSeen] at hguarded
      split at hguarded
      · rename_i hseen
        cases List.mem_singleton.mp hguarded
        exact ⟨hasks, state.asked, hseen.symm⟩
      · rename_i hfresh
        rcases List.mem_cons.mp hguarded with heq | hmem
        · cases heq
          exact ⟨hasks, state.asked, (Bool.eq_false_iff.mpr hfresh).symm⟩
        · obtain ⟨kind, dest, frame, sent, heq, -⟩ := (hfanout _).1 _ hmem
          cases heq

theorem guarded_of_ingestAndFanout {state : State} {content : Content} {seen : Bool}
    (hguarded : .guarded content seen ∈
      ((ingestAndFanout bridge env src buf).run state).outputs) :
    Asks bridge src buf content ∧
      ∃ n, seen = state.dedup.isSeen content.hash (WrapClock.ticks (env.millis n)) := by
  rcases ingestAndFanout_cases bridge env src buf state with
    ⟨-, -, hsends⟩ | ⟨call, middle, hbranch, ⟨-, -, -, hdedup⟩, houtputs, -⟩
  · obtain ⟨kind, dest, frame, sent, heq, -⟩ := hsends.1 _ hguarded
    cases heq
  · rw [houtputs] at hguarded
    rw [← hdedup]
    exact guarded_of_branch hbranch hguarded

/-- A branch asks the guard about one content. -/
theorem guarded_once_of_branch {call : Dispatch Unit} (hbranch : Branch bridge env src buf call)
    {state : State} {content other : Content} {seen seen' : Bool}
    (hguarded : .guarded content seen ∈ (call.run state).outputs)
    (hother : .guarded other seen' ∈ (call.run state).outputs) : content = other := by
  induction hbranch generalizing state with
  | still hstill => exact absurd ((hstill state).1 ▸ hguarded) List.not_mem_nil
  | after hprogram hrest ih =>
      rw [run_bind] at hguarded hother
      dsimp only at hguarded hother
      rw [(hprogram state).1, List.nil_append] at hguarded hother
      exact ih _ hguarded hother
  | guarded hasks hfanout =>
      rename_i fanout asked
      have hasked : ∀ {content seen},
          .guarded content seen ∈ ((unlessSeen env asked fanout).run state).outputs →
            content = asked := by
        intro content seen hmem
        rw [run_unlessSeen] at hmem
        split at hmem
        · cases List.mem_singleton.mp hmem
          rfl
        · rcases List.mem_cons.mp hmem with heq | hmem
          · cases heq
            rfl
          · obtain ⟨kind, dest, frame, sent, heq, -⟩ := (hfanout _).1 _ hmem
            cases heq
      exact (hasked hguarded).trans (hasked hother).symm

theorem guarded_once_of_ingestAndFanout {state : State} {content other : Content}
    {seen seen' : Bool}
    (hguarded : .guarded content seen ∈
      ((ingestAndFanout bridge env src buf).run state).outputs)
    (hother : .guarded other seen' ∈
      ((ingestAndFanout bridge env src buf).run state).outputs) : content = other := by
  rcases ingestAndFanout_cases bridge env src buf state with
    ⟨-, -, hsends⟩ | ⟨call, middle, hbranch, -, houtputs, -⟩
  · obtain ⟨kind, dest, frame, sent, heq, -⟩ := hsends.1 _ hguarded
    cases heq
  · rw [houtputs] at hguarded hother
    exact guarded_once_of_branch hbranch hguarded hother

end Calls

end LoraBridge.Branches
