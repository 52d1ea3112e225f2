import LoraBridge.Dispatch.Confinement
import LoraBridge.Dispatch.DedupHistory
import LoraBridge.Dispatch.Emissions

/-!
# Echoes

A packet of the bridge that comes back on a radio of its channel is known to the dedup guard:
its content was recorded when it was queued, or when the frame it repeats was heard.  Only a
LoRaWAN uplink is recorded under its address and counter and heard without them; where a
Custom radio carries the sync word of a mesh, one radio goes by the bytes of a frame and the
other by its text; and what a decoder reads behind a plaintext is not the same twice.
-/

namespace LoraBridge.Echoes

open LoraBridge.Branches LoraBridge.Bridge LoraBridge.BridgeConfig LoraBridge.ChannelKeys
open LoraBridge.DecodedKeys LoraBridge.Emissions LoraBridge.EncodedTexts LoraBridge.Enqueue
open LoraBridge.Ingest LoraBridge.Memory LoraBridge.MeshCoreDecoder LoraBridge.MeshEncoder
open LoraBridge.Program LoraBridge.Relay
open LoraBridge.MeshtasticDecoder hiding Kind

/-! ## What an echo does -/

section Echo

variable (bridge : Config) (e : Emission) (i : Radio) (heard : List UInt8)

/-- Whenever the guard is asked about the echo, it is asked about the recorded hash. -/
def Agrees : Prop :=
  ∀ env state content seen, .guarded content seen ∈
    ((ingestAndFanout bridge env i heard).run state).outputs → content.hash = e.recorded.hash

/-- An echo within the window of the last call with its hash, which was not evicted since,
pushes nothing.  A repeated frame is not one that C2 takes as a command now. -/
def Suppressed : Prop :=
  ∀ env state calls time, state.dedup = DedupHistory.after calls →
    DedupHistory.lastCall calls e.recorded.hash = some time →
    ¬ DedupHistory.Evicted calls e.recorded.hash →
    (∀ n, time ≤ env.millis n ∧
      env.millis n < time + DedupCache.BRIDGE_DEDUP_TTL_MS.toNat) →
    (e.kind = .rawRepeat → ¬ TakenAsCommand bridge env i heard state) →
      let run := (ingestAndFanout bridge env i heard).run state
      (∀ kind dest frame content, .sent kind dest frame content ∉ run.outputs) ∧
        run.state.queue = state.queue

/-- The radio that hears the packet makes the key that was recorded.  On a mesh it goes by the
bytes of its frames exactly if the packet was recorded by them, and on Meshtastic they come back
as they were recorded; the frames of C2 are no texts of MeshCore.  An uplink was recorded without
ids.  What is read behind a plaintext is never known. -/
structure KeyedAlike : Prop where
  uplink : e.kind = .uplink → e.recorded = .raw e.frame
  mesh : Mesh (bridge.chan e.dest) → (ByBytes bridge i ↔ e.ByBytes bridge) ∨
    e.kind = .c2 ∧ (bridge.chan e.dest).protocol = SYNC_WORD_MESHCORE
  meshtastic : (bridge.chan e.dest).protocol = SYNC_WORD_MESHTASTIC → ByBytes bridge i →
    e.recorded = .raw heard
  own : ByBytes bridge i ∨ ¬ Strays bridge (bridge.chan i) heard

/-- The radio makes another key, of which the hash is the same by chance, or it makes none, as
the frame does not decode to a text. -/
inductive Coincides : Prop
  | bytes (hbytes : ByBytes bridge i) (hother : .raw heard ≠ e.recorded)
      (hhash : (Content.raw heard).hash = e.recorded.hash)
  | text (hdecoded : ¬ ByBytes bridge i) (hown : ¬ Strays bridge (bridge.chan i) heard)
      {content : Content} (hdecodes : Decodes bridge (bridge.chan i) heard content)
      (hother : content ≠ e.recorded) (hhash : content.hash = e.recorded.hash)
  | unread (hdecoded : ¬ ByBytes bridge i)
      (hnone : ∀ content, ¬ Decodes bridge (bridge.chan i) heard content)

variable {bridge e i heard}

/-- The radio goes by the bytes: so does the record, and they came back as they were. -/
theorem raw_of_keyedAlike (hform : Form bridge e)
    (hecho : Echo (bridge.chan e.dest) e.frame heard)
    (halike : KeyedAlike bridge e i heard) (hraw : ByBytes bridge i) :
    e.recorded = .raw heard := by
  by_cases hmeshtastic : (bridge.chan e.dest).protocol = SYNC_WORD_MESHTASTIC
  · exact halike.meshtastic hmeshtastic hraw
  have hverbatim := hecho.verbatim hmeshtastic
  have hbytes : Mesh (bridge.chan e.dest) → e.ByBytes bridge := fun hmesh => by
    rcases halike.mesh hmesh with hiff | ⟨hc2, -⟩
    · exact hiff.mp hraw
    · exact .inl hc2
  cases hform with
  | packed hpacked =>
      generalize hkind : e.kind = kind at hpacked
      generalize hcontent : some e.recorded = recorded at hpacked
      cases hpacked with
      | meshtastic _ hother => exact absurd hother hmeshtastic
      | meshCore htext hmeshCore =>
          exact absurd (hbytes (.inr hmeshCore)) (not_byBytes_of_text (hkind ▸ htext))
      | nodeInfo => cases hcontent
      | uplink => rw [hverbatim, halike.uplink hkind]
  | c2 hkind hrecorded hmagic htype => rw [hrecorded, hverbatim]
  | bytes hkind hrecorded hframe hsource =>
      rw [repeatFrame, if_neg hmeshtastic] at hframe
      rw [hrecorded, hverbatim, hframe]
  | decoded hkind hsameSrc hdecoded hdecodes hframe =>
      have hmesh : Mesh (bridge.chan e.dest) := by
        rw [Mesh, ← (sameChannel_iff.mp hsameSrc).1]
        exact mesh_of_decodes hdecodes
      rcases hbytes hmesh with hc2 | ⟨-, hsource⟩
      · exact absurd (hkind.symm.trans hc2) (by decide)
      · exact absurd hsource hdecoded

/-- The first byte of C2 is no header of MeshCore. -/
theorem decodeMeshCore_of_magic (bridge : Config) (chan : RadioChannel) {frame : List UInt8}
    (hmagic : frame.getD 0 0 = CamC2.MAGIC_VER) : decodeMeshCore bridge chan frame = .refused := by
  have hrefused :
      extractMeshCoreBody bridge.aes chan (.ofList frame) frame.length 256 = .ok none := by
    rw [extractMeshCoreBody, if_neg (by decide)]
    split
    · rfl
    · rename_i hlong
      have hread : Pointer.ofList frame 0 = .ok CamC2.MAGIC_VER := by
        rw [ofList_eq_ok_iff, ← hmagic, List.getD_eq_getElem?_getD,
          List.getElem?_eq_getElem (by omega), Option.getD_some]
      have hheader : payloadOffset (.ofList frame) frame.length = .ok none := by
        rw [payloadOffset, hread]
        rfl
      rw [hheader]
      rfl
  rw [decodeMeshCore, hrefused]

/-- The radio decodes the echo: so was the record, and the frame decodes to it. -/
theorem content_of_keyedAlike (hform : Form bridge e)
    (hsame : sameChannel (bridge.chan e.dest) (bridge.chan i) = true)
    (hecho : Echo (bridge.chan e.dest) e.frame heard)
    (halike : KeyedAlike bridge e i heard) {content : Content}
    (hdecoded : ¬ ByBytes bridge i) (hdecodes : Decodes bridge (bridge.chan i) heard content) :
    content = e.recorded := by
  obtain ⟨hprotocol, -⟩ := sameChannel_iff.mp hsame
  have hmesh : Mesh (bridge.chan e.dest) := by
    rw [Mesh, hprotocol]
    exact mesh_of_decodes hdecodes
  have hown := halike.own.resolve_left hdecoded
  have hframe := decodes_of_echo hsame hecho hdecodes
  rw [← strays_of_echo hsame hecho] at hown
  have hnot : ¬ e.ByBytes bridge := by
    intro hbytes
    rcases halike.mesh hmesh with hiff | ⟨hc2, hmeshCore⟩
    · exact hdecoded (hiff.mpr hbytes)
    · cases hform with
      | c2 hkind hrecorded hmagic htype =>
          cases hframe with
          | meshtastic hother =>
              exact ne_meshtastic_of_meshCore hmeshCore hother
          | stray hother => exact ne_meshtastic_of_meshCore hmeshCore hother
          | meshCore _ hdecode =>
              rw [decodeMeshCore_of_magic bridge _ hmagic] at hdecode
              cases hdecode
      | packed hpacked =>
          rw [hc2] at hpacked
          generalize some e.recorded = recorded at hpacked
          cases hpacked with
          | meshtastic htext => exact absurd htext (by decide)
          | meshCore htext => exact absurd htext (by decide)
      | bytes hkind => exact absurd (hkind.symm.trans hc2) (by decide)
      | decoded hkind => exact absurd (hkind.symm.trans hc2) (by decide)
  cases hform with
  | packed hpacked => exact content_of_packed hpacked hframe
  | c2 hkind => exact absurd (.inl hkind) hnot
  | bytes hkind hrecorded hsent hsource => exact absurd (.inr ⟨hkind, hsource hmesh⟩) hnot
  | decoded hkind hsameSrc hdecodedSrc hdecodesSrc hsent =>
      rename_i buf
      have hback : Echo (bridge.chan e.src) buf e.frame := by
        rw [hsent]
        exact echo_repeatFrame hsameSrc buf
      have hsource := (strays_of_echo hsameSrc hback).not.mpr hown
      exact decodes_unique hsource (decodes_of_echo hsameSrc hback hframe) hdecodesSrc

/-- The echo is known: every question is asked about the recorded hash. -/
theorem agrees_of_known (hform : Form bridge e)
    (hsame : sameChannel (bridge.chan e.dest) (bridge.chan i) = true)
    (hecho : Echo (bridge.chan e.dest) e.frame heard)
    (hknown : KeyedAlike bridge e i heard ∨ Coincides bridge e i heard) :
    Agrees bridge e i heard := by
  intro env state content seen hguarded
  obtain ⟨hasks, -⟩ := guarded_of_ingestAndFanout hguarded
  rcases hknown with halike | hcoincides
  · cases hasks with
    | raw hraw => rw [raw_of_keyedAlike hform hecho halike hraw]
    | decoded hdecoded hdecodes =>
        rw [content_of_keyedAlike hform hsame hecho halike hdecoded hdecodes]
  · cases hcoincides with
    | bytes hbytes _ hhash => rwa [asks_unique (.inl hbytes) hasks (.raw hbytes)]
    | text hdecoded hown hdecodes _ hhash =>
        rwa [asks_unique (.inr hown) hasks (.decoded hdecoded hdecodes)]
    | unread hdecoded hnone =>
        cases hasks with
        | raw hraw => exact absurd hraw hdecoded
        | decoded _ hdecodes => exact absurd hdecodes (hnone _)

/-- No camera takes the echo of another packet than a raw repeat as a command. -/
theorem not_taken (hform : Form bridge e) (hrepeat : e.kind ≠ .rawRepeat)
    (hecho : Echo (bridge.chan e.dest) e.frame heard)
    (hlorawan : (bridge.chan e.dest).protocol ≠ SYNC_WORD_LORAWAN) (env : Env) (state : State) :
    ¬ TakenAsCommand bridge env i heard state := by
  rintro ⟨hcamera, htype, -⟩
  have hbyte : heard.getD 1 0 = e.frame.getD 1 0 := by
    rw [List.getD_eq_getElem?_getD, List.getD_eq_getElem?_getD,
      hecho.relayed.byte 1 (by decide) (by decide) (by decide)]
  rw [hbyte] at htype
  cases hform with
  | packed hpacked =>
      generalize e.kind = kind at hpacked
      generalize e.frame = frame at hpacked htype
      generalize hcontent : some e.recorded = recorded at hpacked
      cases hpacked with
      | meshtastic _ _ _ hencode =>
          rw [encodeMeshtasticText] at hencode
          split at hencode
          · cases hencode
          split at hencode
          · cases hencode
          obtain ⟨rfl, -⟩ := Prod.mk.inj (Option.some.inj hencode)
          exact absurd (show (0xFF : UInt8) = CamC2.T_CMD from htype) (by decide)
      | meshCore _ _ _ hencode =>
          rw [encodeMeshCoreGrpTxt] at hencode
          dsimp only at hencode
          split at hencode
          · cases hencode
          split at hencode
          · cases hencode
          obtain rfl := Option.some.inj hencode
          exact absurd (show (0 : UInt8) = CamC2.T_CMD from htype) (by decide)
      | nodeInfo => cases hcontent
      | uplink hprotocol => exact hlorawan hprotocol
  | c2 hkind hrecorded hmagic hcommand => exact hcommand hcamera htype
  | bytes hkind => exact hrepeat hkind
  | decoded hkind => exact hrepeat hkind

/-- A question about the recorded hash is answered by its window. -/
theorem suppressed_of_agrees (hform : Form bridge e)
    (hsame : sameChannel (bridge.chan e.dest) (bridge.chan i) = true)
    (hecho : Echo (bridge.chan e.dest) e.frame heard)
    (hagrees : Agrees bridge e i heard) : Suppressed bridge e i heard := by
  intro env state calls time htable hlast hkept hwindow htaken run
  have hseen : ∀ n, state.dedup.isSeen e.recorded.hash (WrapClock.ticks (env.millis n)) = true := by
    intro n
    obtain ⟨hle, hlt⟩ := hwindow n
    have hsmall : DedupCache.BRIDGE_DEDUP_TTL_MS.toNat < 2 ^ 32 := UInt32.toNat_lt _
    rw [htable, DedupHistory.isSeen_after_iff]
    refine ⟨time, hlast, ?_, hkept⟩
    rw [UInt32.lt_iff_toNat_lt, WrapClock.toNat_ticks_sub hle, Nat.mod_eq_of_lt (by omega)]
    omega
  have hnone : ∀ kind dest frame content, .sent kind dest frame content ∉ run.outputs := by
    intro kind dest frame content hsent
    rcases sent_of_ingestAndFanout hsent with ⟨⟨hcommand, hlorawan⟩, -⟩ | ⟨asked, hasked, -⟩
    · by_cases hrepeat : e.kind = .rawRepeat
      · exact htaken hrepeat hcommand
      · refine not_taken hform hrepeat hecho (fun hprotocol => hlorawan ?_) env state hcommand
        rw [← (sameChannel_iff.mp hsame).1, hprotocol]
    · obtain ⟨-, n, hfresh⟩ := guarded_of_ingestAndFanout hasked
      rw [hagrees env state _ _ hasked, hseen n] at hfresh
      cases hfresh
  have hconfined := @Confinement.confines_ingestAndFanout bridge env i heard state
  exact ⟨hnone,
    funext fun j => hconfined.queue j fun kind frame content => hnone kind j frame content⟩

/-! ## What an echo is asked about -/

theorem asked_of_unlessSeen (env : Env) (content : Content) (fanout : Dispatch Unit)
    (state : State) :
    ∃ seen, .guarded content seen ∈ ((unlessSeen env content fanout).run state).outputs := by
  rw [run_unlessSeen]
  split
  · exact ⟨true, List.mem_cons_self⟩
  · exact ⟨false, List.mem_cons_self⟩

/-- Without peers C2 leaves every frame. -/
def withoutPeers (state : State) : State :=
  { state with c2 := { state.c2 with config := state.c2.config.setPeers fun _ => .empty } }

theorem leaves_withoutPeers (env : Env) (src : Radio) (buf : List UInt8) (state : State) :
    ((handleInbound bridge env src buf).run (withoutPeers state)).result = false := by
  have hresolve :
      ∀ peerId, CamC2Config.resolve (fun _ => CamC2Config.Peer.empty) peerId = none := by
    intro peerId
    rw [Option.eq_none_iff_forall_ne_some]
    intro slot hslot
    exact (CamC2Config.resolve_eq_some_iff.mp hslot).2.1.1 rfl
  have hauth : ∀ inbound : CamC2.Inbound,
      CamC2.authenticate bridge.device inbound.buf (fun _ => CamC2Config.Peer.empty) = none := by
    intro inbound
    rw [CamC2.authenticate]
    split
    · rfl
    split
    · rfl
    dsimp only
    split
    · rfl
    · rw [hresolve]
      rfl
  have hleft : ∀ (inbound : CamC2.Inbound) (c2 : CamC2.State),
      c2.config.ram.peer = (fun _ => .empty) →
        ((CamC2.handleInbound bridge.device inbound).run c2).result = false := by
    intro inbound c2 hpeers
    rw [CamC2.handleInbound]
    split
    · rfl
    · simp only [CamC2.authInbound, run_bind, run_read, hpeers, hauth, run_pure]
  simp only [handleInbound, run_bind, run_read, run_modify, run_pure]
  refine hleft _ _ ?_
  simp only [inboundOf, ask, nvsWrite, run_bind, run_read, run_modify, run_pure]
  rfl

/-- Where C2 leaves the frame, the rest of the dispatcher asks. -/
theorem asked_of_ingestOther {env : Env} {content : Content}
    (hreticulum : (bridge.chan i).protocol ≠ SYNC_WORD_RETICULUM)
    (hlorawan : (bridge.chan i).protocol ≠ SYNC_WORD_LORAWAN)
    (hother : ∀ state, ∃ seen, .guarded content seen ∈
      ((ingestOther bridge env i heard).run state).outputs) (state : State) :
    ∃ seen, .guarded content seen ∈
      ((ingestAndFanout bridge env i heard).run (withoutPeers state)).outputs := by
  have hleft : ((handleInbound bridge env i heard).run (withoutPeers state)).result = false :=
    leaves_withoutPeers env i heard state
  rw [ingestAndFanout, if_neg hreticulum, if_neg hlorawan]
  split
  · rw [run_bind]
    dsimp only
    rw [hleft, if_neg (by decide)]
    obtain ⟨seen, hasked⟩ :=
      hother ((handleInbound bridge env i heard).run (withoutPeers state)).state
    exact ⟨seen, List.mem_append_right _ hasked⟩
  · exact hother _

/-- A radio that goes by the bytes asks about them. -/
theorem asked_of_byBytes (hbytes : ByBytes bridge i) (env : Env) (state : State)
    (heard : List UInt8) : ∃ seen, .guarded (.raw heard) seen ∈
      ((ingestAndFanout bridge env i heard).run (withoutPeers state)).outputs := by
  by_cases hreticulum : (bridge.chan i).protocol = SYNC_WORD_RETICULUM
  · rw [ingestAndFanout, if_pos hreticulum]
    exact asked_of_unlessSeen _ _ _ _
  by_cases hlorawan : (bridge.chan i).protocol = SYNC_WORD_LORAWAN
  · rw [ingestAndFanout, if_neg hreticulum, if_pos hlorawan]
    exact asked_of_unlessSeen _ _ _ _
  obtain ⟨hcustom, hflag⟩ := (hbytes.resolve_left hreticulum).resolve_left hlorawan
  refine asked_of_ingestOther hreticulum hlorawan (fun state => ?_) state
  rw [ingestOther]
  by_cases hrepeat : bridge.build.customRepeat = true
  · rw [if_pos ⟨hrepeat, hcustom⟩]
    exact asked_of_unlessSeen _ _ _ _
  · rw [if_neg fun h => hrepeat h.1, if_pos ⟨hflag.resolve_left hrepeat, hcustom⟩]
    exact asked_of_unlessSeen _ _ _ _

/-- The environment in which a stray read finds a text. -/
def strayEnv (found : List UInt8) : Env :=
  { exampleEnv with strayBody := fun _ => some (found, none) }

/-- A radio that decodes asks about what the frame decodes to. -/
theorem asked_of_decodes (hdecoded : ¬ ByBytes bridge i) {content : Content}
    (hdecodes : Decodes bridge (bridge.chan i) heard content) :
    ∃ env state seen, .guarded content seen ∈
      ((ingestAndFanout bridge env i heard).run state).outputs := by
  have hreticulum : (bridge.chan i).protocol ≠ SYNC_WORD_RETICULUM := fun h => hdecoded (.inl h)
  have hlorawan : (bridge.chan i).protocol ≠ SYNC_WORD_LORAWAN :=
    fun h => hdecoded (.inr (.inl h))
  have hfirst : ¬ (bridge.build.customRepeat = true ∧ bridge.radioProtocol i = PROTO_CUSTOM) :=
    fun h => hdecoded (.inr (.inr ⟨h.2, .inl h.1⟩))
  have hsecond : ¬ (bridge.build.lwEncode = true ∧ bridge.radioProtocol i = PROTO_CUSTOM) :=
    fun h => hdecoded (.inr (.inr ⟨h.2, .inr h.1⟩))
  have hbody : ∀ (env : Env) (srcId pid : UInt32) (body : List UInt8) (time : Option UInt32)
      (state : State), ∃ seen, .guarded ⟨body, srcId, pid⟩ seen ∈
        ((ingestDecoded bridge env i srcId pid heard body time).run state).outputs := by
    intro env srcId pid body time state
    rw [ingestDecoded, run_bind]
    obtain ⟨seen, hasked⟩ := asked_of_unlessSeen env ⟨body, srcId, pid⟩ _ _
    exact ⟨seen, List.mem_append_right _ hasked⟩
  have hmeshtastic : ∀ (env : Env) (content : Content),
      (bridge.chan i).protocol = SYNC_WORD_MESHTASTIC →
      PassesNodeInfo bridge (bridge.chan i) heard →
      env.strayNames = (fun _ => none) →
      (∀ state, ∃ seen, .guarded content seen ∈ ((ingestBody bridge env i (headerWord heard 4)
        (headerWord heard 8) heard (decodeMeshtastic bridge (bridge.chan i) heard)).run
          state).outputs) →
      ∀ state, ∃ seen, .guarded content seen ∈
        ((ingestOther bridge env i heard).run state).outputs := by
    intro env content hprotocol hinfo hnames hasked state
    rw [ingestOther, if_neg hfirst, if_neg hsecond, if_pos hprotocol, ingestMeshtastic]
    rcases hinfo with ⟨info, hinfo⟩ | hinfo
    · rw [hinfo]
      exact hasked state
    · rw [hinfo]
      simp only [run_bind, hnames, Option.elim_none]
      obtain ⟨seen, hmem⟩ := hasked (ask.run state).state
      exact ⟨seen, List.mem_append_right _ hmem⟩
  cases hdecodes with
  | meshtastic hprotocol hinfo hdecode =>
      refine ⟨exampleEnv, _, asked_of_ingestOther hreticulum hlorawan
        (hmeshtastic exampleEnv _ hprotocol hinfo rfl fun state => ?_) (exampleState bridge)⟩
      rw [hdecode]
      exact hbody _ _ _ _ _ _
  | stray hprotocol hinfo hdecode found =>
      refine ⟨strayEnv found, _, asked_of_ingestOther hreticulum hlorawan
        (hmeshtastic (strayEnv found) _ hprotocol hinfo rfl fun state => ?_) (exampleState bridge)⟩
      rw [hdecode, ingestBody, run_bind]
      obtain ⟨seen, hmem⟩ := hbody (strayEnv found) (headerWord heard 4) (headerWord heard 8)
        (strayText found) none (ask.run state).state
      exact ⟨seen, List.mem_append_right _ hmem⟩
  | meshCore hprotocol hdecode =>
      refine ⟨exampleEnv, _, asked_of_ingestOther hreticulum hlorawan (fun state => ?_)
        (exampleState bridge)⟩
      rw [ingestOther, if_neg hfirst, if_neg hsecond, if_neg (ne_meshtastic_of_meshCore hprotocol),
        if_pos hprotocol, ingestMeshCore, hdecode]
      exact hbody _ _ _ _ _ _

/-- A step of the hash loses nothing of what it has taken in. -/
theorem fnvByte_injective (b : UInt8) : Function.Injective fun h => DedupCache.fnvByte h b := by
  have hinverse : ∀ h, DedupCache.fnvByte h b * 899433627 ^^^ b.toUInt32 = h := by
    intro h
    have hone : (16777619 : UInt32) * 899433627 = 1 := by decide
    rw [DedupCache.fnvByte, UInt32.mul_assoc, hone, UInt32.mul_one, UInt32.xor_assoc,
      UInt32.xor_self, UInt32.xor_zero]
  intro h h' hsame
  rw [← hinverse h, ← hinverse h']
  dsimp only at hsame
  rw [hsame]

/-- Two texts of one sender have different hashes. -/
theorem exists_other_hash (srcId pid hash : UInt32) :
    ∃ found, (Content.mk (strayText found) srcId pid).hash ≠ hash := by
  have hfold : ∀ (bytes : List UInt8),
      Function.Injective fun h => bytes.foldl DedupCache.fnvByte h := by
    intro bytes
    induction bytes with
    | nil => exact fun _ _ h => h
    | cons b rest ih => exact fun h h' hsame => fnvByte_injective b (ih hsame)
  have hhash : ∀ text, (Content.mk text srcId pid).hash =
      (wordBytes pid).foldl DedupCache.fnvByte ((wordBytes srcId).foldl DedupCache.fnvByte
        (text.foldl DedupCache.fnvByte 2166136261)) := fun _ => rfl
  have hempty : strayText [] = [] := rfl
  have hone : strayText [1] = [1] := by decide
  by_contra hall
  push Not at hall
  have hsame := (hall []).trans (hall [1]).symm
  rw [hhash, hhash, hempty, hone] at hsame
  have hstart := hfold _ (hfold _ hsame)
  exact absurd hstart (by decide)

/-- A radio that asks for what was recorded keys its frames like the record. -/
theorem keyedAlike_of_asks (hform : Form bridge e)
    (hsame : sameChannel (bridge.chan e.dest) (bridge.chan i) = true)
    (hecho : Echo (bridge.chan e.dest) e.frame heard)
    (hown : ByBytes bridge i ∨ ¬ Strays bridge (bridge.chan i) heard)
    (hasks : Asks bridge i heard e.recorded) : KeyedAlike bridge e i heard := by
  obtain ⟨hprotocol, -⟩ := sameChannel_iff.mp hsame
  generalize hcontent : e.recorded = content at hasks
  cases hasks with
  | raw hraw =>
      refine ⟨fun hkind => ?_, fun hmesh => .inl (iff_of_true hraw ?_), fun _ _ => hcontent, hown⟩
      · have hlorawan := lorawan_of_uplink hform hkind
        rw [hcontent, hecho.verbatim (by rw [hlorawan]; decide)]
      · exact byBytes_of_recorded hform hmesh hecho.relayed hcontent
  | decoded hdecoded hdecodes =>
      refine ⟨fun hkind => ?_, fun hmesh => .inl (iff_of_false hdecoded fun hbytes => ?_),
        fun _ hraw => absurd hraw hdecoded, hown⟩
      · have hlorawan := lorawan_of_uplink hform hkind
        exact absurd (.inr (.inl (hprotocol.symm.trans hlorawan))) hdecoded
      · obtain ⟨sent, hrecorded, hsent⟩ := recorded_of_byBytes hform hbytes
        have hback : Relayed heard sent := (hsent.trans hecho.relayed).symm
        exact content_ne_raw hdecodes hback (hcontent.symm.trans hrecorded)

/-- An echo that is asked for under the recorded hash is known. -/
theorem known_of_agrees (hform : Form bridge e)
    (hsame : sameChannel (bridge.chan e.dest) (bridge.chan i) = true)
    (hecho : Echo (bridge.chan e.dest) e.frame heard) (hagrees : Agrees bridge e i heard) :
    KeyedAlike bridge e i heard ∨ Coincides bridge e i heard := by
  by_cases hbytes : ByBytes bridge i
  · obtain ⟨seen, hasked⟩ := asked_of_byBytes hbytes exampleEnv (exampleState bridge) heard
    have hhash := hagrees _ _ _ _ hasked
    by_cases hsameKey : .raw heard = e.recorded
    · exact .inl (keyedAlike_of_asks hform hsame hecho (.inl hbytes) (hsameKey ▸ .raw hbytes))
    · exact .inr (.bytes hbytes hsameKey hhash)
  by_cases hstrays : Strays bridge (bridge.chan i) heard
  · obtain ⟨hprotocol, hinfo, hdecode⟩ := hstrays
    obtain ⟨found, hother⟩ :=
      exists_other_hash (headerWord heard 4) (headerWord heard 8) e.recorded.hash
    obtain ⟨env, state, seen, hasked⟩ :=
      asked_of_decodes hbytes (.stray hprotocol hinfo hdecode found)
    exact absurd (hagrees env state _ _ hasked) hother
  by_cases hdecodes : ∃ content, Decodes bridge (bridge.chan i) heard content
  · obtain ⟨content, hdecodes⟩ := hdecodes
    obtain ⟨env, state, seen, hasked⟩ := asked_of_decodes hbytes hdecodes
    have hhash := hagrees env state _ _ hasked
    by_cases hsameKey : content = e.recorded
    · exact .inl (keyedAlike_of_asks hform hsame hecho (.inr hstrays)
        (hsameKey ▸ .decoded hbytes hdecodes))
    · exact .inr (.text hbytes hstrays hdecodes hsameKey hhash)
  · exact .inr (.unread hbytes fun content hcontent => hdecodes ⟨content, hcontent⟩)

end Echo

/-- A packet that comes back on a radio of its channel, relayed or not, is asked for under the
hash that was recorded, and is not sent on while that hash is in its window, exactly if the
radio makes the key that was recorded, or another of which the hash is the same by chance, or
reads no text from the frame. -/
theorem echo_known_iff (bridge : Config) (e : Emission) (hemits : Emits bridge e) (i : Radio)
    (hsame : sameChannel (bridge.chan e.dest) (bridge.chan i) = true) (heard : List UInt8)
    (hecho : Echo (bridge.chan e.dest) e.frame heard) :
    Agrees bridge e i heard ∧ Suppressed bridge e i heard ↔
      KeyedAlike bridge e i heard ∨ Coincides bridge e i heard := by
  have hform := form_of_emits hemits
  constructor
  · rintro ⟨hagrees, -⟩
    exact known_of_agrees hform hsame hecho hagrees
  · intro hknown
    have hagrees := agrees_of_known hform hsame hecho hknown
    exact ⟨hagrees, suppressed_of_agrees hform hsame hecho hagrees⟩

/-- "hi" of another node, repeated by a bridge. -/
def hiEmission : Emission :=
  ⟨.rawRepeat, 0, 1, repeated (RawRepeats.floodBridge false PROTO_MT) RawRepeats.hiFrame,
    ⟨[0x68, 0x69], 5, 9⟩⟩

/-- As it comes back over a third node. -/
def hiEcho : List UInt8 := ((hiEmission.frame.set 12 0x61).set 14 7).set 15 3

theorem hi_echo_known :
    Agrees (RawRepeats.floodBridge false PROTO_MT) hiEmission 2 hiEcho ∧
      Suppressed (RawRepeats.floodBridge false PROTO_MT) hiEmission 2 hiEcho := by
  have hemits : Emits (RawRepeats.floodBridge false PROTO_MT) hiEmission := by
    refine @Emits.repeated _ exampleEnv 0 RawRepeats.hiFrame
      (exampleState (RawRepeats.floodBridge false PROTO_MT)) _ _ _ ?_ ?_
    · decide +kernel
    · decide +kernel
  have hecho : Relayed hiEmission.frame hiEcho := by
    refine ⟨?_, fun i h12 h14 h15 => ?_⟩
    · rw [hiEcho, List.length_set, List.length_set, List.length_set]
    · rw [hiEcho, List.getElem?_set_ne (Ne.symm h15), List.getElem?_set_ne (Ne.symm h14),
        List.getElem?_set_ne (Ne.symm h12)]
  have hdecoded : ∀ i, ¬ ByBytes (RawRepeats.floodBridge false PROTO_MT) i := by
    rintro i (hprotocol | hprotocol | ⟨hcustom, -⟩)
    · exact absurd (show (0x2B : UInt8) = SYNC_WORD_RETICULUM from hprotocol) (by decide)
    · exact absurd (show (0x2B : UInt8) = SYNC_WORD_LORAWAN from hprotocol) (by decide)
    · exact absurd (show PROTO_MT = PROTO_CUSTOM from hcustom) (by decide)
  refine (echo_known_iff _ hiEmission hemits 2 rfl hiEcho (.inr ⟨rfl, hecho⟩)).mpr
    (.inl ⟨?_, ?_, ?_, ?_⟩)
  · exact fun hkind => absurd hkind (by decide)
  · refine fun _ => .inl (iff_of_false (hdecoded 2) ?_)
    rintro (hkind | ⟨-, hbytes⟩)
    · exact absurd hkind (by decide)
    · exact hdecoded 0 hbytes
  · exact fun _ hbytes => absurd hbytes (hdecoded 2)
  · exact .inr fun hstrays => absurd hstrays.2.2 (by decide +kernel)

/-- A Custom radio, and LoRaWAN radios under the ABP identity of the build. -/
def uplinkBridge : Config :=
  { exampleBridge ⟨true, false, false, false, false, false, false, false, false⟩
      (fun i => if i = 0 then PROTO_CUSTOM else PROTO_LORAWAN)
      (fun i => if i = 0 then 0x99 else 0x34) with
    encoder := ⟨Cipher.identityCipher,
      ⟨true, 0x26011BDA, 1, List.Vector.replicate 16 0, List.Vector.replicate 16 0⟩, true⟩ }

/-- The uplink of "hi" on the second radio. -/
def hiUplink : Emission :=
  let frame := [0x40, 0xDA, 0x1B, 0x01, 0x26, 0, 0, 0, 1, 0x69, 0x69, 9, 0xDA, 0x1B, 1]
  ⟨.uplink, 0, 1, frame, ⟨frame, 0x26011BDA, 0⟩⟩

/-- The third radio hears the uplink of the second, and does not know it. -/
theorem uplink_echo_unknown :
    ¬ ∀ (bridge : Config) (e : Emission), Emits bridge e → ∀ i,
      sameChannel (bridge.chan e.dest) (bridge.chan i) = true →
        ∀ heard, Echo (bridge.chan e.dest) e.frame heard → Agrees bridge e i heard := by
  intro hclaim
  have hemits : Emits uplinkBridge hiUplink := by
    refine @Emits.recorded _ exampleEnv 0 [0x68, 0x69] (exampleState uplinkBridge) _ _ _ _ ?_
    decide +kernel
  have hagrees := hclaim uplinkBridge hiUplink hemits 2 rfl hiUplink.frame (.inl rfl)
  have hlorawan : ByBytes uplinkBridge 2 := .inr (.inl rfl)
  obtain ⟨seen, hasked⟩ :=
    asked_of_byBytes hlorawan exampleEnv (exampleState uplinkBridge) hiUplink.frame
  exact absurd (hagrees _ _ _ _ hasked) (by decide +kernel)

end LoraBridge.Echoes
