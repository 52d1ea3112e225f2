import LoraBridge.Dispatch.EncodedTexts

/-!
# Texts from one mesh to another

What `enqueueTextForDest` wants to tell the other mesh is the text behind the name of its
sender, or the text behind a name put in front of it.  Nothing is cut: a text that is longer
than its encoder allows is not sent, and an empty one is sent as a packet that no extractor
reads.
-/

namespace LoraBridge.TextDelivery

open LoraBridge.Bridge LoraBridge.BridgeConfig LoraBridge.EncodedTexts LoraBridge.Enqueue
open LoraBridge.Memory LoraBridge.Print LoraBridge.Program LoraBridge.Sends
open LoraBridge.NodeDB hiding State
open LoraBridge.CharArray LoraBridge.ChannelKeys LoraBridge.VirtualNodeMap

/-! ## What is meant -/

section Intended

variable (bridge : Config) (env : Env) (src dest : Radio) (srcId : UInt32)

/-- The name a Meshtastic sender goes by on MeshCore. -/
def senderOf (state : State) : List UInt8 :=
  let name := (lookupShortName srcId (MAX_SHORT_NAME + 1)
    (WrapClock.ticks (env.millis state.asked)) state.nodes).1.getD []
  if name ≠ [] then name else ascii "!" ++ hex8 srcId

/-- The text for a Meshtastic radio: a sender's name that was found goes into the header. -/
def intendedMeshtastic (body : List UInt8) : List UInt8 :=
  if bridge.build.identityPreserve ∧ (bridge.chan src).protocol = SYNC_WORD_MESHCORE then
    cString ((parseMcSenderName body (MAX_LONG_NAME + 1)).elim body Prod.snd)
  else cString body

/-- The text for a MeshCore radio: the sender's name goes in front. -/
def intendedMeshCore (state : State) (body : List UInt8) : List UInt8 :=
  if bridge.build.identityPreserve ∧ (bridge.chan src).protocol = SYNC_WORD_MESHTASTIC then
    senderOf env srcId state ++
      (if bridge.build.tagOriginProto then ascii "@MT: " else ascii ": ") ++ cString body
  else cString body

def intended (state : State) (body : List UInt8) : List UInt8 :=
  if (bridge.chan dest).protocol = SYNC_WORD_MESHTASTIC then intendedMeshtastic bridge src body
  else intendedMeshCore bridge env src srcId state body

/-- A packet is queued for the radio that decodes to a non-empty prefix of the text. -/
def Delivered (state : State) (body : List UInt8) : Prop :=
  ∃ frame content text,
    .sent .text dest frame content ∈
        ((enqueueTextForDest bridge env src srcId dest body).run state).outputs ∧
      text ≠ [] ∧ text <+: intended bridge env src dest srcId state body ∧
        DecodesTo bridge (bridge.chan dest) frame text

end Intended

/-! ## What goes out besides -/

/-- No text is sent, and every queue keeps its ring. -/
def quiet : Contract State Event where
  holds first outputs last :=
    (∀ j frame content, .sent .text j frame content ∉ outputs) ∧
      ∀ j, allocated last j = allocated first j
  nil _ := ⟨fun _ _ _ => List.not_mem_nil, fun _ => rfl⟩
  append hbefore hafter :=
    ⟨fun j frame content hmem => (List.mem_append.mp hmem).elim (hbefore.1 j frame content)
      (hafter.1 j frame content), fun j => (hafter.2 j).trans (hbefore.2 j)⟩

section Quiet

variable {Result : Type} {env : Env} {dest : Radio}

theorem quiet_of_still {program : Dispatch Result} (hstill : program.Respects still) :
    program.Respects quiet := fun state =>
  ⟨fun _ _ _ hmem => absurd ((hstill state).1 ▸ hmem) List.not_mem_nil,
    rings_of_still hstill state⟩

theorem quiet_modify {change : State → State}
    (hqueue : ∀ state, (change state).queue = state.queue) :
    (modify change : Dispatch Unit).Respects quiet :=
  respects_modify fun state => ⟨fun _ _ _ => List.not_mem_nil, fun j => by
    rw [allocated, allocated, hqueue]⟩

theorem permits_quiet : Permits env dest quiet where
  still := quiet_of_still
  modify := quiet_modify
  nodeInfo frame := by
    have hsends : (push env .nodeInfo dest frame none).Respects
        (sendsOnly fun kind _ _ _ => kind = .nodeInfo) := sends_push rfl
    refine fun state => ⟨fun j frame content hmem => ?_, rings_push none state⟩
    obtain ⟨kind, dest', frame', content', heq, rfl⟩ := (hsends state).1 _ hmem
    cases heq

end Quiet

/-! ## What is encoded -/

section Encoded

variable (bridge : Config) (env : Env) (src dest : Radio) (srcId : UInt32)

/-- A name that is looked up is a string that fits. -/
theorem lookupShortName_spec (srcId : UInt32) (outCap : ℕ) (now : UInt32) (nodes : NodeDB.State) :
    let name := (lookupShortName srcId outCap now nodes).1.getD []
    0 ∉ name ∧ name.length ≤ outCap - 1 := by
  rw [lookupShortName]
  cases nodes.table.slotOf srcId with
  | none => exact ⟨List.not_mem_nil, Nat.zero_le _⟩
  | some slot =>
      exact ⟨fun hmem => CharArray.notMem_cString _ (List.mem_of_mem_take hmem),
        List.length_take_le _ _⟩

/-- A sender's name is a short string. -/
theorem senderOf_spec (state : State) :
    0 ∉ senderOf env srcId state ∧ (senderOf env srcId state).length ≤ 9 := by
  obtain ⟨hname, hlength⟩ := lookupShortName_spec srcId (MAX_SHORT_NAME + 1)
    (WrapClock.ticks (env.millis state.asked)) state.nodes
  rw [senderOf]
  split
  · exact ⟨hname, hlength.trans (by decide)⟩
  · refine ⟨fun hmem => ?_, ?_⟩
    · exact (List.mem_append.mp hmem).elim (by decide) (notMem_hex8 srcId)
    · rw [List.length_append, hex8, length_hexDigits]
      decide

/-- The sender's name is looked up before anything else. -/
theorem run_senderName (state : State) :
    ((senderName env srcId).run state).result = senderOf env srcId state := by
  have hshort : (senderOf env srcId state).length ≤ 23 :=
    (senderOf_spec env srcId state).2.trans (by decide)
  rw [← List.take_of_length_le hshort]
  rfl

theorem result_meshtasticSender (body : List UInt8) (state : State) :
    cString ((meshtasticSender bridge env src dest body).run state).result.2 =
      intendedMeshtastic bridge src body := by
  rw [meshtasticSender, intendedMeshtastic]
  split
  · cases parseMcSenderName body (MAX_LONG_NAME + 1) with
    | none =>
        dsimp only
        split
        · simp only [run_bind, run_pure, Option.elim_none]
        · rfl
    | some found => simp only [run_bind, run_pure, Option.elim_some]
  · rfl

/-- A text that is too long for `xbody[256]` is cut, and still too long. -/
theorem result_meshCoreBody (body : List UInt8) (state : State) :
    cString ((meshCoreBody bridge env src srcId body).run state).result =
        intendedMeshCore bridge env src srcId state body ∨
      218 < (cString ((meshCoreBody bridge env src srcId body).run state).result).length ∧
        218 < (intendedMeshCore bridge env src srcId state body).length := by
  rw [meshCoreBody, intendedMeshCore]
  split
  · have hsender := (senderOf_spec env srcId state).1
    simp only [run_bind, run_pure, run_senderName]
    have hprefix : 0 ∉ senderOf env srcId state ++
        (if bridge.build.tagOriginProto then ascii "@MT: " else ascii ": ") := by
      rw [List.mem_append]
      rintro (hmem | hmem)
      · exact hsender hmem
      · split at hmem <;> exact absurd hmem (by decide)
    rw [snprintf, cString_take, cString_append_of_notMem hprefix]
    generalize _ ++ cString body = text
    by_cases hlength : text.length ≤ 255
    · exact .inl (List.take_of_length_le hlength)
    · refine .inr ⟨?_, by omega⟩
      rw [List.length_take]
      omega
  · exact .inl rfl

/-- The packet for a mesh is one for the text that is meant. -/
theorem packs_textPacket (hmesh : Mesh (bridge.chan dest)) (body : List UInt8) (state : State) :
    Packs bridge dest (intended bridge env src dest srcId state body)
      ((textPacket bridge env src srcId dest body).run state).result := by
  rcases hmesh with hprotocol | hprotocol
  · rw [intended, textPacket, if_pos hprotocol, if_pos hprotocol, run_bind,
      ← result_meshtasticSender bridge env src dest body state]
    exact packs_meshtasticPacket hprotocol _ _ _
  · have hother : (bridge.chan dest).protocol ≠ SYNC_WORD_MESHTASTIC :=
      ne_meshtastic_of_meshCore hprotocol
    rw [intended, textPacket, if_neg hother, if_neg hother, if_pos hprotocol, run_bind]
    have hpacks := @packs_meshCorePacket bridge env dest hprotocol
      ((meshCoreBody bridge env src srcId body).run state).result
      ((meshCoreBody bridge env src srcId body).run state).state
    rcases result_meshCoreBody bridge env src srcId body state with heq | ⟨hlong, hmeant⟩
    · rwa [heq] at hpacks
    · rw [Packs, textLimit, if_neg hother, if_neg (by omega)] at hpacks ⊢
      exact hpacks

/-- What is seen of a call: nothing of a text that is too long, and else its packet, if the
queue has a ring. -/
theorem outputs_enqueueTextForDest (hmesh : Mesh (bridge.chan dest)) (body : List UInt8)
    (state : State) :
    ∃ before, (∀ j frame content, .sent .text j frame content ∉ before) ∧
      if (intended bridge env src dest srcId state body).length ≤ textLimit (bridge.chan dest) then
        ∃ packet, Carries bridge dest (intended bridge env src dest srcId state body) packet ∧
          ((enqueueTextForDest bridge env src srcId dest body).run state).outputs =
            before ++ if allocated state dest then
              [.sent .text dest packet.frame (some packet.content)] else []
      else ((enqueueTextForDest bridge env src srcId dest body).run state).outputs = before := by
  have hreticulum : (bridge.chan dest).protocol ≠ SYNC_WORD_RETICULUM := by
    rcases hmesh with h | h <;> rw [h] <;> decide
  have hlorawan : (bridge.chan dest).protocol ≠ SYNC_WORD_LORAWAN := by
    rcases hmesh with h | h <;> rw [h] <;> decide
  obtain ⟨hquiet, hrings⟩ :=
    @Permits.textPacket bridge env src dest quiet permits_quiet srcId body state
  have hpacks := packs_textPacket bridge env src dest srcId hmesh body state
  rw [enqueueTextForDest, if_neg hreticulum, if_neg hlorawan, run_bind]
  refine ⟨_, hquiet, ?_⟩
  rw [Packs] at hpacks
  split
  · rename_i hfits
    rw [if_pos hfits] at hpacks
    obtain ⟨packet, hresult, hcarries⟩ := hpacks
    refine ⟨packet, hcarries, ?_⟩
    simp only [hresult, run_bind, run_pure, List.append_nil,
      outputs_recordAndPush hcarries.pos hcarries.le, hrings dest]
  · rename_i hlong
    rw [if_neg hlong] at hpacks
    simp only [hpacks, run_pure, List.append_nil]

/-- A text that is too long goes out in no packet. -/
theorem not_sent_of_long (hmesh : Mesh (bridge.chan dest)) {body : List UInt8} {state : State}
    (hlong : textLimit (bridge.chan dest) <
      (intended bridge env src dest srcId state body).length) (j : Radio) (frame : List UInt8)
    (content : Option Content) :
    .sent .text j frame content ∉
      ((enqueueTextForDest bridge env src srcId dest body).run state).outputs := by
  obtain ⟨before, hbefore, houtputs⟩ := outputs_enqueueTextForDest bridge env src dest srcId hmesh
    body state
  rw [if_neg (Nat.not_le.mpr hlong)] at houtputs
  exact houtputs ▸ hbefore j frame content

end Encoded

/-- A text reaches the other mesh exactly if there is something to tell, the encoder takes it
whole, and the queue of the radio has its memory. -/
theorem delivered_iff (bridge : Config) (env : Env) (state : State) (src dest : Radio)
    (srcId : UInt32) (body : List UInt8) (hmesh : Mesh (bridge.chan dest)) :
    Delivered bridge env src dest srcId state body ↔
      0 < (intended bridge env src dest srcId state body).length ∧
        (intended bridge env src dest srcId state body).length ≤ textLimit (bridge.chan dest) ∧
        allocated state dest = true := by
  obtain ⟨before, hbefore, houtputs⟩ := outputs_enqueueTextForDest bridge env src dest srcId hmesh
    body state
  constructor
  · rintro ⟨frame, content, text, hmem, hnonempty, hprefix, -⟩
    have hpos := List.length_pos_of_ne_nil hnonempty
    have hfits := Nat.le_of_not_lt fun hlong =>
      not_sent_of_long bridge env src dest srcId hmesh hlong dest frame content hmem
    rw [if_pos hfits] at houtputs
    obtain ⟨packet, -, hrun⟩ := houtputs
    refine ⟨hpos.trans_le hprefix.length_le, hfits, ?_⟩
    by_contra hring
    rw [hrun, if_neg hring, List.append_nil] at hmem
    exact hbefore dest frame content hmem
  · rintro ⟨hpos, hfits, hring⟩
    rw [if_pos hfits] at houtputs
    obtain ⟨packet, hcarries, hrun⟩ := houtputs
    have hnonempty := List.ne_nil_of_length_pos hpos
    refine ⟨packet.frame, some packet.content, _, ?_, hnonempty, List.prefix_refl _,
      hcarries.decodes hnonempty⟩
    rw [hrun, if_pos hring]
    exact List.mem_append_right _ (List.mem_singleton_self _)

theorem hi_delivered : Delivered meshBridge exampleEnv 0 1 0 (exampleState meshBridge)
    (ascii "hi") := by
  refine (delivered_iff _ _ _ _ _ _ _ (.inl protocol_one)).mpr ⟨by decide, by decide, rfl⟩

/-- One byte more than Meshtastic takes. -/
def longText : List UInt8 := List.replicate 201 0x41

theorem length_longText : longText.length = 201 := List.length_replicate

theorem cString_longText : cString longText = longText :=
  cString_of_notMem fun hmem => absurd (List.eq_of_mem_replicate hmem) (by decide)

theorem longText_not_delivered :
    ¬ ∀ (bridge : Config) (env : Env) (state : State) (src dest : Radio) (srcId : UInt32)
      (body : List UInt8), (∃ frame, DecodesTo bridge (bridge.chan src) frame body) →
        bridge.routes src dest = true → sameChannel (bridge.chan src) (bridge.chan dest) = false →
        allocated state dest = true → Mesh (bridge.chan dest) →
          Delivered bridge env src dest srcId state body := by
  intro hclaim
  have hreceived : ∃ frame, DecodesTo meshBridge (meshBridge.chan 0) frame longText := by
    refine exists_decodesTo exampleEnv (exampleState meshBridge) protocol_zero ?_ ?_ ?_
    · exact fun hmem => absurd (List.eq_of_mem_replicate hmem) (by decide)
    · exact List.ne_nil_of_length_pos (length_longText ▸ (by decide))
    · rw [length_longText]
      decide
  have hmeant : intended meshBridge exampleEnv 0 1 0 (exampleState meshBridge) longText =
      longText := by
    rw [intended, if_pos protocol_one, intendedMeshtastic, if_neg (by decide), cString_longText]
  obtain ⟨frame, content, text, hmem, -⟩ := hclaim meshBridge exampleEnv (exampleState meshBridge)
    0 1 0 longText hreceived (by decide) (by decide) rfl (.inl protocol_one)
  refine not_sent_of_long meshBridge exampleEnv 0 1 0 (.inl protocol_one) ?_ 1 frame content hmem
  rw [hmeant, length_longText]
  decide

end LoraBridge.TextDelivery
