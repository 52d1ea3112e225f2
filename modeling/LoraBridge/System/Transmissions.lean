import LoraBridge.System.BridgeSystem

/-!
# Why a radio transmits

Every packet in a queue of the bridge has a cause that the routing matrix allows, and one
fate.  What a radio transmits are such packets, in the order they were queued and each at
most once.
-/

namespace LoraBridge.Transmissions

open LoraBridge.Bridge hiding State Event
open LoraBridge.BridgeConfig LoraBridge.Branches LoraBridge.BridgeSystem
open LoraBridge.Ingest LoraBridge.MeshEncoder LoraBridge.QueueAccounting
open LoraBridge.Program hiding run step
open LoraBridge.RadioTask hiding State Config Event Output step start SYNC_WORD_MESHTASTIC
open LoraBridge.RouteQueue (Entry)
open LoraBridge.WrapClock (ticks)

/-! ## Causes -/

/-- What may be queued for a radio for a cause: what the dispatcher may make of a received
frame for a radio it is routed to, the acknowledgement of a command on the radio it came in
on, a C2 frame of the operator on the C2 radio, and a NodeInfo of the bridge on Meshtastic. -/
inductive Justified (setup : Setup) (j : Radio) : Cause → List UInt8 → Prop
  | routed {src : Radio} {buf frame : List UInt8} {asked : Content} {kind : Bridge.Kind}
      {content : Option Content} (hspawned : setup.spawned src = true)
      (hasks : Asks setup.bridge src buf asked)
      (hexplained : explained setup.bridge src buf asked kind j frame content) :
      Justified setup j (.call (.received src buf)) frame
  | acknowledged {buf frame : List UInt8} (hspawned : setup.spawned j = true)
      (hcamera : setup.bridge.device.camera = true) (hcommand : buf.getD 1 0 = CamC2.T_CMD)
      (hack : frame.getD 1 0 = CamC2.T_ACK) :
      Justified setup j (.call (.received j buf)) frame
  | message {peerId : UInt32} {text : Option (List UInt8)} {frame : List UInt8}
      (hradio : j = C2_RADIO) (htype : frame.getD 1 0 = CamC2.T_MSG) :
      Justified setup j (.call (.message peerId text)) frame
  | command {camId : UInt32} {cmd : UInt8} {args frame : List UInt8}
      (hradio : j = C2_RADIO) (htype : frame.getD 1 0 = CamC2.T_CMD) :
      Justified setup j (.call (.command camId cmd args)) frame
  | nodeInfo {frame : List UInt8} (random : UInt32)
      (hprotocol : (setup.bridge.chan j).protocol = Bridge.SYNC_WORD_MESHTASTIC)
      (hencode : encodeMeshtasticNodeInfo setup.bridge.aes (setup.bridge.chan j)
        setup.bridge.mtNodeId setup.mtNodeIdStr setup.mtLongName setup.mtShortName 256 random =
          some frame) : Justified setup j .nodeInfo frame

section Causes

variable {setup : Setup} {env : Env} {j : Radio}

/-- A frame of one type on one radio. -/
def onRadio (radioIdx : ℤ) (type : UInt8) (output : CamC2.Output) : Prop :=
  ∃ frame, output = .emitted radioIdx frame ∧ frame.getD 1 0 = type

theorem emitsOnly_sendSealed (device : CamC2.Device) (radioIdx : ℤ) (type : UInt8)
    (recipientId : UInt32) (psk payload : List UInt8) (txWrite : ReserveAhead.Write)
    (queued : Bool) :
    (CamC2.sendSealed device radioIdx type recipientId psk payload txWrite queued).Respects
      (.emitsOnly _ (onRadio radioIdx type)) := by
  intro state output hmem
  have hrun := CamC2.run_sendSealed device ⟨type, recipientId, psk, payload⟩ radioIdx txWrite
    queued state
  simp only at hrun
  rw [hrun] at hmem
  obtain ⟨seq, -, rfl⟩ := List.mem_map.mp hmem
  exact ⟨_, rfl, (CamC2.fields_encode _ _ _).1⟩

theorem emitsOnly_sendMessage (device : CamC2.Device) (radioIdx : ℤ) (peerId : UInt32)
    (text : Option (List UInt8)) (txWrite : ReserveAhead.Write) (queued : Bool) :
    (CamC2.sendMessage device radioIdx peerId text txWrite queued).Respects
      (.emitsOnly _ (onRadio radioIdx CamC2.T_MSG)) := by
  unfold CamC2.sendMessage
  split
  · exact respects_pure _
  · refine respects_ite (fun _ => respects_pure _) fun _ => ?_
    refine respects_bind (respects_read _) fun peer => ?_
    split
    · exact respects_pure _
    · exact respects_bind (emitsOnly_sendSealed _ _ _ _ _ _ _ _) fun _ => respects_pure _

theorem emitsOnly_sendCommand (device : CamC2.Device) (radioIdx : ℤ) (camId : UInt32)
    (cmd : UInt8) (args : List UInt8) (txWrite : ReserveAhead.Write) (queued : Bool) :
    (CamC2.sendCommand device radioIdx camId cmd args txWrite queued).Respects
      (.emitsOnly _ (onRadio radioIdx CamC2.T_CMD)) := by
  refine respects_ite (fun _ => respects_pure _) fun _ => ?_
  refine respects_bind (respects_read _) fun peer => ?_
  split
  · exact respects_pure _
  · refine respects_ite (fun _ => respects_pure _) fun _ => ?_
    exact respects_bind (emitsOnly_sendSealed _ _ _ _ _ _ _ _) fun _ => respects_pure _

/-- The packets of an operator's call. -/
def operated (type : UInt8) : Sends.Allowed := fun _ dest frame _ =>
  dest = C2_RADIO ∧ frame.getD 1 0 = type

theorem sends_operate {type : UInt8}
    {call : ReserveAhead.Write → Program CamC2.State CamC2.Output Bool}
    (hemits : ∀ txWrite, (call txWrite).Respects
      (.emitsOnly _ (onRadio C2_RADIO.val type))) :
    (operate env call).Respects (Sends.sendsOnly (operated type)) := by
  refine respects_bind (Sends.sends_of_still Sends.still_nvsWrite) fun txWrite => ?_
  refine respects_bind_result (respects_read _) fun state => ?_
  refine respects_bind (Sends.sends_modify fun _ => rfl) fun _ => ?_
  refine respects_forEach fun output hmem => ?_
  obtain ⟨frame, rfl, htype⟩ := hemits txWrite state.c2 output hmem
  exact Sends.sends_camC2Emit ⟨rfl, htype⟩

/-- Whatever a call gets onto a queue is justified by the call. -/
theorem justified_dispatch (call : Call) {state : Bridge.State} {kind : Bridge.Kind}
    {frame : List UInt8} {content : Option Content}
    (hsent : .sent kind j frame content ∈ ((call.dispatch setup env).run state).outputs) :
    Justified setup j (.call call) frame := by
  cases call with
  | received src buf =>
      rw [Call.dispatch] at hsent
      split at hsent
      · rename_i hspawned
        rcases sent_of_ingestAndFanout hsent with
          ⟨⟨⟨hcamera, hcommand, -⟩, -⟩, -, rfl, -, -, hack⟩ | ⟨asked, hguarded, hexplained⟩
        · exact .acknowledged hspawned hcamera hcommand hack
        · exact .routed hspawned (guarded_of_ingestAndFanout hguarded).1 hexplained
      · cases hsent
  | message peerId text =>
      have hsends : (operate env _).Respects (Sends.sendsOnly (operated CamC2.T_MSG)) :=
        sends_operate fun txWrite =>
          emitsOnly_sendMessage setup.bridge.device C2_RADIO.val peerId text txWrite true
      obtain ⟨_, _, _, _, heq, hradio, htype⟩ := (hsends state).1 _ hsent
      cases heq
      exact .message hradio htype
  | command camId cmd args =>
      have hsends : (operate env _).Respects (Sends.sendsOnly (operated CamC2.T_CMD)) :=
        sends_operate fun txWrite =>
          emitsOnly_sendCommand setup.bridge.device C2_RADIO.val camId cmd args txWrite true
      obtain ⟨_, _, _, _, heq, hradio, htype⟩ := (hsends state).1 _ hsent
      cases heq
      exact .command hradio htype

/-! ## Turns -/

/-- CAD and TX push nothing. -/
theorem byTask_schedule {cap : ℕ} (settings : Settings) (config : RadioTask.Config)
    (turn : Turn) (state : RadioTask.State cap) :
    ∀ output ∈ (schedule settings config turn state).2, byTask output = true := by
  unfold schedule
  split
  · simp
  · split
    · unfold attempt
      split
      · simp [byTask]
      · split
        · simp [byTask]
        · split <;> simp [byTask]
    · simp

/-- A turn pushes nothing but the NodeInfo, on Meshtastic. -/
theorem pushed_radioTask {cap : ℕ} {settings : Settings} {config : RadioTask.Config}
    {turn : Turn} {state : RadioTask.State cap} (hearly : turn.early = [])
    (hlate : turn.late = []) {entry : Entry}
    (hpushed : .pushed entry ∈ (radioTask settings config turn state).2) :
    config.protocol = SYNC_WORD_MESHTASTIC ∧
      ∃ packet, turn.nodeInfo = some packet ∧ entry.data = packet.data := by
  have hnone : ∀ task : RadioTask.State cap, Machine.run pushOne task [] = (task, []) :=
    fun _ => rfl
  unfold radioTask at hpushed
  split at hpushed
  · simp [andThen, hearly, hlate, hnone] at hpushed
  · simp only [andThen, atGate, received, hearly, hlate, hnone, List.nil_append,
      List.append_nil, List.mem_append] at hpushed
    rcases hpushed with (hnodeInfo | hexpired) | hscheduled
    · unfold queueNodeInfo at hnodeInfo
      split at hnodeInfo
      · rename_i hdue
        refine ⟨hdue.1, ?_⟩
        cases hpacket : turn.nodeInfo with
        | none => simp [hpacket, andThen, hnone] at hnodeInfo
        | some packet =>
            simp only [hpacket, andThen, Option.toList_some, Machine.run,
              List.append_nil] at hnodeInfo
            rcases pushOne_cases state packet with heq | ⟨queue, -, heq⟩
            · simp [heq] at hnodeInfo
            · rw [heq, List.mem_singleton, RadioTask.Output.pushed.injEq] at hnodeInfo
              exact ⟨packet, rfl, congrArg Entry.data hnodeInfo⟩
      · cases hnodeInfo
    · rcases expire_cases settings turn
          (latch turn (queueNodeInfo config turn state).1) with ⟨heq, -⟩ | ⟨_, -, -, heq⟩
      · simp [heq] at hexpired
      · simp [heq] at hexpired
    · cases byTask_schedule settings config turn _ _ hscheduled

/-- Everything in the log has its reason. -/
structure Reasons (setup : Setup) (log : List Output) : Prop where
  handed : ∀ cause j frame, .handed cause j frame ∈ log → Justified setup j cause frame
  task : ∀ j output, .task j output ∈ log → setup.spawned j = true

theorem Reasons.append {before after : List Output} (hbefore : Reasons setup before)
    (hafter : Reasons setup after) : Reasons setup (before ++ after) where
  handed cause j frame hmem := (List.mem_append.mp hmem).elim (hbefore.handed cause j frame)
    (hafter.handed cause j frame)
  task j output hmem := (List.mem_append.mp hmem).elim (hbefore.task j output)
    (hafter.task j output)

theorem reasons_call (state : State) (call : Call) :
    Reasons setup (step setup state (.call env call)).2 where
  handed cause j frame hmem := by
    obtain ⟨event, hevent, hhanded⟩ := List.mem_filterMap.mp hmem
    cases event with
    | guarded content seen => cases hhanded
    | sent kind dest sent content =>
        cases hhanded
        exact justified_dispatch call hevent
  task j output hmem := by
    obtain ⟨event, -, htask⟩ := List.mem_filterMap.mp hmem
    cases event with
    | guarded content seen => cases htask
    | sent kind dest sent content => cases htask

theorem reasons_turn (state : State) (i : Radio) (turn : Turn) (random : UInt32)
    (pushAt : ℕ) : Reasons setup (step setup state (.turn i turn random pushAt)).2 := by
  by_cases hspawned : setup.spawned i = true
  · simp only [step, hspawned, if_true]
    constructor
    · intro cause j frame hmem
      obtain ⟨output, houtput, hhanded⟩ := List.mem_map.mp hmem
      cases output with
      | pushed entry =>
          cases hhanded
          obtain ⟨hprotocol, packet, hpacket, hdata⟩ := pushed_radioTask rfl rfl houtput
          obtain ⟨niPkt, hencode, rfl⟩ := Option.map_eq_some_iff.mp hpacket
          rw [hdata]
          exact .nodeInfo random hprotocol hencode
      | scanned => cases hhanded
      | backedOff time wait => cases hhanded
      | started entry time gap => cases hhanded
      | dropped reason entry => cases hhanded
    · intro j output hmem
      obtain ⟨done, -, htask⟩ := List.mem_map.mp hmem
      cases done with
      | pushed entry => cases htask
      | scanned => cases htask; exact hspawned
      | backedOff time wait => cases htask; exact hspawned
      | started entry time gap => cases htask; exact hspawned
      | dropped reason entry => cases htask; exact hspawned
  · simp only [step, hspawned, Bool.false_eq_true, if_false]
    exact ⟨fun _ _ _ hmem => absurd hmem List.not_mem_nil,
      fun _ _ hmem => absurd hmem List.not_mem_nil⟩

theorem reasons_life (setup : Setup) (power : PowerUp) (events : List Event) :
    Reasons setup (life setup power events).2 := by
  have hstep : ∀ (state : State) log event, Reasons setup log →
      Reasons setup (log ++ (step setup state event).2) := by
    intro state log event hreasons
    refine hreasons.append ?_
    cases event with
    | call env call => exact reasons_call state call
    | turn i turn random pushAt => exact reasons_turn state i turn random pushAt
  have hstart : Reasons setup [] := ⟨fun _ _ _ hmem => absurd hmem List.not_mem_nil,
    fun _ _ hmem => absurd hmem List.not_mem_nil⟩
  simpa [life] using Machine.invariant_run_always hstep events hstart

end Causes

/-! ## Fates -/

section Fates

/-- The frames of one fate, in the order they were queued. -/
def ofFate (fate : Fate) (ledger : List ((Cause × List UInt8) × Fate)) : List (List UInt8) :=
  (ledger.filter fun row => row.2 = fate).map fun row => row.1.2

/-- Packets and their fates, told by their bytes. -/
theorem ofFate_zip (fate : Fate) (handed : List (Cause × List UInt8)) (ledger : Ledger)
    (hsame : handed.map Prod.snd = (ledger.map Prod.fst).map Entry.data) :
    ofFate fate (handed.zip (ledger.map Prod.snd)) =
      (withFate fate ledger).map Entry.data := by
  induction handed generalizing ledger with
  | nil =>
      obtain rfl : ledger = [] := by simpa using hsame
      rfl
  | cons first rest ih =>
      cases ledger with
      | nil => cases hsame
      | cons row rows =>
          rw [List.map_cons, List.map_cons, List.map_cons, List.cons.injEq] at hsame
          have hrest := ih rows hsame.2
          by_cases hfate : row.2 = fate
          · simpa [ofFate, hfate, hsame.1] using hrest
          · simpa [ofFate, hfate] using hrest

theorem startedOf_byTask (outputs : List RadioTask.Output) :
    startedOf (outputs.filter byTask) = startedOf outputs := by
  induction outputs with
  | nil => rfl
  | cons output rest ih => cases output <;> simp [List.filter_cons, byTask, ih]

theorem droppedOf_byTask (reason : Drop) (outputs : List RadioTask.Output) :
    droppedOf reason (outputs.filter byTask) = droppedOf reason outputs := by
  induction outputs with
  | nil => rfl
  | cons output rest ih => cases output <;> simp [List.filter_cons, byTask, ih]

end Fates

/-- In every run of the bridge, with any frames received in any order, any calls of the
operator and any turns of the tasks in between: each packet that a queue took has a cause
that the routing matrix allows and exactly one fate, and what a radio transmitted, what its
task gave up, what is latched and what is queued are the packets of that fate in the order
they were queued.  A radio without a task transmits nothing. -/
theorem packets_accounted (setup : Setup) (power : PowerUp) (events : List Event) (j : Radio) :
    let last := (life setup power events).1
    let log := (life setup power events).2
    (∀ cause frame, (cause, frame) ∈ handedTo j log → Justified setup j cause frame) ∧
      (transmitted j log ≠ [] → setup.spawned j = true) ∧
      ∃ ledger : List ((Cause × List UInt8) × Fate),
        ledger.map Prod.fst = handedTo j log ∧
        transmitted j log = ofFate .transmitted ledger ∧
        (last.bridge.queue j).entries.map Entry.data = ofFate .queued ledger ∧
        (last.scheduler j).pending.toList.map Entry.data = ofFate .latched ledger ∧
        (last.bridge.queue j).dropped =
          UInt32.ofNat ((ofFate .overflow ledger).length + (ofFate .stale ledger).length) ∧
        ∀ reason, (droppedOf reason (taskOf j log)).map Entry.data =
          ofFate (.logged reason) ledger := by
  intro last log
  have hreasons := reasons_life setup power events
  obtain ⟨moves, hagrees⟩ := alone_life setup power events j
  have haccounted : Accounted (radioLife setup power j moves).1
      ([] ++ (radioLife setup power j moves).2) :=
    invariant_accounted.run [] moves (accounted_start _ _ _ _)
  rw [List.nil_append] at haccounted
  obtain ⟨settled, skipped, hshape⟩ := haccounted
  have haccounts := hshape.accounts
  generalize ledgerOf (radioLife setup power j moves).1 settled skipped = ledger at haccounts
  have hsame : (handedTo j log).map Prod.snd = (ledger.map Prod.fst).map Entry.data := by
    rw [hagrees.pushed, haccounts.pushed]
  have hfate := fun fate => ofFate_zip fate (handedTo j log) ledger hsame
  have hstarted : startedOf (taskOf j log) = withFate .transmitted ledger := by
    rw [hagrees.outputs, startedOf_byTask, haccounts.transmitted]
  have hqueue : last.bridge.queue j = (radioLife setup power j moves).1.queue :=
    congrArg RadioTask.State.queue hagrees.state
  have hpending : (last.scheduler j).pending = (radioLife setup power j moves).1.pending :=
    congrArg RadioTask.State.pending hagrees.state
  refine ⟨fun cause frame hmem => ?_, fun hsome => ?_, (handedTo j log).zip (ledger.map Prod.snd),
    ?_, ?_, ?_, ?_, ?_, fun reason => ?_⟩
  · obtain ⟨output, houtput, hhanded⟩ := List.mem_filterMap.mp hmem
    cases output with
    | task i output => cases hhanded
    | handed cause' i frame' =>
        dsimp only at hhanded
        split at hhanded
        · rename_i hi
          cases hhanded
          exact hi ▸ hreasons.handed _ _ _ houtput
        · cases hhanded
  · obtain ⟨output, houtput⟩ : ∃ output, output ∈ taskOf j log := by
      refine List.exists_mem_of_ne_nil _ fun hnone => hsome ?_
      rw [transmitted, hnone]
      rfl
    obtain ⟨seen, hseen, htask⟩ := List.mem_filterMap.mp houtput
    cases seen with
    | handed cause i frame => cases htask
    | task i output' =>
        dsimp only at htask
        split at htask
        · rename_i hi
          exact hi ▸ hreasons.task _ _ hseen
        · cases htask
  · have hlength : (handedTo j log).length = (ledger.map Prod.snd).length := by
      simpa using congrArg List.length hsame
    exact List.map_fst_zip hlength.le
  · rw [hfate, transmitted, hstarted]
  · rw [hfate, hqueue, haccounts.queued]
  · rw [hfate, hpending, haccounts.latched]
  · rw [hfate, hfate, hqueue, haccounts.counted, List.length_map, List.length_map]
  · rw [hfate, hagrees.outputs, droppedOf_byTask, haccounts.logged]

end LoraBridge.Transmissions
