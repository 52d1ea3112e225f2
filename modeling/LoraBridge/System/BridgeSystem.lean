import LoraBridge.Control.CamC2Send
import LoraBridge.Radio.QueueAccounting
import LoraBridge.System.Feeds

/-!
# The whole bridge

The dispatcher, the C2 calls of the portal and of the serial console, and the task of each
radio share the route queues.  Whatever order they come in, each radio sees a run of its
own scheduler that is fed with what was queued for it, and whatever a radio transmits was
queued for it once, for a reason that the routing matrix allows.
-/

namespace LoraBridge.BridgeSystem

open LoraBridge.Bridge LoraBridge.BridgeConfig LoraBridge.Branches LoraBridge.Feeds
open LoraBridge.Ingest LoraBridge.Machine LoraBridge.MeshEncoder LoraBridge.QueueAccounting
open LoraBridge.Program hiding run
open LoraBridge.RadioTask hiding State Config Event Output step start
open LoraBridge.RouteQueue (BRIDGE_ROUTE_QUEUE_DEPTH Entry depth_pos)
open LoraBridge.WrapClock (ticks)

/-! ## The tasks and what they share -/

/-- The configuration of the dispatcher, the flags of the schedulers, and the NodeInfo of
the bridge itself. -/
structure Setup where
  bridge : Bridge.Config
  txInflightTimeoutMs : UInt32
  txDutyPercent : UInt32
  txMinGapMs : UInt32
  region : UInt8
  airtimeMs : Radio → ℕ → UInt32
  mtNodeIdStr : List UInt8
  mtLongName : List UInt8
  mtShortName : List UInt8

def Setup.settings (setup : Setup) : Settings where
  maxAgeMs := RouteQueue.BRIDGE_ROUTE_MAX_AGE_MS
  txInflightTimeoutMs := setup.txInflightTimeoutMs
  txDutyPercent := setup.txDutyPercent
  txMinGapMs := setup.txMinGapMs

/-- The first two radios are on the board, the others behind the UART link. -/
def Setup.task (setup : Setup) (j : Radio) : RadioTask.Config where
  kind := if j.val < 2 then .onBoard else .remote
  protocol := (setup.bridge.chan j).protocol
  region := setup.region
  airtimeMs := setup.airtimeMs j

/-- `setup` spawns a task for each radio that is enabled and there. -/
def Setup.spawned (setup : Setup) (j : Radio) : Bool :=
  setup.bridge.radioEnabled j && setup.bridge.present j

/-- What a radio's task keeps besides its queue. -/
structure Scheduler where
  pending : Option Entry
  txBusy : Bool
  txStartMs : UInt32
  txBackoffUntil : UInt32
  nextTxAllowedMs : UInt32
  nextNodeInfoMs : UInt32

structure State where
  bridge : Bridge.State
  scheduler : Radio → Scheduler

/-- The radio's task with its queue. -/
def State.radio (state : State) (j : Radio) : RadioTask.State BRIDGE_ROUTE_QUEUE_DEPTH where
  queue := state.bridge.queue j
  pending := (state.scheduler j).pending
  txBusy := (state.scheduler j).txBusy
  txStartMs := (state.scheduler j).txStartMs
  txBackoffUntil := (state.scheduler j).txBackoffUntil
  nextTxAllowedMs := (state.scheduler j).nextTxAllowedMs
  nextNodeInfoMs := (state.scheduler j).nextNodeInfoMs

def State.setRadio (state : State) (j : Radio)
    (task : RadioTask.State BRIDGE_ROUTE_QUEUE_DEPTH) : State where
  bridge := { state.bridge with queue := Function.update state.bridge.queue j task.queue }
  scheduler := Function.update state.scheduler j
    ⟨task.pending, task.txBusy, task.txStartMs, task.txBackoffUntil, task.nextTxAllowedMs,
      task.nextNodeInfoMs⟩

/-! ## Calls -/

/-- The radio of the C2 traffic. -/
def C2_RADIO : Radio := ⟨1, by decide⟩

/-- A received frame, a message from the portal or the console, a command from the console. -/
inductive Call where
  | received (src : Radio) (buf : List UInt8)
  | message (peerId : UInt32) (text : Option (List UInt8))
  | command (camId : UInt32) (cmd : UInt8) (args : List UInt8)
  deriving DecidableEq

/-- A C2 call by the operator; the frames go to `camC2Emit`. -/
def operate (env : Env)
    (call : ReserveAhead.Write → Program CamC2.State CamC2.Output Bool) : Dispatch Unit := do
  let txWrite ← nvsWrite env
  let handled ← Program.read fun state => (call txWrite).run state.c2
  Program.modify fun state => { state with c2 := handled.state }
  Program.forEach handled.outputs (deliver env)

def Call.dispatch (setup : Setup) (env : Env) : Call → Dispatch Unit
  | .received src buf =>
      if setup.spawned src then ingestAndFanout setup.bridge env src buf else pure ()
  | .message peerId text => operate env fun txWrite =>
      CamC2.sendMessage setup.bridge.device C2_RADIO.val peerId text txWrite true
  | .command camId cmd args => operate env fun txWrite =>
      CamC2.sendCommand setup.bridge.device C2_RADIO.val camId cmd args txWrite true

/-- Why a packet is in a queue. -/
inductive Cause where
  | call (call : Call)
  | nodeInfo
  deriving DecidableEq

/-- What is seen of the bridge: a packet was taken by the queue of a radio, and what the
radio's task did besides. -/
inductive Output where
  | handed (cause : Cause) (j : Radio) (frame : List UInt8)
  | task (j : Radio) (output : RadioTask.Output)
  deriving DecidableEq

def handedBy (call : Call) : Bridge.Event → Option Output
  | .sent _ dest frame _ => some (.handed (.call call) dest frame)
  | .guarded _ _ => none

def ofTask (j : Radio) : RadioTask.Output → Output
  | .pushed entry => .handed .nodeInfo j entry.data
  | output => .task j output

/-- A call with what it meets outside, or a turn of a radio's task with what `esp_random`
gives for a NodeInfo and when that is pushed. -/
inductive Event where
  | call (env : Env) (call : Call)
  | turn (j : Radio) (turn : Turn) (random : UInt32) (pushAt : ℕ)

/-- The turn, with the NodeInfo of the bridge; others push by calls of their own. -/
def Setup.turn (setup : Setup) (j : Radio) (turn : Turn) (random : UInt32) (pushAt : ℕ) : Turn :=
  { turn with
    nodeInfo := (encodeMeshtasticNodeInfo setup.bridge.aes (setup.bridge.chan j)
      setup.bridge.mtNodeId setup.mtNodeIdStr setup.mtLongName setup.mtShortName 256
      random).map fun niPkt => ⟨niPkt, pushAt⟩
    early := []
    late := [] }

def step (setup : Setup) (state : State) : Event → State × List Output
  | .call env call =>
      let run := (call.dispatch setup env).run state.bridge
      ({ state with bridge := run.state }, run.outputs.filterMap (handedBy call))
  | .turn j turn random pushAt =>
      if setup.spawned j then
        let (task, outputs) := radioTask setup.settings (setup.task j)
          (setup.turn j turn random pushAt) (state.radio j)
        (state.setRadio j task, outputs.map (ofTask j))
      else (state, [])

/-- What is in NVS, the queues that found memory, and when the tasks start. -/
structure PowerUp where
  nodes : Option (List NodeDB.PersistedEntry)
  lorawan : LoRaWANConfig.Nvs
  c2 : CamC2Config.Nvs
  allocated : Radio → Bool
  bootMs : Radio → ℕ

/-- The task of a radio, at its start. -/
def PowerUp.task (power : PowerUp) (setup : Setup) (j : Radio) :
    RadioTask.State BRIDGE_ROUTE_QUEUE_DEPTH :=
  RadioTask.start setup.settings ⟨0, depth_pos⟩ (power.allocated j) (power.bootMs j)

def boot (setup : Setup) (power : PowerUp) : State where
  bridge := Bridge.boot setup.bridge power.nodes power.lorawan power.c2 power.allocated
  scheduler j := ⟨none, false, 0, 0, 0, ticks (power.bootMs j) + 10000⟩

/-- From power-up through any calls and turns. -/
def life (setup : Setup) (power : PowerUp) (events : List Event) : State × List Output :=
  Machine.run (step setup) (boot setup power) events

/-! ## What a radio sees -/

/-- What was queued for a radio, and why. -/
def handedTo (j : Radio) (log : List Output) : List (Cause × List UInt8) :=
  log.filterMap fun output =>
    match output with
    | .handed cause dest frame => if dest = j then some (cause, frame) else none
    | .task _ _ => none

/-- What the task of a radio did. -/
def taskOf (j : Radio) (log : List Output) : List RadioTask.Output :=
  log.filterMap fun output =>
    match output with
    | .handed _ _ _ => none
    | .task i output => if i = j then some output else none

/-- The frames a radio has begun to transmit. -/
def transmitted (j : Radio) (log : List Output) : List (List UInt8) :=
  (startedOf (taskOf j log)).map Entry.data

@[simp]
theorem handedTo_append (j : Radio) (before after : List Output) :
    handedTo j (before ++ after) = handedTo j before ++ handedTo j after := by
  simp [handedTo]

@[simp]
theorem taskOf_append (j : Radio) (before after : List Output) :
    taskOf j (before ++ after) = taskOf j before ++ taskOf j after := by
  simp [taskOf]

/-- Not a push. -/
def byTask : RadioTask.Output → Bool
  | .pushed _ => false
  | .scanned | .backedOff _ _ | .started _ _ _ | .dropped _ _ => true

theorem handedTo_call (j : Radio) (call : Call) (outputs : List Bridge.Event) :
    (handedTo j (outputs.filterMap (handedBy call))).map Prod.snd = sentTo j outputs := by
  induction outputs with
  | nil => rfl
  | cons event rest ih =>
      cases event with
      | guarded content seen => exact ih
      | sent kind dest frame content =>
          by_cases hj : dest = j
          · simpa [handedTo, sentTo, handedBy, hj] using ih
          · simpa [handedTo, sentTo, handedBy, hj] using ih

theorem taskOf_call (j : Radio) (call : Call) (outputs : List Bridge.Event) :
    taskOf j (outputs.filterMap (handedBy call)) = [] := by
  refine List.filterMap_eq_nil_iff.mpr fun output hmem => ?_
  obtain ⟨event, -, hevent⟩ := List.mem_filterMap.mp hmem
  cases event with
  | guarded content seen => cases hevent
  | sent kind dest frame content =>
      obtain rfl := Option.some.inj hevent
      rfl

theorem handedTo_task (j : Radio) (outputs : List RadioTask.Output) :
    (handedTo j (outputs.map (ofTask j))).map Prod.snd = (pushedOf outputs).map Entry.data := by
  induction outputs with
  | nil => rfl
  | cons output rest ih =>
      cases output with
      | pushed entry => simpa [handedTo, ofTask] using ih
      | _ => simpa [handedTo, ofTask] using ih

theorem taskOf_task (j : Radio) (outputs : List RadioTask.Output) :
    taskOf j (outputs.map (ofTask j)) = outputs.filter byTask := by
  induction outputs with
  | nil => rfl
  | cons output rest ih =>
      have hhead : taskOf j [ofTask j output] = [output].filter byTask := by
        cases output with
        | pushed entry => rfl
        | _ => exact List.filterMap_cons_some (if_pos rfl)
      rw [List.map_cons, ← List.singleton_append, taskOf_append, hhead, ih,
        ← List.filter_append, List.singleton_append]

theorem handedTo_other {i j : Radio} (hother : i ≠ j) (outputs : List RadioTask.Output) :
    handedTo j (outputs.map (ofTask i)) = [] ∧ taskOf j (outputs.map (ofTask i)) = [] := by
  induction outputs with
  | nil => exact ⟨rfl, rfl⟩
  | cons output rest ih =>
      cases output with
      | pushed entry => simpa [handedTo, taskOf, ofTask, hother] using ih
      | _ => simpa [handedTo, taskOf, ofTask, hother] using ih

/-! ## Each radio alone -/

/-- The scheduler of a radio by itself. -/
def radioLife (setup : Setup) (power : PowerUp) (j : Radio) (moves : List RadioTask.Event) :
    RadioTask.State BRIDGE_ROUTE_QUEUE_DEPTH × List RadioTask.Output :=
  Machine.run (RadioTask.step setup.settings (setup.task j)) (power.task setup j) moves

/-- The radio is where its scheduler alone comes by the moves: it was pushed what was
queued for it, and did what the whole bridge did with it. -/
structure Agrees (setup : Setup) (power : PowerUp) (j : Radio) (state : State)
    (log : List Output) (moves : List RadioTask.Event) : Prop where
  state : state.radio j = (radioLife setup power j moves).1
  pushed : (handedTo j log).map Prod.snd =
    (pushedOf (radioLife setup power j moves).2).map Entry.data
  outputs : taskOf j log = (radioLife setup power j moves).2.filter byTask

def Alone (setup : Setup) (power : PowerUp) (j : Radio) (state : State) (log : List Output) :
    Prop :=
  ∃ moves, Agrees setup power j state log moves

section Alone

variable {setup : Setup} {power : PowerUp} {j : Radio} {state : State} {log : List Output}

theorem run_pushAll {cap : ℕ} (settings : Settings) (config : RadioTask.Config)
    {packets : List Push} {queue : RouteQueue.Queue cap} (task : RadioTask.State cap)
    (hpushed : pushAll packets task.queue = some queue) :
    Machine.run (RadioTask.step settings config) task (packets.map .push) =
      ({ task with queue := queue },
        packets.map fun packet => .pushed ⟨packet.data, ticks packet.time⟩) := by
  induction packets generalizing task with
  | nil =>
      obtain rfl := Option.some.inj hpushed
      rfl
  | cons packet rest ih =>
      rw [pushAll, List.foldlM_cons] at hpushed
      obtain ⟨middle, hfirst, hrest⟩ := Option.bind_eq_some_iff.mp hpushed
      have hone : pushOne task packet =
          ({ task with queue := middle }, [.pushed ⟨packet.data, ticks packet.time⟩]) := by
        rw [pushOne, hfirst]
      have hlater := ih { task with queue := middle } hrest
      simp only [List.map_cons, Machine.run, RadioTask.step, hone, hlater]
      rfl

theorem radioLife_append (setup : Setup) (power : PowerUp) (j : Radio)
    (before after : List RadioTask.Event) :
    radioLife setup power j (before ++ after) =
      let next := Machine.run (RadioTask.step setup.settings (setup.task j))
        (radioLife setup power j before).1 after
      (next.1, (radioLife setup power j before).2 ++ next.2) :=
  run_append _ _ before after

theorem pushedOf_pushes (packets : List Push) :
    (pushedOf (packets.map fun packet => .pushed ⟨packet.data, ticks packet.time⟩)).map
        Entry.data = packets.map Push.data ∧
      (packets.map fun packet =>
        RadioTask.Output.pushed ⟨packet.data, ticks packet.time⟩).filter byTask = [] := by
  induction packets with
  | nil => exact ⟨rfl, rfl⟩
  | cons packet rest ih =>
      obtain ⟨hpushed, -⟩ := ih
      exact ⟨by simpa using hpushed, by simp [byTask]⟩

/-- Pushes that the call's events show. -/
theorem Alone.call (halone : Alone setup power j state log) (env : Env) (call : Call)
    (hfeeds : (call.dispatch setup env).Respects feeds) :
    Alone setup power j (step setup state (.call env call)).1
      (log ++ (step setup state (.call env call)).2) := by
  obtain ⟨moves, hradio, hhanded, htask⟩ := halone
  obtain ⟨packets, hsent, hpushed⟩ := hfeeds state.bridge j
  have hpushes := run_pushAll setup.settings (setup.task j) (state.radio j) hpushed
  obtain ⟨hdata, hnone⟩ := pushedOf_pushes packets
  have hlife := radioLife_append setup power j moves (packets.map .push)
  rw [← hradio, hpushes] at hlife
  refine ⟨moves ++ packets.map .push, ?_, ?_, ?_⟩
  · rw [hlife]
    rfl
  · rw [hlife, handedTo_append, List.map_append, hhanded, pushedOf_append, List.map_append,
      hdata, hsent]
    exact congrArg _ (handedTo_call j call _)
  · rw [hlife, taskOf_append, htask, List.filter_append, hnone]
    exact congrArg _ (taskOf_call j call _)

theorem radio_setRadio (state : State) (j : Radio)
    (task : RadioTask.State BRIDGE_ROUTE_QUEUE_DEPTH) : (state.setRadio j task).radio j = task := by
  simp [State.radio, State.setRadio]

theorem radio_setRadio_of_ne {i : Radio} (hother : i ≠ j) (state : State)
    (task : RadioTask.State BRIDGE_ROUTE_QUEUE_DEPTH) :
    (state.setRadio i task).radio j = state.radio j := by
  simp [State.radio, State.setRadio, Function.update_of_ne (Ne.symm hother)]

theorem Alone.turn (halone : Alone setup power j state log) (i : Radio) (turn : Turn)
    (random : UInt32) (pushAt : ℕ) :
    Alone setup power j (step setup state (.turn i turn random pushAt)).1
      (log ++ (step setup state (.turn i turn random pushAt)).2) := by
  obtain ⟨moves, hradio, hhanded, htask⟩ := halone
  by_cases hspawned : setup.spawned i = true
  · simp only [step, hspawned, if_true]
    by_cases hi : i = j
    · subst hi
      have hlife := radioLife_append setup power i moves
        [.turn (setup.turn i turn random pushAt)]
      simp only [← hradio, Machine.run, RadioTask.step, List.append_nil] at hlife
      refine ⟨moves ++ [.turn (setup.turn i turn random pushAt)], ?_, ?_, ?_⟩
      · rw [hlife, radio_setRadio]
      · rw [hlife, handedTo_append, List.map_append, hhanded, handedTo_task, pushedOf_append,
          List.map_append]
      · rw [hlife, taskOf_append, htask, taskOf_task, List.filter_append]
    · obtain ⟨hnone, hstill⟩ := handedTo_other hi
        (radioTask setup.settings (setup.task i) (setup.turn i turn random pushAt)
          (state.radio i)).2
      refine ⟨moves, ?_, ?_, ?_⟩
      · rw [radio_setRadio_of_ne hi, hradio]
      · rw [handedTo_append, hnone, List.append_nil, hhanded]
      · rw [taskOf_append, hstill, List.append_nil, htask]
  · simp only [step, hspawned, Bool.false_eq_true, if_false, List.append_nil]
    exact ⟨moves, hradio, hhanded, htask⟩

theorem feeds_dispatch (setup : Setup) (env : Env) (call : Call) :
    (call.dispatch setup env).Respects feeds := by
  have hcarries := carries_feeds env
  have hoperate : ∀ program, (operate env program).Respects feeds := fun program =>
    respects_bind (hcarries.still Sends.still_nvsWrite) fun _ =>
      respects_bind (respects_read _) fun _ =>
        respects_bind (hcarries.modify fun _ => rfl) fun _ =>
          respects_forEach fun output _ => hcarries.deliver output
  cases call with
  | received src buf =>
      exact respects_ite (fun _ => hcarries.ingestAndFanout src buf) fun _ => respects_pure ()
  | message => exact hoperate _
  | command => exact hoperate _

theorem Alone.step (halone : Alone setup power j state log) (event : Event) :
    Alone setup power j (step setup state event).1 (log ++ (step setup state event).2) := by
  cases event with
  | call env call => exact halone.call env call (feeds_dispatch setup env call)
  | turn i turn random pushAt => exact halone.turn i turn random pushAt

theorem alone_life (setup : Setup) (power : PowerUp) (events : List Event) (j : Radio) :
    Alone setup power j (life setup power events).1 (life setup power events).2 := by
  have hstart : Alone setup power j (boot setup power) [] := ⟨[], rfl, rfl, rfl⟩
  have hrun := invariant_run_always
    (fun state log event (halone : Alone setup power j state log) => halone.step event)
    events hstart
  simpa [life] using hrun

end Alone

end LoraBridge.BridgeSystem
