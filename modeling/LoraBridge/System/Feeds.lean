import LoraBridge.Dispatch.Branches
import LoraBridge.Radio.RadioTask

/-!
# What a call does to the queues

A call of the dispatcher is made of steps that leave the queues alone, of questions to the
dedup guard, and of pushes.  So behind it each queue is what the pushes it has seen make
of the queue in front of it.
-/

namespace LoraBridge.Feeds

open LoraBridge.Bridge LoraBridge.BridgeConfig LoraBridge.Enqueue LoraBridge.Ingest
open LoraBridge.Program LoraBridge.RouteQueue LoraBridge.Sends
open LoraBridge.WrapClock (ticks)

/-- The contract permits the three things a call is made of. -/
structure Carries (env : Env) (contract : Contract State Event) : Prop where
  still : ∀ {Result : Type} {program : Dispatch Result},
    program.Respects Sends.still → program.Respects contract
  modify : ∀ {change : State → State}, (∀ state, (change state).queue = state.queue) →
    (Program.modify change : Dispatch Unit).Respects contract
  guard : ∀ {change : State → State} (content : Content) (seen : Bool),
    (∀ state, (change state).queue = state.queue) →
      (modifyEmit change [.guarded content seen] : Dispatch Unit).Respects contract
  push : ∀ kind dest frame content, (push env kind dest frame content).Respects contract

section Carries

variable {bridge : Config} {env : Env} {contract : Contract State Event} {src dest : Radio}

theorem Carries.permits (hcarries : Carries env contract) (dest : Radio) :
    Permits env dest contract :=
  ⟨hcarries.still, hcarries.modify, fun frame => hcarries.push .nodeInfo dest frame none⟩

theorem Carries.recordAndPush (hcarries : Carries env contract) (kind : Kind) (dest : Radio)
    (frame : List UInt8) (content : Content) :
    (recordAndPush env kind dest frame content).Respects contract :=
  respects_bind (respects_bind (hcarries.still still_millis) fun _ =>
    hcarries.modify fun _ => rfl) fun _ => hcarries.push kind dest frame _

theorem Carries.fanOut {send : Radio → Dispatch Unit}
    (hsend : ∀ j, (send j).Respects contract) : (fanOut bridge src send).Respects contract :=
  respects_forEach fun j _ => respects_ite (fun _ => hsend j) fun _ => respects_pure ()

theorem Carries.unlessSeen (hcarries : Carries env contract) (content : Content)
    {fanout : Dispatch Unit} (hfanout : fanout.Respects contract) :
    (unlessSeen env content fanout).Respects contract := by
  refine respects_bind ?_ fun seen => respects_ite (fun _ => respects_pure ()) fun _ => hfanout
  refine respects_bind (hcarries.still still_millis) fun now => ?_
  refine respects_bind (respects_read _) fun seen => ?_
  exact respects_bind (hcarries.guard content seen fun _ => rfl) fun _ => respects_pure seen

/-! ## The functions that queue for one destination -/

theorem Carries.enqueueReticulumForDest (hcarries : Carries env contract) (dest : Radio)
    (buf : List UInt8) : (enqueueReticulumForDest bridge env dest buf).Respects contract := by
  refine respects_ite (fun _ => respects_pure _) fun _ => ?_
  refine respects_ite (fun _ => respects_pure _) fun _ => ?_
  refine respects_ite (fun _ => respects_pure _) fun _ => ?_
  refine respects_ite (fun _ => respects_pure _) fun _ => ?_
  refine respects_forEachWhile fun idx _ => ?_
  unfold enqueueFragment
  split
  · exact respects_pure _
  · refine respects_bind (hcarries.still (still_fragmentPacket _)) fun packet => ?_
    split
    · exact respects_pure _
    · exact respects_bind (hcarries.recordAndPush _ _ _ _) fun _ => respects_pure _

theorem Carries.enqueueAbpUplink (hcarries : Carries env contract) (src : Radio)
    (srcId : UInt32) (dest : Radio) (payload : List UInt8) :
    (enqueueAbpUplink bridge env src srcId dest payload).Respects contract := by
  refine respects_bind (hcarries.still still_nvsWrite) fun _ => ?_
  refine respects_bind (respects_read _) fun result => ?_
  obtain ⟨next, attempt⟩ := result
  refine respects_bind (hcarries.modify fun _ => rfl) fun _ => ?_
  cases attempt with
  | encoded uplink =>
      exact respects_bind (hcarries.recordAndPush _ _ _ _) fun _ => respects_pure _
  | _ => exact respects_pure _

theorem Carries.enqueueTextForDest (hcarries : Carries env contract) (src : Radio)
    (srcId : UInt32) (dest : Radio) (body : List UInt8) :
    (enqueueTextForDest bridge env src srcId dest body).Respects contract := by
  refine respects_ite (fun _ => respects_pure _) fun _ => ?_
  refine respects_ite (fun _ => ?_) fun _ => ?_
  · exact respects_ite (fun _ => respects_bind (hcarries.enqueueAbpUplink _ _ _ _)
      fun _ => respects_pure _) fun _ => respects_pure _
  · refine respects_bind ((hcarries.permits dest).textPacket srcId body) fun packet => ?_
    split
    · exact respects_pure _
    · exact respects_bind (hcarries.recordAndPush _ _ _ _) fun _ => respects_pure _

theorem Carries.rawRepeatForDest (hcarries : Carries env contract) (dest : Radio)
    (srcId : UInt32) (buf : List UInt8) :
    (rawRepeatForDest bridge env dest srcId buf).Respects contract :=
  respects_ite (fun _ => respects_pure _) fun _ => respects_ite (fun _ => respects_pure _)
    fun _ => respects_bind (hcarries.push _ _ _ _) fun _ => respects_pure _

theorem Carries.camC2Emit (hcarries : Carries env contract) (radioIdx : ℤ)
    (buf : List UInt8) : (camC2Emit env radioIdx buf).Respects contract := by
  unfold Enqueue.camC2Emit
  by_cases hradio : 0 ≤ radioIdx ∧ radioIdx.toNat < NUM_RADIOS
  · rw [dif_pos hradio]
    have hsent := hcarries.recordAndPush .c2 ⟨radioIdx.toNat, hradio.2⟩ buf (.raw buf)
    exact respects_bind hsent fun _ => respects_pure ()
  · rw [dif_neg hradio]
    exact respects_pure ()

theorem Carries.deliver (hcarries : Carries env contract) (output : CamC2.Output) :
    (deliver env output).Respects contract := by
  cases output with
  | emitted radioIdx frame => exact hcarries.camC2Emit radioIdx frame
  | accepted => exact respects_pure ()
  | executed => exact respects_pure ()

/-! ## The branches -/

theorem Carries.handleInbound (hcarries : Carries env contract) (src : Radio)
    (buf : List UInt8) : (handleInbound bridge env src buf).Respects contract := by
  refine respects_bind (hcarries.still (Branches.still_inboundOf buf)) fun _ => ?_
  refine respects_bind (respects_read _) fun handled => ?_
  refine respects_bind (hcarries.modify fun _ => rfl) fun _ => ?_
  exact respects_bind (respects_forEach fun output _ => hcarries.deliver output)
    fun _ => respects_pure _

theorem Carries.fanOutBody (hcarries : Carries env contract) (src : Radio)
    (srcId pid : UInt32) (buf body : List UInt8) :
    (fanOutBody bridge env src srcId pid buf body).Respects contract :=
  hcarries.unlessSeen _ <| Carries.fanOut fun _ =>
    respects_ite (fun _ => hcarries.rawRepeatForDest _ _ _)
      fun _ => hcarries.enqueueTextForDest _ _ _ _

theorem Carries.ingestDecoded (hcarries : Carries env contract) (src : Radio)
    (srcId pid : UInt32) (buf body : List UInt8) (time : Option UInt32) :
    (ingestDecoded bridge env src srcId pid buf body time).Respects contract := by
  refine respects_bind ?_ fun _ => hcarries.fanOutBody _ _ _ _ _
  cases time with
  | none => exact respects_pure _
  | some ts => exact hcarries.still (still_learnClock ts)

theorem Carries.ingestBody (hcarries : Carries env contract) (src : Radio)
    (srcId pid : UInt32) (buf : List UInt8) (decoded : Decoded) :
    (ingestBody bridge env src srcId pid buf decoded).Respects contract := by
  cases decoded with
  | refused => exact respects_pure _
  | body text time => exact hcarries.ingestDecoded _ _ _ _ _ _
  | stray =>
      refine respects_bind (hcarries.still still_ask) fun asked => ?_
      cases env.strayBody asked with
      | none => exact respects_pure _
      | some found => exact hcarries.ingestDecoded _ _ _ _ _ _

theorem Carries.ingestMeshtastic (hcarries : Carries env contract) (src : Radio)
    (buf : List UInt8) : (ingestMeshtastic bridge env src buf).Respects contract := by
  unfold Ingest.ingestMeshtastic
  dsimp only
  split
  · refine respects_bind (hcarries.still still_ask) fun asked => ?_
    cases env.strayNames asked with
    | none => exact hcarries.ingestBody _ _ _ _ _
    | some names => exact hcarries.still (Branches.still_keepNodeInfo _ _ _)
  · exact respects_pure _
  · exact hcarries.still (Branches.still_keepNodeInfo _ _ _)
  · exact hcarries.ingestBody _ _ _ _ _

theorem Carries.ingestOther (hcarries : Carries env contract) (src : Radio)
    (buf : List UInt8) : (ingestOther bridge env src buf).Respects contract := by
  refine respects_ite (fun _ => ?_) fun _ => respects_ite (fun _ => ?_) fun _ =>
    respects_ite (fun _ => hcarries.ingestMeshtastic _ _) fun _ =>
      respects_ite (fun _ => hcarries.ingestBody _ _ _ _ _) fun _ => respects_pure _
  · exact hcarries.unlessSeen _ <| Carries.fanOut fun _ =>
      respects_ite (fun _ => hcarries.rawRepeatForDest _ _ _) fun _ => respects_pure _
  · exact hcarries.unlessSeen _ <| Carries.fanOut fun _ =>
      respects_ite (fun _ => respects_bind (hcarries.enqueueAbpUplink _ _ _ _)
        fun _ => respects_pure _) fun _ => respects_pure _

theorem Carries.ingestLoRaWAN (hcarries : Carries env contract) (src : Radio)
    (buf : List UInt8) : (ingestLoRaWAN bridge env src buf).Respects contract := by
  refine hcarries.unlessSeen _ ?_
  split
  · exact respects_pure _
  · have hrelay : (Bridge.fanOut bridge src fun j =>
        if (bridge.chan j).protocol = SYNC_WORD_LORAWAN then
          Enqueue.rawRepeatForDest bridge env j 0 buf
        else pure ()).Respects contract :=
      Carries.fanOut fun _ =>
        respects_ite (fun _ => hcarries.rawRepeatForDest _ _ _) fun _ => respects_pure _
    refine respects_ite (fun _ => respects_bind (Carries.fanOut fun _ =>
      respects_ite (fun _ => hcarries.enqueueTextForDest _ _ _ _) fun _ => respects_pure _)
        fun _ => ?_) fun _ => ?_
    · exact respects_ite (fun _ => hrelay) fun _ => respects_pure _
    · exact respects_ite (fun _ => hrelay) fun _ => respects_pure _

/-- Every call of the dispatcher is made of these. -/
theorem Carries.ingestAndFanout (hcarries : Carries env contract) (src : Radio)
    (buf : List UInt8) : (ingestAndFanout bridge env src buf).Respects contract := by
  refine respects_ite (fun _ => ?_) fun _ => respects_ite (fun _ => ?_) fun _ =>
    respects_ite (fun _ => ?_) fun _ => hcarries.ingestOther src buf
  · exact hcarries.unlessSeen _ <| Carries.fanOut fun _ =>
      respects_ite (fun _ => hcarries.rawRepeatForDest _ _ _)
        fun _ => hcarries.enqueueReticulumForDest _ _
  · exact hcarries.ingestLoRaWAN src buf
  · exact respects_bind (hcarries.handleInbound src buf) fun _ =>
      respects_ite (fun _ => respects_pure _) fun _ => hcarries.ingestOther src buf

end Carries

/-! ## The pushes of a call -/

/-- The frames that were taken by the queue of a radio, in order. -/
def sentTo (j : Radio) (outputs : List Event) : List (List UInt8) :=
  outputs.filterMap fun event =>
    match event with
    | .sent _ dest frame _ => if dest = j then some frame else none
    | .guarded _ _ => none

@[simp]
theorem sentTo_append (j : Radio) (before after : List Event) :
    sentTo j (before ++ after) = sentTo j before ++ sentTo j after := by
  simp [sentTo]

/-- One packet after the other, if the queue takes each. -/
def pushAll {cap : ℕ} (packets : List RadioTask.Push) (queue : Queue cap) :
    Option (Queue cap) :=
  packets.foldlM (fun queue packet => RouteQueue.push packet.data packet.time queue) queue

/-- Each queue has taken the packets that were sent to it. -/
def feeds : Contract State Event where
  holds first outputs last := ∀ j, ∃ packets : List RadioTask.Push,
    packets.map RadioTask.Push.data = sentTo j outputs ∧
      pushAll packets (first.queue j) = some (last.queue j)
  nil _ _ := ⟨[], rfl, rfl⟩
  append hbefore hafter j := by
    obtain ⟨early, hearly, hfirst⟩ := hbefore j
    obtain ⟨late, hlate, hsecond⟩ := hafter j
    refine ⟨early ++ late, by simp [hearly, hlate], ?_⟩
    rw [pushAll, List.foldlM_append]
    exact Option.bind_eq_some_iff.mpr ⟨_, hfirst, hsecond⟩

theorem feeds_of_queue {change : State → State} {outputs : List Event}
    (hqueue : ∀ state, (change state).queue = state.queue)
    (hnone : ∀ j, sentTo j outputs = []) :
    (modifyEmit change outputs : Dispatch Unit).Respects feeds :=
  respects_modifyEmit fun state j =>
    ⟨[], (hnone j).symm, congrArg some (congrFun (hqueue state) j).symm⟩

theorem feeds_push (env : Env) (kind : Kind) (dest : Radio) (frame : List UInt8)
    (content : Option Content) : (push env kind dest frame content).Respects feeds := by
  intro state
  simp only [Bridge.push, millis, ask, run_bind, run_read, run_modify, run_pure, List.nil_append]
  generalize env.millis state.asked = now
  cases hpush : RouteQueue.push frame now (state.queue dest) with
  | none =>
      simp only [run_pure]
      exact fun j => ⟨[], rfl, rfl⟩
  | some next =>
      simp only [run_bind, run_modifyEmit, run_pure, List.append_nil]
      intro j
      by_cases hj : dest = j
      · subst hj
        exact ⟨[⟨frame, now⟩], by simp [sentTo], by simp [pushAll, hpush]⟩
      · refine ⟨[], by simp [sentTo, hj], congrArg some ?_⟩
        exact (Function.update_of_ne (Ne.symm hj) _ _).symm

theorem carries_feeds (env : Env) : Carries env feeds where
  still hstill := hstill.mono fun first outputs last hholds j =>
    ⟨[], by rw [hholds.1]; rfl, congrArg some (congrFun hholds.2.1 j).symm⟩
  modify hqueue state j := ⟨[], rfl, congrArg some (congrFun (hqueue state) j).symm⟩
  guard content seen hqueue := feeds_of_queue hqueue fun _ => rfl
  push := feeds_push env

end LoraBridge.Feeds
