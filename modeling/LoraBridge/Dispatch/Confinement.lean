import LoraBridge.Dispatch.Branches

/-!
# Confinement to the routing matrix

Whatever a frame makes the dispatcher do, packets go to queues the routing matrix lets its
radio reach.  Only a C2 acknowledgement goes back to the radio the command came from.  A frame
the dedup guard has seen moves no queue and no frame counter.
-/

namespace LoraBridge.Confinement

open LoraBridge.Branches LoraBridge.Bridge LoraBridge.BridgeConfig LoraBridge.Ingest
open LoraBridge.Program LoraBridge.Sends

/-- The queues a frame may reach, and the one exception. -/
def allowedFrom (bridge : Config) (src : Radio) : Allowed := fun kind dest frame _ =>
  bridge.routes src dest = true ∨ kind = .c2 ∧ dest = src ∧ frame.getD 1 0 = CamC2.T_ACK

/-- What a call does that keeps to the routing matrix and to its dedup guard. -/
structure Confined (bridge : Config) (src : Radio) (first : State) (outputs : List Event)
    (last : State) : Prop where
  sent : ∀ kind dest frame content, .sent kind dest frame content ∈ outputs →
    allowedFrom bridge src kind dest frame content
  queue : ∀ j, (∀ kind frame content, .sent kind j frame content ∉ outputs) →
    last.queue j = first.queue j
  guarded : ∀ content, .guarded content true ∈ outputs →
    last.queue = first.queue ∧ last.lorawan = first.lorawan

/-- Every run of the call does. -/
def Confines (bridge : Config) (src : Radio) (call : Dispatch Unit) : Prop :=
  ∀ state, Confined bridge src state (call.run state).outputs (call.run state).state

section Calls

variable {bridge : Config} {env : Env} {src : Radio} {first last : State} {outputs : List Event}

/-- Where the guard is not asked. -/
theorem confined_of_sends
    (hsends : (sendsOnly (allowedFrom bridge src)).holds first outputs last) :
    Confined bridge src first outputs last where
  sent kind dest frame content hmem := by
    obtain ⟨kind', dest', frame', content', heq, hallowed⟩ := hsends.1 _ hmem
    cases heq
    exact hallowed
  queue := hsends.2
  guarded content hmem := by
    obtain ⟨kind, dest, frame, content', heq, -⟩ := hsends.1 _ hmem
    cases heq

theorem confined_of_still (hstill : still.holds first outputs last) :
    Confined bridge src first outputs last :=
  confined_of_sends ⟨fun _ hmem => absurd (hstill.1 ▸ hmem) List.not_mem_nil,
    fun j _ => congrFun hstill.2.1 j⟩

/-- Unseen steps in front of a call change nothing of this. -/
theorem Confined.after {middle : State} {before : List Event}
    (hbefore : still.holds first before middle) (hafter : Confined bridge src middle outputs last) :
    Confined bridge src first (before ++ outputs) last := by
  obtain ⟨rfl, hqueue, hlorawan, -⟩ := hbefore
  refine ⟨hafter.sent, fun j hnone => ?_, fun content hmem => ?_⟩
  · exact (hafter.queue j hnone).trans (congrFun hqueue j)
  · obtain ⟨hqueue', hlorawan'⟩ := hafter.guarded content hmem
    exact ⟨hqueue'.trans hqueue, hlorawan'.trans hlorawan⟩

/-- Behind the guard: a packet that was seen ends the call. -/
theorem confines_unlessSeen (content : Content) {fanout : Dispatch Unit}
    (hfanout : fanout.Respects (sendsOnly (allowedFrom bridge src))) :
    Confines bridge src (unlessSeen env content fanout) := by
  intro state
  rw [run_unlessSeen]
  split
  · refine ⟨fun kind dest frame content' hmem => ?_, fun _ _ => rfl, fun _ _ => ⟨rfl, rfl⟩⟩
    cases List.mem_singleton.mp hmem
  · have hafter := confined_of_sends (hfanout (afterGuard env content state))
    refine ⟨fun kind dest frame content' hmem => ?_, fun j hnone => ?_, fun content' hmem => ?_⟩
    · have hsent := (List.mem_cons.mp hmem).resolve_left (by simp)
      exact hafter.sent kind dest frame content' hsent
    · exact hafter.queue j fun kind frame content' hsent =>
        hnone kind frame content' (List.mem_cons_of_mem _ hsent)
    · have hguarded := (List.mem_cons.mp hmem).resolve_left (by simp)
      exact hafter.guarded content' hguarded

/-- Every branch keeps to the routing matrix. -/
theorem confines_branch {buf : List UInt8} {call : Dispatch Unit}
    (hbranch : Branch bridge env src buf call) : Confines bridge src call := by
  induction hbranch with
  | still hstill => exact fun state => confined_of_still (hstill state)
  | after hprogram hrest ih =>
      intro state
      rw [run_bind]
      exact Confined.after (hprogram state) (ih _ _)
  | guarded hasks hfanout =>
      exact confines_unlessSeen _ (hfanout.mono fun _ _ _ =>
        sendsOnly_mono fun _ _ _ _ hexplained => .inl hexplained.1)

theorem confines_ingestAndFanout (buf : List UInt8) :
    Confines bridge src (ingestAndFanout bridge env src buf) := by
  intro state
  rcases ingestAndFanout_cases bridge env src buf state with
    ⟨-, -, hsends⟩ | ⟨call, middle, hbranch, hstill, houtputs, hstate⟩
  · exact confined_of_sends (sendsOnly_mono
      (fun _ _ _ _ hack => .inr ⟨hack.1, hack.2.1, hack.2.2.2.2⟩) hsends)
  · rw [houtputs, hstate]
    exact Confined.after hstill (confines_branch hbranch middle)

end Calls

/-- Packets go to other radios that are enabled, there and in the mask of the source, and C2
acknowledgements to the source; behind a hit of the dedup guard no queue and no frame counter
has changed. -/
theorem routing_confined (bridge : Config) (env : Env) (src : Radio) (buf : List UInt8)
    (state : State) :
    let run := (ingestAndFanout bridge env src buf).run state
    (∀ kind dest frame content, .sent kind dest frame content ∈ run.outputs →
      (dest ≠ src ∧ bridge.radioEnabled dest = true ∧ bridge.present dest = true ∧
          bridge.routeMask src &&& ((1 : UInt8) <<< UInt8.ofNat dest) ≠ 0) ∨
        (kind = .c2 ∧ dest = src ∧ frame.getD 1 0 = CamC2.T_ACK)) ∧
      (∀ j, run.state.queue j ≠ state.queue j →
        ∃ kind frame content, .sent kind j frame content ∈ run.outputs) ∧
      ∀ content, .guarded content true ∈ run.outputs →
        run.state.queue = state.queue ∧ run.state.lorawan = state.lorawan := by
  intro run
  have hconfined : Confined bridge src state run.outputs run.state :=
    confines_ingestAndFanout buf state
  refine ⟨fun kind dest frame content hmem => ?_, fun j hchanged => ?_, hconfined.guarded⟩
  · refine (hconfined.sent kind dest frame content hmem).imp_left fun hroutes => ?_
    simpa [Config.routes] using hroutes
  · by_contra hnone
    push Not at hnone
    exact hchanged (hconfined.queue j hnone)

end LoraBridge.Confinement
