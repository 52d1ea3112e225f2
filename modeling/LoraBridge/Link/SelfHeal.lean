import LoraBridge.Link.RemotePackets

/-!
# The link after a restart

A co-processor that boots says MSG_READY and waits on placeholder settings; the host's
`loop()` sees that the count of these moved and sends every remote radio's settings again.
Each board may restart at any time, and the host with other settings: what was on its way to
it is lost, and no frame that it was sending is cut.
-/

namespace LoraBridge.SelfHeal

open LoraBridge.ByteWire LoraBridge.LinkProtocol LoraBridge.RemoteLink
open LoraBridge.Coprocessor hiding Event step
open LoraBridge.RemotePackets (Short pending_sendAll pending_acts pass_short short_of_quiet)
open LoraBridge.Memory (wordBytes)

/-- The settings of the remote radios that are enabled; they hold for one boot. -/
abbrev Settings := LocalRadio → Option LoraConfig

/-- What `RemoteRadio::begin` sends. -/
def beginMessages (i : LocalRadio) (config : LoraConfig) : List Message :=
  [⟨ MSG_CFG_RADIO, .ofNat i, CfgRadio.bytes (cfgOf config)⟩, ⟨MSG_START_RX, .ofNat i, []⟩]

/-- `begin()` of every enabled remote radio. -/
def configMessages (settings : Settings) : List Message :=
  (List.finRange 2).flatMap fun i => (settings i).toList.flatMap (beginMessages i)

/-- `startReceive()` of every enabled remote radio. -/
def receiveMessages (settings : Settings) : List Message :=
  (List.finRange 2).flatMap fun i => (settings i).toList.map fun _ => ⟨MSG_START_RX, .ofNat i, []⟩

/-- Both boards, with the host's settings, `s_lastReadyGen` of its loop, and the frames that
`setup()` or `loop()` is about to send. -/
structure Pair where
  boards : System
  settings : Settings
  lastReadyGen : UInt32
  outbox : List Message

/-- A turn of a task of one board. -/
inductive Task where
  | startReceive (i : LocalRadio)
  | transmit (i : LocalRadio) (data : List UInt8)
  | read (i : LocalRadio)
  | hostFeeds (now : UInt32)
  | coprocFeeds (begun : LocalRadio → Bool) (up : UInt32)
  | pass (turns : LocalRadio → Turn)

def Task.event : Task → RemoteLink.Event
  | .startReceive i => .startReceive i
  | .transmit i data => .transmit i data
  | .read i => .read i
  | .hostFeeds now => .hostFeeds now
  | .coprocFeeds begun up => .coprocFeeds begun up
  | .pass turns => .pass turns

/-- A task's turn, the next step of the host's `setup()` or `loop()`, or a restart. -/
inductive Event where
  | task (task : Task)
  | loop
  | coprocRestarts (begun : LocalRadio → Bool)
  | hostRestarts (settings : Settings)

/-- The frames are sent one at a time; once they are, the loop looks at the count. -/
def loop (s : Pair) : Pair :=
  match s.outbox with
  | frame :: rest =>
      { s with boards := { s.boards with down := s.boards.down.send frame }, outbox := rest }
  | [] =>
      if s.boards.host.readyGen ≠ s.lastReadyGen then
        { s with lastReadyGen := s.boards.host.readyGen, outbox := configMessages s.settings }
      else s

/-- The host before any byte has come over the link. -/
def bootHost : Host := ⟨fun _ => [], false, 0, 0, fun _ => true, fun _ => 0⟩

section Model

variable (settings : Settings) (render : Act → List UInt8)

def step (s : Pair) : Event → Pair × List Output
  | .task task =>
      let (boards, outputs) :=
        RemoteLink.step (fun i => (s.settings i).isSome) render s.boards task.event
      ({ s with boards := boards }, outputs)
  | .loop => (loop s, [])
  | .coprocRestarts begun =>
      ({ s with boards := { s.boards with
          radios := (setup begun).1
          down := .idle
          up := sendAll ((setup begun).2.filterMap (message render)) s.boards.up } }, [])
  | .hostRestarts settings =>
      ({ boards := { s.boards with
          host := bootHost
          up := .idle }
         settings := settings
         lastReadyGen := 0
         outbox := configMessages settings ++ receiveMessages settings }, [])

/-- Both boards after power-up, the co-processor last. -/
def boot (begun : LocalRadio → Bool) : Pair := ⟨RemoteLink.boot render begun, settings, 0, []⟩

def life (begun : LocalRadio → Bool) (events : List Event) : Pair × List Output :=
  Machine.run (step render) (boot settings render begun) events

end Model

/-! ## What the co-processor makes of a frame -/

/-- A CFG_RADIO for a radio. -/
def retunes (i : LocalRadio) (frame : Message) : Option CfgRadio :=
  if frame.type = MSG_CFG_RADIO ∧ localOf frame.radio = some i then CfgRadio.read frame.payload
  else none

/-- Settings, and whether the radio is enabled. -/
def tuning (radio : Radio) : LoraConfig × Bool := (radio.cfg, radio.enabled)

/-- A MSG_READY is sent. -/
def Announces : Act → Prop
  | .ready _ => True
  | _ => False

section Coprocessor

variable {i : LocalRadio} {radios : Radios}

/-- What becomes of a radio's settings, with no MSG_READY. -/
structure Tunes (i : LocalRadio) (frame : Message) (begun : LocalRadio → Bool)
    (radios : Radios) (next : Radios × List Act) : Prop where
  tuning : tuning (next.1 i) =
    match retunes i frame with
    | none => tuning (radios i)
    | some c => if c.enable ≠ 0 then (c.config, begun i) else ((radios i).cfg, false)
  quiet : ∀ act ∈ next.2, ¬ Announces act

theorem handle_tunes (radios : Radios) {frame : Message} (serial : ℕ)
    (begun : LocalRadio → Bool) (up : UInt32) (hlife : frame.type ≠ MSG_RESET) :
    Tunes i frame begun radios (handleHostFrame frame serial begun up radios) := by
  unfold handleHostFrame
  by_cases hcfg : frame.type = MSG_CFG_RADIO
  · rw [if_pos hcfg]
    cases hlocal : localOf frame.radio with
    | none => exact ⟨by simp [retunes, hlocal], by simp⟩
    | some j =>
        cases hread : CfgRadio.read frame.payload with
        | none => exact ⟨by simp [retunes, hread], by simp⟩
        | some c =>
            have hretunes : retunes i frame = if j = i then some c else none := by
              simp [retunes, hcfg, hlocal, hread]
            by_cases henable : c.enable = 0 <;> cases hbegun : begun j
            all_goals
              refine ⟨?_, by simp [henable, hbegun, applyCfg, Announces]⟩
              by_cases hj : j = i
              · subst hj
                simp [hretunes, henable, hbegun, applyCfg, SelfHeal.tuning]
              · simp [hretunes, henable, hbegun, applyCfg, hj, Ne.symm hj]
  · have hnone : retunes i frame = none := if_neg fun hboth => hcfg hboth.1
    rw [if_neg hcfg]
    suffices hsame : ∀ next : Radios × List Act,
        SelfHeal.tuning (next.1 i) = SelfHeal.tuning (radios i) →
          (∀ act ∈ next.2, ¬ Announces act) → Tunes i frame begun radios next by
      by_cases htx : frame.type = MSG_TX
      · rw [if_pos htx]
        cases localOf frame.radio with
        | none => exact hsame _ rfl (by simp)
        | some j =>
            cases henabled : (radios j).enabled with
            | false => exact hsame _ (by simp [henabled]) (by simp [henabled, Announces])
            | true =>
                cases hpush : txqPush (radios j).txq frame.payload serial with
                | none =>
                    exact hsame _ (by simp [henabled, hpush]) (by simp [henabled, hpush, Announces])
                | some txq =>
                    refine hsame _ ?_ (by simp [henabled, hpush])
                    by_cases hj : i = j
                    · subst hj
                      simp [henabled, hpush, SelfHeal.tuning]
                    · simp [henabled, hpush, hj]
      · rw [if_neg htx]
        by_cases hstart : frame.type = MSG_START_RX
        · rw [if_pos hstart]
          cases localOf frame.radio with
          | none => exact hsame _ rfl (by simp)
          | some j =>
              refine hsame _ rfl ?_
              dsimp only
              split <;> simp [Announces]
        · rw [if_neg hstart]
          by_cases hping : frame.type = MSG_PING
          · rw [if_pos hping]
            exact hsame _ rfl (by simp [Announces])
          · rw [if_neg hping, if_neg hlife]
            exact hsame _ rfl (by simp)
    exact fun next htuning hquiet => ⟨by rw [hnone, htuning], hquiet⟩

theorem serviceRadio_tunes (turn : Turn) (radio : Radio) :
    tuning (serviceRadio i turn radio).1 = tuning radio ∧
      ∀ act ∈ (serviceRadio i turn radio).2, ¬ Announces act := by
  unfold serviceRadio
  cases radio.txActive with
  | some flight =>
      simp only [serviceFlight]
      split
      · exact ⟨rfl, by simp [Announces]⟩
      · exact ⟨rfl, by simp⟩
  | none =>
      simp only
      split
      · cases turn.available with
        | some packet =>
            refine ⟨rfl, ?_⟩
            simp only [forward]
            split
            · simp [Announces]
            · split <;> simp [Announces]
        | none =>
            cases txqPeek radio.txq with
            | none => exact ⟨rfl, by simp⟩
            | some job =>
                simp only [dispatch]
                split
                · exact ⟨rfl, by simp [Announces]⟩
                · split
                  · exact ⟨rfl, by simp [Announces]⟩
                  · exact ⟨rfl, by simp [Announces]⟩
      · exact ⟨rfl, by simp⟩

theorem pass_quiet {turns : LocalRadio → Turn} {act : Act}
    (hact : act ∈ (Coprocessor.pass turns radios).2) : ¬ Announces act := by
  obtain ⟨i, -, hmem⟩ := List.mem_flatMap.mp hact
  exact (serviceRadio_tunes _ _).2 act hmem

/-- The MSG_READYs among messages. -/
def readies (messages : List Message) : ℕ := messages.countP fun frame => frame.type = MSG_READY

theorem readies_acts (render : Act → List UInt8) (acts : List Act)
    (hquiet : ∀ act ∈ acts, ¬ Announces act) : readies (acts.filterMap (message render)) = 0 := by
  refine List.countP_eq_zero.mpr fun frame hframe => ?_
  obtain ⟨act, hact, hmessage⟩ := List.mem_filterMap.mp hframe
  have hnot := hquiet act hact
  cases act with
  | ready info => exact absurd trivial hnot
  | startReceive | startTransmit => cases hmessage
  | _ =>
      cases hmessage
      simp [MSG_READY, MSG_TX_DONE, MSG_RX, MSG_PONG, MSG_LOG]

end Coprocessor

/-! ## The host's settings on the co-processor -/

/-- The settings a radio has once the co-processor read them. -/
def tuned (config : LoraConfig) : LoraConfig := (cfgOf config).config

theorem read_bytes (cfg : CfgRadio) : CfgRadio.read (CfgRadio.bytes cfg) = some cfg := by
  have hword : ∀ w : UInt32, word32 w.toUInt8 (w >>> 8).toUInt8 (w >>> 16).toUInt8
      (w >>> 24).toUInt8 = w := Memory.word_of_bytes
  have hhalf : ∀ w : UInt16, w.toUInt8.toUInt16 ||| ((w >>> 8).toUInt8.toUInt16 <<< 8) = w :=
    fun w => ((FrameParser.word16Bytes_eq_iff w _ _).mp rfl).symm
  simp only [CfgRadio.bytes, wordBytes, word16Bytes, List.cons_append, List.nil_append,
    CfgRadio.read, hword, hhalf]

end LoraBridge.SelfHeal
