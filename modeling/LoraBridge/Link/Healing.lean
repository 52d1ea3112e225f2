import LoraBridge.Link.SelfHeal

/-!
# The settings come back

While a MSG_READY is under way or the loop has not come to it, a radio of the co-processor
may be on placeholder settings.  Once neither is, the host's settings are there or on the
wire.
-/

namespace LoraBridge.Healing

open LoraBridge.ByteWire LoraBridge.LinkProtocol LoraBridge.SelfHeal
open LoraBridge.Coprocessor hiding Event step
open LoraBridge.RemoteLink hiding Event step boot life
open LoraBridge.RemotePackets (Short pending_sendAll pending_acts pass_short short_of_quiet
  handle_admits localOf_index setup_quiet run_delivers run_handles)
open LoraBridge.Memory (wordBytes)

/-! ## Frames -/

/-- A frame the host may send: it fits, and is no reset. -/
def Proper (frame : Message) : Prop :=
  frame.type ≠ MSG_RESET ∧ frame.payload.length ≤ MAX_PAYLOAD

/-- The settings for a radio among frames. -/
def retunings (i : LocalRadio) (frames : List Message) : List CfgRadio :=
  frames.filterMap (retunes i)

theorem retunings_append (i : LocalRadio) (before after : List Message) :
    retunings i (before ++ after) = retunings i before ++ retunings i after :=
  List.filterMap_append

theorem retunings_of_type {i : LocalRadio} {frames : List Message}
    (hframes : ∀ frame ∈ frames, frame.type ≠ MSG_CFG_RADIO) : retunings i frames = [] :=
  List.filterMap_eq_nil_iff.mpr fun frame hmem => if_neg fun hboth => hframes frame hmem hboth.1

theorem retunes_begin (i j : LocalRadio) (config : LoraConfig) :
    retunes j ⟨ MSG_CFG_RADIO, .ofNat i, CfgRadio.bytes (cfgOf config)⟩ =
      if i = j then some (cfgOf config) else none := by
  by_cases hi : i = j <;> simp [retunes, localOf_index, read_bytes, hi]

theorem retunings_begin (i j : LocalRadio) (config : LoraConfig) :
    retunings j (beginMessages i config) = if i = j then [cfgOf config] else [] := by
  have hstart : retunes j ⟨MSG_START_RX, .ofNat i, []⟩ = none :=
    if_neg fun hboth => (by decide : MSG_START_RX ≠ MSG_CFG_RADIO) hboth.1
  have hcfg := retunes_begin i j config
  split
  · rename_i hi
    rw [if_pos hi] at hcfg
    simp [retunings, beginMessages, hcfg, hstart]
  · rename_i hi
    rw [if_neg hi] at hcfg
    simp [retunings, beginMessages, hcfg, hstart]

theorem proper_begin {i : LocalRadio} {config : LoraConfig} :
    ∀ frame ∈ beginMessages i config, Proper frame := by
  intro frame hframe
  simp only [beginMessages, List.mem_cons, List.not_mem_nil, or_false] at hframe
  obtain rfl | rfl := hframe
  · exact ⟨by simp; decide, by simp [CfgRadio.bytes, wordBytes, word16Bytes, MAX_PAYLOAD]⟩
  · exact ⟨by simp; decide, Nat.zero_le _⟩

theorem proper_configMessages (settings : Settings) :
    ∀ frame ∈ configMessages settings, Proper frame := by
  intro frame hframe
  obtain ⟨i, -, hi⟩ := List.mem_flatMap.mp hframe
  obtain ⟨config, -, hmem⟩ := List.mem_flatMap.mp hi
  exact proper_begin frame hmem

theorem start_of_receiveMessages (settings : Settings) :
    ∀ frame ∈ receiveMessages settings, ∃ i : LocalRadio, frame = ⟨MSG_START_RX, .ofNat i, []⟩ := by
  intro frame hframe
  obtain ⟨i, -, hi⟩ := List.mem_flatMap.mp hframe
  obtain ⟨config, -, rfl⟩ := List.mem_map.mp hi
  exact ⟨i, rfl⟩

/-- Every enabled radio gets its settings, once. -/
theorem retunings_configMessages (settings : Settings) (i : LocalRadio) :
    retunings i (configMessages settings) = (settings i).toList.map cfgOf := by
  have hradio : ∀ j, retunings i ((settings j).toList.flatMap (beginMessages j)) =
      if j = i then (settings i).toList.map cfgOf else [] := by
    intro j
    cases hsettings : settings j with
    | none =>
        split
        · rename_i hj
          rw [← hj, hsettings]
          rfl
        · rfl
    | some config =>
        rw [Option.toList_some, List.flatMap_singleton, retunings_begin]
        split
        · rename_i hj
          rw [← hj, hsettings]
          rfl
        · rfl
  have hall : configMessages settings = (settings 0).toList.flatMap (beginMessages 0) ++
      (settings 1).toList.flatMap (beginMessages 1) := by
    simp [configMessages, List.finRange_succ]
  rw [hall, retunings_append, hradio, hradio]
  match i with
  | 0 => simp
  | 1 => simp

/-! ## Settings that are there or on the way -/

section Settled

variable (settings : Settings) (works : LocalRadio → Prop)

/-- The radio has the host's settings, and is enabled if its `begin()` never fails. -/
def Applied (i : LocalRadio) (config : LoraConfig) (radio : Radio) : Prop :=
  radio.cfg = tuned config ∧ (works i → radio.enabled = true)

/-- The last settings that are on the way to a radio are the host's, or none are and the radio
has them. -/
def Settled (radios : Radios) (frames : List Message) : Prop :=
  ∀ i config, settings i = some config →
    (retunings i frames).getLast? = some (cfgOf config) ∨
      retunings i frames = [] ∧ Applied works i config (radios i)

end Settled

section Steps

variable {settings : Settings} {works : LocalRadio → Prop} {radios : Radios}
  {begun : LocalRadio → Bool}

/-- Neither the radios nor the settings on the way change. -/
theorem Settled.of_tuning {next : Radios} {frames frames' : List Message}
    (hsettled : Settled settings works radios frames)
    (hframes : ∀ i, retunings i frames' = retunings i frames)
    (htuning : ∀ i, tuning (next i) = tuning (radios i)) :
    Settled settings works next frames' := by
  intro i config hconfig
  obtain ⟨hcfg, henabled⟩ := Prod.mk.inj (htuning i)
  rw [hframes]
  refine (hsettled i config hconfig).imp_right ?_
  rintro ⟨hnone, happlied⟩
  exact ⟨hnone, hcfg.trans happlied.1, fun hworks => henabled.trans (happlied.2 hworks)⟩

/-- The host is about to send all its settings. -/
theorem settled_configMessages (settings : Settings) (radios : Radios) (frames : List Message)
    {more : List Message} (hmore : ∀ frame ∈ more, frame.type ≠ MSG_CFG_RADIO) :
    Settled settings works radios (frames ++ (configMessages settings ++ more)) := by
  intro i config hconfig
  rw [retunings_append, retunings_append, retunings_configMessages, retunings_of_type hmore,
    hconfig]
  exact .inl (by simp)

theorem Settled.handle {frame : Message} {rest : List Message}
    (hsettled : Settled settings works radios (frame :: rest)) (hproper : Proper frame)
    (hbegun : ∀ i, works i → begun i = true) (uptime : UInt32) :
    Settled settings works (handleHostFrame frame 0 begun uptime radios).1 rest := by
  intro i config hconfig
  have htunes := (handle_tunes (i := i) radios 0 begun uptime hproper.1).tuning
  have hhere := hsettled i config hconfig
  have hcons : retunings i (frame :: rest) = (retunes i frame).toList ++ retunings i rest := by
    rw [retunings, List.filterMap_cons]
    cases retunes i frame <;> rfl
  rw [hcons] at hhere
  cases hretunes : retunes i frame with
  | none =>
      rw [hretunes] at htunes hhere
      obtain ⟨hcfg, henabled⟩ := Prod.mk.inj htunes
      refine hhere.imp_right ?_
      rintro ⟨hnone, happlied⟩
      exact ⟨hnone, hcfg.trans happlied.1, fun hworks => henabled.trans (happlied.2 hworks)⟩
  | some c =>
      rw [hretunes] at htunes hhere
      rcases hhere with hlast | ⟨hnone, -⟩
      · cases hrest : retunings i rest with
        | cons d later =>
            rw [hrest] at hlast
            exact .inl (by simpa using hlast)
        | nil =>
            -- these are the last settings on the way
            rw [hrest] at hlast
            obtain rfl : c = cfgOf config := Option.some.inj hlast
            have henable : (cfgOf config).enable ≠ 0 := by simp [cfgOf]
            simp only [henable, ne_eq, not_false_eq_true, if_true] at htunes
            obtain ⟨hcfg, henabled⟩ := Prod.mk.inj htunes
            exact .inr ⟨rfl, hcfg, fun hworks => henabled.trans (hbegun i hworks)⟩
      · cases hnone

/-- What the frames a board reads do: the settings among them are applied, and no answer is
a MSG_READY. -/
theorem run_settles (settings : Settings) (render : Act → List UInt8) (uptime : UInt32)
    (up : Wire) (radios : Radios) {delivered : List Message} (later : List Message)
    (hproper : ∀ frame ∈ delivered, Proper frame)
    (hbegun : ∀ i, works i → begun i = true) :
    let next := (Machine.run (coprocHandles render begun uptime) (radios, up) delivered).1
    (Settled settings works radios (delivered ++ later) → Settled settings works next.1 later) ∧
      ∀ upward, up.Pending upward →
        ∃ answers, next.2.Pending (upward ++ answers) ∧ readies answers = 0 := by
  induction delivered generalizing up radios with
  | nil => exact ⟨id, fun upward hup => ⟨[], by simpa [Machine.run] using hup, rfl⟩⟩
  | cons frame rest ih =>
      have hframe := hproper frame List.mem_cons_self
      have hrest := ih
        (sendAll ((handleHostFrame frame 0 begun uptime radios).2.filterMap (message render)) up)
        (handleHostFrame frame 0 begun uptime radios).1 fun other hmem =>
          hproper other (List.mem_cons_of_mem _ hmem)
      refine ⟨fun hsettled => hrest.1 (hsettled.handle hframe hbegun uptime), fun upward hup => ?_⟩
      obtain ⟨_, hadmits⟩ := handle_admits (i := 0) radios 0 begun uptime hframe.1
      have hsent := pending_acts render _ hup (short_of_quiet hadmits.quiet)
      obtain ⟨answers, hpending, hnone⟩ := hrest.2 _ hsent
      refine ⟨_, by rwa [List.append_assoc] at hpending, ?_⟩
      rw [readies, List.countP_append, ← readies, ← readies, hnone, Nat.add_zero]
      exact readies_acts render _ (handle_tunes (i := 0) radios 0 begun uptime hframe.1).quiet

theorem handleFrame_ready (registered : LocalRadio → Bool) (now : UInt32) (host : Host)
    (frame : Message) :
    let next := (handleFrame registered now host frame).1
    if frame.type = MSG_READY then next.readyGen = host.readyGen + 1 ∧ next.ready = true
    else next.readyGen = host.readyGen ∧ next.ready = host.ready := by
  dsimp only [handleFrame]
  by_cases hrx : frame.type = MSG_RX
  · have hnot : frame.type ≠ MSG_READY := by
      rw [hrx]
      decide
    rw [if_neg hnot, if_pos hrx]
    split
    · split
      · exact ⟨rfl, rfl⟩
      · exact ⟨rfl, rfl⟩
    · exact ⟨rfl, rfl⟩
  · rw [if_neg hrx]
    by_cases hready : frame.type = MSG_READY
    · rw [if_pos hready, if_pos hready]
      exact ⟨rfl, rfl⟩
    · rw [if_neg hready, if_neg hready]
      split
      · exact ⟨rfl, rfl⟩
      · split
        · cases localOf frame.radio with
          | none => exact ⟨rfl, rfl⟩
          | some i => exact ⟨rfl, rfl⟩
        · exact ⟨rfl, rfl⟩

/-- The host counts every MSG_READY, and is ready after the first. -/
theorem run_ready (registered : LocalRadio → Bool) (now : UInt32) (host : Host)
    (delivered : List Message) :
    (Machine.run (handleFrame registered now) host delivered).1.readyGen =
        host.readyGen + .ofNat (readies delivered) ∧
      (Machine.run (handleFrame registered now) host delivered).1.ready =
        (host.ready || decide (0 < readies delivered)) := by
  induction delivered generalizing host with
  | nil => simp [Machine.run, readies]
  | cons frame rest ih =>
      have hframe := handleFrame_ready registered now host frame
      obtain ⟨hgens, hreadys⟩ := ih (handleFrame registered now host frame).1
      simp only [Machine.run, hgens, hreadys]
      by_cases hready : frame.type = MSG_READY
      · simp only [if_pos hready] at hframe
        rw [readies, readies, List.countP_cons_of_pos (by simpa), hframe.1, hframe.2,
          UInt32.add_assoc, UInt32.ofNat_add, UInt32.add_comm 1]
        exact ⟨rfl, by simp⟩
      · simp only [if_neg hready] at hframe
        rw [readies, readies, List.countP_cons_of_neg (by simpa), hframe.1, hframe.2]
        exact ⟨rfl, rfl⟩

/-! ## Over a run -/

/-- What is on its way, and how many MSG_READYs the host and its loop have seen: while the
loop has seen all there were, the settings are there or on the way. -/
structure Heals (works : LocalRadio → Prop) (s : Pair) (upward downward : List Message)
    (readys seen most : ℕ) : Prop where
  up : s.boards.up.Pending upward
  down : s.boards.down.Pending downward
  proper : ∀ frame ∈ downward ++ s.outbox, Proper frame
  readyGen : s.boards.host.readyGen = .ofNat readys
  ready : s.boards.host.ready = decide (0 < readys)
  lastReadyGen : s.lastReadyGen = .ofNat seen
  seen_le : seen ≤ readys
  few : readys + readies upward ≤ most
  heals : 0 < readies upward ∨ seen < readys ∨
    Settled s.settings works s.boards.radios (downward ++ s.outbox)

/-- Some account of the state. -/
def Accounted (works : LocalRadio → Prop) (s : Pair) (most : ℕ) : Prop :=
  ∃ upward downward readys seen, Heals works s upward downward readys seen most

variable (render : Act → List UInt8) {s : Pair} {upward downward : List Message}
  {readys seen most : ℕ}

/-- A task of the host put frames without settings on the wire. -/
theorem Heals.sends (h : Heals works s upward downward readys seen most)
    (messages : List Message) {host : Host} (hproper : ∀ frame ∈ messages, Proper frame)
    (hcfg : ∀ frame ∈ messages, frame.type ≠ MSG_CFG_RADIO)
    (hgen : host.readyGen = s.boards.host.readyGen)
    (hready : host.ready = s.boards.host.ready) :
    Heals works { s with boards := { s.boards with
      host := host, down := sendAll messages s.boards.down } }
      upward (downward ++ messages) readys seen most where
  up := h.up
  down := pending_sendAll h.down fun frame hmem => (hproper frame hmem).2
  proper frame hmem := by
    rcases List.mem_append.mp hmem with hsent | hlater
    · rcases List.mem_append.mp hsent with hold | hnew
      · exact h.proper frame (List.mem_append_left _ hold)
      · exact hproper frame hnew
    · exact h.proper frame (List.mem_append_right _ hlater)
  readyGen := hgen.trans h.readyGen
  ready := hready.trans h.ready
  lastReadyGen := h.lastReadyGen
  seen_le := h.seen_le
  few := h.few
  heals := by
    refine h.heals.imp_right (.imp_right fun hsettled => hsettled.of_tuning ?_ fun _ => rfl)
    intro i
    rw [retunings_append, retunings_append, retunings_append, retunings_of_type hcfg,
      List.append_nil]

/-- The tasks of the host that use a radio. -/
def asks : Task → Prop
  | .startReceive _ | .transmit _ _ | .read _ => True
  | _ => False

/-- `begin()` of a radio succeeds, if it is one that works. -/
def Respects (works : LocalRadio → Prop) : Event → Prop
  | .task (.coprocFeeds begun _) => ∀ i, works i → begun i = true
  | _ => True

/-- The host reads a byte. -/
theorem Heals.hostFeeds (h : Heals works s upward downward readys seen most) (now : UInt32) :
    let next := (step render s (.task (.hostFeeds now))).1
    ∃ delivered later, upward = delivered ++ later ∧
      Heals works next later downward (readys + readies delivered) seen most ∧
      next.boards.up.bytes = s.boards.up.bytes.tail ∧ next.boards.down = s.boards.down ∧
      next.outbox = s.outbox := by
  obtain ⟨next, delivered, later, hfeed, rfl, hlater⟩ := h.up.feed Framing.uartLinkFeedByte_mem
  have hcount : readies (delivered ++ later) = readies delivered + readies later :=
    List.countP_append
  have hfew := h.few
  have hle := h.seen_le
  simp only [step, Task.event, RemoteLink.step, hfeed]
  have hrun := run_ready (fun i => (s.settings i).isSome) now s.boards.host delivered
  refine ⟨delivered, later, rfl, ⟨hlater, h.down, h.proper, ?_, ?_, h.lastReadyGen, by omega,
    by omega, ?_⟩, Wire.bytes_feed hfeed, trivial, trivial⟩
  · rw [hrun.1, h.readyGen, UInt32.ofNat_add]
  · rw [hrun.2, h.ready, ← Bool.decide_or]
    exact decide_eq_decide.mpr (by omega)
  · rcases h.heals with hready | hbehind | hsettled
    · by_cases hnow : 0 < readies later
      · exact .inl hnow
      · exact .inr (.inl (by omega))
    · exact .inr (.inl (by omega))
    · exact .inr (.inr hsettled)

/-- The co-processor reads a byte. -/
theorem Heals.coprocFeeds (h : Heals works s upward downward readys seen most)
    (begun : LocalRadio → Bool) (hbegun : ∀ i, works i → begun i = true) (uptime : UInt32) :
    let next := (step render s (.task (.coprocFeeds begun uptime))).1
    ∃ answers later, readies (upward ++ answers) = readies upward ∧
      Heals works next (upward ++ answers) later readys seen most ∧
      next.boards.down.bytes = s.boards.down.bytes.tail ∧ next.outbox = s.outbox := by
  obtain ⟨next, delivered, later, hfeed, rfl, hlater⟩ := h.down.feed Framing.coprocFeedByte_mem
  have hsettles := run_settles s.settings render uptime s.boards.up s.boards.radios
    (later ++ s.outbox) (fun frame hmem => h.proper frame
      (List.mem_append_left _ (List.mem_append_left _ hmem))) hbegun
  obtain ⟨answers, hpending, hnone⟩ := hsettles.2 upward h.up
  have hcount : readies (upward ++ answers) = readies upward := by
    rw [readies, List.countP_append, ← readies, ← readies, hnone, Nat.add_zero]
  simp only [step, Task.event, RemoteLink.step, hfeed]
  refine ⟨answers, later, hcount, ⟨hpending, hlater, fun frame hmem => ?_, h.readyGen, h.ready,
    h.lastReadyGen, h.seen_le, ?_, ?_⟩, Wire.bytes_feed hfeed, trivial⟩
  · apply h.proper
    rw [List.append_assoc]
    exact List.mem_append_right _ hmem
  · rw [hcount]
    exact h.few
  · rw [hcount]
    refine h.heals.imp_right (.imp_right fun hsettled => hsettles.1 ?_)
    rwa [List.append_assoc] at hsettled

/-- A pass of the co-processor's loop. -/
theorem Heals.pass (h : Heals works s upward downward readys seen most)
    (turns : LocalRadio → Turn) :
    ∃ more, readies (upward ++ more) = readies upward ∧
      Heals works (step render s (.task (.pass turns))).1 (upward ++ more) downward readys seen
        most := by
  simp only [step, Task.event, RemoteLink.step]
  let acts := (Coprocessor.pass (fun i => clip (turns i)) s.boards.radios).2
  have hpending := pending_acts render acts h.up fun act => pass_short
  have hnone := readies_acts render acts fun act => pass_quiet
  have hcount : readies (upward ++ acts.filterMap (message render)) = readies upward := by
    rw [readies, List.countP_append, ← readies, ← readies, hnone, Nat.add_zero]
  refine ⟨acts.filterMap (message render), hcount, hpending, h.down, h.proper, h.readyGen,
    h.ready, h.lastReadyGen, h.seen_le, by rw [hcount]; exact h.few, ?_⟩
  rw [hcount]
  refine h.heals.imp_right (.imp_right fun hsettled => hsettled.of_tuning (fun _ => rfl) ?_)
  exact fun i => (serviceRadio_tunes (i := i) (clip (turns i)) (s.boards.radios i)).1

/-- A task of the host that reads no byte. -/
theorem Heals.asks (h : Heals works s upward downward readys seen most) (task : Task)
    (hhost : asks task) :
    ∃ later, Heals works (step render s (.task task)).1 upward later readys seen most := by
  cases task with
  | startReceive i =>
      refine ⟨_, h.sends [⟨MSG_START_RX, .ofNat i, []⟩] ?_ (by simp; decide) rfl rfl⟩
      simp only [List.mem_singleton, forall_eq]
      exact ⟨(by decide : MSG_START_RX ≠ MSG_RESET), Nat.zero_le _⟩
  | transmit i data =>
      simp only [step, Task.event, RemoteLink.step]
      split
      · split
        · rename_i hlen
          refine ⟨_, h.sends [⟨MSG_TX, .ofNat i, data⟩] ?_ (by simp; decide) rfl rfl⟩
          simp only [List.mem_singleton, forall_eq]
          exact ⟨(by decide : MSG_TX ≠ MSG_RESET), hlen⟩
        · exact ⟨_, h.sends [] (by simp) (by simp) rfl rfl⟩
      · exact ⟨_, h⟩
  | read i =>
      have hread : (RemoteLink.read i LORA_MAX_PACKET s.boards.host).1.readyGen =
            s.boards.host.readyGen ∧
          (RemoteLink.read i LORA_MAX_PACKET s.boards.host).1.ready = s.boards.host.ready := by
        unfold RemoteLink.read
        split
        · exact ⟨rfl, rfl⟩
        · exact ⟨rfl, rfl⟩
      exact ⟨_, h.sends [] (by simp) (by simp) hread.1 hread.2⟩
  | _ => exact hhost.elim

theorem accounted_task (haccounted : Accounted works s most) {task : Task}
    (hrespects : Respects works (.task task)) :
    Accounted works (step render s (.task task)).1 most := by
  obtain ⟨upward, downward, readys, seen, h⟩ := haccounted
  cases task with
  | hostFeeds now =>
      obtain ⟨delivered, later, -, hnext, -⟩ := h.hostFeeds render now
      exact ⟨later, downward, _, seen, hnext⟩
  | coprocFeeds begun uptime =>
      obtain ⟨answers, later, -, hnext, -⟩ := h.coprocFeeds render begun hrespects uptime
      exact ⟨_, later, readys, seen, hnext⟩
  | pass turns =>
      obtain ⟨more, -, hnext⟩ := h.pass render turns
      exact ⟨_, downward, readys, seen, hnext⟩
  | startReceive i =>
      obtain ⟨later, hnext⟩ := h.asks render (.startReceive i) trivial
      exact ⟨upward, later, readys, seen, hnext⟩
  | transmit i data =>
      obtain ⟨later, hnext⟩ := h.asks render (.transmit i data) trivial
      exact ⟨upward, later, readys, seen, hnext⟩
  | read i =>
      obtain ⟨later, hnext⟩ := h.asks render (.read i) trivial
      exact ⟨upward, later, readys, seen, hnext⟩

/-- The host sends the next frame of its `setup()` or `loop()`. -/
theorem Heals.sendsNext (h : Heals works s upward downward readys seen most) {frame : Message}
    {rest : List Message} (houtbox : s.outbox = frame :: rest) :
    Heals works (loop s) upward (downward ++ [frame]) readys seen most ∧
      (loop s).boards.up = s.boards.up ∧ (loop s).outbox = rest := by
  have hsame : downward ++ [frame] ++ rest = downward ++ s.outbox := by
    rw [houtbox, List.append_assoc]
    rfl
  have hproper := h.proper
  have hheals := h.heals
  rw [← hsame] at hproper hheals
  have hframe := (hproper frame (by simp)).2
  simp only [SelfHeal.loop, houtbox]
  exact ⟨⟨h.up, h.down.send hframe, hproper, h.readyGen, h.ready, h.lastReadyGen, h.seen_le,
    h.few, hheals⟩, trivial, trivial⟩

/-- The loop sees every MSG_READY that came. -/
theorem Heals.looks (h : Heals works s upward downward readys seen most) (hmost : most < 2 ^ 32)
    (houtbox : s.outbox = []) :
    Heals works (loop s) upward downward readys readys most ∧
      (loop s).boards.up = s.boards.up := by
  have hfew := h.few
  have hle := h.seen_le
  have hproper := h.proper
  rw [houtbox, List.append_nil] at hproper
  by_cases hgen : s.boards.host.readyGen ≠ s.lastReadyGen
  · simp only [SelfHeal.loop, houtbox, if_pos hgen]
    refine ⟨⟨h.up, h.down, fun frame hmem => ?_, h.readyGen, h.ready, h.readyGen, le_rfl, h.few,
      .inr (.inr ?_)⟩, trivial⟩
    · rcases List.mem_append.mp hmem with hold | hnew
      · exact hproper frame hold
      · exact proper_configMessages s.settings frame hnew
    · have hnothing : ∀ frame ∈ ([] : List Message), frame.type ≠ MSG_CFG_RADIO := by simp
      have hsettled : Settled s.settings works s.boards.radios
          (downward ++ (configMessages s.settings ++ [])) :=
        settled_configMessages s.settings s.boards.radios downward hnothing
      rwa [List.append_nil] at hsettled
  · have hsame : seen = readys := by
      have heq := congrArg UInt32.toNat (not_not.mp hgen)
      rw [h.readyGen, h.lastReadyGen, UInt32.toNat_ofNat', UInt32.toNat_ofNat'] at heq
      omega
    subst hsame
    simp only [SelfHeal.loop, houtbox, if_neg hgen]
    exact ⟨h, trivial⟩

/-- The co-processor boots. -/
theorem accounted_setup (begun : LocalRadio → Bool) {host : Host} {up : Wire}
    {settings : Settings} {last : UInt32} {outbox upward : List Message} {readys seen : ℕ}
    (hup : up.Pending upward) (hproper : ∀ frame ∈ outbox, Proper frame)
    (hgen : host.readyGen = .ofNat readys) (hready : host.ready = decide (0 < readys))
    (hlast : last = .ofNat seen) (hle : seen ≤ readys)
    (hfew : readys + readies upward ≤ most) :
    Accounted works ⟨⟨host, (setup begun).1, .idle,
      sendAll ((setup begun).2.filterMap (message render)) up⟩, settings, last, outbox⟩
      (most + 1) := by
  have hone : readies ((setup begun).2.filterMap (message render)) = 1 := by
    cases h0 : begun 0 <;> cases h1 : begun 1 <;>
      simp [setup, h0, h1, List.filterMap_cons, message, readies, MSG_LOG, MSG_READY]
  have hcount : readies (upward ++ (setup begun).2.filterMap (message render)) =
      readies upward + 1 := by
    rw [readies, List.countP_append, ← readies, ← readies, hone]
  refine ⟨_, [], readys, seen, pending_acts render _ hup (short_of_quiet (setup_quiet begun)),
    pending_idle, hproper, hgen, hready, hlast, hle, ?_, .inl ?_⟩
  · rw [hcount]
    omega
  · rw [hcount]
    omega

/-- The host boots, with settings of its own. -/
theorem Heals.hostRestarts (h : Heals works s upward downward readys seen most)
    (settings : Settings) :
    Heals works (step render s (.hostRestarts settings)).1 [] downward 0 0 most := by
  have hstart := start_of_receiveMessages settings
  refine ⟨pending_idle, h.down, fun frame hmem => ?_, rfl, rfl, rfl, le_rfl, Nat.zero_le _,
    .inr (.inr (settled_configMessages settings _ downward fun frame hmem => ?_))⟩
  · rcases List.mem_append.mp hmem with hold | hnew
    · exact h.proper frame (List.mem_append_left _ hold)
    · rcases List.mem_append.mp hnew with hconfig | hreceive
      · exact proper_configMessages settings frame hconfig
      · obtain ⟨i, rfl⟩ := hstart frame hreceive
        exact ⟨(by decide : MSG_START_RX ≠ MSG_RESET), Nat.zero_le _⟩
  · obtain ⟨i, rfl⟩ := hstart frame hmem
    exact (by decide : MSG_START_RX ≠ MSG_CFG_RADIO)

/-- The boots of the co-processor in an event. -/
def boots : Event → ℕ
  | .coprocRestarts _ => 1
  | _ => 0

theorem accounted_step (haccounted : Accounted works s most) (hmost : most < 2 ^ 32)
    {event : Event} (hrespects : Respects works event) :
    Accounted works (step render s event).1 (most + boots event) := by
  cases event with
  | task task => exact accounted_task render haccounted hrespects
  | loop =>
      obtain ⟨upward, downward, readys, seen, h⟩ := haccounted
      cases houtbox : s.outbox with
      | nil => exact ⟨upward, downward, readys, readys, (h.looks hmost houtbox).1⟩
      | cons frame rest => exact ⟨upward, _, readys, seen, (h.sendsNext houtbox).1⟩
  | coprocRestarts begun =>
      obtain ⟨upward, downward, readys, seen, h⟩ := haccounted
      exact accounted_setup render begun h.up
        (fun frame hmem => h.proper frame (List.mem_append_right _ hmem)) h.readyGen h.ready
        h.lastReadyGen h.seen_le h.few
  | hostRestarts settings =>
      obtain ⟨upward, downward, readys, seen, h⟩ := haccounted
      exact ⟨[], downward, 0, 0, h.hostRestarts render settings⟩

/-- The boots of the co-processor in a life, the first one included. -/
def coprocBoots (events : List Event) : ℕ := 1 + (events.map boots).sum

theorem accounted_life (works : LocalRadio → Prop) (settings : Settings)
    (begun : LocalRadio → Bool) (events : List Event) (hfew : coprocBoots events < 2 ^ 32)
    (hrespects : ∀ event ∈ events, Respects works event) :
    Accounted works (life settings render begun events).1 (coprocBoots events) := by
  induction events using List.reverseRecOn with
  | nil => exact accounted_setup render begun pending_idle (by simp) rfl rfl rfl le_rfl le_rfl
  | append_singleton before event ih =>
      have hcount : coprocBoots (before ++ [event]) = coprocBoots before + boots event := by
        simp [coprocBoots, Nat.add_assoc]
      rw [hcount] at hfew ⊢
      have hbefore := ih (by omega) fun other hmem =>
        hrespects other (List.mem_append_left _ hmem)
      have hevent := hrespects event (List.mem_append_right _ List.mem_cons_self)
      have hstep := accounted_step render hbefore (by omega) hevent
      simp only [life, Machine.run_append]
      exact hstep

end Steps

/-! ## Quiet links -/

/-- No byte is under way, nothing is about to be sent of the settings, and the loop has seen
every MSG_READY. -/
structure Quiet (s : Pair) : Prop where
  up : s.boards.up.bytes = []
  down : s.boards.down.bytes = []
  outbox : s.outbox = []
  seen : s.boards.host.readyGen = s.lastReadyGen

/-- A radio's `begin()` succeeds whenever the co-processor is given its settings. -/
def Begins (i : LocalRadio) : Event → Prop
  | .task (.coprocFeeds begun _) => begun i = true
  | _ => True

/-- Whatever the tasks of the boards did and however often each of them restarted: while the
link is quiet, every remote radio that is enabled has the host's settings, and is enabled on
the co-processor if its `begin()` does not fail. -/
theorem configured_when_quiet (settings : Settings) (render : Act → List UInt8)
    (begun : LocalRadio → Bool) (events : List Event) (hfew : coprocBoots events < 2 ^ 32)
    (hquiet : Quiet (life settings render begun events).1) {i : LocalRadio} {config : LoraConfig}
    (hconfig : (life settings render begun events).1.settings i = some config) :
    ((life settings render begun events).1.boards.radios i).cfg = tuned config ∧
      ((∀ event ∈ events, Begins i event) →
        ((life settings render begun events).1.boards.radios i).enabled = true) := by
  have hrespects : ∀ event ∈ events,
      Respects (fun j => ∀ event ∈ events, Begins j event) event := by
    intro event hmem
    cases event with
    | task task =>
        cases task with
        | coprocFeeds begun up => exact fun j hbegins => hbegins _ hmem
        | _ => trivial
    | _ => trivial
  obtain ⟨upward, downward, readys, seen, h⟩ :=
    accounted_life render _ settings begun events hfew hrespects
  obtain rfl := h.up.eq_nil hquiet.up
  obtain rfl := h.down.eq_nil hquiet.down
  have hsame : readys = seen := by
    have heq := congrArg UInt32.toNat hquiet.seen
    have hmost := h.few
    have hle := h.seen_le
    rw [h.readyGen, h.lastReadyGen, UInt32.toNat_ofNat', UInt32.toNat_ofNat'] at heq
    omega
  rcases h.heals with hready | hbehind | hsettled
  · exact absurd hready (lt_irrefl 0)
  · omega
  · rw [hquiet.outbox] at hsettled
    rcases hsettled i config hconfig with hlast | ⟨-, happlied⟩
    · cases hlast
    · exact happlied

/-- Turns of the host's link task, steps of its loop, and turns of the co-processor's
reading. -/
def hostReads (now : UInt32) (turns : ℕ) : List Event :=
  List.replicate turns (.task (.hostFeeds now))

def loops (turns : ℕ) : List Event := List.replicate turns .loop

def coprocReads (begun : LocalRadio → Bool) (uptime : UInt32) (turns : ℕ) : List Event :=
  List.replicate turns (.task (.coprocFeeds begun uptime))

/-- One radio with a sync word of its own; the co-processor restarts before the loop has
seen that it booted. -/
def exampleSettings : Settings := fun i =>
  if i = 1 then some { defaultConfig with syncWord := 0x33 } else none

def exampleRestart : List Event :=
  .coprocRestarts (fun _ => true) :: hostReads 0 36 ++
    (loops 3 ++ (coprocReads (fun _ => true) 0 31 ++ hostReads 0 8))

theorem configured_when_quiet_restart :
    ((life exampleSettings (fun _ => []) (fun _ => true) exampleRestart).1.boards.radios 1).cfg =
      { defaultConfig with syncWord := 0x33 } := by
  have hsettings : (life exampleSettings (fun _ => []) (fun _ => true)
      exampleRestart).1.settings 1 = some { defaultConfig with syncWord := 0x33 } := by
    decide +kernel
  exact (configured_when_quiet exampleSettings (fun _ => []) (fun _ => true) exampleRestart
    (by decide) ⟨by decide +kernel, by decide +kernel, by decide +kernel, by decide +kernel⟩
    hsettings).1

section Draining

variable {works : LocalRadio → Prop} (render : Act → List UInt8) {s : Pair}
  {upward downward : List Message} {readys seen most : ℕ}

/-- The host's link task, left alone, reads all there is. -/
theorem Heals.drainUp (h : Heals works s upward downward readys seen most) (now : UInt32) :
    ∃ turns, let next := (Machine.run (step render) s (hostReads now turns)).1
      Heals works next [] downward (readys + readies upward) seen most ∧
        next.boards.up.bytes = [] ∧ next.boards.down = s.boards.down ∧
        next.outbox = s.outbox := by
  generalize hbytes : s.boards.up.bytes = bytes
  induction bytes generalizing s upward readys with
  | nil =>
      obtain rfl := h.up.eq_nil hbytes
      exact ⟨0, h, hbytes, rfl, rfl⟩
  | cons b rest ih =>
      obtain ⟨delivered, later, rfl, hnext, htail, hdown, houtbox⟩ := h.hostFeeds render now
      rw [hbytes] at htail
      obtain ⟨turns, hheals, hempty, hsame, hkept⟩ := ih hnext htail
      have hcount : readies (delivered ++ later) = readies delivered + readies later :=
        List.countP_append
      refine ⟨turns + 1, ?_, hempty, hsame.trans hdown, hkept.trans houtbox⟩
      rw [hcount, ← Nat.add_assoc]
      exact hheals

/-- The co-processor reads all there is; its answers do not wake the loop. -/
theorem Heals.drainDown (h : Heals works s upward downward readys seen most)
    (begun : LocalRadio → Bool) (hbegun : ∀ i, works i → begun i = true) (uptime : UInt32) :
    ∃ turns answers, let next := (Machine.run (step render) s
        (coprocReads begun uptime turns)).1
      Heals works next answers [] readys seen most ∧
        next.boards.down.bytes = [] ∧ readies answers = readies upward ∧
        next.outbox = s.outbox := by
  generalize hbytes : s.boards.down.bytes = bytes
  induction bytes generalizing s upward downward with
  | nil =>
      obtain rfl := h.down.eq_nil hbytes
      exact ⟨0, upward, h, hbytes, rfl, rfl⟩
  | cons b rest ih =>
      obtain ⟨answers, later, hcount, hnext, htail, houtbox⟩ :=
        h.coprocFeeds render begun hbegun uptime
      rw [hbytes] at htail
      obtain ⟨turns, all, hheals, hempty, hall, hkept⟩ := ih hnext htail
      exact ⟨turns + 1, all, hheals, hempty, hall.trans hcount, hkept.trans houtbox⟩

/-- The host sends all that it is about to send. -/
theorem Heals.drainOutbox (h : Heals works s upward downward readys seen most) :
    ∃ turns later, let next := (Machine.run (step render) s (loops turns)).1
      Heals works next upward later readys seen most ∧ next.outbox = [] ∧
        next.boards.up = s.boards.up := by
  generalize houtbox : s.outbox = outbox
  induction outbox generalizing s downward with
  | nil => exact ⟨0, downward, h, houtbox, rfl⟩
  | cons frame rest ih =>
      obtain ⟨hnext, hup, hrest⟩ := h.sendsNext houtbox
      obtain ⟨turns, later, hheals, hempty, hsame⟩ := ih hnext hrest
      exact ⟨turns + 1, later, hheals, hempty, hsame.trans hup⟩

/-- The loop comes round: it sends what it was about to send, looks at the count, and sends the
settings if that has moved. -/
theorem Heals.comesRound (h : Heals works s upward downward readys seen most)
    (hmost : most < 2 ^ 32) :
    ∃ turns later, let next := (Machine.run (step render) s (loops turns)).1
      Heals works next upward later readys readys most ∧ next.outbox = [] ∧
        next.boards.up = s.boards.up := by
  obtain ⟨first, sent, hfirst, houtbox, hup⟩ := h.drainOutbox render
  obtain ⟨hlook, hup'⟩ := hfirst.looks hmost houtbox
  obtain ⟨second, later, hsecond, hempty, hup''⟩ := hlook.drainOutbox render
  refine ⟨first + (1 + second), later, ?_⟩
  have hrun : (Machine.run (step render) s (loops (first + (1 + second)))).1 =
      (Machine.run (step render) (loop (Machine.run (step render) s (loops first)).1)
        (loops second)).1 := by
    rw [loops, List.replicate_add, List.replicate_add, Machine.run_append, Machine.run_append]
    rfl
  rw [hrun]
  exact ⟨hsecond, hempty, hup''.trans (hup'.trans hup)⟩

end Draining

/-- Nothing is asked of a radio's `begin()`. -/
theorem respects_nothing (event : Event) : Respects (fun _ => False) event := by
  cases event with
  | task task =>
      cases task with
      | coprocFeeds begun up => exact fun i hworks => hworks.elim
      | _ => trivial
  | _ => trivial

/-- From wherever the boards have come to, the link is quiet after the host has read what is
under way, its loop has come round once, and both have read what follows from it. -/
theorem quiet_within_reach (settings : Settings) (render : Act → List UInt8)
    (begun : LocalRadio → Bool) (events : List Event) (hfew : coprocBoots events < 2 ^ 32)
    (now uptime : UInt32) (begins : LocalRadio → Bool) :
    ∃ before turns between after, Quiet (life settings render begun (events ++
      (hostReads now before ++ (loops turns ++ (coprocReads begins uptime between ++
        hostReads now after))))).1 := by
  obtain ⟨upward, downward, readys, seen, h⟩ := accounted_life render (fun _ => False) settings
    begun events hfew fun event _ => respects_nothing event
  obtain ⟨before, hread, -⟩ := h.drainUp render now
  obtain ⟨turns, later, hround, houtbox, -⟩ := hread.comesRound render hfew
  obtain ⟨between, answers, hdrained, hdown, hnone, houtbox'⟩ :=
    hround.drainDown render begins (fun i hworks => hworks.elim) uptime
  obtain ⟨after, hquiet, hsilent, hkept, houtbox''⟩ := hdrained.drainUp render now
  refine ⟨before, turns, between, after, ?_⟩
  simp only [life, Machine.run_append]
  refine ⟨hsilent, (congrArg Wire.bytes hkept).trans hdown,
    houtbox''.trans (houtbox'.trans houtbox), ?_⟩
  have hgen := hquiet.readyGen
  rw [hnone] at hgen
  exact hgen.trans hquiet.lastReadyGen.symm

theorem quiet_within_reach_restart :
    ∃ before turns between after, Quiet (life exampleSettings (fun _ => []) (fun _ => true)
      (exampleRestart ++ (hostReads 0 before ++
        (loops turns ++ (coprocReads (fun _ => true) 0 between ++ hostReads 0 after))))).1 :=
  quiet_within_reach exampleSettings (fun _ => []) (fun _ => true) exampleRestart (by decide) 0 0
    fun _ => true

/-! ## A host that restarts alone -/

section Deaf

variable {s : Pair} {most : ℕ}

/-- The host has seen no MSG_READY since it booted, and none is under way. -/
def Deaf (s : Pair) (most : ℕ) : Prop :=
  ∃ upward downward, readies upward = 0 ∧ Heals (fun _ => False) s upward downward 0 0 most

/-- The co-processor stays up. -/
def StaysUp : Event → Prop
  | .coprocRestarts _ => False
  | _ => True

theorem deaf_step (render : Act → List UInt8) (hdeaf : Deaf s most)
    (hmost : most < 2 ^ 32) {event : Event} (hup : StaysUp event) :
    Deaf (step render s event).1 most ∧
      ∀ i data, .handed i data ∉ (step render s event).2 := by
  obtain ⟨upward, downward, hnone, h⟩ := hdeaf
  cases event with
  | task task =>
      cases task with
      | transmit i data =>
          obtain ⟨later, hnext⟩ := h.asks render (.transmit i data) trivial
          refine ⟨⟨upward, later, hnone, hnext⟩, fun _ _ => ?_⟩
          have hnot : s.boards.host.ready = false := h.ready
          simp [step, Task.event, RemoteLink.step, hnot]
      | startReceive i =>
          obtain ⟨later, hnext⟩ := h.asks render (.startReceive i) trivial
          exact ⟨⟨upward, later, hnone, hnext⟩, fun _ _ => by
            simp [step, Task.event, RemoteLink.step]⟩
      | read i =>
          obtain ⟨later, hnext⟩ := h.asks render (.read i) trivial
          exact ⟨⟨upward, later, hnone, hnext⟩, fun _ _ => by
            simp [step, Task.event, RemoteLink.step]⟩
      | hostFeeds now =>
          obtain ⟨delivered, later, rfl, hnext, -⟩ := h.hostFeeds render now
          rw [readies, List.countP_append, ← readies, ← readies] at hnone
          obtain ⟨hdelivered, hlater⟩ := Nat.add_eq_zero_iff.mp hnone
          rw [hdelivered] at hnext
          refine ⟨⟨later, downward, hlater, hnext⟩, fun i data hmem => ?_⟩
          obtain ⟨next, delivered, later, hfeed, -⟩ := h.up.feed Framing.uartLinkFeedByte_mem
          simp only [step, Task.event, RemoteLink.step, hfeed] at hmem
          obtain ⟨j, packet, kept, heq⟩ := (run_delivers _ now s.boards.host delivered).only _ hmem
          cases heq
      | coprocFeeds begun uptime =>
          obtain ⟨answers, later, hcount, hnext, -⟩ :=
            h.coprocFeeds render begun (fun i hworks => hworks.elim) uptime
          refine ⟨⟨_, later, hcount.trans hnone, hnext⟩, fun i data hmem => ?_⟩
          obtain ⟨next, delivered, later, hfeed, rfl, -⟩ :=
            h.down.feed Framing.coprocFeedByte_mem
          simp only [step, Task.event, RemoteLink.step, hfeed] at hmem
          have hhandles := run_handles render begun uptime (s.boards.radios, s.boards.up)
            fun frame hframe => (h.proper frame
              (List.mem_append_left _ (List.mem_append_left _ hframe))).1
          obtain ⟨j, other, heq⟩ | ⟨j, heq⟩ := hhandles.only _ hmem
          · cases heq
          · cases heq
      | pass turns =>
          obtain ⟨more, hcount, hnext⟩ := h.pass render turns
          refine ⟨⟨_, downward, hcount.trans hnone, hnext⟩, fun i data hmem => ?_⟩
          simp only [step, Task.event, RemoteLink.step] at hmem
          obtain ⟨act, -, hact⟩ := List.mem_filterMap.mp hmem
          cases act <;> cases hact
  | loop =>
      refine ⟨?_, fun _ _ => by simp [step]⟩
      cases houtbox : s.outbox with
      | nil => exact ⟨upward, downward, hnone, (h.looks hmost houtbox).1⟩
      | cons frame rest => exact ⟨upward, _, hnone, (h.sendsNext houtbox).1⟩
  | hostRestarts settings =>
      exact ⟨⟨[], _, rfl, h.hostRestarts render settings⟩, fun _ _ => by simp [step]⟩
  | coprocRestarts begun => exact hup.elim

theorem deaf_run (render : Act → List UInt8) (hdeaf : Deaf s most) (hmost : most < 2 ^ 32)
    (events : List Event) (hup : ∀ event ∈ events, StaysUp event) :
    ∀ i data, .handed i data ∉ (Machine.run (step render) s events).2 := by
  induction events generalizing s with
  | nil => exact fun _ _ => by simp [Machine.run]
  | cons event rest ih =>
      obtain ⟨hnext, hnone⟩ := deaf_step render hdeaf hmost (hup event List.mem_cons_self)
      intro i data hmem
      rcases List.mem_append.mp hmem with hnow | hlater
      · exact hnone i data hnow
      · exact ih hnext (fun other hother => hup other (List.mem_cons_of_mem _ hother)) i data hlater

end Deaf

/-- A host that restarts while the co-processor runs on hands it no packet, whatever is asked
of it, until the co-processor restarts too. -/
theorem nothing_handed_alone (settings : Settings) (render : Act → List UInt8)
    (begun : LocalRadio → Bool) (before after : List Event) (restarted : Settings)
    (hfew : coprocBoots before < 2 ^ 32) (hup : ∀ event ∈ after, StaysUp event) :
    ∀ i data, .handed i data ∉ (Machine.run (step render)
      (step render (life settings render begun before).1 (.hostRestarts restarted)).1 after).2 := by
  obtain ⟨upward, downward, readys, seen, h⟩ := accounted_life render (fun _ => False) settings
    begun before hfew fun event _ => respects_nothing event
  exact deaf_run render ⟨[], _, rfl, h.hostRestarts render restarted⟩ hfew after hup

theorem nothing_handed_alone_restart :
    .handed 1 [0x42] ∉ (Machine.run (step fun _ => [])
      (step (fun _ => []) (life exampleSettings (fun _ => []) (fun _ => true)
        exampleRestart).1 (.hostRestarts exampleSettings)).1
          [.loop, .task (.transmit 1 [0x42])]).2 :=
  nothing_handed_alone exampleSettings (fun _ => []) (fun _ => true) exampleRestart _
    exampleSettings (by decide) (by simp [StaysUp]) 1 [0x42]

end LoraBridge.Healing
