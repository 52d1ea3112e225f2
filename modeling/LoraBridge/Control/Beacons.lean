import LoraBridge.Control.CommandTrip

/-!
# The beacons of a camera

One frame for each configured slot, in the order of the slots and under consecutive
numbers.  Every commander that is linked to the camera finds among them the one it can
verify, and takes it.
-/

namespace LoraBridge.Beacons

open LoraBridge.C2Network LoraBridge.CamC2 LoraBridge.CamC2Config LoraBridge.CommandTrip
open LoraBridge.CutCalls LoraBridge.Machine LoraBridge.ReserveAhead LoraBridge.Station

/-- So many numbers can be issued, whether the reserved block ends before or not. -/
def Room (state : CamC2.State) (count : ℕ) : Prop :=
  state.config.ram.tx.next.toNat + count ≤ (0xFFFFFFFF - 1 - SEQ_RESERVE).toNat

section Loop

variable {device : Device} {state : CamC2.State} {status : List UInt8}
  {txWrites : Slot → Write}

theorem Room.issued {count : ℕ} (hroom : Room state count) :
    (state.issue .confirmed).issued = some state.config.ram.tx.next := by
  refine issue_confirmed (UInt32.le_iff_toNat_le.mpr ?_)
  exact le_trans (Nat.le_add_right _ _) hroom

theorem Room.afterSend {count : ℕ} (hroom : Room state (count + 1)) :
    Room (state.afterSend .confirmed) count := by
  obtain ⟨-, hnext, hless⟩ := next_advance TxSequence.reserve_small hroom.issued
  have hsucc : (state.config.ram.tx.next + 1).toNat = state.config.ram.tx.next.toNat + 1 := by
    have hlarger := UInt32.lt_iff_toNat_lt.mp hless
    have hone : (1 : UInt32).toNat = 1 := rfl
    rw [UInt32.toNat_add, hone] at hlarger ⊢
    have hbelow := state.config.ram.tx.next.toNat_lt
    omega
  have hstate : (state.afterSend .confirmed).config.ram.tx.next =
      state.config.ram.tx.next + 1 := hnext
  rw [Room, hstate, hsucc]
  rw [Room] at hroom
  omega

theorem Room.less {more fewer : ℕ} (hroom : Room state more) (hle : fewer ≤ more) :
    Room state fewer := le_trans (Nat.add_le_add_left hle _) hroom

/-- The loop comes to each configured slot, with the number that is next there. -/
theorem beacon_emitted (device : Device) (radioIdx : ℤ) (hfits : status.length ≤ MAX_PAYLOAD)
    (hwrites : ∀ slot, txWrites slot = .confirmed) {slots : List Slot}
    (hroom : Room state slots.length) {slot : Slot} (hslot : slot ∈ slots)
    (hconfigured : (state.config.ram.peer slot).configured = true) :
    ∃ seq, state.config.ram.tx.next ≤ seq ∧
      Output.emitted radioIdx
          ((beaconRequest (state.config.ram.peer slot) status).frame device seq) ∈
        ((Program.forEachWhile slots (beaconTo device radioIdx status txWrites)).run
          state).outputs := by
  induction slots generalizing state with
  | nil => cases hslot
  | cons first rest ih =>
      rw [Program.forEachWhile, Program.run_bind]
      by_cases hfirst : (state.config.ram.peer first).configured = true
      · rw [run_beaconTo device radioIdx status txWrites hfirst, hwrites]
        simp only [hroom.issued, Option.isSome_some, if_true]
        by_cases hsame : slot = first
        · subst hsame
          refine ⟨_, UInt32.le_refl _, List.mem_append_left _ ?_⟩
          have hpayload : (beaconRequest (state.config.ram.peer slot) status).payload.length ≤
              MAX_PAYLOAD := hfits
          simp [Request.sent, hroom.issued, hpayload, Option.filter]
        · have hnext : Room (state.afterSend .confirmed) rest.length := hroom.afterSend
          have hmem : slot ∈ rest := (List.mem_cons.mp hslot).resolve_left hsame
          obtain ⟨seq, hle, hemitted⟩ := ih hnext hmem hconfigured
          refine ⟨seq, UInt32.le_trans ?_ hle, List.mem_append_right _ hemitted⟩
          obtain ⟨-, heq, hless⟩ := next_advance TxSequence.reserve_small hroom.issued
          exact UInt32.le_of_lt (heq ▸ hless)
      · rw [run_beaconTo_skip device radioIdx status txWrites hfirst]
        have hmem : slot ∈ rest := by
          refine (List.mem_cons.mp hslot).resolve_left fun hsame => hfirst ?_
          exact hsame ▸ hconfigured
        simp only [if_true, List.nil_append]
        exact ih (hroom.less (Nat.le_succ _)) hmem hconfigured

end Loop

section Network

variable {Party : Type} [DecidableEq Party] {net : Network Party}
  {events : List (Party × Event)}

/-- One round of beacons reaches every linked commander: among its frames is one that
verifies under the key of the two as the camera's status for this commander, and whoever
hears it first takes it. -/
theorem beacons_taken {camera : Party} (hcamera : Working net events camera)
    (hroom : Room (net.state events camera) MAX_PEERS) (radioIdx : ℤ) (view : Camera)
    {txWrites : Slot → Write} (hwrites : ∀ slot, txWrites slot = .confirmed)
    {commander : Party} {key : List UInt8} (hlinked : Linked net events camera commander key)
    (hcommander : (net.device commander).ready = true) :
    ∃ seq beacon,
      .emitted radioIdx beacon ∈ ((emitBeacon (net.device camera) radioIdx view txWrites).run
        (net.state events camera)).outputs ∧
      verifyAndDecrypt net.aes beacon key = some ⟨T_BEACON, net.id camera, net.id commander,
        seq, writeStatus view (net.state events camera).last 8⟩ ∧
      ∀ back : Inbound, back.buf = beacon → back.rxWrite = .confirmed →
        ((handleInbound (net.device commander) back).run
          (net.state events commander)).result = true := by
  obtain ⟨hpaired, -, hauthenticBack, -, hfloorBack⟩ := hlinked
  obtain ⟨there, hthere, hthereKey⟩ := slot_of_key events hpaired.sends
  obtain ⟨here, hhere, hhereKey⟩ := slot_of_key events hpaired.accepts
  obtain ⟨hconfigured, hid⟩ := resolve_spec hhere
  let status := writeStatus view (net.state events camera).last 8
  have hfits : status.length ≤ MAX_PAYLOAD :=
    (length_writeStatus view (net.state events camera).last 8).trans (by decide)
  have hslots : Room (net.state events camera) (List.finRange MAX_PEERS).length := by
    rwa [List.length_finRange]
  obtain ⟨seq, hle, hemitted⟩ := beacon_emitted (net.device camera) radioIdx hfits
    hwrites hslots (List.mem_finRange here) hconfigured
  let beacon : Frame := ⟨T_BEACON, net.id camera, net.id commander, seq, status⟩
  have hframe : (beaconRequest ((net.state events camera).config.ram.peer here) status).frame
      (net.device camera) seq = encode net.aes key beacon := by
    rw [Request.frame, beaconRequest, net.same, hhereKey, hid]
    rfl
  refine ⟨seq, encode net.aes key beacon, ?_, verify_encode beacon hfits,
    fun back hbuf hwrite => ?_⟩
  · rw [hframe] at hemitted
    have hopen : ¬ (!(net.device camera).ready || !(net.device camera).emitWired) = true := by
      simp [hcamera.ready, hcamera.wired]
    simp only [emitBeacon, hopen, Bool.false_eq_true, if_false, Program.run_bind,
      Program.run_read, List.nil_append]
    exact hemitted
  · have hauth : authenticate (net.device commander) back.buf
        (net.state events commander).config.ram.peer = some (there, beacon) := by
      rw [hbuf, ← net.same commander]
      exact authenticate_encode hfits rfl hthere hthereKey
    have hfloor := floor_below ⟨hpaired.sends, hpaired.accepts⟩ hauthenticBack hfloorBack hthere
    exact result_accepted hcommander hauth (UInt32.lt_of_lt_of_le hfloor hle) hwrite

end Network

theorem beacons_taken_replay :
    ∃ seq beacon,
      .emitted 0 beacon ∈ ((emitBeacon (exampleNetwork.device true) 0 exampleSecond.camera
        fun _ => .confirmed).run (exampleNetwork.state exampleReplay true)).outputs ∧
      verifyAndDecrypt Cipher.identityCipher beacon exampleKey = some ⟨T_BEACON, 9, 7, seq,
        writeStatus exampleSecond.camera (exampleNetwork.state exampleReplay true).last 8⟩ := by
  obtain ⟨seq, beacon, hemitted, hverify, -⟩ := beacons_taken ⟨rfl, rfl, by decide +kernel⟩
    (by unfold Room; decide +kernel) 0 exampleSecond.camera (fun _ => rfl) exampleLinked rfl
  exact ⟨seq, beacon, hemitted, hverify⟩

end LoraBridge.Beacons
