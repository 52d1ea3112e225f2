import LoraBridge.Control.Station
import LoraBridge.Core.Parallel

/-!
# A network of C2 devices

Any number of cameras and commanders, each with its own NVS and power losses, and between
them an air that may drop, repeat, reorder, delay and replay frames and bring in others.
What it cannot do is make a frame that verifies under a key.  Then what a camera carries
out for a commander is what that commander was asked for, in that order and at most once,
and the messages a portal shows are messages that were sent.
-/

namespace LoraBridge.C2Network

open LoraBridge.CamC2 LoraBridge.CamC2Config LoraBridge.Machine LoraBridge.Station

/-- The devices with what is in their NVS; no two have the same C2 id. -/
structure Network (Party : Type) where
  aes : Cipher.BlockCipher
  device : Party → Device
  nvs : Party → Nvs
  same : ∀ party, (device party).aes = aes
  distinct : Function.Injective fun party => (device party).myC2Id

section Network

variable {Party : Type} [DecidableEq Party] (net : Network Party)

def Network.id (party : Party) : UInt32 := (net.device party).myC2Id

/-- The table a device starts with. -/
def Network.table (party : Party) : Slot → Peer :=
  (begin (net.device party).seed (net.nvs party)).peer

/-- All devices start, and then one event after the other happens at some device. -/
def Network.run (events : List (Party × Event)) :
    (Party → CamC2.State) × List (Party × Entry) :=
  Machine.run (parallel fun party => Station.step (net.device party))
    (fun party => CamC2.boot (net.device party) (net.nvs party)) events

def Network.state (events : List (Party × Event)) (party : Party) : CamC2.State :=
  (net.run events).1 party

def Network.log (events : List (Party × Event)) (party : Party) : List Entry :=
  ofIndex party (net.run events).2

def Network.outputs (events : List (Party × Event)) (party : Party) : List Output :=
  outputsOf (net.log events party)

theorem Network.inv (events : List (Party × Event)) (party : Party) :
    Inv (net.device party) (net.nvs party) (net.state events party) (net.log events party) := by
  obtain ⟨hstate, hlog⟩ := run_parallel (fun party => Station.step (net.device party))
    (fun party => CamC2.boot (net.device party) (net.nvs party)) events party
  rw [Network.state, Network.log, Network.run, hstate, hlog]
  exact inv_life (net.device party) (net.nvs party) (ofIndex party events)

/-- Two devices have each other in their tables, under one key. -/
structure Network.Paired (receiver sender : Party) (key : List UInt8) : Prop where
  accepts : keyOf (net.table receiver) (net.id sender) = some key
  sends : keyOf (net.table sender) (net.id receiver) = some key

/-- No forgery: a frame that the receiver hears and that verifies under the key as one of
the sender was handed out by some device. -/
def Network.Authentic (events : List (Party × Event)) (receiver sender : Party)
    (key : List UInt8) : Prop :=
  ∀ buf ∈ receivedOf (net.log events receiver), ∀ frame,
    verifyAndDecrypt net.aes buf key = some frame → frame.sender = net.id sender →
      ∃ party, buf ∈ framesOf (net.outputs events party)

variable {net} {events : List (Party × Event)} {receiver sender : Party} {key : List UInt8}

/-- What came under the key of the sender is among what the sender sent. -/
theorem sent_of_came (hpaired : net.Paired receiver sender key)
    (hauthentic : net.Authentic events receiver sender key) {type : UInt8} (htype : Asks type)
    {seq : UInt32} {plain : List UInt8}
    (hcame : Came (net.device receiver) (net.table receiver)
      (receivedOf (net.log events receiver)) type (net.id sender) seq plain) :
    (seq, plain) ∈ sentTo net.aes key type (net.id receiver) (net.outputs events sender) := by
  obtain ⟨buf, hmem, key', recip, hkey, hrecip, hverify⟩ := hcame
  obtain rfl : key' = key := Option.some.inj (hkey.symm.trans hpaired.accepts)
  rw [net.same] at hverify
  obtain ⟨party, hframe⟩ := hauthentic buf hmem _ hverify rfl
  have hsealed := (net.inv events party).said.frames buf hframe
  obtain ⟨hbufType, hbufSender, hbufRecip⟩ := Actuation.fields_of_verify hverify
  obtain rfl : party = sender := net.distinct (hsealed.sender.symm.trans hbufSender.symm)
  obtain ⟨other, number, payload, hother, -⟩ := hsealed.asked (hbufType ▸ htype)
  have hto : recip = net.id receiver := by
    refine hrecip.resolve_left fun hzero => ?_
    rw [← hbufRecip, hzero] at hother
    simp [keyOf, resolve] at hother
  refine List.mem_filterMap.mpr ⟨buf, hframe, ?_⟩
  rw [readAs, if_pos ⟨hbufType.symm, hbufRecip.symm.trans hto⟩, hverify]
  rfl

/-- Numbers in strict order. -/
def Earlier (first second : UInt32 × List UInt8) : Prop := first.1 < second.1

instance : Std.Irrefl Earlier := ⟨fun entry => UInt32.lt_irrefl entry.1⟩

instance : Std.Antisymm Earlier :=
  ⟨fun _ _ hless hgreater => absurd hgreater (UInt32.lt_asymm hless)⟩

theorem pairwise_earlier {entries : List (UInt32 × List UInt8)} :
    entries.Pairwise Earlier ↔ (entries.map Prod.fst).Pairwise (· < ·) := by
  rw [List.pairwise_map]
  rfl

theorem number_readAs {aes : Cipher.BlockCipher} {type : UInt8} {recip : UInt32}
    {buf : List UInt8} {entry : UInt32 × List UInt8}
    (hread : readAs aes key type recip buf = some entry) : entry.1 = seqOf buf := by
  unfold readAs at hread
  split at hread
  · obtain ⟨frame, hverify, rfl⟩ := Option.map_eq_some_iff.mp hread
    obtain ⟨-, rfl⟩ := verifyAndDecrypt_eq_some_iff.mp hverify
    rfl
  · cases hread

/-- What a device sends to one recipient is in the order of its numbers. -/
theorem pairwise_sentTo (net : Network Party) (events : List (Party × Event)) (party : Party)
    (key : List UInt8) (type : UInt8) (recip : UInt32) :
    (sentTo net.aes key type recip (net.outputs events party)).Pairwise Earlier := by
  have hnumbers := (net.inv events party).numbered.increasing
  rw [CamC2.seqsOf, List.pairwise_map] at hnumbers
  refine List.pairwise_filterMap.mpr (hnumbers.imp fun hless entry hentry later hlater => ?_)
  rw [Earlier, number_readAs hentry, number_readAs hlater]
  exact hless

theorem asked_of_sent (hpaired : net.Paired receiver sender key)
    (events : List (Party × Event)) {type : UInt8} (htype : Asks type) :
    ((sentTo net.aes key type (net.id receiver) (net.outputs events sender)).map
      Prod.snd).Sublist (askedOf type (net.id receiver) (net.log events sender)) := by
  have hasked := (net.inv events sender).said.asked type (net.id receiver) key htype
    hpaired.sends
  rwa [net.same] at hasked

/-- Whatever is done to the frames in the air and wherever the devices lose power, the
commands a camera carries out for a commander are commands the commander was asked to send
it, in the order they were asked for and each at most once. -/
theorem commands_carried_out (hpaired : net.Paired receiver sender key)
    (hauthentic : net.Authentic events receiver sender key) :
    ((executedOf (net.id sender) (net.outputs events receiver)).map Prod.snd).Sublist
      (askedOf T_CMD (net.id receiver) (net.log events sender)) := by
  have hreceiver := net.inv events receiver
  have hcommand : Asks T_CMD := .inl rfl
  have hasked := asked_of_sent hpaired events hcommand
  have hcarried : (executedOf (net.id sender) (net.outputs events receiver)).Pairwise Earlier :=
    pairwise_earlier.mpr ((hreceiver.accepts.increasing _).sublist (hreceiver.said.follows _))
  have hsubset : executedOf (net.id sender) (net.outputs events receiver) ⊆
      sentTo net.aes key T_CMD (net.id receiver) (net.outputs events sender) := by
    intro done hdone
    obtain ⟨plain, hcame, hplain⟩ := hreceiver.said.came _ done hdone
    have hsent := sent_of_came hpaired hauthentic hcommand hcame
    cases plain with
    | nil =>
        have hempty := hasked.subset (List.mem_map_of_mem hsent)
        exact absurd hempty ((net.inv events sender).said.commands _)
    | cons cmd args =>
        have hsame : (done.1, cmd :: args) = done := Prod.ext rfl hplain.symm
        exact hsame ▸ hsent
  exact ((sublist_of_subset_of_pairwise hcarried
    (pairwise_sentTo net events sender key T_CMD (net.id receiver)) hsubset).map _).trans hasked

end Network

/-- A commander with id 7 (`false`) and a camera with id 9 (`true`) on the identity cipher,
each with the other in its stored table. -/
def exampleNetwork : Network Bool where
  aes := Cipher.identityCipher
  device party := ⟨Cipher.identityCipher, true, if party then 9 else 7, party, true, none⟩
  nvs party := ⟨some (Function.update (fun _ => Peer.empty) Slot.first
    { Peer.empty with inUse := 1, peerId := if party then 7 else 9 }), fun _ => 0, 0⟩
  same _ := rfl
  distinct := by decide

def exampleKey : List UInt8 := List.replicate 16 0

/-- The commander's first frame as the camera hears it. -/
def exampleHeard (type : UInt8) (payload : List UInt8) : Call :=
  .receive ⟨0, encode Cipher.identityCipher exampleKey ⟨type, 7, 9, 1, payload⟩,
    ⟨false, none, false, false, fun _ => none, 0xFF, 0⟩, .confirmed, .confirmed⟩

/-- A command that the air brings three times, the last time after a power loss. -/
def exampleReplay : List (Bool × Event) :=
  [(false, .call (.command 0 9 CMD_GET_STATUS [] .confirmed true)),
    (true, .call (exampleHeard T_CMD [CMD_GET_STATUS])),
    (true, .call (exampleHeard T_CMD [CMD_GET_STATUS])), (true, .powerLoss none),
    (true, .call (exampleHeard T_CMD [CMD_GET_STATUS]))]

theorem examplePaired : exampleNetwork.Paired true false exampleKey :=
  ⟨by decide, by decide⟩

/-- Frames that were handed out are not forged. -/
theorem authentic_of_subset {net : Network Bool} {events : List (Bool × Event)}
    {receiver sender : Bool} {key : List UInt8} (party : Bool)
    (hsubset : ∀ buf ∈ receivedOf (net.log events receiver),
      buf ∈ framesOf (net.outputs events party)) :
    net.Authentic events receiver sender key :=
  fun buf hmem _ _ _ => ⟨party, hsubset buf hmem⟩

theorem commands_carried_out_replay :
    (executedOf 7 (exampleNetwork.outputs exampleReplay true)).map Prod.snd =
        [[CMD_GET_STATUS]] ∧
      ((executedOf 7 (exampleNetwork.outputs exampleReplay true)).map Prod.snd).Sublist
        (askedOf T_CMD 9 (exampleNetwork.log exampleReplay false)) :=
  ⟨by decide +kernel, commands_carried_out examplePaired
    (authentic_of_subset false (by decide +kernel))⟩

section Messages

variable {Party : Type} [DecidableEq Party]

/-- The messages in the ring of a camera are there as its calls stored them, and those from
one sender are messages that sender was asked to send to this camera, in that order, each
at most once; the portal reads the last of them. -/
theorem messages_kept (net : Network Party) (events : List (Party × Event)) (receiver : Party) :
    ∃ calls : List MessageRing.Call,
      (net.state events receiver).ring = MessageRing.stored calls ∧
      ∀ sender key, net.Paired receiver sender key → net.Authentic events receiver sender key →
        ((calls.filter fun call => call.fromId = net.id sender).map MessageRing.Call.txt).Sublist
          (askedOf T_MSG (net.id receiver) (net.log events sender)) := by
  have hreceiver := net.inv events receiver
  obtain ⟨kept, hmailbox⟩ := hreceiver.mailbox
  refine ⟨kept.map Prod.snd, hmailbox.ring, fun sender key hpaired hauthentic => ?_⟩
  have hmessage : Asks T_MSG := .inr rfl
  let own := kept.filter fun entry => entry.2.fromId = net.id sender
  let read := fun entry : UInt32 × MessageRing.Call => (entry.1, entry.2.txt)
  have hinorder : (own.map read).Pairwise Earlier := by
    rw [pairwise_earlier, List.map_map]
    exact (hreceiver.accepts.increasing _).sublist (hmailbox.accepted (net.id sender))
  have hsubset : own.map read ⊆
      sentTo net.aes key T_MSG (net.id receiver) (net.outputs events sender) := by
    intro sent hsent
    obtain ⟨entry, hentry, rfl⟩ := List.mem_map.mp hsent
    obtain ⟨hkept, hfrom⟩ := List.mem_filter.mp hentry
    have hcame := hmailbox.came entry hkept
    rw [of_decide_eq_true hfrom] at hcame
    exact sent_of_came hpaired hauthentic hmessage hcame
  have hsublist := ((sublist_of_subset_of_pairwise hinorder
    (pairwise_sentTo net events sender key T_MSG (net.id receiver)) hsubset).map Prod.snd).trans
      (asked_of_sent hpaired events hmessage)
  have htexts : ((kept.map Prod.snd).filter fun call => call.fromId = net.id sender).map
      MessageRing.Call.txt = (own.map read).map Prod.snd := by
    rw [List.filter_map, List.map_map, List.map_map]
    rfl
  rw [htexts]
  exact hsublist

end Messages

/-- A message that the air brings twice. -/
def exampleChat : List (Bool × Event) :=
  [(false, .call (.message 0 9 (some [0x68, 0x69]) .confirmed true)),
    (true, .call (exampleHeard T_MSG [0x68, 0x69])),
    (true, .call (exampleHeard T_MSG [0x68, 0x69]))]

theorem messages_kept_chat : (exampleNetwork.state exampleChat true).ring.count = 1 ∧
    ∃ calls : List MessageRing.Call,
      (exampleNetwork.state exampleChat true).ring = MessageRing.stored calls ∧
        ((calls.filter fun call => call.fromId = exampleNetwork.id false).map
          MessageRing.Call.txt).Sublist
            (askedOf T_MSG (exampleNetwork.id true) (exampleNetwork.log exampleChat false)) := by
  obtain ⟨calls, hring, hkept⟩ := messages_kept exampleNetwork exampleChat true
  exact ⟨by decide +kernel, calls, hring, hkept false exampleKey examplePaired
    (authentic_of_subset false (by decide +kernel))⟩

end LoraBridge.C2Network
