import LoraBridge.Core.Ring
import LoraBridge.Core.WrapClock

/-!
# The outbound queue of a radio

Finished packets wait here for the scheduler of their destination.  A full ring
drops its oldest entry, and a pop discards entries that are too old.
-/

namespace LoraBridge.RouteQueue

open LoraBridge.WrapClock

def LORA_MAX_PACKET : ℕ := 256

def BRIDGE_ROUTE_QUEUE_DEPTH : ℕ := 64

theorem depth_pos : 0 < BRIDGE_ROUTE_QUEUE_DEPTH := by decide

def BRIDGE_ROUTE_MAX_AGE_MS : UInt32 := 30000

/-- The bytes of a packet and the clock when it was queued. -/
structure Entry where
  data : List UInt8
  enqueueMs : UInt32
  deriving DecidableEq, Inhabited

/-- `_ring` is null when `begin` found no memory. -/
structure Queue (cap : ℕ) where
  ring : Option (Ring Entry cap)
  maxAgeMs : UInt32
  dropped : UInt32

variable {cap : ℕ}

/-- After `begin`. -/
def begin (start : Fin cap) (maxAgeMs : UInt32) (allocated : Bool) : Queue cap where
  ring := if allocated then some (Ring.empty (fun _ => default) start) else none
  maxAgeMs := maxAgeMs
  dropped := 0

/-- The entries, oldest first. -/
def Queue.entries (queue : Queue cap) : List Entry :=
  match queue.ring with
  | some ring => ring.contents
  | none => []

/-- The queue after `push`, if it was accepted. -/
def push (data : List UInt8) (now : ℕ) (queue : Queue cap) : Option (Queue cap) :=
  match queue.ring with
  | none => none
  | some ring =>
      if data.length = 0 ∨ LORA_MAX_PACKET < data.length then none
      else some { queue with
        ring := some (ring.push ⟨data, ticks now⟩)
        dropped := if ring.count = cap then queue.dropped + 1 else queue.dropped }

/-- `_maxAgeMs && (uint32_t)(now - e.enqueueMs) > _maxAgeMs`. -/
def stale (maxAgeMs : UInt32) (now : ℕ) (entry : Entry) : Bool :=
  maxAgeMs ≠ 0 ∧ maxAgeMs < ticks now - entry.enqueueMs

def pop (now : ℕ) (queue : Queue cap) : Option Entry × Queue cap :=
  match queue.ring with
  | none => (none, queue)
  | some ring =>
      let popped := ring.popUntil (stale queue.maxAgeMs now)
      (popped.value, { queue with
        ring := some popped.rest
        dropped := queue.dropped + UInt32.ofNat popped.discarded })

/-! ## The queue as a list -/

@[simp]
theorem entries_begin (start : Fin cap) (maxAgeMs : UInt32) (allocated : Bool) :
    (begin start maxAgeMs allocated).entries = [] := by
  cases allocated <;> rfl

/-- An accepted push appends, and drops the oldest entry of a full queue. -/
theorem push_spec {data : List UInt8} {now : ℕ} {queue next : Queue cap}
    (hpush : push data now queue = some next) :
    next.maxAgeMs = queue.maxAgeMs ∧
      ((queue.entries.length < cap ∧ next.dropped = queue.dropped ∧
          next.entries = queue.entries ++ [⟨data, ticks now⟩]) ∨
        ∃ oldest rest, queue.entries = oldest :: rest ∧ queue.entries.length = cap ∧
          next.dropped = queue.dropped + 1 ∧
          next.entries = rest ++ [⟨data, ticks now⟩]) := by
  obtain ⟨ring, maxAgeMs, dropped⟩ := queue
  cases ring with
  | none => simp [push] at hpush
  | some ring =>
      simp only [push] at hpush
      split at hpush
      · cases hpush
      · obtain rfl := Option.some.inj hpush
        simp only [Queue.entries, Ring.length_contents, Ring.contents_push]
        refine ⟨trivial, ?_⟩
        by_cases hfull : ring.count = cap
        · have hcount : 0 < ring.count := by rw [hfull]; exact ring.head.pos
          refine .inr ⟨_, _, Ring.contents_eq_cons ring hcount, hfull, ?_, ?_⟩
          · simp only [hfull, if_true]
          · simp only [hfull, if_true, Ring.contents_eq_cons ring hcount, List.tail_cons]
        · have hroom : ring.count < cap := lt_of_le_of_ne ring.count_le hfull
          exact .inl ⟨hroom, by simp only [hfull, if_false], by simp only [hfull, if_false]⟩

/-- Only a queue with a ring takes something, and keeps it. -/
theorem ring_push {data : List UInt8} {now : ℕ} {queue next : Queue cap}
    (hpush : push data now queue = some next) :
    queue.ring.isSome = true ∧ next.ring.isSome = true := by
  unfold push at hpush
  split at hpush
  · cases hpush
  · split at hpush
    · cases hpush
    · obtain rfl := Option.some.inj hpush
      exact ⟨by simp [*], rfl⟩

/-- A queue with a ring takes every packet of a size that fits. -/
theorem isSome_push {data : List UInt8} (hpos : data.length ≠ 0)
    (hle : data.length ≤ LORA_MAX_PACKET) (now : ℕ) (queue : Queue cap) :
    (push data now queue).isSome = queue.ring.isSome := by
  unfold push
  cases queue.ring with
  | none => rfl
  | some ring =>
      dsimp only
      rw [if_neg (not_or.mpr ⟨hpos, Nat.not_lt.mpr hle⟩)]
      rfl

/-- A pop discards the stale front and takes the next entry. -/
theorem pop_spec (now : ℕ) (queue : Queue cap) :
    (pop now queue).1 = (queue.entries.dropWhile (stale queue.maxAgeMs now)).head? ∧
      (pop now queue).2.entries =
        (queue.entries.dropWhile (stale queue.maxAgeMs now)).tail ∧
      (pop now queue).2.dropped = queue.dropped +
        UInt32.ofNat (queue.entries.takeWhile (stale queue.maxAgeMs now)).length ∧
      (pop now queue).2.maxAgeMs = queue.maxAgeMs := by
  obtain ⟨ring, maxAgeMs, dropped⟩ := queue
  cases ring with
  | none => simp [pop, Queue.entries]
  | some ring =>
      have hpopped := ring.popUntil_spec (stale maxAgeMs now)
      simp only [pop, Queue.entries]
      exact ⟨hpopped.value, hpopped.rest, by rw [hpopped.discarded], trivial⟩

end LoraBridge.RouteQueue
