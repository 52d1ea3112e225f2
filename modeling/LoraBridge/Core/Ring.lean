import Mathlib.Tactic

/-!
# Ring buffers that drop the oldest element

A fixed array with the position of the oldest element, the next free position and
the number of elements.  Its contents are a queue of bounded length: a push onto a
full ring drops the oldest element first.
-/

namespace LoraBridge

/-- The indices of a ring of `cap` cells agree with its count. -/
structure Ring (α : Type) (cap : ℕ) where
  cell : Fin cap → α
  head : Fin cap
  tail : Fin cap
  count : ℕ
  count_le : count ≤ cap
  tail_eq : tail.val = (head.val + count) % cap

namespace Ring

variable {α : Type} {cap : ℕ}

/-- `(index + offset) % cap`. -/
def ahead (index : Fin cap) (offset : ℕ) : Fin cap :=
  ⟨(index + offset) % cap, Nat.mod_lt _ index.pos⟩

@[simp]
theorem ahead_zero (index : Fin cap) : ahead index 0 = index :=
  Fin.ext (Nat.mod_eq_of_lt index.isLt)

@[simp]
theorem ahead_ahead (index : Fin cap) (first second : ℕ) :
    ahead (ahead index first) second = ahead index (first + second) := by
  apply Fin.ext
  simp only [ahead, Nat.mod_add_mod, Nat.add_assoc]

/-- Fewer than `cap` cells apart, two positions differ. -/
theorem ahead_inj (index : Fin cap) {first second : ℕ} (hfirst : first < cap)
    (hsecond : second < cap) (heq : ahead index first = ahead index second) :
    first = second := by
  have hmod : (index.val + first) ≡ (index.val + second) [MOD cap] := Fin.mk.inj heq
  exact Nat.ModEq.eq_of_lt_of_lt (Nat.ModEq.add_left_cancel' _ hmod) hfirst hsecond

/-- The elements, oldest first. -/
def contents (ring : Ring α cap) : List α :=
  (List.range ring.count).map fun offset => ring.cell (ahead ring.head offset)

@[simp]
theorem length_contents (ring : Ring α cap) : ring.contents.length = ring.count := by
  simp [contents]

/-- A ring with nothing in it. -/
def empty (cell : Fin cap → α) (start : Fin cap) : Ring α cap where
  cell := cell
  head := start
  tail := start
  count := 0
  count_le := Nat.zero_le cap
  tail_eq := (Nat.mod_eq_of_lt start.isLt).symm

@[simp]
theorem contents_empty (cell : Fin cap → α) (start : Fin cap) :
    (empty cell start).contents = [] := rfl

/-- Forget the oldest element. -/
def dropOldest (ring : Ring α cap) (hcount : 0 < ring.count) : Ring α cap where
  cell := ring.cell
  head := ahead ring.head 1
  tail := ring.tail
  count := ring.count - 1
  count_le := (Nat.sub_le _ _).trans ring.count_le
  tail_eq := by
    rw [ring.tail_eq]
    simp only [ahead, Nat.mod_add_mod]
    congr 1
    omega

theorem contents_eq_cons (ring : Ring α cap) (hcount : 0 < ring.count) :
    ring.contents = ring.cell ring.head :: (ring.dropOldest hcount).contents := by
  obtain ⟨rest, hrest⟩ := Nat.exists_eq_add_of_lt hcount
  have hsucc : ring.count = rest + 1 := by omega
  have hdropped : (ring.dropOldest hcount).count = rest := by
    simp [dropOldest, hsucc]
  rw [contents, contents, hsucc, hdropped, List.range_succ_eq_map, List.map_cons,
    List.map_map, ahead_zero]
  congr 1
  refine List.map_congr_left fun offset _ => ?_
  simp [dropOldest, Nat.add_comm]

theorem contents_eq_nil {ring : Ring α cap} (hcount : ring.count = 0) :
    ring.contents = [] := by
  simp [contents, hcount]

/-- Write at the tail of a ring with room. -/
def append (ring : Ring α cap) (value : α) (hroom : ring.count < cap) : Ring α cap where
  cell := Function.update ring.cell ring.tail value
  head := ring.head
  tail := ahead ring.tail 1
  count := ring.count + 1
  count_le := hroom
  tail_eq := by
    simp only [ahead, ring.tail_eq, Nat.mod_add_mod, Nat.add_assoc]

theorem contents_append (ring : Ring α cap) (value : α) (hroom : ring.count < cap) :
    (ring.append value hroom).contents = ring.contents ++ [value] := by
  have htail : ring.tail = ahead ring.head ring.count := Fin.ext ring.tail_eq
  simp only [contents, append, List.range_succ, List.map_append, List.map_cons, List.map_nil]
  refine congrArg₂ _ (List.map_congr_left fun offset hmem => ?_) ?_
  · have hoffset := List.mem_range.mp hmem
    refine Function.update_of_ne (fun heq => ?_) _ _
    rw [htail] at heq
    have hsame := ahead_inj ring.head (by omega) hroom heq
    omega
  · rw [htail, Function.update_self]

/-- Drop the oldest element of a full ring, then write. -/
def push (ring : Ring α cap) (value : α) : Ring α cap :=
  if hfull : ring.count = cap then
    have hcount : 0 < ring.count := by rw [hfull]; exact ring.head.pos
    (ring.dropOldest hcount).append value (by simp [dropOldest]; omega)
  else ring.append value (lt_of_le_of_ne ring.count_le hfull)

theorem contents_push (ring : Ring α cap) (value : α) :
    (ring.push value).contents =
      (if ring.count = cap then ring.contents.tail else ring.contents) ++ [value] := by
  unfold push
  by_cases hfull : ring.count = cap
  · have hcount : 0 < ring.count := by rw [hfull]; exact ring.head.pos
    rw [dif_pos hfull, if_pos hfull, contents_append, contents_eq_cons ring hcount]
    rfl
  · rw [dif_neg hfull, if_neg hfull, contents_append]

/-- What came off the front: the element that was kept, and how many were not. -/
structure Popped (α : Type) (cap : ℕ) where
  value : Option α
  discarded : ℕ
  rest : Ring α cap

/-- Take elements off the front until one is kept, at most `most` of them. -/
def popAtMost (discard : α → Bool) : ℕ → Ring α cap → Popped α cap
  | 0, ring => ⟨none, 0, ring⟩
  | most + 1, ring =>
      if hcount : 0 < ring.count then
        if discard (ring.cell ring.head) then
          let later := popAtMost discard most (ring.dropOldest hcount)
          ⟨later.value, later.discarded + 1, later.rest⟩
        else ⟨some (ring.cell ring.head), 0, ring.dropOldest hcount⟩
      else ⟨none, 0, ring⟩

/-- `while (count > 0)`: each turn takes one element off. -/
def popUntil (discard : α → Bool) (ring : Ring α cap) : Popped α cap :=
  popAtMost discard ring.count ring

/-- A result as a queue sees it: the discarded front, the element, those behind. -/
structure Popped.Of (discard : α → Bool) (contents : List α) (popped : Popped α cap) :
    Prop where
  value : popped.value = (contents.dropWhile discard).head?
  discarded : popped.discarded = (contents.takeWhile discard).length
  rest : popped.rest.contents = (contents.dropWhile discard).tail

theorem popAtMost_spec (discard : α → Bool) (most : ℕ) (ring : Ring α cap)
    (hmost : ring.count ≤ most) :
    (popAtMost discard most ring).Of discard ring.contents := by
  induction most generalizing ring with
  | zero =>
      have hnil : ring.contents = [] := contents_eq_nil (by omega)
      exact ⟨by rw [hnil]; rfl, by rw [hnil]; rfl, hnil.trans (by rw [hnil]; rfl)⟩
  | succ most ih =>
      by_cases hcount : 0 < ring.count
      · rw [contents_eq_cons ring hcount]
        by_cases hdiscard : discard (ring.cell ring.head) = true
        · have hlater := ih (ring.dropOldest hcount) (by simp only [dropOldest]; omega)
          simp only [popAtMost, hcount, hdiscard, dif_pos, if_true]
          refine ⟨?_, ?_, ?_⟩
          · rw [List.dropWhile_cons_of_pos hdiscard]
            exact hlater.value
          · rw [List.takeWhile_cons_of_pos hdiscard, List.length_cons, hlater.discarded]
          · rw [List.dropWhile_cons_of_pos hdiscard]
            exact hlater.rest
        · simp only [popAtMost, hcount, hdiscard, dif_pos]
          refine ⟨?_, ?_, ?_⟩
          · rw [List.dropWhile_cons_of_neg hdiscard]
            rfl
          · rw [List.takeWhile_cons_of_neg hdiscard]
            rfl
          · rw [List.dropWhile_cons_of_neg hdiscard]
            rfl
      · have hnil : ring.contents = [] := contents_eq_nil (by omega)
        simp only [popAtMost, hcount, dif_neg, not_false_eq_true]
        exact ⟨by rw [hnil]; rfl, by rw [hnil]; rfl, hnil.trans (by rw [hnil]; rfl)⟩

/-- What a ring gives up is what its queue gives up. -/
theorem popUntil_spec (discard : α → Bool) (ring : Ring α cap) :
    (ring.popUntil discard).Of discard ring.contents :=
  popAtMost_spec discard ring.count ring le_rfl

end Ring

end LoraBridge
