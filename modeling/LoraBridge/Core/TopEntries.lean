import Mathlib.Data.List.Perm.Basic
import Mathlib.Order.Basic
import Mathlib.Tactic

/-!
# The largest entries of a list, in an array

An array of fixed capacity takes entries one by one.  Once it is full, a new entry
replaces the smallest one when it is larger.  An insertion sort within the array then
brings the largest entries to the front.
-/

namespace LoraBridge.TopEntries

variable {α κ : Type} [LinearOrder κ] (key : α → κ)

/-- `out[i] < out[j]`. -/
def less (out : List α) (i j : ℕ) : Bool :=
  match out[i]?, out[j]? with
  | some a, some b => key a < key b
  | _, _ => false

/-- `mn = 0; for (i = 1; i <= last; i++) if (out[i] < out[mn]) mn = i`. -/
def smallestUpTo (out : List α) (last : ℕ) : ℕ :=
  (List.range' 1 last).foldl (fun mn i => if less key out i mn then i else mn) 0

/-- The index of the first smallest entry. -/
def smallest (out : List α) : ℕ := smallestUpTo key out (out.length - 1)

/-- One entry for an array of `cap` of which the first `out.length` are in use. -/
def collect (cap : ℕ) (out : List α) (entry : α) : List α :=
  if out.length < cap then out ++ [entry]
  else
    match out[smallest key out]? with
    | some least => if key least < key entry then out.set (smallest key out) entry else out
    | none => out

/-- `while (j > 0 && out[j-1] < k) { out[j] = out[j-1]; j--; } out[j] = k`. -/
def shiftDown (k : α) : ℕ → List α → List α
  | 0, out => out.set 0 k
  | j + 1, out =>
      match out[j]? with
      | some before =>
          if key before < key k then shiftDown k j (out.set (j + 1) before)
          else out.set (j + 1) k
      | none => out

/-- One turn of the sort: the entry at `i` moves to its place in front. -/
def sortStep (out : List α) (i : ℕ) : List α :=
  match out[i]? with
  | some k => shiftDown key k i out
  | none => out

/-- `for (i = 1; i < n; i++)`. -/
def insertionSort (out : List α) : List α :=
  (List.range' 1 (out.length - 1)).foldl (sortStep key) out

/-- Largest first. -/
def Descending (out : List α) : Prop := out.Pairwise fun before after => key after ≤ key before

/-! ## The smallest entry -/

theorem less_eq {out : List α} {i j : ℕ} {a b : α} (ha : out[i]? = some a)
    (hb : out[j]? = some b) : less key out i j = decide (key a < key b) := by
  simp only [less, ha, hb]

theorem smallestUpTo_succ (out : List α) (last : ℕ) :
    smallestUpTo key out (last + 1) =
      if less key out (last + 1) (smallestUpTo key out last) then last + 1
      else smallestUpTo key out last := by
  rw [smallestUpTo, List.range'_1_concat, List.foldl_append, Nat.add_comm 1 last]
  rfl

theorem smallestUpTo_spec (out : List α) {last : ℕ} (hlast : last < out.length) :
    ∃ least, out[smallestUpTo key out last]? = some least ∧
      ∀ i ≤ last, ∀ a, out[i]? = some a → key least ≤ key a := by
  induction last with
  | zero =>
      refine ⟨out[0], List.getElem?_eq_getElem hlast, fun i hi a ha => ?_⟩
      rw [Nat.le_zero.mp hi, List.getElem?_eq_getElem hlast] at ha
      rw [Option.some.inj ha]
  | succ last ih =>
      obtain ⟨least, hleast, hall⟩ := ih (Nat.lt_of_succ_lt hlast)
      have hnext : out[last + 1]? = some out[last + 1] := List.getElem?_eq_getElem hlast
      rw [smallestUpTo_succ, less_eq key hnext hleast]
      by_cases hless : key out[last + 1] < key least
      · rw [if_pos (decide_eq_true hless)]
        refine ⟨out[last + 1], hnext, fun i hi a ha => ?_⟩
        rcases Nat.le_succ_iff.mp hi with hi | rfl
        · exact hless.le.trans (hall i hi a ha)
        · rw [Option.some.inj (hnext.symm.trans ha)]
      · rw [if_neg (by simpa using hless)]
        refine ⟨least, hleast, fun i hi a ha => ?_⟩
        rcases Nat.le_succ_iff.mp hi with hi | rfl
        · exact hall i hi a ha
        · exact Option.some.inj (hnext.symm.trans ha) ▸ not_lt.mp hless

/-- The search ends at an entry that no other is below. -/
theorem smallest_spec {out : List α} (hout : 0 < out.length) :
    ∃ least, out[smallest key out]? = some least ∧ ∀ a ∈ out, key least ≤ key a := by
  obtain ⟨least, hleast, hall⟩ := smallestUpTo_spec key out (Nat.sub_lt hout Nat.one_pos)
  refine ⟨least, hleast, fun a ha => ?_⟩
  obtain ⟨i, hi, rfl⟩ := List.getElem_of_mem ha
  exact hall i (by omega) _ (List.getElem?_eq_getElem hi)

/-! ## What the array keeps -/

/-- Of the entries seen, those kept are as many as fit, and none left out is larger. -/
structure Keeps (cap : ℕ) (seen kept left : List α) : Prop where
  perm : seen.Perm (kept ++ left)
  length : kept.length = min seen.length cap
  largest : ∀ k ∈ kept, ∀ l ∈ left, key l ≤ key k

theorem keeps_nil (cap : ℕ) : Keeps key cap [] [] [] where
  perm := .refl _
  length := (Nat.zero_min cap).symm
  largest _ hk := by simp at hk

variable {key}

/-- An array with room has left nothing out. -/
theorem Keeps.left_nil {cap : ℕ} {seen kept left : List α}
    (hkeeps : Keeps key cap seen kept left) (hroom : kept.length < cap) : left = [] := by
  have hlength := hkeeps.perm.length_eq
  rw [List.length_append] at hlength
  have hkept := hkeeps.length
  exact List.length_eq_zero_iff.mp (by omega)

/-- A value is replaced at its index. -/
theorem perm_set {out : List α} {i : ℕ} {old : α} (hold : out[i]? = some old) (entry : α) :
    (old :: out.set i entry).Perm (entry :: out) := by
  obtain ⟨hi, rfl⟩ := List.getElem?_eq_some_iff.mp hold
  have hsplit : out = out.take i ++ out[i] :: out.drop (i + 1) := by
    rw [List.getElem_cons_drop, List.take_append_drop]
  have hset : out.set i entry = out.take i ++ entry :: out.drop (i + 1) :=
    List.set_eq_take_append_cons_drop.trans (if_pos hi)
  calc out[i] :: out.set i entry
      = out[i] :: (out.take i ++ entry :: out.drop (i + 1)) := by rw [hset]
    _ |>.Perm (out[i] :: entry :: (out.take i ++ out.drop (i + 1))) :=
        List.perm_middle.cons _
    _ |>.Perm (entry :: out[i] :: (out.take i ++ out.drop (i + 1))) := .swap _ _ _
    _ |>.Perm (entry :: (out.take i ++ out[i] :: out.drop (i + 1))) :=
        List.perm_middle.symm.cons _
    _ = entry :: out := by rw [← hsplit]

/-- A larger entry in the place of the smallest one. -/
theorem Keeps.replace {cap : ℕ} {seen kept left : List α}
    (hkeeps : Keeps key cap seen kept left) (hfull : kept.length = cap) {least entry : α}
    (hleast : kept[smallest key kept]? = some least) (hmin : ∀ a ∈ kept, key least ≤ key a)
    (hlarger : key least < key entry) :
    Keeps key cap (seen ++ [entry]) (kept.set (smallest key kept) entry) (least :: left) where
  perm :=
    calc (seen ++ [entry]).Perm (entry :: seen) := List.perm_append_singleton entry seen
      _ |>.Perm ((entry :: kept) ++ left) := hkeeps.perm.cons entry
      _ |>.Perm ((least :: kept.set (smallest key kept) entry) ++ left) :=
          (perm_set hleast entry).symm.append_right left
      _ |>.Perm (kept.set (smallest key kept) entry ++ least :: left) :=
          List.perm_middle.symm
  length := by
    have hlength := hkeeps.length
    rw [List.length_set, List.length_append, List.length_singleton]
    omega
  largest k hk l hl := by
    have hleast_le : key least ≤ key k := by
      rcases List.mem_or_eq_of_mem_set hk with hk | rfl
      · exact hmin k hk
      · exact hlarger.le
    rcases List.mem_cons.mp hl with rfl | hl
    · exact hleast_le
    · exact (hkeeps.largest least (List.mem_of_getElem? hleast) l hl).trans hleast_le

/-- An entry that is no larger than the smallest one is left out. -/
theorem Keeps.leave {cap : ℕ} {seen kept left : List α}
    (hkeeps : Keeps key cap seen kept left) (hfull : kept.length = cap) {entry : α}
    (hsmall : ∀ a ∈ kept, key entry ≤ key a) :
    Keeps key cap (seen ++ [entry]) kept (entry :: left) where
  perm :=
    calc (seen ++ [entry]).Perm (entry :: seen) := List.perm_append_singleton entry seen
      _ |>.Perm (entry :: (kept ++ left)) := hkeeps.perm.cons entry
      _ |>.Perm (kept ++ entry :: left) := List.perm_middle.symm
  length := by
    have hlength := hkeeps.length
    rw [List.length_append, List.length_singleton]
    omega
  largest k hk l hl := by
    rcases List.mem_cons.mp hl with rfl | hl
    · exact hsmall k hk
    · exact hkeeps.largest k hk l hl

/-- One more entry: it is appended, it replaces the smallest one, or it is left out. -/
theorem keeps_collect {cap : ℕ} (hcap : 0 < cap) {seen kept left : List α}
    (hkeeps : Keeps key cap seen kept left) (entry : α) :
    ∃ left', Keeps key cap (seen ++ [entry]) (collect key cap kept entry) left' := by
  have hlength := hkeeps.length
  by_cases hroom : kept.length < cap
  · obtain rfl := hkeeps.left_nil hroom
    rw [collect, if_pos hroom]
    refine ⟨[], ?_, ?_, fun _ _ _ hl => by simp at hl⟩
    · have hperm : seen.Perm kept := by simpa using hkeeps.perm
      simpa using hperm.append_right [entry]
    · rw [List.length_append, List.length_append, List.length_singleton]
      omega
  · have hfull : kept.length = cap := by omega
    obtain ⟨least, hleast, hmin⟩ := smallest_spec key (hfull ▸ hcap)
    simp only [collect, if_neg hroom, hleast]
    by_cases hlarger : key least < key entry
    · rw [if_pos hlarger]
      exact ⟨least :: left, hkeeps.replace hfull hleast hmin hlarger⟩
    · rw [if_neg hlarger]
      exact ⟨entry :: left, hkeeps.leave hfull fun a ha => (not_lt.mp hlarger).trans (hmin a ha)⟩

theorem keeps_foldl {cap : ℕ} (hcap : 0 < cap) {seen kept left : List α}
    (hkeeps : Keeps key cap seen kept left) (entries : List α) :
    ∃ left', Keeps key cap (seen ++ entries) (entries.foldl (collect key cap) kept) left' := by
  induction entries generalizing seen kept left with
  | nil => exact ⟨left, by simpa using hkeeps⟩
  | cons entry entries ih =>
      obtain ⟨left', hnext⟩ := keeps_collect hcap hkeeps entry
      simpa using ih hnext

/-! ## The sort -/

/-- An entry that is moved down ends up in its place, and those it passes one further. -/
theorem shiftDown_spec (k : α) {front : List α} (hfront : Descending key front) (x : α)
    (rest : List α) :
    ∃ placed, shiftDown key k front.length (front ++ x :: rest) = placed ++ rest ∧
      placed.Perm (k :: front) ∧ Descending key placed := by
  induction front using List.reverseRecOn generalizing x rest with
  | nil => exact ⟨[k], rfl, .refl _, List.pairwise_singleton _ _⟩
  | append_singleton front a ih =>
      obtain ⟨hsorted, -, hlast⟩ := List.pairwise_append.mp hfront
      have hfront_a : ∀ b ∈ front, key a ≤ key b := fun b hb =>
        hlast b hb a (List.mem_singleton_self a)
      have happend : front ++ [a] ++ x :: rest = front ++ a :: x :: rest := by simp
      have hbefore : (front ++ a :: x :: rest)[front.length]? = some a := by simp
      have hset : ∀ y, (front ++ a :: x :: rest).set (front.length + 1) y =
          front ++ a :: y :: rest := fun y => by simp
      rw [List.length_append, List.length_singleton, happend]
      by_cases hless : key a < key k
      · obtain ⟨placed, hplaced, hperm, hdescending⟩ := ih hsorted a (a :: rest)
        refine ⟨placed ++ [a], ?_, ?_, ?_⟩
        · simpa only [shiftDown, hbefore, if_pos hless, hset, List.append_assoc,
            List.cons_append, List.nil_append] using hplaced
        · exact hperm.append_right [a]
        · refine List.pairwise_append.mpr
            ⟨hdescending, List.pairwise_singleton _ _, fun b hb c hc => ?_⟩
          rw [List.mem_singleton.mp hc]
          rcases List.mem_cons.mp (hperm.subset hb) with rfl | hb
          · exact hless.le
          · exact hfront_a b hb
      · refine ⟨front ++ [a] ++ [k], ?_, List.perm_append_singleton k _, ?_⟩
        · simp only [shiftDown, hbefore, if_neg hless, hset, List.append_assoc,
            List.cons_append, List.nil_append]
        · refine List.pairwise_append.mpr
            ⟨hfront, List.pairwise_singleton _ _, fun b hb c hc => ?_⟩
          rw [List.mem_singleton.mp hc]
          have hk : key k ≤ key a := not_lt.mp hless
          rcases List.mem_append.mp hb with hb | hb
          · exact hk.trans (hfront_a b hb)
          · rwa [List.mem_singleton.mp hb]

/-- The sort from a sorted front on. -/
theorem sort_from {front : List α} (hfront : Descending key front) (rest : List α) :
    let out := (List.range' front.length rest.length).foldl (sortStep key) (front ++ rest)
    Descending key out ∧ out.Perm (front ++ rest) := by
  induction rest generalizing front with
  | nil => simpa using hfront
  | cons x rest ih =>
      obtain ⟨placed, hplaced, hperm, hdescending⟩ := shiftDown_spec x hfront x rest
      have hat : (front ++ x :: rest)[front.length]? = some x := by simp
      have hstep : sortStep key (front ++ x :: rest) front.length = placed ++ rest := by
        simp only [sortStep, hat, hplaced]
      have hlength : placed.length = front.length + 1 := hperm.length_eq
      rw [List.length_cons, List.range'_succ, List.foldl_cons, hstep, ← hlength]
      obtain ⟨hsorted, hout⟩ := ih hdescending
      refine ⟨hsorted, hout.trans ((hperm.append_right rest).trans ?_)⟩
      exact List.perm_middle.symm

/-- The sorted array is descending and holds the same entries. -/
theorem insertionSort_spec (out : List α) :
    Descending key (insertionSort key out) ∧ (insertionSort key out).Perm out := by
  cases out with
  | nil => exact ⟨List.Pairwise.nil, .refl _⟩
  | cons x rest => exact sort_from (List.pairwise_singleton _ x) rest

/-- Sorting what is kept keeps it. -/
theorem Keeps.insertionSort {cap : ℕ} {seen kept left : List α}
    (hkeeps : Keeps key cap seen kept left) :
    Keeps key cap seen (TopEntries.insertionSort key kept) left where
  perm := hkeeps.perm.trans ((insertionSort_spec kept).2.symm.append_right left)
  length := (insertionSort_spec kept).2.length_eq.trans hkeeps.length
  largest k hk := hkeeps.largest k ((insertionSort_spec kept).2.subset hk)

end LoraBridge.TopEntries
