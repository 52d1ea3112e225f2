import LoraBridge.Codec.Memory
import Mathlib.Data.List.TakeDrop
import Mathlib.Data.List.TakeWhile
import Mathlib.Data.Vector.Basic
import Mathlib.Tactic

/-!
# Strings in character arrays

A C string in an array of fixed size: the characters in front of the first terminator.
`copyStr` cuts a string to the array, and an array that ends with a terminator holds a
string, whatever else is in it.
-/

namespace LoraBridge

/-- `char[size]`. -/
abbrev CharArray (size : ℕ) := List.Vector UInt8 size

namespace CharArray

open LoraBridge.Memory

variable {size max : ℕ}

/-- The string in the array. -/
def text (array : CharArray size) : List UInt8 := cString array.toList

/-- The string ends inside the array. -/
def Terminated (array : CharArray size) : Prop := 0 ∈ array.toList

instance (array : CharArray size) : Decidable array.Terminated :=
  inferInstanceAs (Decidable (0 ∈ array.toList))

/-- The array ends with a terminator. -/
def Sealed (array : CharArray (max + 1)) : Prop := array.last = 0

/-- `strncpy(dst, src, max); dst[max] = 0`. -/
def copyStr (max : ℕ) (src : List UInt8) : CharArray (max + 1) :=
  ⟨((cString src).take max).takeD (max + 1) 0, List.takeD_length _ _ _⟩

/-- `array[sizeof(array) - 1] = 0`. -/
def terminate (array : CharArray (max + 1)) : CharArray (max + 1) :=
  array.set (Fin.last max) 0

/-- An array of zeros. -/
def zeros (size : ℕ) : CharArray size := List.Vector.replicate size 0

/-! ## Strings -/

theorem cString_of_notMem {bytes : List UInt8} (hbytes : 0 ∉ bytes) : cString bytes = bytes :=
  List.takeWhile_eq_self_iff.mpr fun b hb => by
    have hne : b ≠ 0 := fun hzero => hbytes (hzero ▸ hb)
    simpa using hne

theorem notMem_cString (bytes : List UInt8) : 0 ∉ cString bytes := fun hmem => by
  simpa using List.mem_takeWhile_imp hmem

theorem notMem_text (array : CharArray size) : 0 ∉ array.text := notMem_cString _

theorem cString_append_zero {bytes : List UInt8} (hbytes : 0 ∉ bytes) (rest : List UInt8) :
    cString (bytes ++ 0 :: rest) = bytes := by
  rw [cString, List.takeWhile_append_of_pos, List.takeWhile_cons_of_neg (by simp),
    List.append_nil]
  intro b hb
  have hne : b ≠ 0 := fun hzero => hbytes (hzero ▸ hb)
  simpa using hne

theorem cString_append_of_notMem {bytes : List UInt8} (hbytes : 0 ∉ bytes)
    (rest : List UInt8) : cString (bytes ++ rest) = bytes ++ cString rest :=
  List.takeWhile_append_of_pos fun b hb => by
    have hne : b ≠ 0 := fun hzero => hbytes (hzero ▸ hb)
    simpa using hne

/-- A string that is cut is cut as a string. -/
theorem cString_take (bytes : List UInt8) (n : ℕ) :
    cString (bytes.take n) = (cString bytes).take n := by
  induction bytes generalizing n with
  | nil => simp [cString]
  | cons b bytes ih =>
      cases n with
      | zero => rfl
      | succ n =>
          by_cases hb : b = 0
          · simp [cString, hb]
          · have hcons : ∀ rest, cString (b :: rest) = b :: cString rest := fun rest =>
              List.takeWhile_cons_of_pos (by simpa using hb)
            rw [List.take_succ_cons, hcons, hcons, ih, List.take_succ_cons]

theorem length_text_lt {array : CharArray size} (hterminated : array.Terminated) :
    array.text.length < size := by
  have hprefix : array.text <+: array.toList := List.takeWhile_prefix _
  have hle : array.text.length ≤ size := hprefix.length_le.trans_eq array.toList_length
  refine Nat.lt_of_le_of_ne hle fun hlength => ?_
  have hall : array.text = array.toList :=
    hprefix.eq_of_length (hlength.trans array.toList_length.symm)
  exact notMem_text array (hall ▸ hterminated)

theorem takeD_of_lt {bytes : List UInt8} {n : ℕ} (hlength : bytes.length < n) :
    ∃ rest, bytes.takeD n 0 = bytes ++ 0 :: rest := by
  induction bytes generalizing n with
  | nil =>
      obtain ⟨m, rfl⟩ := Nat.exists_eq_add_one_of_ne_zero (Nat.ne_of_gt hlength)
      exact ⟨List.replicate m 0, List.takeD_nil _ _⟩
  | cons b bytes ih =>
      cases n with
      | zero => exact absurd hlength (Nat.not_lt_zero _)
      | succ n =>
          obtain ⟨rest, hrest⟩ := ih (Nat.lt_of_succ_lt_succ hlength)
          exact ⟨rest, by rw [List.takeD_succ]; exact congrArg (b :: ·) hrest⟩

/-- Padding leaves what is in front of it. -/
theorem take_takeD {bytes : List UInt8} {n : ℕ} (hlength : bytes.length ≤ n) :
    (bytes.takeD n 0).take bytes.length = bytes := by
  induction bytes generalizing n with
  | nil => rfl
  | cons b bytes ih =>
      cases n with
      | zero => exact absurd hlength (Nat.not_succ_le_zero _)
      | succ n =>
          rw [List.takeD_succ, List.length_cons, List.take_succ_cons]
          exact congrArg (b :: ·) (ih (Nat.le_of_succ_le_succ hlength))

/-- What a copy holds. -/
theorem text_copyStr (max : ℕ) (src : List UInt8) :
    (copyStr max src).text = (cString src).take max := by
  have hclean : 0 ∉ (cString src).take max :=
    fun hmem => notMem_cString src (List.mem_of_mem_take hmem)
  have hlength : ((cString src).take max).length < max + 1 := by
    rw [List.length_take]
    omega
  obtain ⟨rest, hrest⟩ := takeD_of_lt hlength
  have hlist : (copyStr max src).toList = (cString src).take max ++ 0 :: rest := hrest
  rw [text, hlist, cString_append_zero hclean]

/-- A terminated string fits into an array that is not smaller. -/
theorem text_copyStr_toList {array : CharArray size} (hterminated : array.Terminated)
    (hsize : size ≤ max + 1) : (copyStr max array.toList).text = array.text := by
  have hlength := length_text_lt hterminated
  rw [text_copyStr]
  exact List.take_of_length_le (show array.text.length ≤ max by omega)

/-! ## Terminators -/

theorem takeD_getLast {bytes : List UInt8} {n : ℕ} (hlength : bytes.length ≤ n) :
    (bytes.takeD (n + 1) 0)[n]? = some 0 := by
  induction n generalizing bytes with
  | zero =>
      rw [List.length_eq_zero_iff.mp (Nat.le_zero.mp hlength)]
      rfl
  | succ n ih =>
      rw [List.takeD_succ, List.getElem?_cons_succ]
      refine ih ?_
      rw [List.length_tail]
      omega

theorem sealed_copyStr (max : ℕ) (src : List UInt8) : (copyStr max src).Sealed := by
  have hlast : (((cString src).take max).takeD (max + 1) 0)[max]? = some 0 :=
    takeD_getLast (List.length_take_le max _)
  rw [Sealed, List.Vector.last_def, List.Vector.get_eq_get_toList]
  exact List.getElem?_eq_some_iff.mp hlast |>.2

theorem sealed_terminate (array : CharArray (max + 1)) : array.terminate.Sealed :=
  List.Vector.get_set_same array (Fin.last max) 0

theorem terminate_of_sealed {array : CharArray (max + 1)} (hsealed : array.Sealed) :
    array.terminate = array := by
  refine List.Vector.ext fun i => ?_
  rw [terminate, List.Vector.get_set_eq_if]
  split
  · rename_i hi
    rw [← hi]
    exact hsealed.symm
  · rfl

end CharArray

end LoraBridge
