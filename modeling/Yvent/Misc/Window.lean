import Mathlib.Data.List.Basic

/-!
# Windows of a list

An array that holds a sequence between two indices shows it as `window l i j`. What a program
writes to the array is `overwrite l k d`: `d` in the place of as many elements from `k` on. The
lemmas say what a write behind the window, in front of it or over it does to the sequence.
-/

namespace Yvent

universe u

variable {α : Type u} {l d : List α} {i j k n : Nat}

/-- The elements from index `i` up to index `j`. -/
def window (l : List α) (i j : Nat) : List α := (l.take j).drop i

/-- The list with `d` written over it from index `k` on. -/
def overwrite (l : List α) (k : Nat) (d : List α) : List α :=
  l.take k ++ (d ++ l.drop (k + d.length))

theorem length_window (inside : j ≤ l.length) : (window l i j).length = j - i := by
  rw [window, List.length_drop, List.length_take, Nat.min_eq_left inside]

@[simp] theorem window_self : window l i i = [] := by
  apply List.drop_eq_nil_of_le
  exact List.length_take_le i l

theorem length_overwrite (inside : k + d.length ≤ l.length) :
    (overwrite l k d).length = l.length := by
  simp only [overwrite, List.length_append, List.length_take, List.length_drop]
  omega

/-- Two windows side by side. -/
theorem window_append_window (ij : i ≤ j) (jk : j ≤ k) (inside : k ≤ l.length) :
    window l i j ++ window l j k = window l i k := by
  have front : (l.take k).take j = l.take j := by rw [List.take_take, Nat.min_eq_left jk]
  have length : i ≤ (l.take j).length := by
    rw [List.length_take]
    omega
  calc window l i j ++ window l j k
      = (l.take j ++ (l.take k).drop j).drop i := by
        rw [List.drop_append_of_le_length length, window, window]
    _ = ((l.take k).take j ++ (l.take k).drop j).drop i := by rw [front]
    _ = window l i k := by rw [List.take_append_drop, window]

theorem take_window (inside : i + n ≤ j) : (window l i j).take n = window l i (i + n) := by
  rw [window, window, List.take_drop, List.take_take, Nat.min_eq_left inside]

theorem drop_window : (window l i j).drop n = window l (i + n) j := by
  rw [window, window, List.drop_drop]

/-- A list that grows at its end keeps its windows. -/
theorem window_append (inside : j ≤ l.length) : window (l ++ d) i j = window l i j := by
  rw [window, window, List.take_append_of_le_length inside]

/-! ## Writes -/

/-- A write from the end of a window on leaves the window alone. -/
theorem window_overwrite_behind (ik : j ≤ k) (inside : k ≤ l.length) :
    window (overwrite l k d) i j = window l i j := by
  have length : j ≤ (l.take k).length := by
    rw [List.length_take]
    omega
  rw [window, window, overwrite, List.take_append_of_le_length length, List.take_take,
    Nat.min_eq_left ik]

/-- A write shows what was written. -/
theorem window_overwrite_self (inside : k ≤ l.length) :
    window (overwrite l k d) k (k + d.length) = d := by
  have length : (l.take k).length = k := List.length_take_of_le inside
  rw [window, overwrite, ← List.append_assoc, List.take_append_of_le_length (by simp [length]),
    List.take_of_length_le (by simp [length]), List.drop_append_of_le_length (Nat.le_of_eq length.symm),
    List.drop_of_length_le (Nat.le_of_eq length), List.nil_append]

/-- A write leaves what lies behind it alone. -/
theorem window_overwrite_before (inside : k + d.length ≤ l.length) (after : k + d.length ≤ i) :
    window (overwrite l k d) i j = window l i j := by
  have length : (l.take k ++ d).length = k + d.length := by
    rw [List.length_append, List.length_take_of_le (by omega)]
  have tail : (overwrite l k d).drop i = l.drop i := by
    rw [overwrite, ← List.append_assoc, List.drop_append, List.drop_of_length_le (by omega),
      List.nil_append, length, List.drop_drop]
    congr 1
    omega
  rw [window, window, List.drop_take, List.drop_take, tail]

/-- What is written right behind a window is appended to it. -/
theorem window_overwrite_append (ij : i ≤ j) (inside : j + d.length ≤ l.length) :
    window (overwrite l j d) i (j + d.length) = window l i j ++ d := by
  have whole : j + d.length ≤ (overwrite l j d).length := by rwa [length_overwrite inside]
  rw [← window_append_window ij (Nat.le_add_right ..) whole,
    window_overwrite_behind (Nat.le_refl j) (by omega), window_overwrite_self (by omega)]

/-- What is written right before a window is prepended to it. -/
theorem window_overwrite_prepend (ij : k + d.length ≤ j) (inside : j ≤ l.length) :
    window (overwrite l k d) k j = d ++ window l (k + d.length) j := by
  have room : k + d.length ≤ l.length := Nat.le_trans ij inside
  have whole : j ≤ (overwrite l k d).length := by rwa [length_overwrite room]
  rw [← window_append_window (Nat.le_add_right k d.length) ij whole,
    window_overwrite_self (by omega), window_overwrite_before room (Nat.le_refl _)]

end Yvent
