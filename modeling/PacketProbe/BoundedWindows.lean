import Mathlib.Data.List.DropRight

/-!
# Bounded windows

A window of `n` places, where every new element pushes the oldest one out when all are taken,
shows the last `n` elements.
-/

namespace BoundedWindows

universe u

variable {α : Type u} {n : ℕ} {xs ys : List α} {x : α}

def push (n : ℕ) (window : List α) (x : α) : List α :=
  (if n ≤ window.length then window.tail else window) ++ [x]

theorem rtake_of_length_le (h : xs.length ≤ n) : xs.rtake n = xs := by
  rw [List.rtake, Nat.sub_eq_zero_of_le h, List.drop_zero]

theorem length_rtake_le (xs : List α) (n : ℕ) : (xs.rtake n).length ≤ n := by
  rw [List.rtake, List.length_drop]
  omega

theorem push_rtake (hn : 0 < n) : push n (xs.rtake n) x = (xs ++ [x]).rtake n := by
  obtain ⟨m, rfl⟩ := Nat.exists_eq_add_of_lt hn
  rw [Nat.zero_add, List.rtake_concat_succ, push]
  congr 1
  by_cases hfull : m + 1 ≤ xs.length
  · have hlength : m + 1 ≤ (xs.rtake (m + 1)).length := by
      rw [List.rtake, List.length_drop]
      omega
    rw [if_pos hlength, List.rtake, List.tail_drop, List.rtake]
    congr 1
    omega
  · have hlength : ¬ m + 1 ≤ (xs.rtake (m + 1)).length := by
      rw [List.rtake, List.length_drop]
      omega
    rw [if_neg hlength, rtake_of_length_le (by omega), rtake_of_length_le (by omega)]

theorem foldl_push (hn : 0 < n) (xs ys : List α) :
    ys.foldl (push n) (xs.rtake n) = (xs ++ ys).rtake n := by
  induction ys generalizing xs with
  | nil => rw [List.foldl_nil, List.append_nil]
  | cons y ys ih =>
    rw [List.foldl_cons, push_rtake hn, ih, List.append_assoc, List.singleton_append]

/-- What has left the window does not come back. -/
theorem rtake_append_rtake (hn : 0 < n) : (xs.rtake n ++ ys).rtake n = (xs ++ ys).rtake n := by
  rw [← foldl_push hn, ← foldl_push hn, rtake_of_length_le (length_rtake_le xs n)]

theorem mem_of_mem_rtake (h : x ∈ xs.rtake n) : x ∈ xs := List.mem_of_mem_drop h

end BoundedWindows
