import Mathlib.Data.List.Nodup
import Mathlib.Data.List.Range
import Mathlib.Logic.Function.Basic

/-!
# Numbers handed out by one counter

A counter hands out numbers to many holders, and a holder moves its numbers into a log,
one after the other. Whatever the order, no number is seen twice.
-/

namespace TicketLedger

universe u

variable {ι : Type u} [DecidableEq ι] {log rest : List ℕ} {pending : ι → List ℕ} {issued n k : ℕ}
  {i : ι}

/-- The numbers in the log and in the hands of the holders are distinct numbers that the
counter has issued. -/
structure Distinct (log : List ℕ) (pending : ι → List ℕ) (issued : ℕ) : Prop where
  log_range : ∀ n ∈ log, 0 < n ∧ n ≤ issued
  range : ∀ i, ∀ n ∈ pending i, 0 < n ∧ n ≤ issued
  log_nodup : log.Nodup
  nodup : ∀ i, (pending i).Nodup
  unlogged : ∀ i, ∀ n ∈ pending i, n ∉ log
  apart : ∀ i j, i ≠ j → ∀ n ∈ pending i, n ∉ pending j

omit [DecidableEq ι] in
theorem distinct_nil (issued : ℕ) : Distinct [] (fun _ : ι => []) issued :=
  ⟨by simp, by simp, List.nodup_nil, by simp, by simp, by simp⟩

/-- A holder gets the next numbers of the counter. -/
theorem Distinct.issue (h : Distinct log pending issued) (i : ι) (k : ℕ) :
    Distinct log (Function.update pending i (List.range' (issued + 1) k)) (issued + k) := by
  have hnew : ∀ n ∈ List.range' (issued + 1) k, issued < n ∧ n ≤ issued + k := by
    intro n hn
    rw [List.mem_range'_1] at hn
    omega
  have hsplit : ∀ j, ∀ n ∈ Function.update pending i (List.range' (issued + 1) k) j,
      (j = i ∧ issued < n ∧ n ≤ issued + k) ∨ (j ≠ i ∧ n ∈ pending j) := by
    intro j n hn
    by_cases hj : j = i
    · subst hj
      rw [Function.update_self] at hn
      exact .inl ⟨rfl, hnew n hn⟩
    · rw [Function.update_of_ne hj] at hn
      exact .inr ⟨hj, hn⟩
  refine ⟨?_, ?_, h.log_nodup, ?_, ?_, ?_⟩
  · intro n hn
    have := h.log_range n hn
    omega
  · intro j n hn
    rcases hsplit j n hn with ⟨-, hn⟩ | ⟨-, hn⟩
    · omega
    · have := h.range j n hn
      omega
  · intro j
    by_cases hj : j = i
    · subst hj
      rw [Function.update_self]
      exact List.nodup_range'
    · rw [Function.update_of_ne hj]
      exact h.nodup j
  · intro j n hn hlog
    rcases hsplit j n hn with ⟨-, hn⟩ | ⟨-, hn⟩
    · have := h.log_range n hlog
      omega
    · exact h.unlogged j n hn hlog
  · intro j j' hne n hn hn'
    rcases hsplit j n hn with ⟨hj, hn⟩ | ⟨hj, hn⟩
    · rcases hsplit j' n hn' with ⟨hj', -⟩ | ⟨-, hn'⟩
      · exact hne (hj.trans hj'.symm)
      · have := h.range j' n hn'
        omega
    · rcases hsplit j' n hn' with ⟨-, hn'⟩ | ⟨-, hn'⟩
      · have := h.range j n hn
        omega
      · exact h.apart j j' hne n hn hn'

/-- A holder moves its first number into the log. -/
theorem Distinct.move (h : Distinct log pending issued) (hi : pending i = n :: rest) :
    Distinct (log ++ [n]) (Function.update pending i rest) issued := by
  have hmem : n ∈ pending i := hi ▸ List.mem_cons_self
  have hold : ∀ j, ∀ m ∈ Function.update pending i rest j, m ∈ pending j := by
    intro j m hm
    by_cases hj : j = i
    · subst hj
      rw [Function.update_self] at hm
      rw [hi]
      exact List.mem_cons_of_mem _ hm
    · rwa [Function.update_of_ne hj] at hm
  have hnodup := h.nodup i
  rw [hi, List.nodup_cons] at hnodup
  refine ⟨?_, fun j m hm => h.range j m (hold j m hm), ?_, ?_, ?_, ?_⟩
  · intro m hm
    rcases List.mem_append.1 hm with hm | hm
    · exact h.log_range m hm
    · rw [List.mem_singleton] at hm
      exact hm ▸ h.range i n hmem
  · refine h.log_nodup.append (List.nodup_singleton n) fun m hm hn => ?_
    rw [List.mem_singleton] at hn
    exact h.unlogged i n hmem (hn ▸ hm)
  · intro j
    by_cases hj : j = i
    · subst hj
      rw [Function.update_self]
      exact hnodup.2
    · rw [Function.update_of_ne hj]
      exact h.nodup j
  · intro j m hm hlog
    rcases List.mem_append.1 hlog with hlog | hlog
    · exact h.unlogged j m (hold j m hm) hlog
    · rw [List.mem_singleton] at hlog
      subst hlog
      by_cases hj : j = i
      · subst hj
        rw [Function.update_self] at hm
        exact hnodup.1 hm
      · exact h.apart j i hj m (hold j m hm) hmem
  · intro j j' hne m hm hm'
    exact h.apart j j' hne m (hold j m hm) (hold j' m hm')

end TicketLedger
