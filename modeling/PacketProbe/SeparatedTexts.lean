import Mathlib.Data.List.Basic

/-!
# Texts with a separator between them

Two texts with a separator between them do not tell where the first one ends if they have
separators of their own. All other ways to read the same text come from moving the separator
to another one.
-/

namespace SeparatedTexts

universe u

variable {α : Type u} {c : α} {x y z x' y' z' : List α}

/-- The separator between the parts has moved to a later one, which was in the second part. -/
def MovesRight (c : α) (x y x' y' : List α) : Prop := ∃ u, x' = x ++ c :: u ∧ y = u ++ c :: y'

/-- The same text, with another separator between the parts. -/
def Shifted (c : α) (x y x' y' : List α) : Prop := MovesRight c x y x' y' ∨ MovesRight c x' y' x y

/-- The word `y` in the middle and a later word `y'` that takes its place: the first part grows by
the one, and the last part loses the other. -/
def Overtakes (c : α) (x y z x' y' z' : List α) : Prop :=
  (x' = x ++ c :: y ∧ z = y' ++ c :: z') ∨ ∃ m, x' = x ++ c :: (y ++ c :: m) ∧
    z = m ++ c :: (y' ++ c :: z')

theorem MovesRight.length_lt (h : MovesRight c x y x' y') : x.length < x'.length := by
  obtain ⟨u, rfl, -⟩ := h
  rw [List.length_append, List.length_cons]
  omega

theorem MovesRight.append_eq (h : MovesRight c x y x' y') : x ++ c :: y = x' ++ c :: y' := by
  obtain ⟨u, rfl, rfl⟩ := h
  rw [List.append_assoc, List.cons_append]

theorem Shifted.append_eq (h : Shifted c x y x' y') : x ++ c :: y = x' ++ c :: y' :=
  h.elim MovesRight.append_eq fun hleft => hleft.append_eq.symm

theorem Shifted.ne (h : Shifted c x y x' y') : x ≠ x' := by
  rintro rfl
  rcases h with h | h <;> exact absurd h.length_lt (Nat.lt_irrefl _)

theorem append_cons_eq_iff :
    x ++ c :: y = x' ++ c :: y' ↔ (x = x' ∧ y = y') ∨ Shifted c x y x' y' := by
  have hmoves : ∀ {x y x' y' u : List α}, x' = x ++ u → c :: y = u ++ c :: y' →
      (x = x' ∧ y = y') ∨ MovesRight c x y x' y' := by
    intro x y x' y' u hx hy
    cases u with
    | nil => exact .inl ⟨by rw [hx, List.append_nil], (List.cons.inj hy).2⟩
    | cons first u =>
      obtain ⟨rfl, hrest⟩ := List.cons.inj hy
      exact .inr ⟨u, hx, hrest⟩
  constructor
  · intro h
    -- One of the first parts is a prefix of the other.
    rcases List.append_eq_append_iff.1 h with ⟨u, hx, hy⟩ | ⟨u, hx, hy⟩
    · exact (hmoves hx hy).imp_right .inl
    · exact (hmoves hx hy).imp (fun h => ⟨h.1.symm, h.2.symm⟩) .inr
  · rintro (⟨rfl, rfl⟩ | h)
    · rfl
    · exact h.append_eq

/-- Without separators in the first parts there is one way to read the text. -/
theorem append_cons_inj (hx : c ∉ x) (hx' : c ∉ x') (h : x ++ c :: y = x' ++ c :: y') :
    x = x' ∧ y = y' := by
  have hmoves : ∀ {x y x' y' : List α}, c ∉ x' → ¬ MovesRight c x y x' y' := by
    rintro x y x' y' hx' ⟨u, rfl, -⟩
    exact hx' (List.mem_append_right x List.mem_cons_self)
  exact (append_cons_eq_iff.1 h).resolve_right (not_or.2 ⟨hmoves hx', hmoves hx⟩)

theorem Overtakes.length_lt (h : Overtakes c x y z x' y' z') : x.length < x'.length := by
  rcases h with ⟨rfl, -⟩ | ⟨m, rfl, -⟩
  · rw [List.length_append, List.length_cons]
    omega
  · rw [List.length_append, List.length_cons]
    omega

theorem Overtakes.append_eq (h : Overtakes c x y z x' y' z') :
    x ++ c :: (y ++ c :: z) = x' ++ c :: (y' ++ c :: z') := by
  rcases h with ⟨rfl, rfl⟩ | ⟨m, rfl, rfl⟩
  · rw [List.append_assoc, List.cons_append]
  · rw [List.append_assoc, List.cons_append, List.append_assoc, List.cons_append]

/-- A text around a word without separators. -/
theorem middle_eq_iff (hy : c ∉ y) (hy' : c ∉ y') :
    x ++ c :: (y ++ c :: z) = x' ++ c :: (y' ++ c :: z') ↔
      (x = x' ∧ y = y' ∧ z = z') ∨ Overtakes c x y z x' y' z' ∨ Overtakes c x' y' z' x y z := by
  have hmoves :
    ∀ {x y z x' y' z' : List α}, c ∉ y → MovesRight c x (y ++ c :: z) x' (y' ++ c :: z') →
      Overtakes c x y z x' y' z' := by
    rintro x y z x' y' z' hy ⟨u, rfl, hu⟩
    rcases append_cons_eq_iff.1 hu with ⟨rfl, rfl⟩ | ⟨m, rfl, rfl⟩ | ⟨m, rfl, -⟩
    · exact .inl ⟨rfl, rfl⟩
    · exact .inr ⟨m, rfl, rfl⟩
    · exact absurd (List.mem_append_right u List.mem_cons_self) hy
  constructor
  · intro h
    rcases append_cons_eq_iff.1 h with ⟨rfl, hmiddle⟩ | hright | hleft
    · exact .inl ⟨rfl, append_cons_inj hy hy' hmiddle⟩
    · exact .inr (.inl (hmoves hy hright))
    · exact .inr (.inr (hmoves hy' hleft))
  · rintro (⟨rfl, rfl, rfl⟩ | h | h)
    · rfl
    · exact h.append_eq
    · exact h.append_eq.symm

end SeparatedTexts
