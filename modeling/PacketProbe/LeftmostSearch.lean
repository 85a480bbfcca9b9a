import Mathlib.Data.List.Basic
import Mathlib.Data.List.Infix

/-!
# The leftmost occurrence of a pattern in a list

The search a `std::search` call makes: the first position from which the pattern
can be read off, found without skipping any position, so that patterns overlapping
themselves are treated like all others.
-/

namespace LeftmostSearch

universe u
variable {α : Type u} [DecidableEq α]

/-- Position of the first occurrence of `d`, if there is one. -/
def search (d : List α) : List α → Option ℕ
  | [] => if d.isPrefixOf [] then some 0 else none
  | b :: bs => if d.isPrefixOf (b :: bs) then some 0 else (search d bs).map (· + 1)

theorem search_eq_some_iff (d b : List α) (i : ℕ) :
    search d b = some i ↔ d <+: b.drop i ∧ ∀ j < i, ¬ d <+: b.drop j := by
  induction b generalizing i with
  | nil =>
    simp only [search, List.isPrefixOf_iff_prefix, List.drop_nil]
    by_cases h : d <+: []
    · simp only [h, if_true, Option.some.injEq, true_and, not_true, imp_false]
      constructor
      · rintro rfl
        omega
      · intro hi
        by_contra hne
        exact hi 0 (by omega)
    · simp [h]
  | cons a bs ih =>
    simp only [search, List.isPrefixOf_iff_prefix]
    by_cases h : d <+: a :: bs
    · simp only [h, if_true, Option.some.injEq]
      constructor
      · rintro rfl
        exact ⟨h, by omega⟩
      · rintro ⟨-, hmin⟩
        by_contra hne
        exact hmin 0 (by omega) h
    · simp only [h, if_false]
      cases i with
      | zero => simp [h]
      | succ i =>
        simp only [Option.map_eq_some_iff, Nat.add_right_cancel_iff, exists_eq_right, ih,
          List.drop_succ_cons]
        refine and_congr_right fun _ =>
          ⟨fun hmin j hj => ?_, fun hmin j hj => hmin (j + 1) (by omega)⟩
        cases j with
        | zero => exact h
        | succ j => exact hmin j (by omega)

theorem search_eq_none_iff (d b : List α) : search d b = none ↔ ¬ d <:+: b := by
  induction b with
  | nil => simp [search]
  | cons a bs ih =>
    rw [List.infix_cons_iff, not_or, ← ih]
    by_cases h : d <+: a :: bs <;> simp [search, h]

theorem add_length_le {d b : List α} {i : ℕ} (hd : d ≠ []) (h : search d b = some i) :
    i + d.length ≤ b.length := by
  have hp := ((search_eq_some_iff d b i).1 h).1.length_le
  have hpos := List.length_pos_iff.2 hd
  rw [List.length_drop] at hp
  omega

/-- An occurrence found stays the leftmost one when more input arrives. -/
theorem search_append {d b : List α} {i : ℕ} (hd : d ≠ []) (h : search d b = some i)
    (more : List α) : search d (b ++ more) = some i := by
  have hlen := add_length_le hd h
  obtain ⟨hp, hmin⟩ := (search_eq_some_iff d b i).1 h
  refine (search_eq_some_iff _ _ _).2 ⟨?_, fun j hj hpj => hmin j hj ?_⟩
  · rw [List.drop_append_of_le_length (by omega)]
    exact hp.trans (List.prefix_append _ _)
  · rw [List.drop_append_of_le_length (by omega)] at hpj
    exact List.prefix_of_prefix_length_le hpj (List.prefix_append _ _) (by
      rw [List.length_drop]
      omega)

/-- What comes behind an occurrence does not matter for it. -/
theorem search_take {d b : List α} {i : ℕ} (h : search d b = some i) :
    search d (b.take (i + d.length)) = some i := by
  obtain ⟨hp, hmin⟩ := (search_eq_some_iff d b i).1 h
  refine (search_eq_some_iff _ _ _).2 ⟨?_, fun j hj hpj => hmin j hj ?_⟩
  · rw [List.drop_take, Nat.add_sub_cancel_left]
    exact List.prefix_take_iff.2 ⟨hp, le_rfl⟩
  · rw [List.drop_take] at hpj
    exact hpj.trans (List.take_prefix _ _)

/-! ### The leftmost split -/

/-- The first occurrence of `d` is at this position. -/
def FirstAt (d b : List α) (i : ℕ) : Prop := d <+: b.drop i ∧ ∀ j < i, ¬ d <+: b.drop j

/-- A list as parts, each with the first occurrence of `d` right behind it, and a rest without any.
-/
structure LeftmostSplit (d b : List α) (parts : List (List α)) (rest : List α) : Prop where
  append_eq : parts.flatMap (· ++ d) ++ rest = b
  first : ∀ part ∈ parts, FirstAt d (part ++ d) part.length
  not_infix : ¬ d <:+: rest

variable {d b : List α} {parts parts' : List (List α)} {rest rest' : List α}

theorem leftmostSplit_of_search_none (h : search d b = none) : LeftmostSplit d b [] b where
  append_eq := rfl
  first _ hpart := absurd hpart List.not_mem_nil
  not_infix := (search_eq_none_iff d b).1 h

theorem leftmostSplit_of_search_some {i : ℕ} (hd : d ≠ []) (h : search d b = some i)
    (hrest : LeftmostSplit d (b.drop (i + d.length)) parts rest) :
    LeftmostSplit d b (b.take i :: parts) rest where
  append_eq := by
    obtain ⟨⟨more, hmore⟩, -⟩ := (search_eq_some_iff d b i).1 h
    rw [List.flatMap_cons, List.append_assoc, hrest.append_eq, ← List.drop_drop, ← hmore,
      List.drop_left, List.append_assoc, hmore, List.take_append_drop]
  first := by
    intro part hpart
    rcases List.mem_cons.1 hpart with rfl | hpart
    · have hlength := add_length_le hd h
      obtain ⟨⟨more, hmore⟩, -⟩ := (search_eq_some_iff d b i).1 h
      have hfront : b.take i ++ d = b.take (i + d.length) := by
        rw [List.take_add, ← hmore, List.take_left]
      rw [hfront, List.length_take_of_le (by omega)]
      exact (search_eq_some_iff _ _ _).1 (search_take h)
    · exact hrest.first part hpart
  not_infix := hrest.not_infix

/-- A split without parts is one of a list without `d`. -/
theorem LeftmostSplit.search_nil (h : LeftmostSplit d b [] rest) :
    search d b = none ∧ rest = b := by
  have hrest : rest = b := h.append_eq
  exact ⟨(search_eq_none_iff d b).2 (hrest ▸ h.not_infix), hrest⟩

/-- The first part of a split ends where the search finds `d`. -/
theorem LeftmostSplit.search_cons {part : List α} (hd : d ≠ [])
    (h : LeftmostSplit d b (part :: parts) rest) :
    search d b = some part.length ∧ b.take part.length = part ∧
      LeftmostSplit d (b.drop (part.length + d.length)) parts rest := by
  have hfirst := (search_eq_some_iff _ _ _).2 (h.first part List.mem_cons_self)
  have hb : (part ++ d) ++ (parts.flatMap (· ++ d) ++ rest) = b := by
    rw [← h.append_eq, List.flatMap_cons, List.append_assoc, List.append_assoc, List.append_assoc]
  refine ⟨?_, ?_, ?_, ?_, ?_⟩
  · rw [← hb]
    exact search_append hd hfirst _
  · rw [← hb, List.append_assoc, List.take_left]
  · rw [← hb, ← List.length_append, List.drop_left]
  · exact fun part' hpart => h.first part' (List.mem_cons_of_mem _ hpart)
  · exact h.not_infix

/-- There is only one leftmost split. -/
theorem LeftmostSplit.unique (hd : d ≠ []) (h : LeftmostSplit d b parts rest)
    (h' : LeftmostSplit d b parts' rest') : parts = parts' ∧ rest = rest' := by
  induction parts generalizing b parts' with
  | nil =>
    obtain ⟨hsearch, hrest⟩ := h.search_nil
    cases parts' with
    | nil => exact ⟨rfl, hrest.trans h'.search_nil.2.symm⟩
    | cons part' parts' =>
      obtain ⟨hsearch', -⟩ := h'.search_cons hd
      rw [hsearch] at hsearch'
      cases hsearch'
  | cons part parts ih =>
    obtain ⟨hsearch, htake, hbehind⟩ := h.search_cons hd
    cases parts' with
    | nil =>
      rw [h'.search_nil.1] at hsearch
      cases hsearch
    | cons part' parts' =>
      obtain ⟨hsearch', htake', hbehind'⟩ := h'.search_cons hd
      have hlength : part'.length = part.length := Option.some.inj (hsearch'.symm.trans hsearch)
      rw [hlength] at htake' hbehind'
      obtain ⟨rfl, rfl⟩ := ih hbehind hbehind'
      rw [← htake, ← htake']
      exact ⟨rfl, rfl⟩

end LeftmostSearch
