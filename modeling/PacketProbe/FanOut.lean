import Mathlib.Data.List.Infix
import Mathlib.Data.List.Perm.Subperm
import Mathlib.Logic.Function.Basic

/-!
# One call, several outlets

Threads pass items to a call that writes each of them to several outlets, one after the
other. Other threads write in between. Every outlet gets the items of a thread in their order,
and it lacks at most the item in hand of what an outlet in front of it got.
-/

namespace FanOut

universe u v w

variable {ι : Type u} {α : Type v} {κ : Type w}

/-- The call that a thread is in: its item, and the outlets that are left. The last field
records the calls in the order in which they began. -/
structure State (ι : Type u) (α : Type v) (κ : Type w) where
  calls : ι → Option (α × List κ) := fun _ => none
  written : κ → List (ι × α) := fun _ => []
  handed : List (ι × α) := []

/-- A call with these outlets left; one with none has returned. -/
def callOf (a : α) : List κ → Option (α × List κ)
  | [] => none
  | left => some (a, left)

inductive Action (ι : Type u) (α : Type v) where
  | hand (thread : ι) (item : α)
  | write (thread : ι)

/-- What a thread has passed, of all that the threads have. -/
def ofThread [DecidableEq ι] (i : ι) (entries : List (ι × α)) : List α :=
  (entries.filter fun entry => entry.1 = i).map Prod.snd

namespace State

variable [DecidableEq ι] [DecidableEq κ] {outlets : List κ} {s t : State ι α κ} {act : Action ι α}
  {i j : ι} {a : α}
  {o o' : κ}

def hand (outlets : List κ) (i : ι) (a : α) (s : State ι α κ) : Option (State ι α κ) :=
  match s.calls i with
  | none =>
    some { s with
      calls := Function.update s.calls i (callOf a outlets)
      handed := s.handed ++ [(i, a)] }
  | some _ => none

def write (i : ι) (s : State ι α κ) : Option (State ι α κ) :=
  match s.calls i with
  | some (a, o :: left) =>
    some { s with
      calls := Function.update s.calls i (callOf a left)
      written := Function.update s.written o (s.written o ++ [(i, a)]) }
  | _ => none

def Step (outlets : List κ) (s : State ι α κ) (act : Action ι α) (t : State ι α κ) : Prop :=
  match act with
  | .hand i a => s.hand outlets i a = some t
  | .write i => s.write i = some t

/-- The item in hand, if this outlet is still to get it. -/
def inHand (s : State ι α κ) (i : ι) (o : κ) : List α :=
  match s.calls i with
  | some (a, left) => if o ∈ left then [a] else []
  | none => []

/-! ### What the entries of a thread are -/

omit [DecidableEq κ] in
theorem ofThread_append (i : ι) (entries more : List (ι × α)) :
    ofThread i (entries ++ more) = ofThread i entries ++ ofThread i more := by
  rw [ofThread, List.filter_append, List.map_append, ofThread, ofThread]

omit [DecidableEq κ] in
theorem ofThread_own (i : ι) (a : α) : ofThread i [(i, a)] = [a] := by
  simp [ofThread]

omit [DecidableEq κ] in
theorem ofThread_other (h : j ≠ i) (a : α) : ofThread j [(i, a)] = [] := by
  simp [ofThread, h.symm]

omit [DecidableEq κ] in
theorem count_ofThread [DecidableEq α] (i : ι) (a : α) (entries : List (ι × α)) :
    (ofThread i entries).count a = entries.count (i, a) := by
  induction entries with
  | nil => rfl
  | cons entry entries ih =>
    obtain ⟨j, b⟩ := entry
    by_cases hj : j = i
    · subst hj
      have hsplit : ofThread j ((j, b) :: entries) = b :: ofThread j entries := by simp [ofThread]
      rw [hsplit, List.count_cons, List.count_cons, ih]
      simp
    · have hsplit : ofThread i ((j, b) :: entries) = ofThread i entries := by simp [ofThread, hj]
      rw [hsplit, List.count_cons, ih]
      simp [hj]

/-! ### All that a step can do -/

/-- The effect of a step on the calls, the outlets and the record of calls. -/
inductive Effect (outlets : List κ) (s : State ι α κ) : State ι α κ → Prop
  | hand (i : ι) (a : α) (hidle : s.calls i = none) :
      Effect outlets s { s with
        calls := Function.update s.calls i (callOf a outlets)
        handed := s.handed ++ [(i, a)] }
  | write (i : ι) (a : α) (o : κ) (left : List κ) (hcall : s.calls i = some (a, o :: left)) :
      Effect outlets s { s with
        calls := Function.update s.calls i (callOf a left)
        written := Function.update s.written o (s.written o ++ [(i, a)]) }

theorem effect_of_step (h : Step outlets s act t) : Effect outlets s t := by
  cases act with
  | hand i a =>
    unfold Step hand at h
    simp only at h
    split at h
    · cases h
      exact .hand i a ‹_›
    · cases h
  | write i =>
    unfold Step write at h
    simp only at h
    split at h
    · cases h
      exact .write i _ _ _ ‹_›
    · cases h

/-! ### The invariant -/

/-- An outlet and the item in hand make up what a thread has passed, and what is left of a call is
the end of the list of outlets. -/
structure Balanced (outlets : List κ) (s : State ι α κ) : Prop where
  left : ∀ i a left, s.calls i = some (a, left) → left ≠ [] ∧ left <:+ outlets
  balance : ∀ o ∈ outlets, ∀ i, ofThread i (s.written o) ++ s.inHand i o = ofThread i s.handed

theorem balanced_start (outlets : List κ) : Balanced outlets ({} : State ι α κ) :=
  ⟨fun _ _ _ h => (by cases h), fun _ _ _ => rfl⟩

omit [DecidableEq ι] in
theorem inHand_of_calls (h : s.calls i = callOf a left) (o : κ) :
    s.inHand i o = if o ∈ left then [a] else [] := by
  unfold inHand
  rw [h]
  cases left <;> simp [callOf]

omit [DecidableEq ι] in
theorem inHand_congr (h : s.calls i = t.calls i) (o : κ) : s.inHand i o = t.inHand i o := by
  unfold inHand
  rw [h]

omit [DecidableEq ι] [DecidableEq κ] in
theorem callOf_eq_some {b : α} {left rest : List κ} (h : callOf a left = some (b, rest)) :
    b = a ∧ rest = left ∧ left ≠ [] := by
  cases left with
  | nil => cases h
  | cons o left =>
    cases h
    exact ⟨rfl, rfl, List.cons_ne_nil _ _⟩

omit [DecidableEq ι] [DecidableEq κ] in
theorem callOf_of_ne {left : List κ} (h : left ≠ []) : callOf a left = some (a, left) := by
  cases left with
  | nil => exact absurd rfl h
  | cons o left => rfl

theorem Balanced.step (h : Balanced outlets s) (hnodup : outlets.Nodup)
    (heffect : Effect outlets s t) :
    Balanced outlets t := by
  cases heffect with
  | hand i a hidle =>
    refine ⟨fun j b left hcall => ?_, fun o ho j => ?_⟩
    · simp only at hcall
      by_cases hj : j = i
      · subst hj
        rw [Function.update_self] at hcall
        obtain ⟨-, rfl, hne⟩ := callOf_eq_some hcall
        exact ⟨hne, List.suffix_refl _⟩
      · rw [Function.update_of_ne hj] at hcall
        exact h.left j b left hcall
    · have hbalance := h.balance o ho j
      simp only [ofThread_append]
      by_cases hj : j = i
      · subst hj
        have hnone : s.inHand j o = [] := by rw [inHand, hidle]
        rw [hnone, List.append_nil] at hbalance
        rw [inHand_of_calls (Function.update_self ..), if_pos ho, ofThread_own, hbalance]
      · rw [inHand_congr (t := s) (Function.update_of_ne hj ..), hbalance, ofThread_other hj,
          List.append_nil]
  | write i a o left hcall =>
    have hsuffix := (h.left i a (o :: left) hcall).2
    have hrest : left <:+ outlets := (List.suffix_cons o left).trans hsuffix
    have honce : o ∉ left := (List.nodup_cons.1 (hnodup.sublist hsuffix.sublist)).1
    refine ⟨fun j b rest hcall' => ?_, fun o' ho' j => ?_⟩
    · simp only at hcall'
      by_cases hj : j = i
      · subst hj
        rw [Function.update_self] at hcall'
        obtain ⟨-, rfl, hne⟩ := callOf_eq_some hcall'
        exact ⟨hne, hrest⟩
      · rw [Function.update_of_ne hj] at hcall'
        exact h.left j b rest hcall'
    · have hbalance := h.balance o' ho' j
      by_cases hj : j = i
      · subst hj
        rw [inHand_of_calls (Function.update_self ..)]
        have hheld : s.inHand j o' = if o' ∈ o :: left then [a] else [] := by rw [inHand, hcall]
        rw [hheld] at hbalance
        by_cases ho : o' = o
        · subst ho
          rw [if_pos List.mem_cons_self] at hbalance
          simp only [Function.update_self]
          rw [ofThread_append, ofThread_own, hbalance, if_neg honce, List.append_nil]
        · simp only [Function.update_of_ne ho]
          simpa only [List.mem_cons, ho, false_or] using hbalance
      · rw [inHand_congr (t := s) (Function.update_of_ne hj ..)]
        by_cases ho : o' = o
        · subst ho
          simp only [Function.update_self]
          rwa [ofThread_append, ofThread_other hj, List.append_nil]
        · simp only [Function.update_of_ne ho]
          exact hbalance

/-! ### Two outlets -/

/-- What an outlet lacks of one in front of it. -/
def Behind (o o' : κ) (outlets : List κ) : Prop :=
  ∃ front back, outlets = front ++ o :: back ∧ o' ∈ back

/-- The order of each thread determines what an outlet got, up to the order among the threads. -/
theorem perm_of_ofThread_eq {entries entries' : List (ι × α)}
    (h : ∀ i, ofThread i entries = ofThread i entries') : entries.Perm entries' := by
  classical
  rw [List.perm_iff_count]
  rintro ⟨i, a⟩
  rw [← count_ofThread, h i, count_ofThread]

/-- When no thread is in a call, all outlets have the same, each thread's in its order. -/
theorem Balanced.agree (h : Balanced outlets s) (hrest : ∀ i, s.calls i = none) (ho : o ∈ outlets)
    (ho' : o' ∈ outlets) :
    (∀ i, ofThread i (s.written o) = ofThread i (s.written o')) ∧
      (s.written o).Perm (s.written o') := by
  have hall : ∀ o ∈ outlets, ∀ i, ofThread i (s.written o) = ofThread i s.handed := by
    intro o ho i
    have hbalance := h.balance o ho i
    have hidle : s.inHand i o = [] := by rw [inHand, hrest i]
    rwa [hidle, List.append_nil] at hbalance
  have hsame : ∀ i, ofThread i (s.written o) = ofThread i (s.written o') := fun i =>
    (hall o ho i).trans (hall o' ho' i).symm
  exact ⟨hsame, perm_of_ofThread_eq hsame⟩

end State

end FanOut
