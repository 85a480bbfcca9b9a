import Mathlib.Data.List.Induction
import Mathlib.Data.List.Nodup

/-!
# Pairing in first-in first-out order

Requests wait in a queue, and a response takes the one that has waited longest. Over any
inputs this is the one pairing in which the requests are taken in their order, every pair goes
forward, and a response stays alone only where no earlier request is left.
-/

namespace FifoPairing

universe u

inductive Role where
  | request | response | other
  deriving DecidableEq

variable {α : Type u}

/-- An input with its place. -/
abbrev Occurrence (α : Type u) := α × ℕ

abbrev Pair (α : Type u) := Occurrence α × Occurrence α

def occurrences (role : α → Role) (wanted : Role) (inputs : List α) : List (Occurrence α) :=
  inputs.zipIdx.filter fun o => role o.1 = wanted

/-- The pairs are the requests in their order with later responses in their order, and a
response is left out exactly when all requests before it have been answered before. -/
structure IsPairing (role : α → Role) (inputs : List α) (pairs : List (Pair α)) : Prop where
  requests : pairs.map Prod.fst <+: occurrences role .request inputs
  responses : (pairs.map Prod.snd).Sublist (occurrences role .response inputs)
  later : ∀ p ∈ pairs, p.1.2 < p.2.2
  alone : ∀ response ∈ occurrences role .response inputs,
    response ∉ pairs.map Prod.snd ↔
      ∀ request ∈ occurrences role .request inputs, request.2 < response.2 →
        ∃ p ∈ pairs, p.1 = request ∧ p.2.2 < response.2

/-- The requests that wait, and the pairs so far. -/
structure Queue (α : Type u) where
  waiting : List (Occurrence α) := []
  pairs : List (Pair α) := []

namespace Queue

/-- The pair that an input completes. -/
def answer (role : α → Role) (q : Queue α) (o : Occurrence α) : Option (Pair α) :=
  match role o.1, q.waiting with
  | .response, first :: _ => some (first, o)
  | _, _ => none

def step (role : α → Role) (q : Queue α) (o : Occurrence α) : Queue α where
  waiting :=
    match role o.1 with
    | .request => q.waiting ++ [o]
    | .response => q.waiting.tail
    | .other => q.waiting
  pairs := q.pairs ++ (q.answer role o).toList

def run (role : α → Role) (inputs : List α) : Queue α := inputs.zipIdx.foldl (step role) {}

end Queue

variable {role : α → Role} {inputs : List α} {a : α} {o : Occurrence α} {q : Queue α}
  {wanted : Role}

theorem zipIdx_snoc (inputs : List α) (a : α) :
    (inputs ++ [a]).zipIdx = inputs.zipIdx ++ [(a, inputs.length)] := by
  rw [List.zipIdx_append, Nat.zero_add]
  rfl

theorem run_snoc (role : α → Role) (inputs : List α) (a : α) :
    Queue.run role (inputs ++ [a]) = (Queue.run role inputs).step role (a, inputs.length) := by
  rw [Queue.run, zipIdx_snoc, List.foldl_append]
  rfl

theorem occurrences_snoc_of_eq (h : role a = wanted) :
    occurrences role wanted (inputs ++ [a]) = occurrences role wanted inputs ++
      [(a, inputs.length)] := by
  have hlast :
      [(a, inputs.length)].filter (fun o => decide (role o.1 = wanted)) = [(a, inputs.length)] :=
    List.filter_cons_of_pos (decide_eq_true h)
  rw [occurrences, zipIdx_snoc, List.filter_append, hlast]
  rfl

theorem occurrences_snoc_of_ne (h : role a ≠ wanted) :
    occurrences role wanted (inputs ++ [a]) = occurrences role wanted inputs := by
  have hlast : [(a, inputs.length)].filter (fun o => decide (role o.1 = wanted)) = [] :=
    List.filter_cons_of_neg (fun heq => h (of_decide_eq_true heq))
  rw [occurrences, zipIdx_snoc, List.filter_append, hlast, List.append_nil]
  rfl

theorem lt_of_mem_occurrences (h : o ∈ occurrences role wanted inputs) : o.2 < inputs.length := by
  have hlt := List.snd_lt_add_of_mem_zipIdx (List.mem_filter.1 h).1
  omega

theorem nodup_occurrences : (occurrences role wanted inputs).Nodup := by
  apply List.Nodup.filter
  apply List.Nodup.of_map Prod.snd
  rw [List.zipIdx_map_snd]
  exact List.nodup_range'

/-- What holds of the queue behind the inputs: the requests are those of the pairs and those
that wait. -/
structure Holds (role : α → Role) (inputs : List α) (q : Queue α) : Prop where
  split : q.pairs.map Prod.fst ++ q.waiting = occurrences role .request inputs
  responses : (q.pairs.map Prod.snd).Sublist (occurrences role .response inputs)
  later : ∀ p ∈ q.pairs, p.1.2 < p.2.2
  alone : ∀ response ∈ occurrences role .response inputs,
    response ∉ q.pairs.map Prod.snd ↔
      ∀ request ∈ occurrences role .request inputs, request.2 < response.2 →
        ∃ p ∈ q.pairs, p.1 = request ∧ p.2.2 < response.2

namespace Holds

theorem isPairing (h : Holds role inputs q) : IsPairing role inputs q.pairs :=
  ⟨⟨q.waiting, h.split⟩, h.responses, h.later, h.alone⟩

theorem response_lt (h : Holds role inputs q) {p : Pair α} (hp : p ∈ q.pairs) :
    p.2.2 < inputs.length :=
  lt_of_mem_occurrences (h.responses.subset (List.mem_map_of_mem hp))

/-- The requests that wait are in no pair. -/
theorem not_mem_of_waiting (h : Holds role inputs q) {request : Occurrence α}
    (hmem : request ∈ q.waiting) :
    request ∉ q.pairs.map Prod.fst := by
  have hnodup : (q.pairs.map Prod.fst ++ q.waiting).Nodup := by
    rw [h.split]
    exact nodup_occurrences
  intro hpair
  exact (List.nodup_append.1 hnodup).2.2 _ hpair _ hmem rfl

theorem step_request (h : Holds role inputs q) (ha : role a = .request) :
    Holds role (inputs ++ [a]) (q.step role (a, inputs.length)) := by
  have hrole : role a ≠ .response := by
    rw [ha]
    exact Role.noConfusion
  have hstep : q.step role (a, inputs.length) =
      { q with waiting := q.waiting ++ [(a, inputs.length)] } := by
    simp only [Queue.step, Queue.answer, ha, Option.toList_none, List.append_nil]
  rw [hstep]
  refine ⟨?_, ?_, h.later, ?_⟩
  · rw [occurrences_snoc_of_eq ha, ← h.split, List.append_assoc]
  · rw [occurrences_snoc_of_ne hrole]
    exact h.responses
  · intro response hresponse
    rw [occurrences_snoc_of_ne hrole] at hresponse
    rw [h.alone response hresponse, occurrences_snoc_of_eq ha, List.forall_mem_append]
    -- The new request comes after the response.
    have hlt := lt_of_mem_occurrences hresponse
    refine ⟨fun hall => ⟨hall, ?_⟩, And.left⟩
    intro request hrequest hearlier
    rw [List.mem_singleton.1 hrequest] at hearlier
    omega

theorem step_other (h : Holds role inputs q) (ha : role a = .other) :
    Holds role (inputs ++ [a]) (q.step role (a, inputs.length)) := by
  have hrole : role a ≠ .response ∧ role a ≠ .request := by
    rw [ha]
    exact ⟨Role.noConfusion, Role.noConfusion⟩
  have hstep : q.step role (a, inputs.length) = q := by
    simp only [Queue.step, Queue.answer, ha, Option.toList_none, List.append_nil]
  rw [hstep]
  refine ⟨?_, ?_, h.later, ?_⟩
  · rw [occurrences_snoc_of_ne hrole.2]
    exact h.split
  · rw [occurrences_snoc_of_ne hrole.1]
    exact h.responses
  · rw [occurrences_snoc_of_ne hrole.1, occurrences_snoc_of_ne hrole.2]
    exact h.alone

/-- A response that finds nothing to take: every request is in a pair. -/
theorem step_alone (h : Holds role inputs q) (ha : role a = .response) (hwaiting : q.waiting = []) :
    Holds role (inputs ++ [a]) (q.step role (a, inputs.length)) := by
  have hrole : role a ≠ .request := by
    rw [ha]
    exact Role.noConfusion
  have hstep : q.step role (a, inputs.length) = q := by
    simp only [Queue.step, Queue.answer, ha, hwaiting, List.tail_nil, Option.toList_none,
      List.append_nil]
    rw [← hwaiting]
  have hsplit := h.split
  rw [hwaiting, List.append_nil] at hsplit
  rw [hstep]
  refine ⟨?_, ?_, h.later, ?_⟩
  · rw [occurrences_snoc_of_ne hrole]
    exact h.split
  · rw [occurrences_snoc_of_eq ha]
    exact h.responses.trans (List.sublist_append_left _ _)
  · intro response hresponse
    rw [occurrences_snoc_of_ne hrole]
    rw [occurrences_snoc_of_eq ha] at hresponse
    rcases List.mem_append.1 hresponse with hold | hnew
    · exact h.alone response hold
    · rw [List.mem_singleton] at hnew
      subst hnew
      refine iff_of_true ?_ ?_
      · intro hmem
        have hlt := lt_of_mem_occurrences (h.responses.subset hmem)
        omega
      · intro request hrequest _
        rw [← hsplit] at hrequest
        obtain ⟨p, hp, rfl⟩ := List.mem_map.1 hrequest
        exact ⟨p, hp, rfl, h.response_lt hp⟩

/-- A response that takes the first request. -/
theorem step_response (h : Holds role inputs q) (ha : role a = .response) {first : Occurrence α}
    {waiting : List (Occurrence α)} (hwaiting : q.waiting = first :: waiting) :
    Holds role (inputs ++ [a]) (q.step role (a, inputs.length)) := by
  have hrole : role a ≠ .request := by
    rw [ha]
    exact Role.noConfusion
  have hstep : q.step role (a, inputs.length) =
      ⟨waiting, q.pairs ++ [(first, (a, inputs.length))]⟩ := by
    simp only [Queue.step, Queue.answer, ha, hwaiting, List.tail_cons, Option.toList_some]
  have hfirst : first ∈ occurrences role .request inputs := by
    rw [← h.split, hwaiting]
    exact List.mem_append_right _ List.mem_cons_self
  have hfresh : first ∉ q.pairs.map Prod.fst := by
    apply h.not_mem_of_waiting
    rw [hwaiting]
    exact List.mem_cons_self
  rw [hstep]
  refine ⟨?_, ?_, ?_, ?_⟩
  · rw [occurrences_snoc_of_ne hrole, ← h.split, hwaiting, List.map_append, List.append_assoc]
    rfl
  · rw [occurrences_snoc_of_eq ha, List.map_append]
    exact h.responses.append (List.Sublist.refl _)
  · rw [List.forall_mem_append]
    exact ⟨h.later, List.forall_mem_singleton.2 (lt_of_mem_occurrences hfirst)⟩
  · intro response hresponse
    rw [occurrences_snoc_of_ne hrole]
    rw [occurrences_snoc_of_eq ha] at hresponse
    rcases List.mem_append.1 hresponse with hold | hnew
    · -- An older response is not the new one, and the new pair comes too late for it.
      have hlt := lt_of_mem_occurrences hold
      have hother : response ≠ (a, inputs.length) := by
        rintro rfl
        exact absurd hlt (Nat.lt_irrefl _)
      have hpairs : ∀ request : Occurrence α,
          (∃ p ∈ q.pairs ++ [(first, (a, inputs.length))], p.1 = request ∧ p.2.2 < response.2) ↔
            ∃ p ∈ q.pairs, p.1 = request ∧ p.2.2 < response.2 := by
        intro request
        constructor
        · rintro ⟨p, hp, hrequest, hearlier⟩
          rcases List.mem_append.1 hp with hp | hp
          · exact ⟨p, hp, hrequest, hearlier⟩
          · rw [List.mem_singleton.1 hp] at hearlier
            simp only at hearlier
            omega
        · rintro ⟨p, hp, hpair⟩
          exact ⟨p, List.mem_append_left _ hp, hpair⟩
      simp only [hpairs]
      rw [← h.alone response hold, List.map_append, List.mem_append, not_or]
      exact ⟨And.left, fun hmem => ⟨hmem, fun hnew => hother (List.mem_singleton.1 hnew)⟩⟩
    · rw [List.mem_singleton] at hnew
      subst hnew
      refine iff_of_false ?_ ?_
      · rw [List.map_append]
        exact not_not.2 (List.mem_append_right _ (List.mem_singleton_self _))
      · intro hall
        obtain ⟨p, hp, rfl, hearlier⟩ := hall first hfirst (lt_of_mem_occurrences hfirst)
        rcases List.mem_append.1 hp with hp | hp
        · exact hfresh (List.mem_map_of_mem hp)
        · rw [List.mem_singleton.1 hp] at hearlier
          exact absurd hearlier (Nat.lt_irrefl _)

theorem step (h : Holds role inputs q) (a : α) :
    Holds role (inputs ++ [a]) (q.step role (a, inputs.length)) := by
  cases ha : role a with
  | request => exact h.step_request ha
  | other => exact h.step_other ha
  | response =>
    cases hwaiting : q.waiting with
    | nil => exact h.step_alone ha hwaiting
    | cons first waiting => exact h.step_response ha hwaiting

end Holds

theorem holds_run (role : α → Role) (inputs : List α) :
    Holds role inputs (Queue.run role inputs) := by
  induction inputs using List.reverseRecOn with
  | nil => exact ⟨rfl, .slnil, List.forall_mem_nil _, List.forall_mem_nil _⟩
  | append_singleton inputs a ih =>
    rw [run_snoc]
    exact ih.step a

end FifoPairing
