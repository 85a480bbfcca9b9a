import PacketProbe.BoundedWindows
import PacketProbe.ByteStrings
import Mathlib.Data.List.Nodup
import Mathlib.Logic.Function.Basic

/-!
# The event table of the viewer

`PacketTableModel` shows the last events and gives each of them a label: its own sequence number,
or the number of its parent and how many children of it have been numbered.
-/

namespace PacketProbe
open BoundedWindows

/-! ### Events and labels -/

/-- The members of an event's `raw` that the table numbers it by. -/
structure ViewerEvent where
  rawSeq : Option ℤ := none
  rawParentSeq : Option ℤ := none
  rawParentSeqs : Option (List ℤ) := none

namespace ViewerEvent

def seq (e : ViewerEvent) : ℤ := e.rawSeq.getD 0

def parentSeq (e : ViewerEvent) : ℤ := e.rawParentSeq.getD 0

def parentSeqs (e : ViewerEvent) : List ℤ :=
  let val := e.rawParentSeqs.getD []
  if val = [] ∧ e.parentSeq ≠ 0 then [e.parentSeq] else val

/-- The parent that the event is numbered under; 0 for none. -/
def parent (e : ViewerEvent) : ℤ :=
  match e.parentSeqs with
  | p :: _ => p
  | [] => e.parentSeq

end ViewerEvent

/-- `f"{p}.{count}"`. -/
def childLabel (p : ℤ) (count : ℕ) : ByteString := signedDecimal p ++ ascii "." ++ decimal count

/-- The table, with the label that each event object has been given. -/
structure PacketTableModel (ρ : Type) where
  events : List ρ := []
  parentChildCounts : ℤ → ℕ := fun _ => 0
  displaySeq : ρ → Option ByteString := fun _ => none

namespace PacketTableModel

variable {ρ : Type} [DecidableEq ρ] (event : ρ → ViewerEvent) (maxEvents : ℕ)

/-- Counts an event and labels it. -/
def number (model : PacketTableModel ρ) (e : ρ) : PacketTableModel ρ :=
  let p := (event e).parent
  if p ≠ 0 then
    let count := model.parentChildCounts p + 1
    { model with
      parentChildCounts := Function.update model.parentChildCounts p count
      displaySeq := Function.update model.displaySeq e (some (childLabel p count)) }
  else
    { model with
      displaySeq := Function.update model.displaySeq e (some (signedDecimal (event e).seq)) }

def appendEvent (model : PacketTableModel ρ) (e : ρ) : PacketTableModel ρ :=
  let model :=
    if maxEvents ≤ model.events.length then { model with events := model.events.tail } else model
  let model := model.number event e
  { model with events := model.events ++ [e] }

def setEvents (model : PacketTableModel ρ) (events : List ρ) : PacketTableModel ρ :=
  let events := if maxEvents < events.length then events.rtake maxEvents else events
  let model := events.foldl (number event) { model with parentChildCounts := fun _ => 0 }
  { model with events }

def clear (model : PacketTableModel ρ) : PacketTableModel ρ :=
  { model with events := [], parentChildCounts := fun _ => 0 }

/-- The events of the rows, each with what its first column shows. -/
def rows (model : PacketTableModel ρ) : List (ρ × ByteString) :=
  model.events.map fun e => (e, (model.displaySeq e).getD (signedDecimal (event e).seq))

end PacketTableModel

/-! ### Labels -/

/-- The label of an event that is the child of this number, if it is one. -/
def eventLabel (e : ViewerEvent) (count : ℕ) : ByteString :=
  if e.parent ≠ 0 then childLabel e.parent count else signedDecimal e.seq

theorem stop_notMem_decimal (n : ℕ) : (46 : UInt8) ∉ decimal n := by
  intro h
  exact absurd (decimalDigit h) (by decide)

theorem stop_notMem_signedDecimal (i : ℤ) : (46 : UInt8) ∉ signedDecimal i := by
  cases i with
  | ofNat n => exact stop_notMem_decimal n
  | negSucc n =>
    rw [signedDecimal, List.mem_append, not_or]
    exact ⟨by decide, stop_notMem_decimal (n + 1)⟩

theorem signedDecimal_injective : Function.Injective signedDecimal := by
  have hsign : ∀ m n : ℕ, decimal m ≠ ascii "-" ++ decimal n := by
    intro m n h
    have hmem : (45 : UInt8) ∈ decimal m := by
      rw [h]
      exact List.mem_append_left _ (by decide)
    exact absurd (decimalDigit hmem) (by decide)
  intro i j h
  cases i with
  | ofNat m =>
    cases j with
    | ofNat n => exact congrArg Int.ofNat (decimal_injective h)
    | negSucc n => exact absurd h (hsign _ _)
  | negSucc m =>
    cases j with
    | ofNat n => exact absurd h.symm (hsign _ _)
    | negSucc n =>
      have hdecimal := decimal_injective (List.append_cancel_left h)
      rw [Nat.succ.inj hdecimal]

theorem childLabel_inj {p p' : ℤ} {count count' : ℕ} :
    childLabel p count = childLabel p' count' ↔ p = p' ∧ count = count' := by
  constructor
  · intro h
    unfold childLabel at h
    rw [List.append_assoc, List.append_assoc] at h
    obtain ⟨hp, -, hcount⟩ := (List.append_cons_inj_of_notMem
      (stop_notMem_signedDecimal p) (stop_notMem_decimal count)).1 h
    exact ⟨signedDecimal_injective hp, decimal_injective hcount⟩
  · rintro ⟨rfl, rfl⟩
    rfl

theorem childLabel_ne_signedDecimal (p i : ℤ) (count : ℕ) :
    childLabel p count ≠ signedDecimal i := by
  intro h
  apply stop_notMem_signedDecimal i
  rw [← h]
  exact List.mem_append_left _ (List.mem_append_right _ (by decide))

/-- Labels are equal only of children of the same number and place, or of the same number. -/
theorem eventLabel_inj {e e' : ViewerEvent} {count count' : ℕ} :
    eventLabel e count = eventLabel e' count' ↔
      (e.parent = 0 ∧ e'.parent = 0 ∧ e.seq = e'.seq) ∨
      (e.parent ≠ 0 ∧ e.parent = e'.parent ∧ count = count') := by
  unfold eventLabel
  by_cases h : e.parent = 0
  · rw [if_neg (not_not_intro h)]
    by_cases h' : e'.parent = 0
    · rw [if_neg (not_not_intro h'), signedDecimal_injective.eq_iff]
      simp only [h, h', true_and, ne_eq, not_true_eq_false, false_and, or_false]
    · rw [if_pos h']
      refine iff_of_false (childLabel_ne_signedDecimal _ _ _).symm ?_
      rintro (⟨-, hzero, -⟩ | ⟨hne, -⟩)
      · exact h' hzero
      · exact hne h
  · rw [if_pos h]
    by_cases h' : e'.parent = 0
    · rw [if_neg (not_not_intro h')]
      refine iff_of_false (childLabel_ne_signedDecimal _ _ _) ?_
      rintro (⟨hzero, -⟩ | ⟨-, heq, -⟩)
      · exact h hzero
      · exact h (heq.trans h')
    · rw [if_pos h', childLabel_inj]
      simp only [h, h', ne_eq, not_false_eq_true, false_and, true_and, false_or]

/-! ### Numbering -/

namespace PacketTableModel

variable {ρ : Type} [DecidableEq ρ] (event : ρ → ViewerEvent) (maxEvents : ℕ)

/-- The events are counted and labelled one after the other. -/
def numbered (model : PacketTableModel ρ) (events : List ρ) : PacketTableModel ρ :=
  events.foldl (number event) model

/-- How many of the events are children of this number. -/
def children (p : ℤ) (events : List ρ) : ℕ := events.countP fun e => (event e).parent = p

variable {event maxEvents} {model : PacketTableModel ρ} {events : List ρ} {e : ρ}

theorem number_withEvents (shown : List ρ) :
    ({ model with events := shown } : PacketTableModel ρ).number event e =
      { model.number event e with events := shown } := by
  unfold number
  simp only
  split <;> rfl

theorem number_events : (model.number event e).events = model.events := by
  unfold number
  simp only
  split <;> rfl

/-- The label of an event is made of its count. -/
theorem displaySeq_number_self :
    (model.number event e).displaySeq e =
      some (eventLabel (event e) (model.parentChildCounts (event e).parent + 1)) := by
  unfold number eventLabel
  simp only
  split
  · exact Function.update_self _ _ _
  · exact Function.update_self _ _ _

theorem displaySeq_number_of_ne {other : ρ} (h : other ≠ e) :
    (model.number event e).displaySeq other = model.displaySeq other := by
  unfold number
  simp only
  split
  · exact Function.update_of_ne h _ _
  · exact Function.update_of_ne h _ _

theorem counts_number {p : ℤ} (hp : p ≠ 0) :
    (model.number event e).parentChildCounts p =
      model.parentChildCounts p + if (event e).parent = p then 1 else 0 := by
  unfold number
  simp only
  by_cases hparent : (event e).parent = p
  · rw [if_pos (hparent ▸ hp), if_pos hparent, hparent]
    exact Function.update_self _ _ _
  · rw [if_neg hparent, Nat.add_zero]
    split
    · exact Function.update_of_ne (Ne.symm hparent) _ _
    · rfl

theorem numbered_withEvents (shown : List ρ) (model : PacketTableModel ρ) (events : List ρ) :
    ({ model with events := shown } : PacketTableModel ρ).numbered event events =
      { model.numbered event events with events := shown } := by
  induction events generalizing model with
  | nil => rfl
  | cons e events ih =>
    change (({ model with events := shown } : PacketTableModel ρ).number event e).numbered event
      events = _
    rw [number_withEvents, ih]
    rfl

theorem counts_numbered {p : ℤ} (hp : p ≠ 0) (model : PacketTableModel ρ) (events : List ρ) :
    (model.numbered event events).parentChildCounts p = model.parentChildCounts p +
      children event p events := by
  induction events generalizing model with
  | nil => rfl
  | cons e events ih =>
    change ((model.number event e).numbered event events).parentChildCounts p = _
    rw [ih, counts_number hp, children, children, List.countP_cons, Nat.add_assoc]
    simp only [decide_eq_true_eq]
    omega

theorem displaySeq_numbered_of_notMem (h : e ∉ events) (model : PacketTableModel ρ) :
    (model.numbered event events).displaySeq e = model.displaySeq e := by
  induction events generalizing model with
  | nil => rfl
  | cons first events ih =>
    rw [List.mem_cons, not_or] at h
    obtain ⟨hne, hrest⟩ := h
    exact (ih hrest (model.number event first)).trans (displaySeq_number_of_ne hne)

/-- Every event gets a label, by its place behind the children that were counted before. -/
theorem exists_label (h : e ∈ events) :
    ∃ place, place ≤ children event (event e).parent events ∧ ∀ model : PacketTableModel ρ,
      (model.numbered event events).displaySeq e =
        some (eventLabel (event e) (model.parentChildCounts (event e).parent + place)) := by
  induction events with
  | nil => cases h
  | cons first events ih =>
    by_cases hrest : e ∈ events
    · obtain ⟨place, hplace, hlabel⟩ := ih hrest
      by_cases hzero : (event e).parent = 0
      · -- The count is not part of the label.
        refine ⟨0, Nat.zero_le _, fun model => (hlabel (model.number event first)).trans ?_⟩
        exact congrArg some (eventLabel_inj.2 (.inl ⟨hzero, hzero, rfl⟩))
      · refine ⟨(if (event first).parent = (event e).parent then 1 else 0) + place, ?_,
          fun model => ?_⟩
        · rw [children, List.countP_cons]
          simp only [decide_eq_true_eq]
          change place ≤ events.countP _ at hplace
          omega
        · refine (hlabel (model.number event first)).trans ?_
          rw [counts_number hzero, Nat.add_assoc]
    · obtain rfl : e = first := (List.mem_cons.1 h).resolve_right hrest
      refine ⟨1, ?_, fun model => ?_⟩
      · rw [children, List.countP_cons, if_pos (decide_eq_true rfl)]
        omega
      · exact (displaySeq_numbered_of_notMem hrest (model.number event e)).trans
          displaySeq_number_self

/-- Events with different numbers get different labels. -/
theorem nodup_labels (hseq : (events.map fun e => (event e).seq).Nodup)
    (model : PacketTableModel ρ) :
    (events.map (model.numbered event events).displaySeq).Nodup := by
  induction events using List.reverseRecOn with
  | nil => exact List.nodup_nil
  | append_singleton events e ih =>
    rw [List.map_append, List.nodup_append] at hseq
    obtain ⟨hevents, -, hdisjoint⟩ := hseq
    have hne : ∀ other ∈ events, (event other).seq ≠ (event e).seq := fun other hother =>
      hdisjoint _ (List.mem_map_of_mem hother) _ (List.mem_singleton_self _)
    have hstep :
        model.numbered event (events ++ [e]) = (model.numbered event events).number event e :=
      List.foldl_append
    have hsame : ∀ other ∈ events, (model.numbered event (events ++ [e])).displaySeq other =
        (model.numbered event events).displaySeq other := by
      intro other hother
      rw [hstep]
      exact displaySeq_number_of_ne fun heq =>
        hne other hother (congrArg (fun e => (event e).seq) heq)
    rw [List.map_append, List.map_congr_left hsame, List.nodup_append]
    refine ⟨ih hevents, List.nodup_singleton _, ?_⟩
    intro label hlabel label' hlabel'
    obtain ⟨other, hother, rfl⟩ := List.mem_map.1 hlabel
    rw [List.map_singleton, List.mem_singleton, hstep, displaySeq_number_self] at hlabel'
    obtain ⟨place, hplace, hplaced⟩ := exists_label hother
    rw [hlabel', hplaced, Ne, Option.some.injEq, eventLabel_inj]
    rintro (⟨-, -, heq⟩ | ⟨hzero, hparent, hcount⟩)
    · exact hne other hother heq
    · -- The new child comes behind all that have been counted.
      rw [← hparent, counts_numbered hzero] at hcount
      omega

/-! ### Rows -/

theorem appendEvent_eq :
    model.appendEvent event maxEvents e =
      { model.number event e with events := push maxEvents model.events e } := by
  unfold appendEvent push
  split
  · simp only [number_withEvents]
  · simp only [number_events]

theorem foldl_appendEvent (model : PacketTableModel ρ) (events : List ρ) :
    events.foldl (appendEvent event maxEvents) model =
      { model.numbered event events with
        events := events.foldl (push maxEvents) model.events } := by
  induction events generalizing model with
  | nil => rfl
  | cons e events ih =>
    rw [List.foldl_cons, ih, appendEvent_eq, numbered_withEvents]
    rfl

theorem setEvents_eq (model : PacketTableModel ρ) (events : List ρ) :
    model.setEvents event maxEvents events =
      { ({ model with parentChildCounts := fun _ => 0 } : PacketTableModel ρ).numbered event
          (events.rtake maxEvents) with events := events.rtake maxEvents } := by
  unfold setEvents numbered
  simp only
  split
  · rfl
  · rw [rtake_of_length_le (Nat.le_of_not_lt ‹_›)]

end PacketTableModel

end PacketProbe
