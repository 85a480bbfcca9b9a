import PacketProbe.EventTable

/-!
# Loading a log and watching it

`set_events` cuts a list down before it numbers it; `append_event` numbers every event and lets
the old ones go. The rows are the same, and the labels as long as no child of the same parent has
gone.
-/

namespace PacketProbe
namespace PacketTableModel
open BoundedWindows

variable {ρ : Type} [DecidableEq ρ] {event : ρ → ViewerEvent} {maxEvents : ℕ} {e : ρ}

/-- The table after `clear` and `append_event` of each event. -/
def watched (event : ρ → ViewerEvent) (maxEvents : ℕ) (model : PacketTableModel ρ)
    (events : List ρ) :
    PacketTableModel ρ :=
  events.foldl (appendEvent event maxEvents) model.clear

theorem events_setEvents (model : PacketTableModel ρ) (events : List ρ) :
    (model.setEvents event maxEvents events).events = events.rtake maxEvents := by
  rw [setEvents_eq]

theorem events_watched (hmax : 0 < maxEvents) (model : PacketTableModel ρ) (events : List ρ) :
    (model.watched event maxEvents events).events = events.rtake maxEvents := by
  rw [watched, foldl_appendEvent]
  have hpushed := foldl_push hmax [] events
  rwa [List.rtake_nil, List.nil_append] at hpushed

/-- A label counts the children among the kept events, or also those among the dropped ones. -/
theorem exists_labels (model : PacketTableModel ρ) {events : List ρ}
    (h : e ∈ events.rtake maxEvents) :
    ∃ place,
      (model.setEvents event maxEvents events).displaySeq e = some (eventLabel (event e) place) ∧
      (model.watched event maxEvents events).displaySeq e = some (eventLabel (event e)
        (children event (event e).parent (events.rdrop maxEvents) + place)) := by
  obtain ⟨place, -, hlabel⟩ := exists_label h
  have hsplit : events = events.rdrop maxEvents ++ events.rtake maxEvents :=
    (List.take_append_drop _ _).symm
  refine ⟨place, ?_, ?_⟩
  · rw [setEvents_eq]
    refine (hlabel _).trans ?_
    rw [Nat.zero_add]
  · have hcounted := hlabel (model.clear.numbered event (events.rdrop maxEvents))
    rw [watched, foldl_appendEvent]
    change (model.clear.numbered event events).displaySeq e = _
    conv_lhs => rw [hsplit]
    rw [numbered, List.foldl_append]
    refine hcounted.trans (congrArg some (eventLabel_inj.2 ?_))
    by_cases hzero : (event e).parent = 0
    · exact .inl ⟨hzero, hzero, rfl⟩
    · refine .inr ⟨hzero, rfl, ?_⟩
      rw [counts_numbered hzero, clear, Nat.zero_add]

/-- Loading and watching give the same table exactly if no kept event has a dropped sibling. -/
theorem loaded_as_watched_iff (hmax : 0 < maxEvents) (model : PacketTableModel ρ)
    (events : List ρ) :
    (model.setEvents event maxEvents events).rows event =
      (model.watched event maxEvents events).rows event ↔
      ∀ e ∈ events.rtake maxEvents, (event e).parent ≠ 0 →
        ∀ dropped ∈ events.rdrop maxEvents, (event dropped).parent ≠ (event e).parent := by
  unfold rows
  rw [events_setEvents, events_watched hmax, List.map_inj_left]
  apply forall₂_congr
  intro e he
  obtain ⟨place, hloaded, hwatched⟩ := exists_labels model he
  have hnone : children event (event e).parent (events.rdrop maxEvents) = 0 ↔
      ∀ dropped ∈ events.rdrop maxEvents, (event dropped).parent ≠ (event e).parent := by
    rw [children, List.countP_eq_zero]
    simp only [decide_eq_true_eq]
  rw [hloaded, hwatched, ← hnone, Prod.mk.injEq, and_iff_right rfl, Option.getD_some,
    Option.getD_some, eventLabel_inj]
  constructor
  · rintro (⟨hzero, -⟩ | ⟨-, -, hplace⟩) hne
    · exact absurd hzero hne
    · omega
  · intro h
    by_cases hzero : (event e).parent = 0
    · exact .inl ⟨hzero, hzero, rfl⟩
    · exact .inr ⟨hzero, rfl, by rw [h hzero, Nat.zero_add]⟩

/-- Events whose numbers follow from 1 on, all of them children of 5. -/
def childOfFive (n : ℕ) : ViewerEvent := { rawSeq := some (n + 1), rawParentSeq := some 5 }

/-- Of two children, the table keeps the second one: loaded it is `5.1`, watched it is `5.2`. -/
theorem loaded_differs_from_watched :
    (({} : PacketTableModel ℕ).setEvents childOfFive 1 [0, 1]).rows childOfFive ≠
      (({} : PacketTableModel ℕ).watched childOfFive 1 [0, 1]).rows childOfFive := by
  decide

/-- In a table with room for both children the labels agree. -/
theorem loaded_as_watched_two :
    (({} : PacketTableModel ℕ).setEvents childOfFive 2 [0, 1]).rows childOfFive =
      (({} : PacketTableModel ℕ).watched childOfFive 2 [0, 1]).rows childOfFive :=
  (loaded_as_watched_iff (by decide) {} [0, 1]).2 fun _ _ _ _ hdropped => nomatch hdropped

end PacketTableModel

end PacketProbe
