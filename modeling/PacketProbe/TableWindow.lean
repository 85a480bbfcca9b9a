import PacketProbe.EventTable

/-!
# The table of a running viewer

Arriving events go into the table, or into a queue while the table is paused. At every moment at
which it is not paused, the table shows the last events received.
-/

namespace PacketProbe
open BoundedWindows

/-! ### The window -/

/-- What reaches the table: an event of the engine, a log file, the clear and the pause button. -/
inductive TableAction (ρ : Type) where
  | eventReceived (e : ρ)
  | openLogFile (events : List ρ)
  | clearAll
  | togglePause

def TableAction.pauses {ρ : Type} : TableAction ρ → Bool
  | togglePause => true
  | _ => false

/-- The table of the main window and its queue. -/
structure TableView (ρ : Type) where
  tableModel : PacketTableModel ρ := {}
  isPaused : Bool := false
  pendingEvents : List ρ := []

namespace TableView

variable {ρ : Type} [DecidableEq ρ] (event : ρ → ViewerEvent) (maxEvents : ℕ)

def onEventReceived (view : TableView ρ) (e : ρ) : TableView ρ :=
  if view.isPaused then { view with pendingEvents := view.pendingEvents ++ [e] }
  else { view with tableModel := view.tableModel.appendEvent event maxEvents e }

def clearAll (view : TableView ρ) : TableView ρ :=
  { view with tableModel := view.tableModel.clear, pendingEvents := [] }

/-- `open_log_file` with a file that can be read. -/
def openLogFile (view : TableView ρ) (events : List ρ) : TableView ρ :=
  let view := view.clearAll
  { view with tableModel := view.tableModel.setEvents event maxEvents events }

def togglePause (view : TableView ρ) : TableView ρ :=
  if view.isPaused then
    { isPaused := false
      tableModel :=
        view.pendingEvents.foldl (PacketTableModel.appendEvent event maxEvents) view.tableModel
      pendingEvents := [] }
  else { view with isPaused := true }

def perform (view : TableView ρ) : TableAction ρ → TableView ρ
  | .eventReceived e => view.onEventReceived event maxEvents e
  | .openLogFile events => view.openLogFile event maxEvents events
  | .clearAll => view.clearAll
  | .togglePause => view.togglePause event maxEvents

/-- The window after these actions. -/
def after (actions : List (TableAction ρ)) : TableView ρ :=
  actions.foldl (perform event maxEvents) {}

end TableView

/-! ### What has been received -/

/-- The events since the last clear: those of a log file, and those that arrived afterwards. -/
structure Received (ρ : Type) where
  loaded : List ρ := []
  arrived : List ρ := []

namespace Received

variable {ρ : Type}

def step (r : Received ρ) : TableAction ρ → Received ρ
  | .eventReceived e => { r with arrived := r.arrived ++ [e] }
  | .openLogFile events => { loaded := events }
  | .clearAll => {}
  | .togglePause => r

def after (actions : List (TableAction ρ)) : Received ρ := actions.foldl step {}

def events (r : Received ρ) : List ρ := r.loaded ++ r.arrived

theorem after_unpaused (actions : List (TableAction ρ)) :
    after (actions.filter fun action => !action.pauses) = after actions := by
  unfold after
  generalize ({} : Received ρ) = r
  induction actions generalizing r with
  | nil => rfl
  | cons action actions ih =>
    cases action with
    | togglePause => exact ih r
    | _ => exact ih _

end Received

/-! ### The table follows what is received -/

variable {ρ : Type} [DecidableEq ρ] {event : ρ → ViewerEvent} {maxEvents : ℕ}

/-- The table that has been cleared, loaded, and then shown these events. -/
def PacketTableModel.Shows (event : ρ → ViewerEvent) (maxEvents : ℕ) (model : PacketTableModel ρ)
    (loaded shown : List ρ) : Prop :=
  ∃ old : PacketTableModel ρ, old.parentChildCounts = (fun _ => 0) ∧
    model = { old.numbered event (loaded.rtake maxEvents ++ shown) with
      events := (loaded ++ shown).rtake maxEvents }

/-- The table has shown what has arrived, except for what is pending. -/
structure TableView.Follows (event : ρ → ViewerEvent) (maxEvents : ℕ) (view : TableView ρ)
    (r : Received ρ) : Prop where
  shows : ∃ shown, r.arrived = shown ++ view.pendingEvents ∧
    view.tableModel.Shows event maxEvents r.loaded shown
  unpaused : view.isPaused = false → view.pendingEvents = []

namespace PacketTableModel

variable {model : PacketTableModel ρ} {loaded shown : List ρ}

theorem Shows.foldl_appendEvent (hmax : 0 < maxEvents)
    (h : model.Shows event maxEvents loaded shown) (events : List ρ) :
    (events.foldl (appendEvent event maxEvents) model).Shows event maxEvents loaded
      (shown ++ events) := by
  obtain ⟨old, hcounts, rfl⟩ := h
  refine ⟨old, hcounts, ?_⟩
  rw [PacketTableModel.foldl_appendEvent, foldl_push hmax, numbered_withEvents, ← List.append_assoc,
    ← List.append_assoc]
  unfold numbered
  rw [List.foldl_append (l := loaded.rtake maxEvents ++ shown)]

theorem shows_setEvents (model : PacketTableModel ρ) (events : List ρ) :
    (model.setEvents event maxEvents events).Shows event maxEvents events [] := by
  refine ⟨{ model with parentChildCounts := fun _ => 0 }, rfl, ?_⟩
  rw [setEvents_eq, List.append_nil, List.append_nil]

theorem shows_clear (model : PacketTableModel ρ) : model.clear.Shows event maxEvents [] [] := by
  refine ⟨model.clear, rfl, ?_⟩
  rw [List.append_nil, List.append_nil, List.rtake_nil]
  rfl

/-- The rows are among the events that have been numbered. -/
theorem Shows.mem_numbered (hmax : 0 < maxEvents) (h : model.Shows event maxEvents loaded shown)
    {e : ρ} (he : e ∈ model.events) : e ∈ loaded.rtake maxEvents ++ shown := by
  obtain ⟨old, -, rfl⟩ := h
  change e ∈ (loaded ++ shown).rtake maxEvents at he
  rw [← rtake_append_rtake hmax] at he
  exact mem_of_mem_rtake he

/-- What was in the table before does not show. -/
theorem Shows.rows_eq {other : PacketTableModel ρ} (hmax : 0 < maxEvents)
    (h : model.Shows event maxEvents loaded shown) (h' : other.Shows event maxEvents loaded shown) :
    model.rows event = other.rows event := by
  have hevents : model.events = other.events := by
    obtain ⟨old, -, rfl⟩ := h
    obtain ⟨old', -, rfl⟩ := h'
    rfl
  unfold rows
  rw [← hevents, List.map_inj_left]
  intro e he
  obtain ⟨place, -, hlabel⟩ := @exists_label ρ _ event _ e (h.mem_numbered hmax he)
  obtain ⟨old, hcounts, rfl⟩ := h
  obtain ⟨old', hcounts', rfl⟩ := h'
  change (e, ((old.numbered event _).displaySeq e).getD _) =
    (e, ((old'.numbered event _).displaySeq e).getD _)
  rw [hlabel, hlabel, hcounts, hcounts']

theorem Shows.nodup_rows (hmax : 0 < maxEvents) (h : model.Shows event maxEvents loaded shown)
    (hseq : ((loaded ++ shown).map fun e => (event e).seq).Nodup) :
    ((model.rows event).map Prod.snd).Nodup := by
  have hsublist : (loaded.rtake maxEvents ++ shown).Sublist (loaded ++ shown) :=
    (List.drop_sublist _ loaded).append (List.Sublist.refl shown)
  have hmem : ∀ e ∈ model.events, e ∈ loaded.rtake maxEvents ++ shown :=
    fun e => h.mem_numbered hmax
  obtain ⟨old, -, rfl⟩ := h
  have hlabels := nodup_labels (hseq.sublist (hsublist.map _)) old
  have hevents : ((loaded ++ shown).rtake maxEvents).Nodup :=
    (List.Nodup.of_map _ hseq).sublist (List.drop_sublist _ _)
  unfold rows
  rw [List.map_map]
  refine List.Nodup.map_on ?_ hevents
  intro e he e' he' heq
  obtain ⟨place, -, hlabel⟩ := @exists_label ρ _ event _ e (hmem e he)
  obtain ⟨place', -, hlabel'⟩ := @exists_label ρ _ event _ e' (hmem e' he')
  apply List.inj_on_of_nodup_map hlabels (hmem e he) (hmem e' he')
  change ((old.numbered event _).displaySeq e).getD _ =
    ((old.numbered event _).displaySeq e').getD _ at heq
  rw [hlabel, hlabel'] at heq ⊢
  exact congrArg some heq

end PacketTableModel

namespace TableView

variable {view : TableView ρ} {r : Received ρ}

theorem Follows.perform (hmax : 0 < maxEvents) (h : view.Follows event maxEvents r)
    (action : TableAction ρ) :
    (view.perform event maxEvents action).Follows event maxEvents (r.step action) := by
  obtain ⟨shown, harrived, hshows⟩ := h.shows
  cases action with
  | eventReceived e =>
    change (view.onEventReceived event maxEvents e).Follows event maxEvents
      { r with arrived := r.arrived ++ [e] }
    unfold onEventReceived
    by_cases hpaused : view.isPaused = true
    · rw [if_pos hpaused]
      refine ⟨⟨shown, ?_, hshows⟩, fun hunpaused => ?_⟩
      · rw [harrived, List.append_assoc]
      · rw [hpaused] at hunpaused
        cases hunpaused
    · rw [if_neg hpaused]
      have hnone := h.unpaused (Bool.eq_false_iff.2 hpaused)
      refine ⟨⟨shown ++ [e], ?_, hshows.foldl_appendEvent hmax [e]⟩, fun _ => hnone⟩
      rw [harrived, hnone, List.append_nil, List.append_nil]
  | openLogFile events =>
    exact ⟨⟨[], rfl, PacketTableModel.shows_setEvents _ events⟩, fun _ => rfl⟩
  | clearAll =>
    exact ⟨⟨[], rfl, PacketTableModel.shows_clear _⟩, fun _ => rfl⟩
  | togglePause =>
    change (view.togglePause event maxEvents).Follows event maxEvents r
    unfold togglePause
    by_cases hpaused : view.isPaused = true
    · rw [if_pos hpaused]
      refine ⟨⟨shown ++ view.pendingEvents, ?_, hshows.foldl_appendEvent hmax view.pendingEvents⟩,
        fun _ => rfl⟩
      rw [harrived, List.append_nil]
    · rw [if_neg hpaused]
      exact ⟨⟨shown, harrived, hshows⟩, fun hunpaused => by cases hunpaused⟩

theorem follows_after (hmax : 0 < maxEvents) (actions : List (TableAction ρ)) :
    (after event maxEvents actions).Follows event maxEvents (Received.after actions) := by
  induction actions using List.reverseRecOn with
  | nil => exact ⟨⟨[], rfl, PacketTableModel.shows_clear {}⟩, fun _ => rfl⟩
  | append_singleton actions action ih =>
    have hlast := ih.perform hmax action
    rwa [after, Received.after, List.foldl_append, List.foldl_append]

/-- Only the button pauses. -/
theorem isPaused_after {actions : List (TableAction ρ)}
    (h : ∀ action ∈ actions, action.pauses = false) :
    (after event maxEvents actions).isPaused = false := by
  induction actions using List.reverseRecOn with
  | nil => rfl
  | append_singleton actions action ih =>
    have hlast := ih fun other hother => h other (List.mem_append_left _ hother)
    have haction := h action (List.mem_append_right _ (List.mem_singleton_self action))
    rw [after, List.foldl_append]
    change (TableView.perform event maxEvents (after event maxEvents actions) action).isPaused =
      false
    cases action with
    | eventReceived e =>
      change (onEventReceived event maxEvents _ e).isPaused = false
      unfold onEventReceived
      split <;> exact hlast
    | openLogFile events => exact hlast
    | clearAll => exact hlast
    | togglePause => cases haction

theorem Follows.shows_arrived (h : view.Follows event maxEvents r)
    (hunpaused : view.isPaused = false) :
    view.tableModel.Shows event maxEvents r.loaded r.arrived := by
  obtain ⟨shown, harrived, hshows⟩ := h.shows
  rw [h.unpaused hunpaused, List.append_nil] at harrived
  rwa [harrived]

end TableView

/-- Whenever the table is not paused, it shows the last events received, as if it had never been
paused; and events with different numbers have different labels. -/
theorem table_shows_last_received (hmax : 0 < maxEvents) (actions : List (TableAction ρ))
    (hunpaused : (TableView.after event maxEvents actions).isPaused = false) :
    let table := (TableView.after event maxEvents actions).tableModel
    table.events = (Received.after actions).events.rtake maxEvents ∧
    table.rows event = (TableView.after event maxEvents
      (actions.filter fun action => !action.pauses)).tableModel.rows event ∧
    (((Received.after actions).events.map fun e => (event e).seq).Nodup →
      ((table.rows event).map Prod.snd).Nodup) := by
  intro table
  have hshows := (TableView.follows_after hmax actions).shows_arrived hunpaused
  refine ⟨?_, ?_, hshows.nodup_rows hmax⟩
  · obtain ⟨old, -, hmodel⟩ := hshows
    exact congrArg PacketTableModel.events hmodel
  · have hnever : (TableView.after event maxEvents
        (actions.filter fun action => !action.pauses)).isPaused = false := by
      apply TableView.isPaused_after
      intro action haction
      have hkept := (List.mem_filter.1 haction).2
      rwa [Bool.not_eq_true'] at hkept
    have hother := (TableView.follows_after hmax _).shows_arrived hnever
    rw [Received.after_unpaused] at hother
    exact hshows.rows_eq hmax hother

/-- Events whose numbers follow from 1 on; the second is a child of the first. -/
def firstEvents (n : ℕ) : ViewerEvent :=
  { rawSeq := some (n + 1), rawParentSeqs := if n = 1 then some [1] else none }

/-- Three events, one of them while the table of two rows is paused. -/
theorem table_shows_last_two :
    (TableView.after firstEvents 2
      [.eventReceived 0, .togglePause, .eventReceived 1, .togglePause,
        .eventReceived 2]).tableModel.events =
      [1, 2] :=
  (@table_shows_last_received ℕ _ firstEvents 2 (by decide)
    [.eventReceived 0, .togglePause, .eventReceived 1, .togglePause, .eventReceived 2] rfl).1

end PacketProbe
