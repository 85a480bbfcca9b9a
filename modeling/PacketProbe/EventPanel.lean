import PacketProbe.EventLines
import PacketProbe.HexView
import PacketProbe.TableWindow

/-!
# The event panel of the main window

The table behind its filter, the counters above it, and the views of the selected event. Events,
log files and the user drive them in any order.
-/

namespace PacketProbe
open JsonText BoundedWindows

/-! ### Events -/

/-- What the panel needs of Python: `str.lower`, `str` of what is no string, and the text of the
exception of `bytes.fromhex`. -/
structure TextLibrary where
  lower : Text → Text
  str : Value → Text
  failure : Text → Text

/-- `PacketEvent` of the viewer. Its members are read as what the engine writes them as: a number, a
list of numbers or a string of another type counts as missing, where Python goes on with it and may
raise. -/
structure ViewerPacket where
  raw : List (Text × Value)

def textOfValue : Value → Option Text
  | .string text => some text
  | _ => none

def integersOf : Value → Option (List ℤ)
  | .array items => items.mapM integerOf
  | _ => none

namespace ViewerPacket

variable (packet : ViewerPacket)

/-- `self.raw.get(name, "")`. -/
def get (name : String) : Value := (packet.raw.lookup (codes name)).getD (.string [])

def payloadHex : Text := (textOfValue (packet.get "payload_hex")).getD []

/-- What the table numbers the event by. -/
def numbering : ViewerEvent where
  rawSeq := (packet.raw.lookup (codes "seq")).bind integerOf
  rawParentSeq := (packet.raw.lookup (codes "parent_seq")).bind integerOf
  rawParentSeqs := (packet.raw.lookup (codes "parent_seqs")).bind integersOf

end ViewerPacket

/-- `value == text`. -/
def equalsText (value : Value) (text : Text) : Bool := (textOfValue value).any (· == text)

/-- A value in an f-string. -/
def TextLibrary.format (py : TextLibrary) (value : Value) :
    Text := (textOfValue value).getD (py.str value)

/-! ### The filter -/

structure PacketFilterProxyModel where
  direction : Text := codes "all"
  eventType : Text := codes "all"
  text : Text := []

namespace PacketFilterProxyModel

variable (py : TextLibrary)

def setTextFilter (proxy : PacketFilterProxyModel) (text : Text) : PacketFilterProxyModel :=
  { proxy with text := py.lower (strip text) }

def filterAcceptsRow (proxy : PacketFilterProxyModel) (packet : ViewerPacket) : Bool :=
  if proxy.direction ≠ codes "all" ∧
    equalsText (packet.get "direction") proxy.direction = false then false
  else if proxy.eventType ≠ codes "all" ∧
    equalsText (packet.get "type") proxy.eventType = false then false
  else if proxy.text ≠ [] ∧
    ¬ proxy.text <:+: py.lower (py.format (packet.get "summary") ++ codes " " ++
      py.format (packet.get "payload_hex")) then false
  else true

end PacketFilterProxyModel

/-! ### The panel -/

/-- `f"{shown} / {total} events"`. -/
def filterCountText (shown total : ℕ) : Text :=
  numeral shown ++ codes " / " ++ numeral total ++ codes " events"

inductive PanelAction (ρ : Type) where
  | eventReceived (e : ρ)
  | errorOccurred
  /-- A log file is chosen; nothing for one that cannot be loaded. -/
  | logOpened (events : Option (List ρ))
  | clearAll
  | togglePause
  | filterChanged (direction eventType text : Text)
  /-- The row that the selection has been extended by, if there is one. -/
  | selectionChanged (row : Option ℕ)

structure EventPanel (ρ : Type) where
  view : TableView ρ := {}
  filterProxy : PacketFilterProxyModel := {}
  eventCount : ℕ := 0
  errorCount : ℕ := 0
  eventCountLabel : Text := codes "Events: 0"
  errorCountLabel : Text := codes "Errors: 0"
  filterCountLabel : Text := codes "0 / 0 events"
  hexView : Text := []
  textView : Text := []
  /-- The event whose `raw` the detail view shows. -/
  detailView : Option ρ := none

namespace EventPanel

variable {ρ : Type} [DecidableEq ρ] (py : TextLibrary) (packet : ρ → ViewerPacket) (maxEvents : ℕ)

/-- The rows behind the filter. -/
def rows (panel : EventPanel ρ) : List ρ :=
  panel.view.tableModel.events.filter fun e => panel.filterProxy.filterAcceptsRow py (packet e)

def updateFilterCount (panel : EventPanel ρ) : EventPanel ρ :=
  { panel with
    filterCountLabel :=
      filterCountText (panel.rows py packet).length panel.view.tableModel.events.length }

def bumpErrorCount (panel : EventPanel ρ) : EventPanel ρ :=
  { panel with
    errorCount := panel.errorCount + 1
    errorCountLabel := codes "Errors: " ++ numeral (panel.errorCount + 1) }

def isError (e : ρ) : Bool := equalsText ((packet e).get "type") (codes "error")

def onEventReceived (panel : EventPanel ρ) (e : ρ) : EventPanel ρ :=
  let panel := { panel with
    eventCount := panel.eventCount + 1
    eventCountLabel := codes "Events: " ++ numeral (panel.eventCount + 1) }
  let panel := if isError packet e then panel.bumpErrorCount else panel
  let panel :=
    { panel with view := panel.view.onEventReceived (fun e => (packet e).numbering) maxEvents e }
  panel.updateFilterCount py packet

def clearAll (panel : EventPanel ρ) : EventPanel ρ :=
  let panel := { panel with
    view := panel.view.clearAll
    hexView := []
    textView := []
    detailView := none
    eventCount := 0
    errorCount := 0
    eventCountLabel := codes "Events: 0"
    errorCountLabel := codes "Errors: 0" }
  panel.updateFilterCount py packet

/-- `open_log_file` with a file that has been chosen. -/
def openLogFile (panel : EventPanel ρ) : Option (List ρ) → EventPanel ρ
  | none => panel.clearAll py packet
  | some events =>
    let panel := panel.clearAll py packet
    let tableModel :=
      panel.view.tableModel.setEvents (fun e => (packet e).numbering) maxEvents events
    { panel with view := { panel.view with tableModel } }.updateFilterCount py packet

def togglePause (panel : EventPanel ρ) : EventPanel ρ :=
  { panel with view := panel.view.togglePause (fun e => (packet e).numbering) maxEvents }

def onFilterChanged (panel : EventPanel ρ) (direction eventType text : Text) : EventPanel ρ :=
  let filterProxy := { panel.filterProxy with direction, eventType }
  { panel with filterProxy := filterProxy.setTextFilter py text }.updateFilterCount py packet

def onSelectionChanged (panel : EventPanel ρ) : Option ℕ → EventPanel ρ
  | none => { panel with hexView := [], textView := [], detailView := none }
  | some row =>
    match (panel.rows py packet)[row]? with
    | none => panel
    | some e =>
      { panel with
        hexView := formatHexDump (packet e).payloadHex
        detailView := some e
        textView := PacketProbe.textView py.failure (packet e).payloadHex }

def perform (panel : EventPanel ρ) : PanelAction ρ → EventPanel ρ
  | .eventReceived e => panel.onEventReceived py packet maxEvents e
  | .errorOccurred => panel.bumpErrorCount
  | .logOpened events => panel.openLogFile py packet maxEvents events
  | .clearAll => panel.clearAll py packet
  | .togglePause => panel.togglePause packet maxEvents
  | .filterChanged direction eventType text =>
    panel.onFilterChanged py packet direction eventType text
  | .selectionChanged row => panel.onSelectionChanged py packet row

/-- The panel after these actions. -/
def after (actions : List (PanelAction ρ)) : EventPanel ρ :=
  actions.foldl (perform py packet maxEvents) {}

end EventPanel

/-! ### The table of the panel -/

variable {ρ : Type}

/-- What an action does to the table. -/
def PanelAction.tableAction : PanelAction ρ → Option (TableAction ρ)
  | eventReceived e => some (.eventReceived e)
  | logOpened (some events) => some (.openLogFile events)
  | logOpened none | clearAll => some .clearAll
  | togglePause => some .togglePause
  | _ => none

/-- The events that have been received, and the errors that have been reported beside them. -/
structure PanelLedger (ρ : Type) where
  received : Received ρ := {}
  errors : ℕ := 0

namespace PanelLedger

def step (ledger : PanelLedger ρ) (action : PanelAction ρ) : PanelLedger ρ where
  received := action.tableAction.elim ledger.received ledger.received.step
  errors :=
    match action with
    | .errorOccurred => ledger.errors + 1
    | .logOpened _ | .clearAll => 0
    | _ => ledger.errors

def after (actions : List (PanelAction ρ)) : PanelLedger ρ := actions.foldl step {}

end PanelLedger

/-! ### The payload of an event -/

theorem isHexChar_toHex {payload : Bytes} {c : ℕ} (h : c ∈ textOf (toHex payload false)) :
    isHexChar c = true := by
  have hall : ∀ n < 16, isHexChar (hexDigit n).toNat = true := by decide
  rw [textOf, (written_of_isPlain (isPlain_toHex payload)).1.decoded, Option.getD_some] at h
  obtain ⟨digit, hdigit, rfl⟩ := List.mem_map.1 h
  obtain ⟨pair, hpair, hmem⟩ := List.mem_flatten.1 hdigit
  obtain ⟨byte, -, rfl⟩ := List.mem_map.1 hpair
  have hlt := byte.toNat_lt
  simp only [List.mem_cons, List.not_mem_nil, or_false] at hmem
  rcases hmem with rfl | rfl
  · exact hall _ (by omega)
  · exact hall _ (Nat.mod_lt _ (by decide))

theorem payloadHex_of_event {shown : ViewerPacket} {event : PacketEvent}
    (h : shown.raw = eventMembers event) :
    shown.payloadHex = textOf (toHex event.payload false) := by
  obtain ⟨-, -, -, -, -, -, -, -, hpayload, -⟩ := lookup_common event
  rw [ViewerPacket.payloadHex, ViewerPacket.get, h, hpayload]
  rfl

/-- The views show the payload of an event of the engine. -/
theorem views_of_event (failure : Text → Text) {shown : ViewerPacket} {event : PacketEvent}
    (h : shown.raw = eventMembers event) :
    readDump (formatHexDump shown.payloadHex) = some event.payload ∧
      textView failure shown.payloadHex = event.payload.map textChar := by
  have hdigits : ∀ c ∈ shown.payloadHex, isHexChar c = true := by
    rw [payloadHex_of_event h]
    exact fun c => isHexChar_toHex
  have hpairs : hexPairs (bytesOf shown.payloadHex) = some event.payload := by
    rw [payloadHex_of_event h, bytesOf_plain (isPlain_toHex _), hexPairs_toHex]
  have hfilter : shown.payloadHex.filter isHexChar = shown.payloadHex :=
    List.filter_eq_self.2 hdigits
  by_cases hempty : shown.payloadHex = []
  · rw [hempty] at hpairs ⊢
    have hnone : event.payload = [] := (Option.some.inj hpairs).symm
    rw [hnone]
    exact ⟨by decide, rfl⟩
  · have hsome : event.payload ≠ [] := by
      intro hnone
      have hlength := length_of_hexPairs hpairs
      rw [hnone, bytesOf, List.length_map] at hlength
      exact hempty (List.length_eq_zero_iff.1 hlength)
    constructor
    · rw [readDump_formatHexDump_iff hsome, hfilter]
      exact ⟨fun c hc => .inl (hdigits c hc), hpairs⟩
    · have hdecoded : fromHex (withoutGaps shown.payloadHex) = some event.payload := by
        rw [fromHex_withoutGaps_iff, hfilter]
        exact ⟨fun c hc => .inl (hdigits c hc), hpairs⟩
      rw [textView, if_neg hempty, hdecoded]
      rfl

/-! ### Every run -/

section Runs

variable {py : TextLibrary} {packet : ρ → ViewerPacket} {maxEvents : ℕ} {panel : EventPanel ρ}
  {ledger : PanelLedger ρ}

namespace EventPanel

/-- The views show nothing, or an event that has been received. -/
def Displays (py : TextLibrary) (packet : ρ → ViewerPacket) (panel : EventPanel ρ)
    (received : Received ρ) : Prop :=
  (panel.detailView = none ∧ panel.hexView = [] ∧ panel.textView = []) ∨
    ∃ e ∈ received.events, panel.detailView = some e ∧
      panel.hexView = formatHexDump (packet e).payloadHex ∧
      panel.textView = PacketProbe.textView py.failure (packet e).payloadHex

theorem Displays.mono {received received' : Received ρ} (h : panel.Displays py packet received)
    (hsubset : ∀ e ∈ received.events, e ∈ received'.events) : panel.Displays py packet received' :=
  h.imp_right fun ⟨e, he, hshown⟩ => ⟨e, hsubset e he, hshown⟩

/-- What is selected is a row of the table. -/
theorem displays_onSelectionChanged {received : Received ρ} (h : panel.Displays py packet received)
    (hrows : ∀ e ∈ panel.view.tableModel.events, e ∈ received.events) (row : Option ℕ) :
    (panel.onSelectionChanged py packet row).Displays py packet received := by
  cases row with
  | none => exact .inl ⟨rfl, rfl, rfl⟩
  | some row =>
    unfold onSelectionChanged
    dsimp only
    split
    · exact h
    · rename_i e hrow
      have hmem := (List.mem_filter.1 (List.mem_of_getElem? hrow)).1
      exact .inr ⟨e, hrows e hmem, rfl, rfl, rfl⟩

theorem onSelectionChanged_counts (panel : EventPanel ρ) (row : Option ℕ) :
    (panel.onSelectionChanged py packet row).eventCount = panel.eventCount ∧
    (panel.onSelectionChanged py packet row).errorCount = panel.errorCount ∧
    (panel.onSelectionChanged py packet row).eventCountLabel = panel.eventCountLabel ∧
    (panel.onSelectionChanged py packet row).errorCountLabel = panel.errorCountLabel := by
  cases row with
  | none => exact ⟨rfl, rfl, rfl, rfl⟩
  | some row =>
    unfold onSelectionChanged
    dsimp only
    split <;> exact ⟨rfl, rfl, rfl, rfl⟩

theorem label_zero (name : String) : codes name ++ codes "0" = codes name ++ numeral 0 :=
  congrArg (codes name ++ ·) (by decide)

variable [DecidableEq ρ]

structure Matches (py : TextLibrary) (packet : ρ → ViewerPacket) (maxEvents : ℕ)
    (panel : EventPanel ρ) (ledger : PanelLedger ρ) : Prop where
  table : panel.view.Follows (fun e => (packet e).numbering) maxEvents ledger.received
  events : panel.eventCount = ledger.received.arrived.length
  errors : panel.errorCount = ledger.errors + ledger.received.arrived.countP (isError packet)
  eventLabel : panel.eventCountLabel = codes "Events: " ++ numeral panel.eventCount
  errorLabel : panel.errorCountLabel = codes "Errors: " ++ numeral panel.errorCount
  views : panel.Displays py packet ledger.received

theorem view_perform (panel : EventPanel ρ) (action : PanelAction ρ) :
    (panel.perform py packet maxEvents action).view =
      action.tableAction.elim panel.view
        (panel.view.perform (fun e => (packet e).numbering) maxEvents) := by
  cases action with
  | eventReceived e =>
    change (panel.onEventReceived py packet maxEvents e).view = _
    unfold onEventReceived
    dsimp only
    split <;> rfl
  | logOpened events => cases events <;> rfl
  | selectionChanged row =>
    cases row with
    | none => rfl
    | some row =>
      change (panel.onSelectionChanged py packet (some row)).view = panel.view
      unfold onSelectionChanged
      dsimp only
      split <;> rfl
  | _ => rfl

theorem mem_events_of_follows {numbering : ρ → ViewerEvent} {view : TableView ρ}
    {received : Received ρ}
    (h : view.Follows numbering maxEvents received) {e : ρ} (he : e ∈ view.tableModel.events) :
    e ∈ received.events := by
  obtain ⟨shown, harrived, old, -, hmodel⟩ := h.shows
  rw [hmodel] at he
  have hshown := mem_of_mem_rtake he
  unfold Received.events
  rw [harrived, ← List.append_assoc]
  exact List.mem_append_left _ hshown

/-- An event is counted once, and once more if it is an error. -/
theorem onEventReceived_counts (panel : EventPanel ρ) (e : ρ) :
    (panel.onEventReceived py packet maxEvents e).eventCount = panel.eventCount + 1 ∧
    (panel.onEventReceived py packet maxEvents e).errorCount =
      panel.errorCount + (if isError packet e = true then 1 else 0) ∧
    (panel.onEventReceived py packet maxEvents e).eventCountLabel =
      codes "Events: " ++ numeral (panel.eventCount + 1) ∧
    (panel.onEventReceived py packet maxEvents e).errorCountLabel =
      (if isError packet e = true then codes "Errors: " ++
        numeral (panel.errorCount + 1) else panel.errorCountLabel) ∧
    (panel.onEventReceived py packet maxEvents e).hexView = panel.hexView ∧
    (panel.onEventReceived py packet maxEvents e).textView = panel.textView ∧
    (panel.onEventReceived py packet maxEvents e).detailView = panel.detailView := by
  unfold onEventReceived
  dsimp only
  split <;> exact ⟨rfl, rfl, rfl, rfl, rfl, rfl, rfl⟩

theorem Matches.perform (hmax : 0 < maxEvents) (h : panel.Matches py packet maxEvents ledger)
    (action : PanelAction ρ) :
    (panel.perform py packet maxEvents action).Matches py packet maxEvents
      (ledger.step action) := by
  have htable :
    (panel.perform py packet maxEvents action).view.Follows (fun e => (packet e).numbering)
      maxEvents
      (ledger.step action).received := by
    rw [view_perform]
    unfold PanelLedger.step
    cases haction : action.tableAction with
    | none => exact h.table
    | some tableAction => exact h.table.perform hmax tableAction
  have hrows : ∀ e ∈ panel.view.tableModel.events, e ∈ ledger.received.events := fun e he =>
    mem_events_of_follows h.table he
  obtain ⟨-, hevents, herrors, heventLabel, herrorLabel, hviews⟩ := h
  cases action with
  | eventReceived e =>
    obtain ⟨heventCount, herrorCount, heventText, herrorText, hhex, htext, hdetail⟩ :=
      @onEventReceived_counts ρ py packet maxEvents _ panel e
    refine ⟨htable, ?_, ?_, ?_, ?_, ?_⟩
    · refine heventCount.trans ?_
      change _ = (ledger.received.arrived ++ [e]).length
      rw [hevents, List.length_append, List.length_singleton]
    · refine herrorCount.trans ?_
      change _ = ledger.errors + (ledger.received.arrived ++ [e]).countP (isError packet)
      rw [herrors, List.countP_append, List.countP_singleton, Nat.add_assoc]
    · exact heventText.trans (congrArg _ (congrArg _ heventCount.symm))
    · refine herrorText.trans ?_
      change _ = codes "Errors: " ++
        numeral (panel.onEventReceived py packet maxEvents e).errorCount
      rw [herrorCount]
      split
      · rfl
      · exact herrorLabel
    · have hdisplays :
          (panel.onEventReceived py packet maxEvents e).Displays py packet ledger.received := by
        unfold Displays
        rw [hhex, htext, hdetail]
        exact hviews
      refine hdisplays.mono fun other hother => ?_
      change other ∈ ledger.received.loaded ++ (ledger.received.arrived ++ [e])
      rw [← List.append_assoc]
      exact List.mem_append_left _ hother
  | errorOccurred =>
    refine ⟨htable, hevents, ?_, heventLabel, rfl, hviews⟩
    change panel.errorCount + 1 = ledger.errors + 1 + _
    rw [herrors, Nat.add_right_comm]
    rfl
  | logOpened events =>
    cases events with
    | none =>
      exact ⟨htable, rfl, rfl, label_zero "Events: ", label_zero "Errors: ", .inl ⟨rfl, rfl, rfl⟩⟩
    | some events =>
      exact ⟨htable, rfl, rfl, label_zero "Events: ", label_zero "Errors: ", .inl ⟨rfl, rfl, rfl⟩⟩
  | clearAll =>
    exact ⟨htable, rfl, rfl, label_zero "Events: ", label_zero "Errors: ", .inl ⟨rfl, rfl, rfl⟩⟩
  | togglePause => exact ⟨htable, hevents, herrors, heventLabel, herrorLabel, hviews⟩
  | filterChanged direction eventType text =>
    exact ⟨htable, hevents, herrors, heventLabel, herrorLabel, hviews⟩
  | selectionChanged row =>
    obtain ⟨heventCount, herrorCount, heventText, herrorText⟩ :=
      @onSelectionChanged_counts ρ py packet panel row
    refine ⟨htable, heventCount.trans hevents, herrorCount.trans herrors, ?_, ?_,
      displays_onSelectionChanged hviews hrows row⟩
    · exact (heventText.trans heventLabel).trans (congrArg _ (congrArg _ heventCount.symm))
    · exact (herrorText.trans herrorLabel).trans (congrArg _ (congrArg _ herrorCount.symm))

theorem matches_after (hmax : 0 < maxEvents) (actions : List (PanelAction ρ)) :
    (after py packet maxEvents actions).Matches py packet maxEvents
      (PanelLedger.after actions) := by
  induction actions using List.reverseRecOn with
  | nil =>
    exact ⟨⟨⟨[], rfl, PacketTableModel.shows_clear {}⟩, fun _ => rfl⟩, rfl, rfl,
      label_zero "Events: ", label_zero "Errors: ", .inl ⟨rfl, rfl, rfl⟩⟩
  | append_singleton actions action ih =>
    have hlast := ih.perform hmax action
    rwa [after, PanelLedger.after, List.foldl_append, List.foldl_append]

/-! ### The count -/

/-- The count of the rows is that of the table. -/
def CountCurrent (py : TextLibrary) (packet : ρ → ViewerPacket) (panel : EventPanel ρ) : Prop :=
  panel.filterCountLabel =
    filterCountText (panel.rows py packet).length panel.view.tableModel.events.length

/-- The actions behind which the count is written again. -/
def updatesCount : PanelAction ρ → Bool
  | .eventReceived _ | .logOpened _ | .clearAll | .filterChanged _ _ _ => true
  | _ => false

omit [DecidableEq ρ] in
theorem countCurrent_updateFilterCount (panel : EventPanel ρ) :
    (panel.updateFilterCount py packet).CountCurrent py packet := rfl

theorem countCurrent_of_updatesCount (panel : EventPanel ρ) {action : PanelAction ρ}
    (h : updatesCount action = true) :
    (panel.perform py packet maxEvents action).CountCurrent py packet := by
  cases action with
  | eventReceived e => exact countCurrent_updateFilterCount _
  | logOpened events =>
    cases events with
    | none => exact countCurrent_updateFilterCount _
    | some events => exact countCurrent_updateFilterCount _
  | clearAll => exact countCurrent_updateFilterCount _
  | filterChanged direction eventType text => exact countCurrent_updateFilterCount _
  | _ => cases h

/-- A resume with events in the queue. -/
def Flushes (panel : EventPanel ρ) (action : PanelAction ρ) : Prop :=
  action = .togglePause ∧ panel.view.isPaused = true ∧ panel.view.pendingEvents ≠ []

/-- Any other action that does not write the count leaves what it counts. -/
theorem unchanged_of_not_flushes {action : PanelAction ρ} (hupdates : updatesCount action = false)
    (hflushes : ¬ panel.Flushes action) :
    (panel.perform py packet maxEvents action).filterCountLabel = panel.filterCountLabel ∧
    (panel.perform py packet maxEvents action).view.tableModel = panel.view.tableModel ∧
    (panel.perform py packet maxEvents action).view.pendingEvents = panel.view.pendingEvents ∧
    (panel.perform py packet maxEvents action).filterProxy = panel.filterProxy := by
  cases action with
  | errorOccurred => exact ⟨rfl, rfl, rfl, rfl⟩
  | togglePause =>
    change (panel.togglePause packet maxEvents).filterCountLabel = _ ∧
      (panel.view.togglePause _ maxEvents).tableModel =
      _ ∧ (panel.view.togglePause _ maxEvents).pendingEvents = _ ∧
        (panel.togglePause packet maxEvents).filterProxy = _
    unfold TableView.togglePause
    by_cases hpaused : panel.view.isPaused = true
    · have hpending : panel.view.pendingEvents = [] := by
        by_contra hpending
        exact hflushes ⟨rfl, hpaused, hpending⟩
      rw [if_pos hpaused, hpending]
      exact ⟨rfl, rfl, rfl, rfl⟩
    · rw [if_neg hpaused]
      exact ⟨rfl, rfl, rfl, rfl⟩
  | selectionChanged row =>
    cases row with
    | none => exact ⟨rfl, rfl, rfl, rfl⟩
    | some row =>
      change (panel.onSelectionChanged py packet (some row)).filterCountLabel = _ ∧
        (panel.onSelectionChanged py packet (some row)).view.tableModel = _ ∧
        (panel.onSelectionChanged py packet (some row)).view.pendingEvents = _ ∧
        (panel.onSelectionChanged py packet (some row)).filterProxy = _
      unfold onSelectionChanged
      dsimp only
      split <;> exact ⟨rfl, rfl, rfl, rfl⟩
  | _ => cases hupdates

theorem CountCurrent.perform (h : panel.CountCurrent py packet) {action : PanelAction ρ}
    (hupdates : updatesCount action = false) (hflushes : ¬ panel.Flushes action) :
    (panel.perform py packet maxEvents action).CountCurrent py packet := by
  obtain ⟨hlabel, htable, -, hproxy⟩ :=
    @unchanged_of_not_flushes ρ py packet maxEvents panel _ action hupdates hflushes
  unfold CountCurrent rows at h ⊢
  rw [hlabel, htable, hproxy]
  exact h

/-- While events are queued the count is current: each of them has written it. -/
theorem countCurrent_of_pending (actions : List (PanelAction ρ))
    (h : (after py packet maxEvents actions).view.pendingEvents ≠ []) :
    (after py packet maxEvents actions).CountCurrent py packet := by
  induction actions using List.reverseRecOn with
  | nil => exact absurd rfl h
  | append_singleton actions action ih =>
    rw [after, List.foldl_append] at h ⊢
    change ((after py packet maxEvents actions).perform py packet maxEvents
      action).view.pendingEvents ≠ [] at h
    change ((after py packet maxEvents actions).perform py packet maxEvents action).CountCurrent py
      packet
    by_cases hupdates : updatesCount action = true
    · exact countCurrent_of_updatesCount _ hupdates
    · rw [Bool.not_eq_true] at hupdates
      by_cases hflushes : (after py packet maxEvents actions).Flushes action
      · obtain ⟨rfl, hpaused, -⟩ := hflushes
        refine absurd ?_ h
        change ((after py packet maxEvents actions).view.togglePause _ maxEvents).pendingEvents = []
        unfold TableView.togglePause
        rw [if_pos hpaused]
      · have hsame := @unchanged_of_not_flushes ρ py packet maxEvents _ _ action hupdates hflushes
        rw [hsame.2.2.1] at h
        exact (ih h).perform hupdates hflushes

/-- The counters count what has arrived since the last clear or log file, queued or not, and a table
that is not paused shows what the filter accepts of the last events received. -/
theorem panel_shows (hmax : 0 < maxEvents) (actions : List (PanelAction ρ)) :
    let panel := after py packet maxEvents actions
    let ledger := PanelLedger.after actions
    panel.eventCountLabel = codes "Events: " ++ numeral ledger.received.arrived.length ∧
    panel.errorCountLabel =
      codes "Errors: " ++
        numeral (ledger.errors + ledger.received.arrived.countP (isError packet)) ∧
    (panel.view.isPaused = false → panel.rows py packet =
      (ledger.received.events.rtake maxEvents).filter fun e =>
        panel.filterProxy.filterAcceptsRow py (packet e)) := by
  intro panel ledger
  have hmatches := @matches_after ρ py packet maxEvents _ hmax actions
  refine ⟨?_, ?_, fun hunpaused => ?_⟩
  · rw [hmatches.eventLabel, hmatches.events]
  · rw [hmatches.errorLabel, hmatches.errors]
  · obtain ⟨old, -, hmodel⟩ := hmatches.table.shows_arrived hunpaused
    exact congrArg (List.filter _) (congrArg PacketTableModel.events hmodel)

/-- Python's functions on ASCII. -/
def asciiTexts : TextLibrary where
  lower := List.map lowerCode
  str := fun _ => []
  failure := fun _ => []

def typedPackets (n : ℕ) : ViewerPacket where
  raw := [(codes "type", .string (codes (if n = 1 then "error" else "frame")))]

def resumedActions : List (PanelAction ℕ) :=
  [.eventReceived 0, .errorOccurred, .filterChanged (codes "all") (codes "error") [], .togglePause,
    .eventReceived 1, .togglePause]

/-- A frame and an error, which arrives while the table is paused. -/
theorem panel_shows_resumed :
    (after asciiTexts typedPackets 2 resumedActions).eventCountLabel = codes "Events: 2" ∧
    (after asciiTexts typedPackets 2 resumedActions).errorCountLabel = codes "Errors: 2" ∧
    (after asciiTexts typedPackets 2 resumedActions).rows asciiTexts typedPackets = [1] := by
  obtain ⟨hevents, herrors, hrows⟩ :=
    @panel_shows ℕ asciiTexts typedPackets 2 _ (by decide) resumedActions
  exact ⟨hevents.trans (by decide), herrors.trans (by decide), (hrows rfl).trans (by decide)⟩

/-- Behind the earlier actions the table was resumed with events in the queue, and nothing has
written the count since. -/
def ResumedBehind (py : TextLibrary) (packet : ρ → ViewerPacket) (maxEvents : ℕ)
    (earlier actions : List (PanelAction ρ)) : Prop :=
  (after py packet maxEvents earlier).Flushes .togglePause ∧
    ∃ later, actions = earlier ++ .togglePause :: later ∧
      ∀ action ∈ later, updatesCount action = false

theorem label_of_not_updatesCount (panel : EventPanel ρ) {action : PanelAction ρ}
    (h : updatesCount action = false) :
    (panel.perform py packet maxEvents action).filterCountLabel = panel.filterCountLabel := by
  by_cases hflushes : panel.Flushes action
  · obtain ⟨rfl, -, -⟩ := hflushes
    rfl
  · exact (unchanged_of_not_flushes h hflushes).1

theorem label_of_resumedBehind {earlier actions : List (PanelAction ρ)}
    (h : ResumedBehind py packet maxEvents earlier actions) :
    (after py packet maxEvents actions).filterCountLabel =
      (after py packet maxEvents earlier).filterCountLabel := by
  obtain ⟨-, later, rfl, hlater⟩ := h
  induction later using List.reverseRecOn with
  | nil =>
    rw [after, List.foldl_append]
    rfl
  | append_singleton later action ih =>
    obtain ⟨hrest, haction⟩ := List.forall_mem_append.1 hlater
    rw [← List.cons_append, ← List.append_assoc, after, List.foldl_append]
    exact (label_of_not_updatesCount _ (haction action List.mem_cons_self)).trans (ih hrest)

/-- The count is current, or the table was resumed behind some of the actions. -/
theorem countCurrent_or_resumedBehind (actions : List (PanelAction ρ)) :
    (after py packet maxEvents actions).CountCurrent py packet ∨
      ∃ earlier, ResumedBehind py packet maxEvents earlier actions := by
  induction actions using List.reverseRecOn with
  | nil =>
    have hlabel : codes "0 / 0 events" = filterCountText 0 0 := by decide
    exact .inl hlabel
  | append_singleton actions action ih =>
    have hlast : after py packet maxEvents (actions ++ [action]) =
        (after py packet maxEvents actions).perform py packet maxEvents action := by
      rw [after, List.foldl_append]
      rfl
    rw [hlast]
    by_cases hupdates : updatesCount action = true
    · exact .inl (countCurrent_of_updatesCount _ hupdates)
    rw [Bool.not_eq_true] at hupdates
    by_cases hflushes : (after py packet maxEvents actions).Flushes action
    · obtain ⟨rfl, hpaused, hpending⟩ := hflushes
      exact .inr ⟨actions, ⟨rfl, hpaused, hpending⟩, [], rfl,
        fun _ hnone => absurd hnone List.not_mem_nil⟩
    · rcases ih with hcurrent | ⟨earlier, hflushed, later, hactions, hlater⟩
      · exact .inl (hcurrent.perform hupdates hflushes)
      · refine .inr ⟨earlier, hflushed, later ++ [action], ?_, ?_⟩
        · rw [hactions, List.append_assoc, List.cons_append]
        · exact List.forall_mem_append.2 ⟨hlater, List.forall_mem_singleton.2 hupdates⟩

/-- The count is that of the rows and the table, unless the table was resumed with events in the
queue and nothing has written the count since; then it is the count of before. -/
theorem count_label (actions : List (PanelAction ρ)) :
    ((∀ earlier, ¬ ResumedBehind py packet maxEvents earlier actions) →
      (after py packet maxEvents actions).CountCurrent py packet) ∧
    ∀ earlier, ResumedBehind py packet maxEvents earlier actions →
      (after py packet maxEvents earlier).CountCurrent py packet ∧
        (after py packet maxEvents actions).filterCountLabel =
          (after py packet maxEvents earlier).filterCountLabel := by
  constructor
  · intro hnot
    exact (countCurrent_or_resumedBehind actions).resolve_right fun ⟨earlier, h⟩ => hnot earlier h
  · intro earlier h
    exact ⟨countCurrent_of_pending earlier h.1.2.2, label_of_resumedBehind h⟩

/-- Whatever happens, the views show nothing, or an event that has been received since the last
clear or log file; and of an event of the engine they show every byte of the payload. -/
theorem displayed_payload (hmax : 0 < maxEvents) (actions : List (PanelAction ρ)) :
    let panel := after py packet maxEvents actions
    (panel.detailView = none ∧ panel.hexView = [] ∧ panel.textView = []) ∨
      ∃ e ∈ (PanelLedger.after actions).received.events, panel.detailView = some e ∧
        ∀ event, (packet e).raw = eventMembers event →
          readDump panel.hexView = some event.payload ∧
            panel.textView = event.payload.map textChar := by
  intro panel
  rcases (@matches_after ρ py packet maxEvents _ hmax actions).views with
    hnone | ⟨e, he, hdetail, hhex, htext⟩
  · exact .inl hnone
  · refine .inr ⟨e, he, hdetail, fun event hraw => ?_⟩
    obtain ⟨hdump, hshown⟩ := views_of_event py.failure hraw
    exact ⟨(congrArg readDump hhex).trans hdump, htext.trans hshown⟩

def enginePackets (_ : ℕ) : ViewerPacket where
  raw := eventMembers { payload := [0x48, 0x0A] }

theorem displayed_payload_selected :
    readDump
      (after asciiTexts enginePackets 2 [.eventReceived 0, .selectionChanged (some 0)]).hexView =
      some [0x48, 0x0A] := by
  have hdisplayed := @displayed_payload ℕ asciiTexts enginePackets 2 _ (by decide)
    [.eventReceived 0, .selectionChanged (some 0)]
  rcases hdisplayed with ⟨hnone, -, -⟩ | ⟨e, -, -, hshown⟩
  · cases hnone
  · exact (hshown _ rfl).1

end EventPanel

end Runs

end PacketProbe
