import PacketProbe.ViewerSettings

/-!
# The macros of the send panel

A macro keeps what stood in the panel when it was saved. Running it puts this back and presses Send.
-/

namespace PacketProbe
open JsonText

structure Macro where
  name : Text
  isHex : Bool
  data : Text
  eol : Eol
  deriving DecidableEq

/-- What the user does with the panel, and what happens to the window beside it. -/
inductive MacroAction where
  | formatChosen (inHex : Bool)
  | eolChosen (eol : Eol)
  | edited (input : Text)
  | sendPressed
  /-- The answer of the dialog for the name; nothing if it is cancelled. -/
  | savePressed (name : Option Text)
  | runPressed (saved : Macro)
  | removePressed (saved : Macro)
  | windowChanged (window : MainWindow) (connected : Bool)

structure MacroPanel where
  window : MainWindow := {}
  connected : Bool := false
  panel : SendPanel := {}
  macros : List Macro := []

namespace MacroPanel

/-- What the panel shows when it is told to run a macro. -/
def fill (saved : Macro) : SendPanel where
  inHex := saved.isHex
  eol := saved.eol
  input := saved.data

/-- `send_data`. -/
def send (s : MacroPanel) : SendPressed := MainWindow.sendData s.connected s.panel s.window

/-- `_run_macro`. -/
def runMacro (s : MacroPanel) (saved : Macro) : SendPressed :=
  MainWindow.sendData s.connected (fill saved) s.window

def pressed (s : MacroPanel) (result : SendPressed) : MacroPanel :=
  { s with
    window := result.window
    panel := result.panel }

/-- `_add_macro_from_input`. -/
def addMacroFromInput (s : MacroPanel) (name : Option Text) : MacroPanel :=
  let data := strip s.panel.input
  if data = [] then s
  else
    match name with
    | none => s
    | some name =>
      if strip name = [] then s
      else { s with macros := s.macros ++ [⟨strip name, s.panel.inHex, data, s.panel.eol⟩] }

/-- `_remove_macro`: of macros that are equal the first one is removed. -/
def removeMacro (s : MacroPanel) (saved : Macro) : MacroPanel :=
  { s with macros := s.macros.erase saved }

def perform (s : MacroPanel) : MacroAction → MacroPanel
  | .formatChosen inHex => { s with panel := { s.panel with inHex } }
  | .eolChosen eol => { s with panel := { s.panel with eol } }
  | .edited input => { s with panel := { s.panel with input } }
  | .sendPressed => s.pressed s.send
  | .savePressed name => s.addMacroFromInput name
  | .runPressed saved => s.pressed (s.runMacro saved)
  | .removePressed saved => s.removeMacro saved
  | .windowChanged window connected => { s with window, connected }

/-- The panel after these actions. -/
def after (actions : List MacroAction) : MacroPanel := actions.foldl perform {}

/-- The macro has been saved by this action, pressed on this panel. -/
structure SavedFrom (saved : Macro) (panel : SendPanel) (name : Text) : Prop where
  name : saved.name = strip name ∧ saved.name ≠ []
  isHex : saved.isHex = panel.inHex
  data : saved.data = strip panel.input ∧ saved.data ≠ []
  eol : saved.eol = panel.eol

variable {s : MacroPanel} {saved : Macro} {panel : SendPanel} {name : Text}

theorem macros_perform (s : MacroPanel) (action : MacroAction)
    (h : saved ∈ (s.perform action).macros) :
    saved ∈ s.macros ∨ ∃ name, action = .savePressed (some name) ∧
      SavedFrom saved s.panel name := by
  cases action with
  | savePressed name =>
    change saved ∈ (s.addMacroFromInput name).macros at h
    unfold addMacroFromInput at h
    by_cases hdata : strip s.panel.input = []
    · rw [if_pos hdata] at h
      exact .inl h
    · rw [if_neg hdata] at h
      cases name with
      | none => exact .inl h
      | some name =>
        dsimp only at h
        by_cases hname : strip name = []
        · rw [if_pos hname] at h
          exact .inl h
        · rw [if_neg hname] at h
          rcases List.mem_append.1 h with hold | hnew
          · exact .inl hold
          · obtain rfl := List.mem_singleton.1 hnew
            exact .inr ⟨name, rfl, ⟨rfl, hname⟩, rfl, ⟨rfl, hdata⟩, rfl⟩
  | removePressed other => exact .inl (List.mem_of_mem_erase h)
  | _ => exact .inl h

/-- Whitespace around the input changes nothing about a press of Send, except that it stays in the
input of a press that sends nothing. -/
theorem sendData_strip (connected : Bool) (panel : SendPanel) (w : MainWindow) :
    (MainWindow.sendData connected { panel with input := strip panel.input } w).window =
      (MainWindow.sendData connected panel w).window ∧
    (MainWindow.sendData connected { panel with input := strip panel.input } w).message =
      (MainWindow.sendData connected panel w).message ∧
    (MainWindow.sendData connected { panel with input := strip panel.input } w).box =
      (MainWindow.sendData connected panel w).box := by
  simp only [MainWindow.sendData, strip_strip]
  by_cases hconnected : connected = false
  · rw [if_pos hconnected, if_pos hconnected]
    exact ⟨rfl, rfl, rfl⟩
  rw [if_neg hconnected, if_neg hconnected]
  by_cases hcapturing : isCapturing w.engineState = false
  · rw [if_pos hcapturing, if_pos hcapturing]
    exact ⟨rfl, rfl, rfl⟩
  rw [if_neg hcapturing, if_neg hcapturing]
  by_cases hempty : strip panel.input = []
  · rw [if_pos hempty, if_pos hempty]
    exact ⟨rfl, rfl, rfl⟩
  rw [if_neg hempty, if_neg hempty]
  by_cases hhex : panel.inHex = true
  · rw [if_pos hhex, if_pos hhex]
    cases cleanHexInput (strip panel.input) <;> exact ⟨rfl, rfl, rfl⟩
  · rw [if_neg hhex, if_neg hhex]
    cases encodeUtf8 (strip panel.input ++ panel.eol.text) <;> exact ⟨rfl, rfl, rfl⟩

theorem SavedFrom.fill_eq (h : SavedFrom saved panel name) :
    fill saved = { panel with input := strip panel.input } := by
  obtain ⟨-, hhex, ⟨hdata, -⟩, heol⟩ := h
  rw [fill, hhex, hdata, heol]

theorem savedFrom_after (actions : List MacroAction) (h : saved ∈ (after actions).macros) :
    ∃ earlier name later, actions = earlier ++ .savePressed (some name) :: later ∧
      SavedFrom saved (after earlier).panel name := by
  induction actions using List.reverseRecOn with
  | nil => cases h
  | append_singleton actions action ih =>
    rw [after, List.foldl_append] at h
    rcases macros_perform (after actions) action h with hold | ⟨name, rfl, hsaved⟩
    · obtain ⟨earlier, name, later, rfl, hsaved⟩ := ih hold
      exact ⟨earlier, name, later ++ [action], by rw [List.append_assoc, List.cons_append], hsaved⟩
    · exact ⟨actions, name, [], rfl, hsaved⟩

/-- Whatever has been typed, chosen, sent, saved and removed since: a macro sends, notes and reports
exactly what Send would with the panel as it was when the macro was saved. -/
theorem macro_sends_saved (actions : List MacroAction) (h : saved ∈ (after actions).macros) :
    ∃ earlier name later, actions = earlier ++ .savePressed (some name) :: later ∧
      saved.name = strip name ∧
      saved.name ≠ [] ∧ ∀ w connected,
        let run := ({ after actions with window := w, connected } : MacroPanel).runMacro saved
        let sent := ({ after earlier with window := w, connected } : MacroPanel).send
        run.message = sent.message ∧ run.window = sent.window ∧ run.box = sent.box := by
  obtain ⟨earlier, name, later, hactions, hsaved⟩ := savedFrom_after actions h
  refine ⟨earlier, name, later, hactions, hsaved.name.1, hsaved.name.2, fun w connected => ?_⟩
  dsimp only [runMacro, send]
  rw [hsaved.fill_eq]
  obtain ⟨hwindow, hmessage, hbox⟩ := sendData_strip connected (after earlier).panel w
  exact ⟨hmessage, hwindow, hbox⟩

/-- A macro of hex digits that is run when the panel has long been in text format. -/
def savedHex : List MacroAction :=
  [.formatChosen true, .edited (codes " 41 42 "), .savePressed (some (codes "ping")),
    .formatChosen false, .edited (codes "x")]

def pingMacro : Macro := ⟨codes "ping", true, codes "41 42", .none⟩

/-- The panel behind these actions, in a window that is attached to a capturing engine. -/
def savedHexPanel : MacroPanel :=
  { after savedHex with
    window := { engineState := .string (ascii "capturing") }
    connected := true }

theorem macro_sends_saved_hex :
    (savedHexPanel.runMacro pingMacro).message = some (sendMessage (ascii "4142") (commandIdOf 1)) ∧
    (savedHexPanel.runMacro pingMacro).window.pendingCommands.lookup (commandIdOf 1) = some .send ∧
    (savedHexPanel.runMacro pingMacro).box = none := by
  have hmem : pingMacro ∈ (after savedHex).macros := by decide +kernel
  obtain ⟨earlier, name, later, hactions, -, -, hruns⟩ := macro_sends_saved savedHex hmem
  have hearlier : earlier = [.formatChosen true, .edited (codes " 41 42 ")] := by
    rcases earlier with _ | ⟨a, _ | ⟨b, _ | ⟨c, _ | ⟨d, _ | ⟨e, earlier⟩⟩⟩⟩⟩ <;> simp_all [savedHex]
  obtain ⟨hmessage, hwindow, hbox⟩ := hruns { engineState := .string (ascii "capturing") } true
  rw [hearlier] at hmessage hwindow hbox
  refine ⟨hmessage.trans (by rfl), ?_, hbox.trans (by rfl)⟩
  rw [savedHexPanel, hwindow]
  decide +kernel

end MacroPanel

end PacketProbe
