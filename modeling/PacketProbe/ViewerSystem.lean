import Mathlib.Data.Finset.Insert
import PacketProbe.CommandProtocol
import PacketProbe.WindowControls

/-!
# Viewers attached to one engine

The engine and the windows of its connected viewers, with a channel in each direction
for every viewer that keeps the order of its messages.
-/

namespace PacketProbe
open TransitionRuns

/-- A viewer's window, the commands it sent that the engine has not read, and what the
engine sent that the window has not received. -/
structure Link where
  window : MainWindow
  toEngine : List Json := []
  toViewer : List Sent := []

structure ViewerSystem where
  engine : EngineController
  links : IpcClientId → Link

/-- What can happen: a user presses a button, the engine reads the next line of a
viewer, a viewer receives its next message, or the session emits an event. -/
inductive ViewerAction where
  | pressStart (viewer : IpcClientId) (config : Json)
  | pressStop (viewer : IpcClientId)
  | handle (viewer : IpcClientId) (line : ByteString) (env : Environment)
  | deliver (viewer : IpcClientId)
  | event (event : PacketEvent)

/-- Which clients a line goes to. -/
def isFor (client : IpcClientId) : Sent → Bool
  | .toClient receiver _ => receiver == client
  | .broadcastRaw _ => true
  | .broadcast _ => true

def Link.receive (client : IpcClientId) (sent : List Sent) (l : Link) : Link :=
  { l with toViewer := l.toViewer ++ sent.filter (isFor client) }

namespace ViewerSystem

def setLink (viewer : IpcClientId) (l : Link) (s : ViewerSystem) : ViewerSystem :=
  { s with links := Function.update s.links viewer l }

/-- The state the engine is in, and its lines on their way. -/
def distribute (h : Handled) (s : ViewerSystem) : ViewerSystem :=
  { engine := h.controller, links := fun client => (s.links client).receive client h.sent }

/-- One action, if it is possible. The line the engine reads carries the viewer's next
command. -/
def perform (lib : JsonLibrary) (connected : Finset IpcClientId) (s : ViewerSystem) :
    ViewerAction → Option ViewerSystem
  | .pressStart viewer config =>
    let l := s.links viewer
    if viewer ∈ connected ∧ l.window.startEnabled = true then
      let (window, command) := l.window.startCapture config
      some (s.setLink viewer { l with window, toEngine := l.toEngine ++ [command] })
    else none
  | .pressStop viewer =>
    let l := s.links viewer
    if viewer ∈ connected ∧ l.window.stopEnabled = true then
      let (window, command) := l.window.stopCapture
      some (s.setLink viewer { l with window, toEngine := l.toEngine ++ [command] })
    else none
  | .handle viewer line env =>
    let l := s.links viewer
    match l.toEngine, lib.parse line with
    | msg :: rest, .ok parsed =>
      if viewer ∈ connected ∧ parsed = msg then
        let h := s.engine.perform lib (.command viewer line env)
        some ((s.setLink viewer { l with toEngine := rest }).distribute h)
      else none
    | _, _ => none
  | .deliver viewer =>
    let l := s.links viewer
    match l.toViewer with
    | [] => none
    | message :: rest =>
      if viewer ∈ connected then
        let (window, commands) := l.window.onMessage message
        some (s.setLink viewer ⟨window, l.toEngine ++ commands, rest⟩)
      else none
  | .event event => some (s.distribute (s.engine.perform lib (.event event)))

def Step (lib : JsonLibrary) (connected : Finset IpcClientId) (s : ViewerSystem) (a : ViewerAction)
    (t : ViewerSystem) : Prop := s.perform lib connected a = some t

end ViewerSystem

/-- A window that just attached to the engine, with no command of its own pending. -/
structure Attached (c : EngineController) (w : MainWindow) : Prop where
  shown : w.engineState = .string c.engineState
  pending : w.pendingCommands = ∅
  starting : w.startingCapture = false
  start : w.startEnabled = !c.capturing
  stop : w.stopEnabled = c.capturing

namespace ViewerSystem

/-- The connected viewers are attached, and no message is on its way. -/
structure Initial (lib : JsonLibrary) (connected : Finset IpcClientId)
    (s : ViewerSystem) : Prop where
  engine : EngineController.Reached lib s.engine
  attached : ∀ viewer ∈ connected, Attached s.engine (s.links viewer).window
  toEngine : ∀ viewer ∈ connected, (s.links viewer).toEngine = []
  toViewer : ∀ viewer ∈ connected, (s.links viewer).toViewer = []

/-- No message is in flight and no command is pending. -/
structure AtRest (connected : Finset IpcClientId) (s : ViewerSystem) : Prop where
  toEngine : ∀ viewer ∈ connected, (s.links viewer).toEngine = []
  toViewer : ∀ viewer ∈ connected, (s.links viewer).toViewer = []
  pending : ∀ viewer ∈ connected, (s.links viewer).window.pendingCommands = ∅

instance (connected : Finset IpcClientId) (s : ViewerSystem) : Decidable (s.AtRest connected) :=
  decidable_of_iff (∀ viewer ∈ connected, (s.links viewer).toEngine.isEmpty = true ∧
      (s.links viewer).toViewer.isEmpty = true ∧
      (s.links viewer).window.pendingCommands.entries.isEmpty = true) <| by
    constructor
    · intro h
      refine ⟨fun viewer hviewer => ?_, fun viewer hviewer => ?_, fun viewer hviewer => ?_⟩
      · exact List.isEmpty_iff.1 (h viewer hviewer).1
      · exact List.isEmpty_iff.1 (h viewer hviewer).2.1
      · exact AList.ext (List.isEmpty_iff.1 (h viewer hviewer).2.2)
    · intro h viewer hviewer
      simp [h.toEngine viewer hviewer, h.toViewer viewer hviewer, h.pending viewer hviewer]

/-- The message the engine reads in a step. -/
def messageRead (lib : JsonLibrary) : ViewerAction → Option Json
  | .handle _ line _ => (lib.parse line).toOption
  | _ => none

/-- No `configure` and no `start_capture` is read while the engine captures. -/
def StartsWhileIdle (lib : JsonLibrary) (s : ViewerSystem) (a : ViewerAction) : Prop :=
  ∀ msg ∈ messageRead lib a,
    IsCommand msg (ascii "configure") ∨ IsCommand msg (ascii "start_capture") →
      s.engine.capturing = false

instance (lib : JsonLibrary) (s : ViewerSystem) (a : ViewerAction) :
    Decidable (StartsWhileIdle lib s a) :=
  inferInstanceAs (Decidable (∀ msg ∈ messageRead lib a, _ → _))

end ViewerSystem

end PacketProbe
