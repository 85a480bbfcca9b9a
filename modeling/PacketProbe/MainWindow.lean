import Mathlib.Data.List.AList
import PacketProbe.EngineController

/-!
# The capture controls of a viewer

The part of a connected `MainWindow` that decides what its Start and Stop buttons do: the
engine state it shows, the commands that wait for their result, and the two buttons.
-/

namespace PacketProbe

/-- What a pending command is for. -/
inductive Intent where
  | configure | startCapture | stopCapture | getStatus | send | listSerialPorts
  deriving DecidableEq, Repr

/-- The two commands of a start. -/
def Intent.isStart : Intent → Bool
  | .configure | .startCapture => true
  | _ => false

/-- The window, with the counter of its IPC worker. -/
structure MainWindow where
  engineState : Json := .string (ascii "idle")
  pendingCommands : AList fun _ : ByteString => Intent := ∅
  startingCapture : Bool := false
  startEnabled : Bool := true
  stopEnabled : Bool := false
  nextCommandId : ℕ := 1

/-- A command with its members by name. -/
def commandMessage (command id : ByteString) (config : Option Json) : Json :=
  .object ([(ascii "command", .string command)] ++
    (config.map fun config => (ascii "config", config)).toList ++
    [(ascii "id", .string id), (ascii "type", .string (ascii "command"))])

def commandIdOf (n : ℕ) : ByteString := ascii "v" ++ decimal n

/-- `bool(value)`. -/
def truthy : Json → Bool
  | .null => false
  | .boolean value => value
  | .numberInteger value => value != 0
  | .numberUnsigned value => value != 0
  | .numberFloat value => value != 0
  | .string text => !text.isEmpty
  | .array items => !items.isEmpty
  | .object members => !members.isEmpty

def isCapturing : Json → Bool
  | .string text => text == ascii "capturing"
  | _ => false

namespace MainWindow

/-- `send_command`, and its id noted as pending. -/
def sendCommand (command : ByteString) (config : Option Json) (intent : Intent) (w : MainWindow) :
    MainWindow × Json :=
  let id := commandIdOf w.nextCommandId
  ({ w with
      nextCommandId := w.nextCommandId + 1
      pendingCommands := w.pendingCommands.insert id intent },
    commandMessage command id config)

def setCaptureControlsRunning (running : Bool) (w : MainWindow) : MainWindow :=
  { w with startEnabled := !running && !w.startingCapture, stopEnabled := running }

def restoreCaptureControls (w : MainWindow) : MainWindow :=
  setCaptureControlsRunning false { w with startingCapture := false }

def configureAndStart (config : Json) (w : MainWindow) : MainWindow × Json :=
  w.sendCommand (ascii "configure") (some config) .configure

def applyEngineState (engineState : Json) (w : MainWindow) : MainWindow :=
  setCaptureControlsRunning (isCapturing engineState) { w with engineState }

def forget (id : ByteString) (w : MainWindow) : MainWindow :=
  { w with pendingCommands := w.pendingCommands.erase id }

/-- `_pending_commands.pop(id, None)`. Every key is a string. -/
def popPending (id : Json) (w : MainWindow) : Option Intent × MainWindow :=
  match id with
  | .string id => (w.pendingCommands.lookup id, w.forget id)
  | _ => (none, w)

/-- The branches of `on_result_received`, with the commands they send. -/
def resultFor (intent : Option Intent) (ok : Bool) (result : Json) (w : MainWindow) :
    MainWindow × List Json :=
  match intent with
  | some .configure =>
    if ok then
      let (w, command) := w.sendCommand (ascii "start_capture") none .startCapture
      (w, [command])
    else (w.restoreCaptureControls, [])
  | some .startCapture =>
    let w := { w with startingCapture := false }
    if ok then (w.applyEngineState (.string (ascii "capturing")), [])
    else (w.setCaptureControlsRunning false, [])
  | some .stopCapture =>
    (w.applyEngineState (if ok then .string (ascii "idle") else w.engineState), [])
  | some .getStatus =>
    if ok then
      (w.applyEngineState ((result.find (ascii "engine_state")).getD (.string (ascii "idle"))), [])
    else (w, [])
  | some .send | some .listSerialPorts | none => (w, [])

def onResultReceived (result : Json) (w : MainWindow) : MainWindow × List Json :=
  let (intent, w) := w.popPending ((result.find (ascii "id")).getD (.string []))
  resultFor intent (truthy ((result.find (ascii "ok")).getD (.boolean false))) result w

/-- Ignored while the window's own start is in flight. -/
def onStatusReceived (status : Json) (w : MainWindow) : MainWindow :=
  if w.startingCapture then w
  else w.applyEngineState ((status.find (ascii "engine_state")).getD w.engineState)

/-- `_on_message` and the slot it reaches. Metadata and events leave the controls alone. -/
def onMessage (message : Sent) (w : MainWindow) : MainWindow × List Json :=
  match message with
  | .toClient _ value | .broadcastRaw value =>
    match value.find (ascii "type") with
    | some (.string type) =>
      if type = ascii "result" then w.onResultReceived value
      else if type = ascii "status" then (w.onStatusReceived value, [])
      else (w, [])
    | _ => (w, [])
  | .broadcast _ => (w, [])

/-- `start_capture` of a connected window, for the configuration it collected. -/
def startCapture (config : Json) (w : MainWindow) : MainWindow × Json :=
  (setCaptureControlsRunning false { w with startingCapture := true }).configureAndStart config

/-- `stop_capture` of a connected window. -/
def stopCapture (w : MainWindow) : MainWindow × Json :=
  { w with stopEnabled := false }.sendCommand (ascii "stop_capture") none .stopCapture

/-- The window when all these messages have been delivered. -/
def settle (w : MainWindow) (messages : List Sent) : MainWindow :=
  messages.foldl (fun w message => (w.onMessage message).1) w

end MainWindow

end PacketProbe
