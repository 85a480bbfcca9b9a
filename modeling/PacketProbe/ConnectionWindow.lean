import PacketProbe.WindowControls
import PacketProbe.TransitionRuns

/-!
# A window and its connections

`MainWindow` with the worker of its connection, the engine process and the connector that
waits for the socket. Every worker is a thread of its own, whose signals are delivered to
the window later, in the order in which it emitted them. The slots do not learn which
worker a signal came from.
-/

namespace PacketProbe
open TransitionRuns

/-! ### Workers -/

/-- The signals of a worker that reach the controls; `other` stands for metadata, events
and errors, which do not. `finished` is the signal `disconnected()`. -/
inductive WorkerSignal where
  | connecting | connected | disconnected
  | finished
  | result (message : Json)
  | status (message : Json)
  | other

def WorkerSignal.isMessage : WorkerSignal → Bool
  | .result _ | .status _ | .other => true
  | _ => false

/-- Where `run` is: before its first signal, in `start_sync`, in its loop, behind a failed
`start_sync`, or returned. -/
inductive WorkerPhase where
  | created | connecting | live | refused | returned
  deriving DecidableEq

/-- What happens to a worker next. -/
inductive WorkerEvent where
  | unavailable
  | start
  | refuse
  | accept
  | message (signal : WorkerSignal)
  | close

structure WorkerThread where
  phase : WorkerPhase := .returned
  signals : List WorkerSignal := []

namespace WorkerThread

/-- The signals `run` emits next. Behind a failed `start_sync` the `finally` clause emits
the last two once more. -/
def emits : WorkerPhase → WorkerEvent → Option (WorkerPhase × List WorkerSignal)
  | .created, .unavailable => some (.returned, [.other, .disconnected, .finished])
  | .created, .start => some (.connecting, [.connecting])
  | .connecting, .refuse => some (.refused, [.other, .disconnected, .finished])
  | .connecting, .accept => some (.live, [.connected])
  | .connecting, .message signal => if signal.isMessage then some (.connecting, [signal]) else none
  | .live, .message signal => if signal.isMessage then some (.live, [signal]) else none
  | .connecting, .close | .live, .close | .refused, .close =>
    some (.returned, [.disconnected, .finished])
  | _, _ => none

def happen (event : WorkerEvent) (t : WorkerThread) : Option WorkerThread :=
  (emits t.phase event).map fun (phase, signals) => ⟨phase, t.signals ++ signals⟩

def isRunning (t : WorkerThread) : Bool := t.phase != .returned

/-- The worker has returned, and all its signals have been delivered. -/
def Done (t : WorkerThread) : Prop := t.phase = .returned ∧ t.signals = []

end WorkerThread

/-! ### The window -/

/-- A worker is named by its number, in the order of their creation. The counter of command
ids that `window` holds is that of the current worker. The last two fields only record
which worker sent a command, and which one's `connected` was delivered last. -/
structure ConnectionWindow where
  window : MainWindow := {}
  ipcConnected : Bool := false
  worker : Option ℕ := none
  pendingConfigToStart : Option Json := none
  ipcConnector : Bool := false
  connectEnabled : Bool := true
  attachEnabled : Bool := true
  processRunning : Bool := false
  created : ℕ := 0
  threads : ℕ → WorkerThread := fun _ => {}
  issuer : ByteString → ℕ := fun _ => 0
  lastConnected : Option ℕ := none

/-- The clicks of the user, what the workers do, the delivery of a worker's next signal,
and the signals of the engine process and of the connector. A click on Start comes with the
collected configuration; the other arguments say whether the CLI was found, whether there
is a socket path, whether the process could not be launched, and whether it exits when it
is stopped. -/
inductive WindowAction where
  | startCapture (config : Json) (cliFound pathGiven raises : Bool)
  | stopCapture (exits : Bool)
  | toggleConnection (pathGiven : Bool)
  | sendData
  | refreshSerialPorts
  | worker (worker : ℕ) (event : WorkerEvent)
  | deliver (worker : ℕ)
  | processStarted
  | processExited
  | processError (notRunning : Bool)
  | connectorReady (pathGiven : Bool)
  | connectorFailed (exits : Bool)

namespace ConnectionWindow

def restoreCaptureControls (s : ConnectionWindow) : ConnectionWindow :=
  { s with window := s.window.restoreCaptureControls }

/-- `send_command` of the current worker, noted as pending. -/
def sendCommand (worker : ℕ) (command : ByteString) (config : Option Json) (intent : Intent)
    (s : ConnectionWindow) : ConnectionWindow :=
  { s with
    window := (s.window.sendCommand command config intent).1
    issuer := Function.update s.issuer (commandIdOf s.window.nextCommandId) worker }

def configureAndStart (worker : ℕ) (config : Json) (s : ConnectionWindow) : ConnectionWindow :=
  s.sendCommand worker (ascii "configure") (some config) .configure

def requestStatusSync (s : ConnectionWindow) : ConnectionWindow :=
  match s.worker with
  | none => s
  | some worker => s.sendCommand worker (ascii "get_status") none .getStatus

/-! ### Connection management -/

/-- A new worker, whose commands are counted from one. -/
def connectSocket (pathGiven : Bool) (s : ConnectionWindow) : ConnectionWindow :=
  if pathGiven = false then s
  else { s with
    window := { s.window with nextCommandId := 1 }
    connectEnabled := false
    worker := some s.created
    created := s.created + 1
    threads := Function.update s.threads s.created ⟨.created, []⟩ }

/-- The worker is told to stop, which its thread sees some time later; a `stop` in front of
`run` it never sees. -/
def disconnectSocket (s : ConnectionWindow) : ConnectionWindow :=
  { s with
    window := { s.window with pendingCommands := ∅ }
    ipcConnected := false
    ipcConnector := false
    worker := none }

def toggleConnection (pathGiven : Bool) (s : ConnectionWindow) : ConnectionWindow :=
  match s.worker with
  | some worker =>
    if (s.threads worker).isRunning then s.disconnectSocket else s.connectSocket pathGiven
  | none => s.connectSocket pathGiven

def mirrorAttach (s : ConnectionWindow) : ConnectionWindow :=
  { s with attachEnabled := s.connectEnabled }

def onConnecting (s : ConnectionWindow) : ConnectionWindow :=
  { s with ipcConnected := false, connectEnabled := false }.mirrorAttach

/-- A queued start goes on with `configure`, which without a worker raises an exception. -/
def onConnected (s : ConnectionWindow) : ConnectionWindow :=
  let s := { s with ipcConnected := true, connectEnabled := true }
  match s.window.startingCapture, s.pendingConfigToStart with
  | true, some config =>
    let s := { s with pendingConfigToStart := none }
    match s.worker with
    | none => s
    | some worker => (s.configureAndStart worker config).mirrorAttach
  | _, _ => s.requestStatusSync.mirrorAttach

def onDisconnected (s : ConnectionWindow) : ConnectionWindow :=
  let s := { s with
    window := { s.window with pendingCommands := ∅ }
    ipcConnected := false
    connectEnabled := true }
  if s.processRunning then s.mirrorAttach
  else
    { s with window := { s.window with
        engineState := .string (ascii "idle") }.restoreCaptureControls }.mirrorAttach

def onWorkerFinished (s : ConnectionWindow) : ConnectionWindow :=
  { s.onDisconnected with worker := none }

/-- The branches of `MainWindow.resultFor`; a `start_capture` without a worker raises an
exception. -/
def onResultReceived (result : Json) (s : ConnectionWindow) : ConnectionWindow :=
  match s.window.onResultReceived result, s.worker with
  | (window, []), _ => { s with window }
  | (window, _ :: _), some worker =>
    { s with
      window
      issuer := Function.update s.issuer (commandIdOf s.window.nextCommandId) worker }
  | (_, _ :: _), none =>
    { s with window := (s.window.popPending ((result.find (ascii "id")).getD (.string []))).2 }

def onStatusReceived (status : Json) (s : ConnectionWindow) : ConnectionWindow :=
  { s with window := s.window.onStatusReceived status }

/-- The slot a signal is connected to. -/
def onSignal (worker : ℕ) (signal : WorkerSignal) (s : ConnectionWindow) : ConnectionWindow :=
  match signal with
  | .connecting => s.onConnecting
  | .connected => { s.onConnected with lastConnected := some worker }
  | .disconnected => s.onDisconnected
  | .finished => s.onWorkerFinished
  | .result message => s.onResultReceived message
  | .status message => s.onStatusReceived message
  | .other => s

/-! ### Capture lifecycle -/

def onCaptureStopped (s : ConnectionWindow) : ConnectionWindow :=
  let s := { s with ipcConnector := false, pendingConfigToStart := none }
  s.restoreCaptureControls.disconnectSocket

/-- `stop` of the process, which waits for its exit. -/
def stopProcess (exits : Bool) (s : ConnectionWindow) : ConnectionWindow :=
  if s.processRunning && exits then { s with processRunning := false }.onCaptureStopped else s

/-- The worker of a window that is connected. -/
def connection (s : ConnectionWindow) : Option ℕ := if s.ipcConnected then s.worker else none

def startCapture (config : Json) (cliFound pathGiven raises : Bool) (s : ConnectionWindow) :
    ConnectionWindow :=
  let s := { s with
    window := MainWindow.setCaptureControlsRunning false { s.window with startingCapture := true } }
  match s.connection with
  | some worker => s.configureAndStart worker config
  | none =>
    let s := { s with pendingConfigToStart := some config }
    if s.processRunning then s.connectSocket pathGiven
    else if cliFound = false then s.restoreCaptureControls
    else if raises then s.onCaptureStopped
    else { s with processRunning := true }

def stopCapture (exits : Bool) (s : ConnectionWindow) : ConnectionWindow :=
  match s.connection with
  | some worker =>
    { s with window := { s.window with stopEnabled := false } }.sendCommand worker
      (ascii "stop_capture") none .stopCapture
  | none => ({ s with ipcConnector := false }.stopProcess exits).restoreCaptureControls

def onIpcSocketReady (pathGiven : Bool) (s : ConnectionWindow) : ConnectionWindow :=
  { s with ipcConnector := false }.connectSocket pathGiven

def onIpcSocketFailed (exits : Bool) (s : ConnectionWindow) : ConnectionWindow :=
  ({ s with ipcConnector := false, pendingConfigToStart := none }.stopCapture
    exits).restoreCaptureControls

def onCaptureError (s : ConnectionWindow) : ConnectionWindow :=
  if s.processRunning then s
  else
    { s with
      ipcConnector := false
      pendingConfigToStart := none }.restoreCaptureControls.disconnectSocket

/-! ### Steps -/

/-- A command of the user over the connection, if there is one. -/
def request (command : ByteString) (intent : Intent) (s : ConnectionWindow) : ConnectionWindow :=
  match s.connection with
  | none => s
  | some worker => s.sendCommand worker command none intent

def setThread (worker : ℕ) (thread : WorkerThread) (s : ConnectionWindow) : ConnectionWindow :=
  { s with threads := Function.update s.threads worker thread }

def perform (s : ConnectionWindow) : WindowAction → Option ConnectionWindow
  | .startCapture config cliFound pathGiven raises =>
    if s.window.startEnabled then some (s.startCapture config cliFound pathGiven raises) else none
  | .stopCapture exits => if s.window.stopEnabled then some (s.stopCapture exits) else none
  | .toggleConnection pathGiven =>
    if s.connectEnabled || s.attachEnabled then some (s.toggleConnection pathGiven) else none
  | .sendData =>
    if isCapturing s.window.engineState then some (s.request (ascii "send") .send) else none
  | .refreshSerialPorts => some (s.request (ascii "list_serial_ports") .listSerialPorts)
  | .worker worker event =>
    ((s.threads worker).happen event).map fun thread => s.setThread worker thread
  | .deliver worker =>
    match (s.threads worker).signals with
    | [] => none
    | signal :: signals =>
      some ((s.setThread worker ⟨(s.threads worker).phase, signals⟩).onSignal worker signal)
  | .processStarted => if s.processRunning then some { s with ipcConnector := true } else none
  | .processExited =>
    if s.processRunning then some { s with processRunning := false }.onCaptureStopped else none
  | .processError notRunning =>
    some { s with processRunning := s.processRunning && !notRunning }.onCaptureError
  | .connectorReady pathGiven =>
    if s.ipcConnector then some (s.onIpcSocketReady pathGiven) else none
  | .connectorFailed exits => if s.ipcConnector then some (s.onIpcSocketFailed exits) else none

def Step (s : ConnectionWindow) (a : WindowAction) (t : ConnectionWindow) : Prop :=
  s.perform a = some t

/-- A click detaches from a worker that runs; otherwise it attaches. -/
theorem toggleConnection_of_running {s : ConnectionWindow} (pathGiven : Bool)
    (h : ∃ w ∈ s.worker, (s.threads w).isRunning = true) :
    s.toggleConnection pathGiven = s.disconnectSocket := by
  obtain ⟨w, hw, hrunning⟩ := h
  simp only [toggleConnection, Option.mem_def.1 hw, hrunning, if_true]

theorem toggleConnection_of_not_running {s : ConnectionWindow} (pathGiven : Bool)
    (h : ¬ ∃ w ∈ s.worker, (s.threads w).isRunning = true) :
    s.toggleConnection pathGiven = s.connectSocket pathGiven := by
  unfold toggleConnection
  split
  · rename_i w hw
    rw [if_neg fun hrunning => h ⟨w, hw, hrunning⟩]
  · rfl

end ConnectionWindow

end PacketProbe
