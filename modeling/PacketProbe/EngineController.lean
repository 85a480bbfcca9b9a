import PacketProbe.CaptureSessions
import PacketProbe.EventPipeline

/-!
# The engine controller

The state and the command handlers of `EngineController`. A handler reads what the
outside world does during one command from an `Environment`, and its outcome names the
state it leaves, all that was sent to the clients, and the exception it let escape.
Everything thrown derives from `std::exception`. The mutex makes each handler one step.
-/

namespace PacketProbe

/-- The identity of a connected client. -/
abbrev IpcClientId := ℕ

/-- The log a recorder has open, if any, and the events it wrote. -/
structure JsonlRecorder where
  logPath : Option ByteString := none
  recorded : List PacketEvent := []

def JsonlRecorder.record (r : JsonlRecorder) (event : PacketEvent) : JsonlRecorder :=
  match r.logPath with
  | none => r
  | some _ => { r with recorded := r.recorded ++ [event] }

/-- What the operating system and the transports do during one command: whether the log
opens, the events a session emits and the exceptions it throws behind its argument
checks, and what listing a directory gives, with `none` for one that cannot be opened. -/
structure Environment where
  logOpens : Bool := true
  startEvents : List PacketEvent := []
  sessionStart : Option StdException := none
  stopEvents : List PacketEvent := []
  sessionStop : Option StdException := none
  sendEvents : Bytes → List PacketEvent := fun _ => []
  sessionSend : Bytes → Except StdException Bool := fun _ => .ok true
  directories : ByteString → Except StdException (Option (List ByteString)) := fun _ => .ok none

structure EngineController where
  capturing : Bool := false
  hasConfig : Bool := false
  config : CliOptions := {}
  eventsSeen : UInt64 := 0
  recorder : Option JsonlRecorder := none
  pipeline : Option EventPipeline := none
  session : Option CaptureSession := none
  allocator : SequenceAllocator := {}

/-- A line for one client, a line for all clients, or a packet event for all clients. -/
inductive Sent where
  | toClient (client : IpcClientId) (message : Json)
  | broadcastRaw (message : Json)
  | broadcast (event : PacketEvent)

structure Handled where
  controller : EngineController
  sent : List Sent := []
  thrown : Option StdException := none

namespace Handled

/-- Go on unless something was thrown. -/
def andThen (h : Handled) (next : EngineController → Handled) : Handled :=
  match h.thrown with
  | some _ => h
  | none =>
    let h' := next h.controller
    ⟨h'.controller, h.sent ++ h'.sent, h'.thrown⟩

/-- `catch (std::exception const& ex)`. -/
def catching (h : Handled) (handler : StdException → EngineController → Handled) : Handled :=
  match h.thrown with
  | none => h
  | some ex =>
    let h' := handler ex h.controller
    ⟨h'.controller, h.sent ++ h'.sent, h'.thrown⟩

end Handled

namespace EngineController

variable (lib : JsonLibrary) (env : Environment)

def engineState (c : EngineController) : ByteString :=
  if c.capturing then ascii "capturing" else ascii "idle"

/-! ### Messages -/

/-- Send a message to one client, if it can be dumped. -/
def sendToClient (client : IpcClientId) (message : Json) (c : EngineController) : Handled :=
  match lib.dump message with
  | .error ex => ⟨c, [], some ex⟩
  | .ok message => ⟨c, [.toClient client message], none⟩

def resultMessage (id : ByteString) (ok : Bool) (error : ByteString) : Json :=
  .object ([(ascii "type", .string (ascii "result")), (ascii "id", .string id),
    (ascii "ok", .boolean ok)] ++
      if ok = false ∧ error ≠ [] then [(ascii "error", .string error)] else [])

def replyResult (client : IpcClientId) (id : ByteString) (ok : Bool) (error : ByteString)
    (c : EngineController) : Handled :=
  sendToClient lib client (resultMessage id ok error) c

/-- `engine_state`, `config` and `counters`. -/
def stateMembers (c : EngineController) : List (ByteString × Json) :=
  [(ascii "engine_state", .string c.engineState)] ++
    (if c.hasConfig then [(ascii "config", engineConfigToJson c.config)] else []) ++
    [(ascii "counters", .object [(ascii "events_seen", .numberUnsigned c.eventsSeen)])]

def statusMessage (c : EngineController) : Json :=
  .object ((ascii "type", .string (ascii "status")) :: c.stateMembers)

def broadcastStatusLocked (c : EngineController) : Handled :=
  match lib.dump c.statusMessage with
  | .error ex => ⟨c, [], some ex⟩
  | .ok message => ⟨c, [.broadcastRaw message], none⟩

/-! ### Events -/

/-- A session numbers an event and hands it to `on_event`; the pipeline's sink records
and broadcasts what it is given. Here this is one step. What the threads of a session do in
between, since only the decoding is locked, is told in `SharedPipeline` and `SinkedPipeline`. -/
def onEvent (event : PacketEvent) (c : EngineController) : Handled :=
  match c.pipeline with
  | none => ⟨c, [], none⟩
  | some pipeline =>
    let (sequence, allocator) := c.allocator.next
    let consumed := pipeline.consume allocator { event with sequence }
    ⟨{ c with
        eventsSeen := c.eventsSeen + 1
        pipeline := some consumed.pipeline
        allocator := consumed.allocator
        recorder := c.recorder.map fun r => consumed.delivered.foldl JsonlRecorder.record r },
      consumed.delivered.map .broadcast, consumed.escaped⟩

def onEvents : List PacketEvent → EngineController → Handled
  | [], c => ⟨c, [], none⟩
  | event :: events, c => (onEvent event c).andThen (onEvents events)

/-! ### The capture session -/

def makeRecorder (config : CliOptions) : Except StdException JsonlRecorder :=
  if config.logPath = [] then .ok {}
  else if env.logOpens then .ok { logPath := some config.logPath }
  else .error (runtimeError (ascii "failed to open JSONL log: " ++ config.logPath))

/-- `start` of a session: the argument checks, then the transport. -/
def startSession (session : CaptureSession) (c : EngineController) : Handled :=
  match session.checkArguments with
  | .error ex => ⟨c, [], some ex⟩
  | .ok () => (onEvents env.startEvents c).andThen fun c => ⟨c, [], env.sessionStart⟩

def startSessionLocked (c : EngineController) : Handled :=
  match makeRecorder env c.config with
  | .error ex => ⟨c, [], some ex⟩
  | .ok recorder =>
    let c := { c with recorder := some recorder }
    match createFrameDecoder c.config.decoderConfig with
    | .error ex => ⟨c, [], some ex⟩
    | .ok _ =>
      let c := { c with pipeline := some (EventPipeline.fresh c.config.decoderConfig) }
      match captureSession c.config with
      | .error ex => ⟨c, [], some ex⟩
      | .ok session =>
        (startSession env session c).andThen fun c => ⟨{ c with session := some session }, [], none⟩

/-- `session_.reset(); pipeline_.reset(); recorder_.reset();`. -/
def resetSession (c : EngineController) : EngineController :=
  { c with session := none, pipeline := none, recorder := none }

def stopCaptureLocked (c : EngineController) : Handled :=
  let stopped : Handled :=
    match c.session with
    | none => ⟨c, [], none⟩
    | some _ => (onEvents env.stopEvents c).andThen fun c => ⟨c, [], env.sessionStop⟩
  stopped.andThen fun c => ⟨{ c.resetSession with capturing := false }, [], none⟩

/-! ### The command handlers -/

def handleConfigure (client : IpcClientId) (id : ByteString) (msg : Json) (c : EngineController) :
    Handled :=
  if c.capturing then
    replyResult lib client id false
      (ascii "cannot configure while capturing; stop_capture first") c
  else
    match (msg.find (ascii "config")).filter Json.isObject with
    | none => replyResult lib client id false (ascii "configure requires a \"config\" object") c
    | some config =>
      match engineConfigFromJson lib config with
      | .error ex => ⟨c, [], some ex⟩
      | .ok newOptions =>
        match validateOptions newOptions with
        | .error ex => ⟨c, [], some ex⟩
        | .ok () =>
          let c := { c with config := newOptions, hasConfig := true }
          (replyResult lib client id true [] c).andThen (broadcastStatusLocked lib)

def handleStartCapture (client : IpcClientId) (id : ByteString) (c : EngineController) : Handled :=
  if c.capturing then replyResult lib client id false (ascii "already capturing") c
  else if c.hasConfig = false then
    replyResult lib client id false (ascii "not configured; call configure first") c
  else
    let started := startSessionLocked env c
    match started.thrown with
    | some ex =>
      let replied := replyResult lib client id false ex.what started.controller.resetSession
      ⟨replied.controller, started.sent ++ replied.sent, replied.thrown⟩
    | none =>
      started.andThen fun c =>
        (replyResult lib client id true [] { c with capturing := true }).andThen
          (broadcastStatusLocked lib)

def handleStopCapture (client : IpcClientId) (id : ByteString) (c : EngineController) : Handled :=
  if c.capturing = false then replyResult lib client id false (ascii "not capturing") c
  else
    (stopCaptureLocked env c).andThen fun c =>
      (replyResult lib client id true [] c).andThen (broadcastStatusLocked lib)

def handleGetStatus (client : IpcClientId) (id : ByteString) (c : EngineController) : Handled :=
  sendToClient lib client
    (.object ([(ascii "type", .string (ascii "result")), (ascii "id", .string id),
      (ascii "ok", .boolean true)] ++ c.stateMembers)) c

/-- The names kept of one directory, as paths. -/
def portsIn (dir : ByteString) (names : List ByteString) : List ByteString :=
  let inDevRoot := dir = ascii "/dev"
  (names.filter fun name =>
    !inDevRoot || (ascii "ttyUSB").isPrefixOf name || (ascii "ttyACM").isPrefixOf name).map
      fun name => dir ++ ascii "/" ++ name

/-- `std::unique`. -/
def unique : List ByteString → List ByteString
  | a :: b :: rest => if a = b then unique (b :: rest) else a :: unique (b :: rest)
  | ports => ports

def scanDirectories : List ByteString → Except StdException (List ByteString)
  | [] => .ok []
  | dir :: dirs => do
    let names ← env.directories dir
    let ports ← scanDirectories dirs
    .ok (portsIn dir (names.getD []) ++ ports)

/-- Both directories are scanned in turn; then the ports are sorted. -/
def listSerialPorts : Except StdException (List ByteString) := do
  let ports ← scanDirectories env [ascii "/dev/serial/by-id", ascii "/dev"]
  .ok (unique (ports.mergeSort fun a b => !decide (b < a)))

def handleListSerialPorts (client : IpcClientId) (id : ByteString) (c : EngineController) :
    Handled :=
  match listSerialPorts env with
  | .error ex => ⟨c, [], some ex⟩
  | .ok ports =>
    sendToClient lib client
      (.object [(ascii "type", .string (ascii "result")), (ascii "id", .string id),
        (ascii "ok", .boolean true), (ascii "ports", .array (ports.map .string))]) c

/-- `send` of the active session: the events it emits, and what it returns or throws. -/
def sessionSend (payload : Bytes) (c : EngineController) : Handled × Bool :=
  match env.sessionSend payload with
  | .error ex => ((onEvents (env.sendEvents payload) c).andThen fun c => ⟨c, [], some ex⟩, false)
  | .ok sent => (onEvents (env.sendEvents payload) c, sent)

def handleSend (client : IpcClientId) (id : ByteString) (msg : Json) (c : EngineController) :
    Handled :=
  match c.capturing, c.session with
  | true, some session =>
    if session.supportsSend = false then
      replyResult lib client id false
        (ascii "send is not supported in " ++ c.config.mode ++ ascii " mode") c
    else
      match msg.find (ascii "payload_hex") with
      | some (.string hex) =>
        match parseHexPayload hex with
        | .error ex =>
          replyResult lib client id false (ascii "invalid payload_hex: " ++ ex.what) c
        | .ok payload =>
          let (sending, sent) := sessionSend env payload c
          sending.andThen fun c =>
            replyResult lib client id sent (if sent then [] else ascii "send failed") c
      | _ => replyResult lib client id false (ascii "send requires \"payload_hex\"") c
  | _, _ => replyResult lib client id false (ascii "not capturing") c

/-! ### Dispatch -/

/-- The `type` of a message is a string other than `command`. -/
def hasForeignType (msg : Json) : Bool :=
  match msg.find (ascii "type") with
  | some (.string text) => decide (text ≠ ascii "command")
  | _ => false

/-- The command of a message that is handled. -/
def acceptedCommand (msg : Json) : Option ByteString :=
  if msg.isObject = false ∨ hasForeignType msg = true then none
  else
    match msg.find (ascii "command") with
    | some (.string command) => some command
    | _ => none

def commandId (msg : Json) : ByteString :=
  match msg.find (ascii "id") with
  | some (.string id) => id
  | _ => []

/-- The branches inside the dispatcher's `try`. -/
def dispatch (client : IpcClientId) (command id : ByteString) (msg : Json) (c : EngineController) :
    Handled :=
  if command = ascii "configure" then handleConfigure lib client id msg c
  else if command = ascii "start_capture" then handleStartCapture lib env client id c
  else if command = ascii "stop_capture" then handleStopCapture lib env client id c
  else if command = ascii "get_status" then handleGetStatus lib client id c
  else if command = ascii "list_serial_ports" then handleListSerialPorts lib env client id c
  else if command = ascii "send" then handleSend lib env client id msg c
  else replyResult lib client id false (ascii "unknown command: " ++ command) c

/-- Only `parse_error` is caught around the parser. -/
def handleCommand (client : IpcClientId) (line : ByteString) (c : EngineController) : Handled :=
  match lib.parse line with
  | .error .parseError => ⟨c, [], none⟩
  | .error (.outOfRange what) => ⟨c, [], some ⟨.outOfRange, what⟩⟩
  | .ok msg =>
    match acceptedCommand msg with
    | none => ⟨c, [], none⟩
    | some command =>
      (dispatch lib env client command (commandId msg) msg c).catching fun ex =>
        replyResult lib client (commandId msg) false ex.what

/-- `shutdown`, up to the deregistration of the command handler. -/
def shutdown (c : EngineController) : Handled :=
  if c.capturing then stopCaptureLocked env c else ⟨c, [], none⟩

end EngineController

/-! ### The send handler of a command-line run -/

/-- What the handler passed to `session.send` and printed to `std::cerr`, and the
exception it let escape. -/
structure SendHandled where
  sent : List Bytes := []
  printed : List ByteString := []
  thrown : Option StdException := none

/-- The handler that `install_ipc_send_handler` registers for a session. -/
def ipcSendHandler (lib : JsonLibrary) (send : Bytes → Except StdException Bool)
    (line : ByteString) :
    SendHandled :=
  match lib.parse line with
  | .error .parseError => {}
  | .error (.outOfRange what) => { thrown := some ⟨.outOfRange, what⟩ }
  | .ok msg =>
    match msg.find (ascii "command"), msg.find (ascii "payload_hex") with
    | some (.string command), some (.string hex) =>
      if msg.isObject = false ∨ command ≠ ascii "send" ∨ hex = [] then {}
      else
        match parseHexPayload hex with
        | .error ex => { printed := [ascii "IPC send command failed: " ++ ex.what] }
        | .ok payload =>
          match send payload with
          | .error ex =>
            { sent := [payload], printed := [ascii "IPC send command failed: " ++ ex.what] }
          | .ok _ => { sent := [payload] }
    | _, _ => {}

end PacketProbe
