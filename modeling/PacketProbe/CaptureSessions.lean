import PacketProbe.EngineConfig

/-!
# Capture sessions

The options each session is built from, the argument checks at the top of its `start`,
and the session a configuration selects. What `validate_options` accepts passes these
checks, though the two are written independently.
-/

namespace PacketProbe

structure UdpDirectCaptureOptions where
  bindHost : ByteString := ascii "0.0.0.0"
  bindPort : UInt16 := 0
  targetHost : ByteString := []
  targetPort : UInt16 := 0
  sessionId : ByteString := ascii "udp-1"
  deriving DecidableEq

structure TcpDirectCaptureOptions where
  host : ByteString := []
  port : UInt16 := 0
  sessionId : ByteString := ascii "tcp-client-1"
  deriving DecidableEq

structure TcpServerCaptureOptions where
  listenHost : ByteString := ascii "0.0.0.0"
  listenPort : UInt16 := 0
  sessionId : ByteString := ascii "tcp-server-1"
  deriving DecidableEq

structure TcpProxyConfig where
  listenHost : ByteString := []
  listenPort : UInt16 := 0
  targetHost : ByteString := []
  targetPort : UInt16 := 0
  sessionId : ByteString := ascii "tcp-proxy-1"
  latencyEnabled : Bool := true
  deriving DecidableEq

structure SerialCaptureOptions where
  port : ByteString := []
  baudrate : UInt32 := 115200
  dataBits : UInt8 := 8
  stopBits : UInt8 := 1
  parity : SerialParity := .none
  flowControl : SerialFlowControl := .none
  sessionId : ByteString := ascii "serial-1"
  deriving DecidableEq

/-- The session types with their options. -/
inductive CaptureSession where
  | udp (options : UdpDirectCaptureOptions)
  | tcpClient (options : TcpDirectCaptureOptions)
  | tcpServer (options : TcpServerCaptureOptions)
  | tcpProxy (config : TcpProxyConfig)
  | serial (options : SerialCaptureOptions)
  deriving DecidableEq

namespace CaptureSession

/-- The argument checks `start` makes before it touches the transport. -/
def checkArguments : CaptureSession → Except StdException Unit
  | .udp options => do
    throwIf (options.bindHost = []) "udp requires --bind-host"
    throwIf (options.bindPort = 0) "udp requires --bind-port"
    throwIf (decide (options.targetHost = []) ≠ decide (options.targetPort = 0))
      "udp requires both --target-host and --target-port when sending is enabled"
  | .tcpClient options => do
    throwIf (options.host = []) "tcp-client requires --host"
    throwIf (options.port = 0) "tcp-client requires --port"
  | .tcpServer options => do
    throwIf (options.listenHost = []) "tcp-server requires --listen-host"
    throwIf (options.listenPort = 0) "tcp-server requires --listen-port"
  | .tcpProxy config => do
    throwIf (config.listenHost = []) "tcp-proxy requires --listen-host"
    throwIf (config.listenPort = 0) "tcp-proxy requires --listen-port"
    throwIf (config.targetHost = []) "tcp-proxy requires --target-host"
    throwIf (config.targetPort = 0) "tcp-proxy requires --target-port"
  | .serial options => do
    throwIf (options.port = []) "serial requires --port"
    throwIf (options.baudrate = 0) "serial requires --baudrate"

/-- The adapters: only the proxy has no `send`. -/
def supportsSend : CaptureSession → Bool
  | .tcpProxy _ => false
  | _ => true

end CaptureSession

/-- The branches of `start_session_locked` on the mode. -/
def captureSession (config : CliOptions) : Except StdException CaptureSession :=
  if config.mode = ascii "udp" then
    .ok (.udp {
      bindHost := config.bindHost
      bindPort := config.bindPort
      targetHost := config.targetHost
      targetPort := config.targetPort })
  else if config.mode = ascii "tcp-client" then
    .ok (.tcpClient { host := config.host, port := config.port })
  else if config.mode = ascii "tcp-server" then
    .ok (.tcpServer { listenHost := config.listenHost, listenPort := config.listenPort })
  else if config.mode = ascii "tcp-proxy" then
    .ok (.tcpProxy {
      listenHost := config.listenHost
      listenPort := config.listenPort
      targetHost := config.targetHost
      targetPort := config.targetPort
      latencyEnabled := config.latency })
  else if config.mode = ascii "serial" then
    .ok (.serial {
      port := config.serialPort
      baudrate := config.baudrate
      dataBits := config.dataBits
      stopBits := config.stopBits
      parity := config.parity
      flowControl := config.flowControl })
  else .error (invalidArgument (ascii "unknown or missing mode: " ++ config.mode))

/-- The modes that capture. -/
def captureModes : List ByteString :=
  [ascii "udp", ascii "tcp-client", ascii "tcp-server", ascii "tcp-proxy", ascii "serial"]

/-- A configuration the engine can hold: validated, and of a mode that captures. -/
structure CaptureConfig (config : CliOptions) : Prop where
  valid : validateOptions config = .ok ()
  mode : config.mode ∈ captureModes

/-- An engine configuration has no socket path, so the mode `engine` is refused. -/
theorem captureConfig_of_validateOptions {config : CliOptions} (hipc : config.ipcPath = [])
    (h : validateOptions config = .ok ()) : CaptureConfig config := by
  refine ⟨h, ?_⟩
  by_contra hmode
  simp only [captureModes, List.mem_cons, List.not_mem_nil, or_false, not_or] at hmode
  obtain ⟨hudp, hclient, hserver, hproxy, hserial⟩ := hmode
  simp only [validateOptions, if_neg hudp, if_neg hclient, if_neg hserver, if_neg hproxy,
    if_neg hserial, hipc] at h
  split at h
  · exact throwIf_eq_ok_iff.1 h trivial
  · cases h

/-- The two validators agree: a configuration the engine can hold selects a session
whose argument checks pass. -/
theorem CaptureConfig.checkArguments {config : CliOptions} (h : CaptureConfig config) :
    ∃ session, captureSession config = .ok session ∧ session.checkArguments = .ok () := by
  obtain ⟨hvalid, hmode⟩ := h
  simp only [captureModes, List.mem_cons, List.not_mem_nil, or_false] at hmode
  rcases hmode with hmode | hmode | hmode | hmode | hmode
  · rw [validateOptions, hmode, if_neg (by decide), if_neg (by decide), if_neg (by decide),
      if_neg (by decide), if_neg (by decide), if_pos rfl] at hvalid
    refine ⟨_, by rw [captureSession, if_pos hmode], ?_⟩
    simp only [CaptureSession.checkArguments, bind_eq_ok_iff, throwIf_eq_ok_iff, exists_const]
      at hvalid ⊢
    obtain ⟨hhost, hport, htarget, -⟩ := hvalid
    refine ⟨hhost, hport, ?_⟩
    simpa only [ne_eq, decide_not, Bool.not_inj_iff] using htarget
  · rw [validateOptions, hmode, if_neg (by decide), if_pos rfl] at hvalid
    refine ⟨_, by rw [captureSession, hmode, if_neg (by decide), if_pos rfl], ?_⟩
    simpa only [CaptureSession.checkArguments, bind_eq_ok_iff, throwIf_eq_ok_iff, exists_const]
      using hvalid
  · rw [validateOptions, hmode, if_neg (by decide), if_neg (by decide), if_pos rfl] at hvalid
    refine ⟨_, by rw [captureSession, hmode, if_neg (by decide), if_neg (by decide), if_pos rfl],
      ?_⟩
    simpa only [CaptureSession.checkArguments, bind_eq_ok_iff, throwIf_eq_ok_iff, exists_const]
      using hvalid
  · rw [validateOptions, hmode, if_neg (by decide), if_neg (by decide), if_neg (by decide),
      if_pos rfl] at hvalid
    refine ⟨_, by rw [captureSession, hmode, if_neg (by decide), if_neg (by decide),
      if_neg (by decide), if_pos rfl], ?_⟩
    simpa only [CaptureSession.checkArguments, bind_eq_ok_iff, throwIf_eq_ok_iff, exists_const]
      using hvalid
  · rw [validateOptions, hmode, if_neg (by decide), if_neg (by decide), if_neg (by decide),
      if_neg (by decide), if_pos rfl] at hvalid
    refine ⟨_, by rw [captureSession, hmode, if_neg (by decide), if_neg (by decide),
      if_neg (by decide), if_neg (by decide), if_pos rfl], ?_⟩
    simpa only [CaptureSession.checkArguments, bind_eq_ok_iff, throwIf_eq_ok_iff, exists_const]
      using hvalid

end PacketProbe
