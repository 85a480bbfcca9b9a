import PacketProbe.FrameDecoders
import PacketProbe.InputParsing
import PacketProbe.Json

/-!
# Options and the configuration of the engine

`CliOptions` with its validation, and the conversion of its capture settings from and to
the `config` object of the `configure` command.
-/

namespace PacketProbe

inductive SendInputFormat where
  | text | hex | file
  deriving DecidableEq, Repr

structure SendInputOptions where
  format : SendInputFormat := .text
  filePath : ByteString := []
  deriving DecidableEq

structure CliOptions where
  mode : ByteString := []
  host : ByteString := []
  port : UInt16 := 0
  serialPort : ByteString := []
  baudrate : UInt32 := 115200
  dataBits : UInt8 := 8
  stopBits : UInt8 := 1
  parity : SerialParity := .none
  flowControl : SerialFlowControl := .none
  listenHost : ByteString := []
  listenPort : UInt16 := 0
  bindHost : ByteString := ascii "0.0.0.0"
  bindPort : UInt16 := 0
  targetHost : ByteString := []
  targetPort : UInt16 := 0
  logPath : ByteString := []
  ipcPath : ByteString := []
  decoderConfig : DecoderConfig := {}
  sendOptions : SendInputOptions := {}
  sendOptionCount : ℕ := 0
  hexRaw : Bool := false
  hexFrame : Bool := false
  latency : Bool := true
  help : Bool := false
  version : Bool := false
  deriving DecidableEq

/-- `if (cond) throw std::invalid_argument(text);`. -/
def throwIf (cond : Prop) [Decidable cond] (text : String) : Except StdException Unit :=
  if cond then .error (invalidArgument (ascii text)) else .ok ()

def validateOptions (options : CliOptions) : Except StdException Unit :=
  if options.mode = ascii "engine" then
    throwIf (options.ipcPath = []) "engine requires --ipc"
  else if options.mode = ascii "tcp-client" then do
    throwIf (options.host = []) "tcp-client requires --host"
    throwIf (options.port = 0) "tcp-client requires --port"
  else if options.mode = ascii "tcp-server" then do
    throwIf (options.listenHost = []) "tcp-server requires --listen-host"
    throwIf (options.listenPort = 0) "tcp-server requires --listen-port"
  else if options.mode = ascii "tcp-proxy" then do
    throwIf (options.listenHost = []) "tcp-proxy requires --listen-host"
    throwIf (options.listenPort = 0) "tcp-proxy requires --listen-port"
    throwIf (options.targetHost = []) "tcp-proxy requires --target-host"
    throwIf (options.targetPort = 0) "tcp-proxy requires --target-port"
  else if options.mode = ascii "serial" then do
    throwIf (options.serialPort = []) "serial requires --port"
    throwIf (options.baudrate = 0) "serial requires --baudrate"
  else if options.mode = ascii "udp" then do
    throwIf (options.bindHost = []) "udp requires --bind-host"
    throwIf (options.bindPort = 0) "udp requires --bind-port"
    let hasTargetHost := options.targetHost ≠ []
    let hasTargetPort := options.targetPort ≠ 0
    throwIf (decide hasTargetHost ≠ decide hasTargetPort)
      "udp target requires both --target-host and --target-port"
    throwIf (options.sendOptionCount > 0 ∧ (¬ hasTargetHost ∨ ¬ hasTargetPort))
      "udp send input requires --target-host and --target-port"
  else .error (invalidArgument (ascii "unknown or missing mode: " ++ options.mode))

/-! ### From JSON -/

def configError (key : String) (text : String) : StdException :=
  invalidArgument (ascii "config." ++ ascii key ++ ascii text)

/-- A member that is present and not `null`. -/
def present (config : Json) (key : String) : Option Json :=
  (config.find (ascii key)).filter fun value => !value.isNull

def getString (config : Json) (key : String) (fallback : ByteString) :
    Except StdException ByteString :=
  match present config key with
  | none => .ok fallback
  | some (.string text) => .ok text
  | some _ => .error (configError key " must be a string")

/-- The number is read as a signed integer, so that a large unsigned one is negative. -/
def getPort (config : Json) (key : String) (fallback : UInt16) : Except StdException UInt16 :=
  let inRange (value : Int64) : Except StdException UInt16 :=
    if value < 0 ∨ value > 65535 then .error (configError key " out of range")
    else .ok (UInt16.ofNat value.toInt.toNat)
  match present config key with
  | none => .ok fallback
  | some (.numberInteger value) => inRange value
  | some (.numberUnsigned value) => inRange value.toInt64
  | some _ => .error (configError key " must be a port number")

def getBool (config : Json) (key : String) (fallback : Bool) : Except StdException Bool :=
  match present config key with
  | none => .ok fallback
  | some (.boolean value) => .ok value
  | some _ => .error (configError key " must be a boolean")

/-- The settings read without a helper: what `read` makes of a member that is present. -/
def getWith {α : Type} (config : Json) (key : String) (fallback : α)
    (read : Json → Except StdException α) : Except StdException α :=
  match present config key with
  | none => .ok fallback
  | some value => read value

/-- An empty text leaves the delimiter empty. -/
def delimiterFromHex (delimiterHex : ByteString) : Except StdException Bytes :=
  if delimiterHex ≠ [] then parseDelimiterBytes delimiterHex else .ok []

/-- The part of `engine_config_from_json` below `decoder`. -/
def decoderConfigFromJson (lib : JsonLibrary) (decoder : Json) :
    Except StdException DecoderConfig := do
  let name ← getString decoder "decoder" (ascii "raw")
  let frameSize ← getWith decoder "frame_size" 0 lib.getUInt64
  let delimiterHex ← getString decoder "delimiter_hex" []
  let delimiter ← delimiterFromHex delimiterHex
  let includeDelimiter ← getBool decoder "include_delimiter" true
  let lengthSize ← getWith decoder "length_size" 2 lib.getUInt64
  let lengthEndian ← getString decoder "length_endian" (ascii "big")
  let lengthIncludesHeader ← getBool decoder "length_includes_header" false
  .ok { decoder := name, frameSize, delimiter, includeDelimiter, lengthSize, lengthEndian,
        lengthIncludesHeader }

def engineConfigFromJson (lib : JsonLibrary) (config : Json) : Except StdException CliOptions := do
  throwIf (config.isObject = false) "config must be a JSON object"
  let mode ← getString config "mode" []
  let host ← getString config "host" []
  let port ← getPort config "port" 0
  let serialPort ← getString config "serial_port" []
  let baudrate ← getWith config "baudrate" 115200 fun value => do
    parseSerialBaudrate (decimal (← lib.getUInt64 value).toNat)
  let dataBits ← getWith config "data_bits" 8 fun value => do
    parseSerialDataBits (signedDecimal (← lib.getInt value).toInt)
  let stopBits ← getWith config "stop_bits" 1 fun value => do
    parseSerialStopBits (signedDecimal (← lib.getInt value).toInt)
  let parity ← parseSerialParity (← getString config "parity" (ascii "none"))
  let flowControl ← parseSerialFlowControl (← getString config "flow_control" (ascii "none"))
  let listenHost ← getString config "listen_host" []
  let listenPort ← getPort config "listen_port" 0
  let bindHost ← getString config "bind_host" (ascii "0.0.0.0")
  let bindPort ← getPort config "bind_port" 0
  let targetHost ← getString config "target_host" []
  let targetPort ← getPort config "target_port" 0
  let logPath ← getString config "log_path" []
  let hexRaw ← getBool config "hex_raw" false
  let hexFrame ← getBool config "hex_frame" false
  let latency ← getBool config "latency" true
  let decoderConfig ← getWith config "decoder" {} fun decoder => do
    throwIf (decoder.isObject = false) "config.decoder must be an object"
    decoderConfigFromJson lib decoder
  .ok { mode, host, port, serialPort, baudrate, dataBits, stopBits, parity, flowControl, listenHost,
        listenPort, bindHost, bindPort, targetHost, targetPort, logPath, hexRaw, hexFrame, latency,
        decoderConfig }

/-! ### To JSON -/

def decoderConfigToJson (config : DecoderConfig) : Json :=
  .object [
    (ascii "decoder", .string config.decoder),
    (ascii "frame_size", .numberUnsigned config.frameSize),
    (ascii "delimiter_hex", .string (toHex config.delimiter false)),
    (ascii "include_delimiter", .boolean config.includeDelimiter),
    (ascii "length_size", .numberUnsigned config.lengthSize),
    (ascii "length_endian", .string config.lengthEndian),
    (ascii "length_includes_header", .boolean config.lengthIncludesHeader)]

def engineConfigToJson (options : CliOptions) : Json :=
  .object [
    (ascii "mode", .string options.mode),
    (ascii "host", .string options.host),
    (ascii "port", .numberUnsigned options.port.toUInt64),
    (ascii "serial_port", .string options.serialPort),
    (ascii "baudrate", .numberUnsigned options.baudrate.toUInt64),
    (ascii "data_bits", .numberUnsigned options.dataBits.toUInt64),
    (ascii "stop_bits", .numberUnsigned options.stopBits.toUInt64),
    (ascii "parity", .string options.parity.toText),
    (ascii "flow_control", .string options.flowControl.toText),
    (ascii "listen_host", .string options.listenHost),
    (ascii "listen_port", .numberUnsigned options.listenPort.toUInt64),
    (ascii "bind_host", .string options.bindHost),
    (ascii "bind_port", .numberUnsigned options.bindPort.toUInt64),
    (ascii "target_host", .string options.targetHost),
    (ascii "target_port", .numberUnsigned options.targetPort.toUInt64),
    (ascii "log_path", .string options.logPath),
    (ascii "hex_raw", .boolean options.hexRaw),
    (ascii "hex_frame", .boolean options.hexFrame),
    (ascii "latency", .boolean options.latency),
    (ascii "decoder", decoderConfigToJson options.decoderConfig)]

/-! ### The texts of a configuration

All strings of a configuration read from UTF-8 JSON are UTF-8, so that the engine can
always report it. -/

theorem bind_eq_ok_iff {ε α β : Type} {x : Except ε α} {f : α → Except ε β} {b : β} :
    (x >>= f) = .ok b ↔ ∃ a, x = .ok a ∧ f a = .ok b := by
  cases x with
  | error e =>
    constructor
    · intro h
      cases h
    · rintro ⟨a, ha, -⟩
      cases ha
  | ok a =>
    constructor
    · intro h
      exact ⟨a, rfl, h⟩
    · rintro ⟨a', ha, hf⟩
      cases ha
      exact hf

theorem throwIf_eq_ok_iff {cond : Prop} [Decidable cond] {text : String} {u : Unit} :
    throwIf cond text = .ok u ↔ ¬ cond := by
  by_cases h : cond <;> simp [throwIf, h]

theorem validText_of_present {config value : Json} {key : String}
    (hconfig : config.validText = true)
    (h : present config key = some value) : value.validText = true := by
  obtain ⟨hfind, -⟩ := Option.filter_eq_some_iff.1 h
  exact Json.validText_of_find hconfig hfind

theorem valid_of_getString {config : Json} {key : String} {fallback text : ByteString}
    (hconfig : config.validText = true) (hfallback : Utf8.Valid fallback)
    (h : getString config key fallback = .ok text) : Utf8.Valid text := by
  unfold getString at h
  split at h
  · cases h
    exact hfallback
  · cases h
    exact Json.validText_string.1 (validText_of_present hconfig ‹_›)
  · cases h

theorem valid_toHex (payload : Bytes) : Utf8.Valid (toHex payload false) := by
  have hdigit : ∀ n < 16, hexDigit n < 0x80 := by decide
  refine Utf8.valid_of_sevenBit fun ch hch => ?_
  simp only [toHex, Bool.false_eq_true, if_false, List.mem_flatten, List.mem_map] at hch
  obtain ⟨pair, ⟨byte, -, rfl⟩, hpair⟩ := hch
  have hlt := byte.toNat_lt
  simp only [List.mem_cons, List.not_mem_nil, or_false] at hpair
  rcases hpair with rfl | rfl
  · exact hdigit _ (by omega)
  · exact hdigit _ (by omega)

theorem valid_parity (parity : SerialParity) : Utf8.Valid parity.toText := by
  cases parity <;> decide

theorem valid_flowControl (flowControl : SerialFlowControl) : Utf8.Valid flowControl.toText := by
  cases flowControl <;> decide

theorem decoderConfigToJson_validText {config : DecoderConfig} :
    (decoderConfigToJson config).validText = true ↔
      Utf8.Valid config.decoder ∧ Utf8.Valid config.lengthEndian := by
  simp only [decoderConfigToJson, Json.validText, Json.validMembers, Bool.and_eq_true,
    decide_eq_true_eq]
  have hhex := valid_toHex config.delimiter
  have hkeys : Utf8.Valid (ascii "decoder") ∧ Utf8.Valid (ascii "frame_size") ∧
      Utf8.Valid (ascii "delimiter_hex") ∧ Utf8.Valid (ascii "include_delimiter") ∧
      Utf8.Valid (ascii "length_size") ∧ Utf8.Valid (ascii "length_endian") ∧
      Utf8.Valid (ascii "length_includes_header") := by decide
  tauto

theorem decoderConfigFromJson_validText {lib : JsonLibrary} {decoder : Json}
    {config : DecoderConfig}
    (hdecoder : decoder.validText = true) (h : decoderConfigFromJson lib decoder = .ok config) :
    (decoderConfigToJson config).validText = true := by
  simp only [decoderConfigFromJson, bind_eq_ok_iff] at h
  obtain ⟨name, hname, _, -, _, -, _, -, _, -, _, -, lengthEndian, hendian, _, -, h⟩ := h
  cases h
  exact decoderConfigToJson_validText.2 ⟨valid_of_getString hdecoder (by decide) hname,
    valid_of_getString hdecoder (by decide) hendian⟩

theorem engineConfigToJson_validText {options : CliOptions} :
    (engineConfigToJson options).validText = true ↔
      Utf8.Valid options.mode ∧ Utf8.Valid options.host ∧ Utf8.Valid options.serialPort ∧
      Utf8.Valid options.listenHost ∧ Utf8.Valid options.bindHost ∧ Utf8.Valid options.targetHost ∧
      Utf8.Valid options.logPath ∧
        (decoderConfigToJson options.decoderConfig).validText = true := by
  simp only [engineConfigToJson, Json.validText, Json.validMembers, Bool.and_eq_true,
    decide_eq_true_eq]
  have hparity := valid_parity options.parity
  have hflow := valid_flowControl options.flowControl
  have hkeys : Utf8.Valid (ascii "mode") ∧ Utf8.Valid (ascii "host") ∧ Utf8.Valid (ascii "port") ∧
      Utf8.Valid (ascii "serial_port") ∧ Utf8.Valid (ascii "baudrate") ∧
      Utf8.Valid (ascii "data_bits") ∧ Utf8.Valid (ascii "stop_bits") ∧
      Utf8.Valid (ascii "parity") ∧ Utf8.Valid (ascii "flow_control") ∧
      Utf8.Valid (ascii "listen_host") ∧ Utf8.Valid (ascii "listen_port") ∧
      Utf8.Valid (ascii "bind_host") ∧ Utf8.Valid (ascii "bind_port") ∧
      Utf8.Valid (ascii "target_host") ∧ Utf8.Valid (ascii "target_port") ∧
      Utf8.Valid (ascii "log_path") ∧ Utf8.Valid (ascii "hex_raw") ∧
      Utf8.Valid (ascii "hex_frame") ∧ Utf8.Valid (ascii "latency") ∧
      Utf8.Valid (ascii "decoder") := by decide
  simp only [hkeys, hparity, hflow, true_and, and_true]

theorem engineConfigFromJson_validText {lib : JsonLibrary} {config : Json} {options : CliOptions}
    (hconfig : config.validText = true) (h : engineConfigFromJson lib config = .ok options) :
    (engineConfigToJson options).validText = true := by
  have hdefault : (decoderConfigToJson {}).validText = true :=
    decoderConfigToJson_validText.2 ⟨by decide, by decide⟩
  simp only [engineConfigFromJson, bind_eq_ok_iff] at h
  obtain ⟨_, -, mode, hmode, host, hhost, _, -, serialPort, hserialPort, _, -, _, -, _, -, _, -, _,
    -, _, -, _, -, listenHost, hlistenHost, _, -, bindHost, hbindHost, _, -, targetHost,
    htargetHost, _, -, logPath, hlogPath, _, -, _, -, _, -, decoderConfig, hdecoder, h⟩ := h
  cases h
  refine engineConfigToJson_validText.2 ⟨valid_of_getString hconfig (by decide) hmode,
    valid_of_getString hconfig (by decide) hhost,
    valid_of_getString hconfig (by decide) hserialPort,
    valid_of_getString hconfig (by decide) hlistenHost,
    valid_of_getString hconfig (by decide) hbindHost,
    valid_of_getString hconfig (by decide) htargetHost,
    valid_of_getString hconfig (by decide) hlogPath, ?_⟩
  unfold getWith at hdecoder
  split at hdecoder
  · cases hdecoder
    exact hdefault
  · obtain ⟨_, -, hread⟩ := bind_eq_ok_iff.1 hdecoder
    exact decoderConfigFromJson_validText (validText_of_present hconfig ‹_›) hread

theorem ipcPath_of_engineConfigFromJson {lib : JsonLibrary} {config : Json} {options : CliOptions}
    (h : engineConfigFromJson lib config = .ok options) : options.ipcPath = [] := by
  simp only [engineConfigFromJson, bind_eq_ok_iff] at h
  obtain ⟨_, -, _, -, _, -, _, -, _, -, _, -, _, -, _, -, _, -, _, -, _, -, _, -, _, -, _, -, _, -,
    _, -, _, -, _, -, _, -, _, -, _, -, _, -, _, -, h⟩ := h
  cases h
  rfl

end PacketProbe
