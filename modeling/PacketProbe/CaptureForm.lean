import PacketProbe.WireCommands

/-!
# The capture form of a viewer

What is filled into the widgets of a `MainWindow`, and the configuration that
`_collect_capture_config` and `build_capture_config` make of it.
-/

namespace PacketProbe
open JsonText

/-! ### Integers -/

/-- The zeros of the rows of decimal digits in Unicode. -/
def digitZeros : List ℕ :=
  [0x30, 0x660, 0x6F0, 0x7C0, 0x966, 0x9E6, 0xA66, 0xAE6, 0xB66, 0xBE6, 0xC66, 0xCE6, 0xD66, 0xDE6,
    0xE50, 0xED0, 0xF20, 0x1040, 0x1090, 0x17E0, 0x1810, 0x1946, 0x19D0, 0x1A80, 0x1A90, 0x1B50,
    0x1BB0, 0x1C40, 0x1C50, 0xA620, 0xA8D0, 0xA900, 0xA9D0, 0xA9F0, 0xAA50, 0xABF0, 0xFF10, 0x104A0,
    0x10D30, 0x11066, 0x110F0, 0x11136, 0x111D0, 0x112F0, 0x11450, 0x114D0, 0x11650, 0x116C0,
    0x11730, 0x118E0, 0x11950, 0x11C50, 0x11D50, 0x11DA0, 0x16A60,
    0x16AC0, 0x16B50, 0x1D7CE, 0x1D7D8, 0x1D7E2, 0x1D7EC, 0x1D7F6, 0x1E140, 0x1E2F0, 0x1E950,
    0x1FBF0]

/-- `unicodedata.decimal`. -/
def unicodeDigit (c : ℕ) : Option ℕ :=
  (digitZeros.find? fun row => row ≤ c && c < row + 10).map (c - ·)

/-- The digits of a numeral, with single underscores between them. -/
def pyDigits (afterDigit : Bool) : Text → Option (List ℕ)
  | [] => if afterDigit then some [] else none
  | c :: text =>
    if c = 0x5F then
      if afterDigit then pyDigits false text else none
    else
      match unicodeDigit c with
      | some d => (pyDigits true text).map (d :: ·)
      | none => none

/-- The default of `sys.get_int_max_str_digits()`. -/
def maxStrDigits : ℕ := 4300

def pyNatural (text : Text) : Option ℕ :=
  match pyDigits false text with
  | some digits =>
    if digits.length ≤ maxStrDigits then some (digits.foldl (fun n d => 10 * n + d) 0) else none
  | none => none

/-- `int(text)` for a text without whitespace around it, with nothing for a `ValueError`. -/
def pyInt (text : Text) : Option ℤ :=
  match text with
  | [] => none
  | c :: rest =>
    if c = 0x2D then (pyNatural rest).map fun n => -(n : ℤ)
    else if c = 0x2B then (pyNatural rest).map fun n => (n : ℤ)
    else (pyNatural (c :: rest)).map fun n => (n : ℤ)

/-! ### Modes -/

/-- The `ValueError`s of `capture_command.py`. -/
inductive ConfigError where
  | unknownMode (uiMode : Text)
  | numberExpected (fieldName : String) (value : Text)
  | portRange (fieldName : String) (port : ℤ)

/-- `str(exc)`, with `repr` for what Python writes for a text. -/
def ConfigError.text (repr : Text → Text) : ConfigError → Text
  | unknownMode uiMode => codes "unknown capture mode: " ++ uiMode
  | numberExpected fieldName value => codes fieldName ++ codes " must be a number: " ++ repr value
  | portRange fieldName port =>
    codes fieldName ++ codes " must be between 0 and 65535: " ++ integerText port

/-- `_MODE_UI_TO_ENGINE`. -/
def modeUiToEngine : List (Text × Text) :=
  [(codes "UDP", codes "udp"), (codes "TCP Client", codes "tcp-client"),
    (codes "TCP Server", codes "tcp-server"), (codes "TCP Proxy", codes "tcp-proxy"),
    (codes "Serial", codes "serial")]

def engineModeForUi (uiMode : Text) : Except ConfigError Text :=
  match modeUiToEngine.lookup uiMode with
  | some mode => .ok mode
  | none => .error (.unknownMode uiMode)

/-- An empty text is port 0. -/
def pyParsePort (value : Text) (fieldName : String) : Except ConfigError ℤ :=
  let value := strip value
  if value = [] then .ok 0
  else
    match pyInt value with
    | none => .error (.numberExpected fieldName value)
    | some port => if port < 0 ∨ port > 65535 then .error (.portRange fieldName port) else .ok port

/-! ### Configurations -/

/-- The dict of `build_decoder_config`. -/
structure ViewerDecoderConfig where
  decoder : Text
  frameSize : ℤ := 0
  delimiterHex : Text := []
  includeDelimiter : Bool := true
  lengthSize : ℤ := 2
  lengthEndian : Text := codes "big"
  lengthIncludesHeader : Bool := false

def ViewerDecoderConfig.members (config : ViewerDecoderConfig) : List (Text × Value) :=
  [(codes "decoder", .string config.decoder),
    (codes "frame_size", .integer config.frameSize),
    (codes "delimiter_hex", .string config.delimiterHex),
    (codes "include_delimiter", .boolean config.includeDelimiter),
    (codes "length_size", .integer config.lengthSize),
    (codes "length_endian", .string config.lengthEndian),
    (codes "length_includes_header", .boolean config.lengthIncludesHeader)]

def ViewerDecoderConfig.value (config : ViewerDecoderConfig) : Value := .object config.members

/-- The dict `common`. -/
structure CommonSettings where
  logPath : Text := []
  hexRaw : Bool := false
  hexFrame : Bool := false
  latency : Bool := true

/-- The dict of `build_capture_config`. -/
structure ViewerConfig where
  mode : Text
  host : Text := []
  port : ℤ := 0
  serialPort : Text := []
  baudrate : ℤ := 115200
  listenHost : Text := []
  listenPort : ℤ := 0
  bindHost : Text := codes "0.0.0.0"
  bindPort : ℤ := 0
  targetHost : Text := []
  targetPort : ℤ := 0
  common : CommonSettings
  decoder : ViewerDecoderConfig

def ViewerConfig.members (config : ViewerConfig) : List (Text × Value) :=
  [(codes "mode", .string config.mode),
    (codes "host", .string config.host),
    (codes "port", .integer config.port),
    (codes "serial_port", .string config.serialPort),
    (codes "baudrate", .integer config.baudrate),
    (codes "listen_host", .string config.listenHost),
    (codes "listen_port", .integer config.listenPort),
    (codes "bind_host", .string config.bindHost),
    (codes "bind_port", .integer config.bindPort),
    (codes "target_host", .string config.targetHost),
    (codes "target_port", .integer config.targetPort),
    (codes "log_path", .string config.common.logPath),
    (codes "hex_raw", .boolean config.common.hexRaw),
    (codes "hex_frame", .boolean config.common.hexFrame),
    (codes "latency", .boolean config.common.latency),
    (codes "decoder", config.decoder.value)]

def ViewerConfig.value (config : ViewerConfig) : Value := .object config.members

/-- `fields.get(name, default)`. -/
def fieldOf (fields : List (String × Text)) (name : String) (default : Text) : Text :=
  (fields.lookup name).getD default

/-- `text or default`. -/
def orElse (text default : Text) : Text := if text = [] then default else text

/-- `int` of the baud rate, if there is one. -/
def pyParseBaudrate (value : Text) (fallback : ℤ) : Except ConfigError ℤ :=
  let value := strip value
  if value = [] then .ok fallback
  else
    match pyInt value with
    | none => .error (.numberExpected "Baud Rate" value)
    | some baudrate => .ok baudrate

def buildCaptureConfig (uiMode : Text) (fields : List (String × Text))
    (decoder : ViewerDecoderConfig)
    (common : CommonSettings) : Except ConfigError ViewerConfig := do
  let mode ← engineModeForUi uiMode
  let config : ViewerConfig := { mode, common, decoder }
  if mode = codes "udp" then
    let bindHost := orElse (strip (fieldOf fields "bind_host" (codes "0.0.0.0"))) (codes "0.0.0.0")
    let bindPort ← pyParsePort (fieldOf fields "bind_port" []) "Bind Port"
    let targetHost := strip (fieldOf fields "target_host" [])
    let targetPort ← pyParsePort (fieldOf fields "target_port" []) "Target Port"
    .ok { config with bindHost, bindPort, targetHost, targetPort }
  else if mode = codes "tcp-client" then
    let host := strip (fieldOf fields "host" [])
    let port ← pyParsePort (fieldOf fields "port" []) "Remote Port"
    .ok { config with host, port }
  else if mode = codes "tcp-server" then
    let listenHost := strip (fieldOf fields "listen_host" [])
    let listenPort ← pyParsePort (fieldOf fields "listen_port" []) "Listen Port"
    .ok { config with listenHost, listenPort }
  else if mode = codes "tcp-proxy" then
    let listenHost := strip (fieldOf fields "listen_host" [])
    let listenPort ← pyParsePort (fieldOf fields "listen_port" []) "Listen Port"
    let targetHost := strip (fieldOf fields "target_host" [])
    let targetPort ← pyParsePort (fieldOf fields "target_port" []) "Target Port"
    .ok { config with listenHost, listenPort, targetHost, targetPort }
  else if mode = codes "serial" then
    let serialPort := strip (fieldOf fields "serial_port" [])
    let baudrate ← pyParseBaudrate (fieldOf fields "baudrate" []) config.baudrate
    .ok { config with serialPort, baudrate }
  else .ok config

/-! ### The widgets -/

/-- The entries of the mode box. -/
inductive UiMode where
  | udp | tcpClient | tcpServer | tcpProxy | serial
  deriving DecidableEq

def UiMode.label : UiMode → Text
  | udp => codes "UDP"
  | tcpClient => codes "TCP Client"
  | tcpServer => codes "TCP Server"
  | tcpProxy => codes "TCP Proxy"
  | serial => codes "Serial"

/-- The entries of the decoder box. -/
inductive DecoderChoice where
  | raw | fixed | delimiter | lengthPrefix
  deriving DecidableEq

def DecoderChoice.label : DecoderChoice → Text
  | raw => codes "raw"
  | fixed => codes "fixed"
  | delimiter => codes "delimiter"
  | lengthPrefix => codes "length-prefix"

/-- The entries of the box for the size of a length. -/
inductive LengthSizeChoice where
  | one | two | four
  deriving DecidableEq

def LengthSizeChoice.size : LengthSizeChoice → ℕ
  | one => 1
  | two => 2
  | four => 4

inductive EndianChoice where
  | big | little
  deriving DecidableEq

def EndianChoice.label : EndianChoice → Text
  | big => codes "big"
  | little => codes "little"

/-- The values that the spin box lets through. -/
abbrev FrameSize := { n : ℕ // 1 ≤ n ∧ n ≤ 1000000 }

/-- The widgets. A box whose entries are fixed has one of them chosen, or none. -/
structure CaptureForm where
  mode : Option UiMode := some .udp
  udpBindHost : Text := codes "0.0.0.0"
  udpBindPort : Text := codes "19000"
  udpTargetHost : Text := codes "127.0.0.1"
  udpTargetPort : Text := codes "19085"
  tcpCliHost : Text := codes "127.0.0.1"
  tcpCliPort : Text := codes "19085"
  tcpSrvHost : Text := codes "0.0.0.0"
  tcpSrvPort : Text := codes "19085"
  tcpPrxListenHost : Text := codes "127.0.0.1"
  tcpPrxListenPort : Text := codes "19000"
  tcpPrxTargetHost : Text := codes "127.0.0.1"
  tcpPrxTargetPort : Text := codes "19085"
  serPort : Text := codes "/dev/ttyUSB0"
  serBaud : Text := codes "115200"
  decoder : Option DecoderChoice := some .raw
  decFixedSize : FrameSize := ⟨16, by decide⟩
  decDelim : Text := codes "0A"
  decDelimInc : Bool := false
  decLenSize : LengthSizeChoice := .two
  decLenEndian : EndianChoice := .big
  decLenIncHdr : Bool := false
  logFile : Text := codes "capture.jsonl"
  logEnabled : Bool := false

namespace CaptureForm

/-- `currentText()` of the mode box. -/
def modeText (form : CaptureForm) : Text := (form.mode.map UiMode.label).getD []

def decoderText (form : CaptureForm) : Text := (form.decoder.map DecoderChoice.label).getD []

def fields (form : CaptureForm) : List (String × Text) :=
  match form.mode with
  | some .udp =>
    [("bind_host", form.udpBindHost), ("bind_port", form.udpBindPort),
      ("target_host", form.udpTargetHost), ("target_port", form.udpTargetPort)]
  | some .tcpClient => [("host", form.tcpCliHost), ("port", form.tcpCliPort)]
  | some .tcpServer => [("listen_host", form.tcpSrvHost), ("listen_port", form.tcpSrvPort)]
  | some .tcpProxy =>
    [("listen_host", form.tcpPrxListenHost), ("listen_port", form.tcpPrxListenPort),
      ("target_host", form.tcpPrxTargetHost), ("target_port", form.tcpPrxTargetPort)]
  | some .serial => [("serial_port", form.serPort), ("baudrate", form.serBaud)]
  | none => []

def decoderConfig (form : CaptureForm) : ViewerDecoderConfig where
  decoder := form.decoderText
  frameSize := form.decFixedSize.1
  delimiterHex := strip form.decDelim
  includeDelimiter := form.decDelimInc
  lengthSize := form.decLenSize.size
  lengthEndian := form.decLenEndian.label
  lengthIncludesHeader := form.decLenIncHdr

def commonSettings (form : CaptureForm) : CommonSettings where
  logPath := if form.logEnabled then strip form.logFile else []

/-- `_collect_capture_config`. -/
def collectCaptureConfig (form : CaptureForm) : Except ConfigError ViewerConfig :=
  buildCaptureConfig form.modeText form.fields form.decoderConfig form.commonSettings

end CaptureForm

end PacketProbe
