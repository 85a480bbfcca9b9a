import PacketProbe.EngineConfig

/-!
# The command line

`parse_args`, which reads one option after the other into the options read so far.
-/

namespace PacketProbe

/-- What an argument does to the options: it is complete, or it is an option that takes the
next argument as its value. -/
inductive ArgEffect where
  | done (options : Except StdException CliOptions)
  | takesValue (read : ByteString → Except StdException CliOptions)

def parsePort (value : ByteString) : Except StdException UInt16 := do
  let (port, parsed) ← stoul value 10
  if parsed ≠ value.length ∨ port = 0 ∨ port > 65535 then .error (invalidValue "--port" value)
  else .ok port.toUInt16

/-! ### Send options -/

def setSendFormat (options : CliOptions) (format : SendInputFormat) (filePath : ByteString) :
    Except StdException CliOptions :=
  let options := { options with sendOptionCount := options.sendOptionCount + 1 }
  if options.sendOptionCount > 1 then
    .error (invalidArgument
      (ascii "--send-text, --send-hex, and --send-file cannot be used together"))
  else .ok { options with sendOptions := { format, filePath } }

def parseSendOption (options : CliOptions) (arg : ByteString) : Option ArgEffect :=
  if arg = ascii "--send-text" then some (.done (setSendFormat options .text []))
  else if arg = ascii "--send-hex" then some (.done (setSendFormat options .hex []))
  else if arg = ascii "--send-file" then
    some (.takesValue fun value => setSendFormat options .file value)
  else none

/-! ### Decoder options -/

/-- `std::stoul(value)`, which ignores what stands behind the number. -/
def stoulPrefix (value : ByteString) : Except StdException UInt64 := do
  let (number, _) ← stoul value 10
  .ok number

def parseDecoderOption (options : CliOptions) (arg : ByteString) : Option ArgEffect :=
  let set (decoderConfig : DecoderConfig) : CliOptions := { options with decoderConfig }
  let config := options.decoderConfig
  if arg = ascii "--decoder" then
    some (.takesValue fun value => .ok (set { config with decoder := value }))
  else if arg = ascii "--frame-size" then
    some (.takesValue fun value => do .ok (set { config with frameSize := ← stoulPrefix value }))
  else if arg = ascii "--delimiter" then
    some (.takesValue fun value =>
      do .ok (set { config with delimiter := ← parseDelimiterBytes value }))
  else if arg = ascii "--include-delimiter" then
    some (.done (.ok (set { config with includeDelimiter := true })))
  else if arg = ascii "--length-size" then
    some (.takesValue fun value => do .ok (set { config with lengthSize := ← stoulPrefix value }))
  else if arg = ascii "--length-endian" then
    some (.takesValue fun value => .ok (set { config with lengthEndian := value }))
  else if arg = ascii "--length-includes-header" then
    some (.done (.ok (set { config with lengthIncludesHeader := true })))
  else none

/-! ### Arguments -/

def startsWithDash (arg : ByteString) : Bool := arg.head? = some 45

/-- The options of the connection, the serial line, the log and the IPC socket, and the mode. -/
def parseCaptureOption (options : CliOptions) (arg : ByteString) : ArgEffect :=
  if arg = ascii "--host" then .takesValue fun value => .ok { options with host := value }
  else if arg = ascii "--port" then
    .takesValue fun value =>
      if options.mode = ascii "serial" then .ok { options with serialPort := value }
      else do .ok { options with port := ← parsePort value }
  else if arg = ascii "--baudrate" then
    .takesValue fun value => do .ok { options with baudrate := ← parseSerialBaudrate value }
  else if arg = ascii "--data-bits" then
    .takesValue fun value => do .ok { options with dataBits := ← parseSerialDataBits value }
  else if arg = ascii "--stop-bits" then
    .takesValue fun value => do .ok { options with stopBits := ← parseSerialStopBits value }
  else if arg = ascii "--parity" then
    .takesValue fun value => do .ok { options with parity := ← parseSerialParity value }
  else if arg = ascii "--flow-control" then
    .takesValue fun value => do .ok { options with flowControl := ← parseSerialFlowControl value }
  else if arg = ascii "--listen-host" then
    .takesValue fun value => .ok { options with listenHost := value }
  else if arg = ascii "--listen-port" then
    .takesValue fun value => do .ok { options with listenPort := ← parsePort value }
  else if arg = ascii "--bind-host" then
    .takesValue fun value => .ok { options with bindHost := value }
  else if arg = ascii "--bind-port" then
    .takesValue fun value => do .ok { options with bindPort := ← parsePort value }
  else if arg = ascii "--target-host" then
    .takesValue fun value => .ok { options with targetHost := value }
  else if arg = ascii "--target-port" then
    .takesValue fun value => do .ok { options with targetPort := ← parsePort value }
  else if arg = ascii "--log" then .takesValue fun value => .ok { options with logPath := value }
  else if arg = ascii "--ipc" then .takesValue fun value => .ok { options with ipcPath := value }
  else if startsWithDash arg then
    .done (.error (invalidArgument (ascii "unknown option: " ++ arg)))
  else if options.mode = [] then .done (.ok { options with mode := arg })
  else .done (.error (invalidArgument (ascii "unexpected argument: " ++ arg)))

/-- One turn of the loop of `parse_args`. -/
def parseArg (options : CliOptions) (arg : ByteString) : ArgEffect :=
  if arg = ascii "--help" then .done (.ok { options with help := true })
  else if arg = ascii "--version" then .done (.ok { options with version := true })
  else if arg = ascii "--hex" ∨ arg = ascii "--hex-raw" then
    .done (.ok { options with hexRaw := true })
  else if arg = ascii "--hex-frame" then .done (.ok { options with hexFrame := true })
  else if arg = ascii "--latency" then .done (.ok { options with latency := true })
  else
    ((parseSendOption options arg).or (parseDecoderOption options arg)).getD
      (parseCaptureOption options arg)

/-- The loop over the arguments behind the name of the program. -/
def parseArgsFrom (options : CliOptions) : List ByteString → Except StdException CliOptions
  | [] => .ok options
  | arg :: args =>
    match parseArg options arg with
    | .done (.ok options) => parseArgsFrom options args
    | .done (.error ex) => .error ex
    | .takesValue read =>
      match args with
      | [] => .error (invalidArgument (arg ++ ascii " requires a value"))
      | value :: args =>
        match read value with
        | .ok options => parseArgsFrom options args
        | .error ex => .error ex

def parseArgs (args : List ByteString) : Except StdException CliOptions := parseArgsFrom {} args

end PacketProbe
