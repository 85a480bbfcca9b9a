import PacketProbe.ConfigRoundTrip

/-!
# The members of a configuration

The options are read from a configuration member by member, each on its own. Changing one
member changes the option read from it, and no other.
-/

namespace PacketProbe

/-! ### Objects with another member -/

namespace Json

/-- The object with this member, in place of any other of its name. -/
def insert (value : Json) (key : ByteString) (member : Json) : Json :=
  match value with
  | .object members => .object ((key, member) :: members.filter fun old => old.1 != key)
  | value => value

variable {members : List (ByteString × Json)} {key other : ByteString} {member value : Json}

theorem lookup_filter_of_ne (h : other ≠ key) :
    (members.filter fun old => old.1 != key).lookup other = members.lookup other := by
  induction members with
  | nil => rfl
  | cons first rest ih =>
    obtain ⟨name, found⟩ := first
    by_cases hname : name = key
    · have hother : (other == name) = false := by
        rw [hname]
        exact beq_eq_false_iff_ne.2 h
      rw [List.filter_cons_of_neg (by simp [hname]), ih, List.lookup_cons, hother]
    · rw [List.filter_cons_of_pos (by simp [hname]), List.lookup_cons, List.lookup_cons, ih]

theorem find_insert (h : value.isObject = true) :
    (value.insert key member).find key = some member := by
  cases value with
  | object members => exact List.lookup_cons_self
  | _ => cases h

theorem find_insert_of_ne (h : other ≠ key) :
    (value.insert key member).find other = value.find other := by
  cases value with
  | object members =>
    have hother : (other == key) = false := beq_eq_false_iff_ne.2 h
    change List.lookup other ((key, member) :: _) = _
    rw [List.lookup_cons, hother, lookup_filter_of_ne h]
    rfl
  | _ => rfl

theorem isObject_insert : (value.insert key member).isObject = value.isObject := by
  cases value <;> rfl

end Json

variable {lib : JsonLibrary} {config config' : Json} {options result : CliOptions} {v w : Json}

theorem present_insert {key : String} (h : config.isObject = true) (hv : v.isNull = false) :
    present (config.insert (ascii key) v) key = some v := by
  rw [present, Json.find_insert h, Option.filter_some, hv]
  rfl

theorem present_insert_null {key : String} (h : config.isObject = true) :
    present (config.insert (ascii key) .null) key = none := by
  rw [present, Json.find_insert h]
  rfl

theorem present_insert_of_ne {key other : String} (h : ascii other ≠ ascii key) (config v : Json) :
    present (config.insert (ascii key) v) other = present config other := by
  rw [present, Json.find_insert_of_ne h, present]

/-! ### The members of `config` -/

inductive ConfigKey where
  | mode | host | port | serialPort | baudrate | dataBits | stopBits | parity | flowControl
  | listenHost | listenPort | bindHost | bindPort | targetHost | targetPort | logPath | hexRaw
  | hexFrame | latency | decoder
  deriving DecidableEq

namespace ConfigKey

def name : ConfigKey → String
  | mode => "mode"
  | host => "host"
  | port => "port"
  | serialPort => "serial_port"
  | baudrate => "baudrate"
  | dataBits => "data_bits"
  | stopBits => "stop_bits"
  | parity => "parity"
  | flowControl => "flow_control"
  | listenHost => "listen_host"
  | listenPort => "listen_port"
  | bindHost => "bind_host"
  | bindPort => "bind_port"
  | targetHost => "target_host"
  | targetPort => "target_port"
  | logPath => "log_path"
  | hexRaw => "hex_raw"
  | hexFrame => "hex_frame"
  | latency => "latency"
  | decoder => "decoder"

/-- What is read from this member is what the options have. -/
def ReadAs (lib : JsonLibrary) (config : Json) (options : CliOptions) : ConfigKey → Prop
  | mode => getString config "mode" [] = .ok options.mode
  | host => getString config "host" [] = .ok options.host
  | port => getPort config "port" 0 = .ok options.port
  | serialPort => getString config "serial_port" [] = .ok options.serialPort
  | baudrate => getWith config "baudrate" 115200 (fun value => do
      parseSerialBaudrate (decimal (← lib.getUInt64 value).toNat)) = .ok options.baudrate
  | dataBits => getWith config "data_bits" 8 (fun value => do
      parseSerialDataBits (signedDecimal (← lib.getInt value).toInt)) = .ok options.dataBits
  | stopBits => getWith config "stop_bits" 1 (fun value => do
      parseSerialStopBits (signedDecimal (← lib.getInt value).toInt)) = .ok options.stopBits
  | parity => (getString config "parity" (ascii "none") >>= parseSerialParity) = .ok options.parity
  | flowControl => (getString config "flow_control" (ascii "none") >>= parseSerialFlowControl) =
      .ok options.flowControl
  | listenHost => getString config "listen_host" [] = .ok options.listenHost
  | listenPort => getPort config "listen_port" 0 = .ok options.listenPort
  | bindHost => getString config "bind_host" (ascii "0.0.0.0") = .ok options.bindHost
  | bindPort => getPort config "bind_port" 0 = .ok options.bindPort
  | targetHost => getString config "target_host" [] = .ok options.targetHost
  | targetPort => getPort config "target_port" 0 = .ok options.targetPort
  | logPath => getString config "log_path" [] = .ok options.logPath
  | hexRaw => getBool config "hex_raw" false = .ok options.hexRaw
  | hexFrame => getBool config "hex_frame" false = .ok options.hexFrame
  | latency => getBool config "latency" true = .ok options.latency
  | decoder => getWith config "decoder" {} (fun decoder => do
      throwIf (decoder.isObject = false) "config.decoder must be an object"
      decoderConfigFromJson lib decoder) = .ok options.decoderConfig

theorem readAs_congr (key : ConfigKey) (h : present config key.name = present config' key.name) :
    key.ReadAs lib config options ↔ key.ReadAs lib config' options := by
  cases key <;> simp only [name] at h <;>
    simp only [ReadAs, getString, getPort, getBool, getWith, h]

theorem name_ne {key other : ConfigKey} (h : other ≠ key) : ascii other.name ≠ ascii key.name := by
  cases key <;> cases other <;> first | exact absurd rfl h | decide

end ConfigKey

/-- The options are read member by member; what is not carried is as in new options. -/
theorem engineConfigFromJson_eq_ok_iff :
    engineConfigFromJson lib config = .ok options ↔
      config.isObject = true ∧ options.carried = options ∧
        ∀ key : ConfigKey, key.ReadAs lib config options := by
  simp only [engineConfigFromJson, bind_eq_ok_iff, throwIf_eq_ok_iff, Bool.not_eq_false]
  constructor
  · rintro ⟨_, hobject, mode, hmode, host, hhost, port, hport, serialPort, hserialPort, baudrate,
      hbaudrate, dataBits, hdataBits, stopBits, hstopBits, _, hparityText, parity, hparity, _,
      hflowControlText, flowControl, hflowControl, listenHost, hlistenHost, listenPort, hlistenPort,
      bindHost, hbindHost, bindPort, hbindPort, targetHost, htargetHost, targetPort, htargetPort,
      logPath, hlogPath, hexRaw, hhexRaw, hexFrame, hhexFrame, latency, hlatency, decoderConfig,
      hdecoder, h⟩
    cases h
    refine ⟨hobject, rfl, fun key => ?_⟩
    cases key with
    | mode => exact hmode
    | host => exact hhost
    | port => exact hport
    | serialPort => exact hserialPort
    | baudrate => exact hbaudrate
    | dataBits => exact hdataBits
    | stopBits => exact hstopBits
    | parity => exact bind_eq_ok_iff.2 ⟨_, hparityText, hparity⟩
    | flowControl => exact bind_eq_ok_iff.2 ⟨_, hflowControlText, hflowControl⟩
    | listenHost => exact hlistenHost
    | listenPort => exact hlistenPort
    | bindHost => exact hbindHost
    | bindPort => exact hbindPort
    | targetHost => exact htargetHost
    | targetPort => exact htargetPort
    | logPath => exact hlogPath
    | hexRaw => exact hhexRaw
    | hexFrame => exact hhexFrame
    | latency => exact hlatency
    | decoder => exact hdecoder
  · rintro ⟨hobject, hcarried, hreads⟩
    obtain ⟨_, hparityText, hparity⟩ := bind_eq_ok_iff.1 (hreads .parity)
    obtain ⟨_, hflowControlText, hflowControl⟩ := bind_eq_ok_iff.1 (hreads .flowControl)
    exact ⟨(), hobject, _, hreads .mode, _, hreads .host, _, hreads .port, _, hreads .serialPort, _,
      hreads .baudrate, _, hreads .dataBits, _, hreads .stopBits, _, hparityText, _, hparity, _,
      hflowControlText, _, hflowControl, _, hreads .listenHost, _, hreads .listenPort, _,
      hreads .bindHost, _, hreads .bindPort, _, hreads .targetHost, _, hreads .targetPort, _,
      hreads .logPath, _, hreads .hexRaw, _, hreads .hexFrame, _, hreads .latency, _,
      hreads .decoder, congrArg Except.ok hcarried⟩

/-- One member is changed, and what is read from it now is what the new options have; they agree
with the old ones in everything else. -/
theorem engineConfig_insert {key : ConfigKey}
    (h : engineConfigFromJson lib (config.insert (ascii key.name) w) = .ok options)
    (hcarried : result.carried = result)
    (hsame : ∀ other ≠ key, ∀ config, other.ReadAs lib config options →
      other.ReadAs lib config result)
    (hread : key.ReadAs lib (config.insert (ascii key.name) v) result) :
    engineConfigFromJson lib (config.insert (ascii key.name) v) = .ok result := by
  obtain ⟨hobject, -, hothers⟩ := engineConfigFromJson_eq_ok_iff.1 h
  rw [Json.isObject_insert] at hobject
  refine engineConfigFromJson_eq_ok_iff.2 ⟨Json.isObject_insert.trans hobject, hcarried,
    fun other => ?_⟩
  by_cases hkey : other = key
  · rwa [hkey]
  · apply hsame other hkey
    have hpresent := present_insert_of_ne (ConfigKey.name_ne hkey)
    exact (other.readAs_congr ((hpresent config v).trans (hpresent config w).symm)).2
      (hothers other)

/-! ### The members of `decoder` -/

inductive DecoderKey where
  | decoder | frameSize | delimiterHex | includeDelimiter | lengthSize | lengthEndian
  | lengthIncludesHeader
  deriving DecidableEq

namespace DecoderKey

def name : DecoderKey → String
  | decoder => "decoder"
  | frameSize => "frame_size"
  | delimiterHex => "delimiter_hex"
  | includeDelimiter => "include_delimiter"
  | lengthSize => "length_size"
  | lengthEndian => "length_endian"
  | lengthIncludesHeader => "length_includes_header"

def ReadAs (lib : JsonLibrary) (config : Json) (options : DecoderConfig) : DecoderKey → Prop
  | decoder => getString config "decoder" (ascii "raw") = .ok options.decoder
  | frameSize => getWith config "frame_size" 0 lib.getUInt64 = .ok options.frameSize
  | delimiterHex =>
    (getString config "delimiter_hex" [] >>= delimiterFromHex) = .ok options.delimiter
  | includeDelimiter => getBool config "include_delimiter" true = .ok options.includeDelimiter
  | lengthSize => getWith config "length_size" 2 lib.getUInt64 = .ok options.lengthSize
  | lengthEndian => getString config "length_endian" (ascii "big") = .ok options.lengthEndian
  | lengthIncludesHeader =>
    getBool config "length_includes_header" false = .ok options.lengthIncludesHeader

theorem readAs_congr {options : DecoderConfig} (key : DecoderKey)
    (h : present config key.name = present config' key.name) :
    key.ReadAs lib config options ↔ key.ReadAs lib config' options := by
  cases key <;> simp only [name] at h <;> simp only [ReadAs, getString, getBool, getWith, h]

theorem name_ne {key other : DecoderKey} (h : other ≠ key) : ascii other.name ≠ ascii key.name := by
  cases key <;> cases other <;> first | exact absurd rfl h | decide

end DecoderKey

theorem decoderConfigFromJson_eq_ok_iff {options : DecoderConfig} :
    decoderConfigFromJson lib config = .ok options ↔
      ∀ key : DecoderKey, key.ReadAs lib config options := by
  simp only [decoderConfigFromJson, bind_eq_ok_iff]
  constructor
  · rintro ⟨name, hname, frameSize, hframeSize, _, hdelimiterHex, delimiter, hdelimiter,
      includeDelimiter, hincludeDelimiter, lengthSize, hlengthSize, lengthEndian, hlengthEndian,
      lengthIncludesHeader, hlengthIncludesHeader, h⟩
    cases h
    intro key
    cases key with
    | decoder => exact hname
    | frameSize => exact hframeSize
    | delimiterHex => exact bind_eq_ok_iff.2 ⟨_, hdelimiterHex, hdelimiter⟩
    | includeDelimiter => exact hincludeDelimiter
    | lengthSize => exact hlengthSize
    | lengthEndian => exact hlengthEndian
    | lengthIncludesHeader => exact hlengthIncludesHeader
  · intro hreads
    obtain ⟨_, hdelimiterHex, hdelimiter⟩ := bind_eq_ok_iff.1 (hreads .delimiterHex)
    exact ⟨_, hreads .decoder, _, hreads .frameSize, _, hdelimiterHex, _, hdelimiter, _,
      hreads .includeDelimiter, _, hreads .lengthSize, _, hreads .lengthEndian, _,
      hreads .lengthIncludesHeader, rfl⟩

theorem decoderConfig_insert {options result : DecoderConfig} {key : DecoderKey}
    (h : decoderConfigFromJson lib (config.insert (ascii key.name) w) = .ok options)
    (hsame : ∀ other ≠ key, ∀ config, other.ReadAs lib config options →
      other.ReadAs lib config result)
    (hread : key.ReadAs lib (config.insert (ascii key.name) v) result) :
    decoderConfigFromJson lib (config.insert (ascii key.name) v) = .ok result := by
  have hothers := decoderConfigFromJson_eq_ok_iff.1 h
  refine decoderConfigFromJson_eq_ok_iff.2 fun other => ?_
  by_cases hkey : other = key
  · rwa [hkey]
  · apply hsame other hkey
    have hpresent := present_insert_of_ne (DecoderKey.name_ne hkey)
    exact (other.readAs_congr ((hpresent config v).trans (hpresent config w).symm)).2
      (hothers other)

end PacketProbe
