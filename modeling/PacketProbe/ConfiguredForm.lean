import PacketProbe.CommandProtocol
import PacketProbe.ConfigExceptions

/-!
# Configured by a form

What the engine holds after the configure command of a form: the texts and the numbers of the
form, or what it held before. What it starts with then.
-/

namespace PacketProbe
open JsonText EngineController

/-! ### The configuration of a form -/

/-- The engine's name of a mode. -/
def UiMode.engineName : UiMode → String
  | udp => "udp"
  | tcpClient => "tcp-client"
  | tcpServer => "tcp-server"
  | tcpProxy => "tcp-proxy"
  | serial => "serial"

theorem engineModeForUi_label (mode : UiMode) :
    engineModeForUi mode.label = .ok (codes mode.engineName) := by
  cases mode <;> rfl

/-- What a form in this mode gives. -/
structure CaptureForm.Gives (form : CaptureForm) (mode : UiMode)
    (config : ViewerConfig) : Prop where
  mode : config.mode = codes mode.engineName
  port : 0 ≤ config.port ∧ config.port ≤ 65535
  listenPort : 0 ≤ config.listenPort ∧ config.listenPort ≤ 65535
  bindHost : config.bindHost ≠ []
  bindPort : 0 ≤ config.bindPort ∧ config.bindPort ≤ 65535
  targetPort : 0 ≤ config.targetPort ∧ config.targetPort ≤ 65535
  decoder : config.decoder = form.decoderConfig

theorem pyParsePort_range {value : Text} {fieldName : String} {port : ℤ}
    (h : pyParsePort value fieldName = .ok port) :
    0 ≤ port ∧ port ≤ 65535 := by
  unfold pyParsePort at h
  simp only at h
  split at h
  · cases h
    decide
  · split at h
    · cases h
    · split at h
      · cases h
      · cases h
        omega

theorem orElse_ne_nil {text default : Text} (h : default ≠ []) : orElse text default ≠ [] := by
  unfold orElse
  split
  · exact h
  · assumption

theorem CaptureForm.gives_of_collect {form : CaptureForm} {mode : UiMode} {config : ViewerConfig}
    (hmode : form.mode = some mode) (h : form.collectCaptureConfig = .ok config) :
    form.Gives mode config := by
  have hzero : (0 : ℤ) ≤ 0 ∧ (0 : ℤ) ≤ 65535 := by decide
  have hany : codes "0.0.0.0" ≠ [] := by decide
  rw [CaptureForm.collectCaptureConfig, CaptureForm.modeText, hmode, Option.map_some,
    Option.getD_some, buildCaptureConfig, engineModeForUi_label, bind_eq_ok_iff] at h
  obtain ⟨name, hname, h⟩ := h
  cases mode with
  | udp =>
    obtain rfl : codes "udp" = name := Except.ok.inj hname
    rw [if_pos rfl] at h
    simp only [bind_eq_ok_iff] at h
    obtain ⟨bindPort, hbind, targetPort, htarget, h⟩ := h
    cases h
    exact ⟨rfl, hzero, hzero, orElse_ne_nil hany, pyParsePort_range hbind,
      pyParsePort_range htarget, rfl⟩
  | tcpClient =>
    obtain rfl : codes "tcp-client" = name := Except.ok.inj hname
    rw [if_neg (by decide), if_pos rfl] at h
    simp only [bind_eq_ok_iff] at h
    obtain ⟨port, hport, h⟩ := h
    cases h
    exact ⟨rfl, pyParsePort_range hport, hzero, hany, hzero, hzero, rfl⟩
  | tcpServer =>
    obtain rfl : codes "tcp-server" = name := Except.ok.inj hname
    rw [if_neg (by decide), if_neg (by decide), if_pos rfl] at h
    simp only [bind_eq_ok_iff] at h
    obtain ⟨listenPort, hlisten, h⟩ := h
    cases h
    exact ⟨rfl, hzero, pyParsePort_range hlisten, hany, hzero, hzero, rfl⟩
  | tcpProxy =>
    obtain rfl : codes "tcp-proxy" = name := Except.ok.inj hname
    rw [if_neg (by decide), if_neg (by decide), if_neg (by decide), if_pos rfl] at h
    simp only [bind_eq_ok_iff] at h
    obtain ⟨listenPort, hlisten, targetPort, htarget, h⟩ := h
    cases h
    exact ⟨rfl, hzero, pyParsePort_range hlisten, hany, hzero, pyParsePort_range htarget, rfl⟩
  | serial =>
    obtain rfl : codes "serial" = name := Except.ok.inj hname
    rw [if_neg (by decide), if_neg (by decide), if_neg (by decide), if_neg (by decide),
      if_pos rfl] at h
    simp only [bind_eq_ok_iff] at h
    obtain ⟨baudrate, -, h⟩ := h
    cases h
    exact ⟨rfl, hzero, hzero, hany, hzero, hzero, rfl⟩

/-- What `validate_options` asks in each mode. -/
def ViewerConfig.Complete (config : ViewerConfig) : UiMode → Prop
  | .udp => config.bindPort ≠ 0 ∧ (config.targetHost = [] ↔ config.targetPort = 0)
  | .tcpClient => config.host ≠ [] ∧ config.port ≠ 0
  | .tcpServer => config.listenHost ≠ [] ∧ config.listenPort ≠ 0
  | .tcpProxy =>
    config.listenHost ≠ [] ∧ config.listenPort ≠ 0 ∧ config.targetHost ≠ [] ∧ config.targetPort ≠ 0
  | .serial => config.serialPort ≠ []

theorem port_eq_zero_iff {n : ℤ} {port : UInt16} (h : n = port.toNat) : port = 0 ↔ n = 0 := by
  rw [← UInt16.toNat_inj, UInt16.toNat_zero]
  omega

theorem validateOptions_iff_complete {form : CaptureForm} {mode : UiMode} {config : ViewerConfig}
    {options : CliOptions} (hgives : form.Gives mode config) (hmeans : config.Means options)
    (hbaudrate : 1 ≤ config.baudrate) : validateOptions options = .ok () ↔
    config.Complete mode := by
  have hsevenBit : ((codes mode.engineName).all fun c => c < 0x80) = true := by
    cases mode <;> decide
  have hmode : options.mode = ascii mode.engineName := by
    have hname := hmeans.mode
    rw [hgives.mode, encodeUtf8_codes hsevenBit] at hname
    exact (Option.some.inj hname).symm
  have hcount : options.sendOptionCount = 0 := by rw [← hmeans.rest]; rfl
  cases mode with
  | udp =>
    replace hmode : options.mode = ascii "udp" := hmode
    have hbind := mt (eq_nil_iff_of_encodeUtf8 hmeans.bindHost).1 hgives.bindHost
    rw [validateOptions, hmode, if_neg (by decide), if_neg (by decide), if_neg (by decide),
      if_neg (by decide), if_neg (by decide), if_pos rfl]
    simp only [bind_eq_ok_iff, throwIf_eq_ok_iff, exists_const, hcount, hbind, not_false_eq_true,
      true_and, port_eq_zero_iff hmeans.bindPort, eq_nil_iff_of_encodeUtf8 hmeans.targetHost, ne_eq,
      decide_not, Bool.not_inj_iff, decide_eq_decide, not_not, Nat.lt_irrefl, false_and, and_true,
      gt_iff_lt, port_eq_zero_iff hmeans.targetPort, ViewerConfig.Complete]
  | tcpClient =>
    replace hmode : options.mode = ascii "tcp-client" := hmode
    rw [validateOptions, hmode, if_neg (by decide), if_pos rfl]
    simp only [bind_eq_ok_iff, throwIf_eq_ok_iff, exists_const,
      eq_nil_iff_of_encodeUtf8 hmeans.host, port_eq_zero_iff hmeans.port, ViewerConfig.Complete,
      ne_eq]
  | tcpServer =>
    replace hmode : options.mode = ascii "tcp-server" := hmode
    rw [validateOptions, hmode, if_neg (by decide), if_neg (by decide), if_pos rfl]
    simp only [bind_eq_ok_iff, throwIf_eq_ok_iff, exists_const,
      eq_nil_iff_of_encodeUtf8 hmeans.listenHost, port_eq_zero_iff hmeans.listenPort,
      ViewerConfig.Complete, ne_eq]
  | tcpProxy =>
    replace hmode : options.mode = ascii "tcp-proxy" := hmode
    rw [validateOptions, hmode, if_neg (by decide), if_neg (by decide), if_neg (by decide),
      if_pos rfl]
    simp only [bind_eq_ok_iff, throwIf_eq_ok_iff, exists_const,
      eq_nil_iff_of_encodeUtf8 hmeans.listenHost, port_eq_zero_iff hmeans.listenPort,
      eq_nil_iff_of_encodeUtf8 hmeans.targetHost, port_eq_zero_iff hmeans.targetPort,
      ViewerConfig.Complete, ne_eq]
  | serial =>
    replace hmode : options.mode = ascii "serial" := hmode
    have hbaud : options.baudrate ≠ 0 := by
      intro hzero
      have hnumber := hmeans.baudrate
      rw [hzero, UInt32.toNat_zero] at hnumber
      omega
    rw [validateOptions, hmode, if_neg (by decide), if_neg (by decide), if_neg (by decide),
      if_neg (by decide), if_pos rfl]
    simp only [bind_eq_ok_iff, throwIf_eq_ok_iff, exists_const,
      eq_nil_iff_of_encodeUtf8 hmeans.serialPort, hbaud, not_false_eq_true, and_true,
      ViewerConfig.Complete, ne_eq]

/-! ### The command of a form -/

section Command

variable {members : List (Text × Value)} {members' : List (ByteString × Json)}
  {config : ViewerConfig}

theorem valid_of_encodeUtf8_eq_some {text : Text} {bytes : Bytes}
    (h : encodeUtf8 text = some bytes) :
    ∀ c ∈ text, c.isValidChar := by
  unfold encodeUtf8 at h
  split at h
  · assumption
  · cases h

theorem dumpableMembers_of_ofMembers (h : Json.ofMembers members = some members')
    (hvalues : ∀ member ∈ members, ∀ v, Json.ofValue member.2 = some v → Dumpable member.2) :
    DumpableMembers members := by
  induction members generalizing members' with
  | nil => trivial
  | cons member members ih =>
    obtain ⟨name, value⟩ := member
    obtain ⟨name', value', rest, hname, hvalue, hrest, -⟩ := Json.ofMembers_cons_eq_some h
    refine ⟨valid_of_encodeUtf8_eq_some hname, hvalues _ List.mem_cons_self _ hvalue, ?_⟩
    exact ih hrest fun member hmember => hvalues member (List.mem_cons_of_mem _ hmember)

theorem dumpable_string {text : Text} {v : Json} (h : Json.ofValue (.string text) = some v) :
    Dumpable (.string text) := by
  obtain ⟨bytes, hbytes, -⟩ := Option.map_eq_some_iff.1 h
  exact valid_of_encodeUtf8_eq_some hbytes

theorem ViewerDecoderConfig.dumpable_value {config : ViewerDecoderConfig} {json : Json}
    (h : Json.ofValue config.value = some json) : Dumpable config.value := by
  obtain ⟨members', hmembers, -⟩ := Option.map_eq_some_iff.1 h
  refine ⟨config.nodup_members, dumpableMembers_of_ofMembers hmembers ?_⟩
  simp only [ViewerDecoderConfig.members, List.forall_mem_cons]
  refine ⟨fun _ => dumpable_string, fun _ _ => trivial, fun _ => dumpable_string,
    fun _ _ => trivial,
    fun _ _ => trivial, fun _ => dumpable_string, fun _ _ => trivial, ?_⟩
  exact fun _ hmem => by cases hmem

theorem ViewerConfig.dumpable_value {json : Json} (h : Json.ofValue config.value = some json) :
    Dumpable config.value := by
  obtain ⟨members', hmembers, -⟩ := Option.map_eq_some_iff.1 h
  refine ⟨config.nodup_members, dumpableMembers_of_ofMembers hmembers ?_⟩
  simp only [ViewerConfig.members, List.forall_mem_cons]
  refine ⟨fun _ => dumpable_string, fun _ => dumpable_string, fun _ _ => trivial,
    fun _ => dumpable_string,
    fun _ _ => trivial, fun _ => dumpable_string, fun _ _ => trivial, fun _ => dumpable_string,
    fun _ _ => trivial,
    fun _ => dumpable_string, fun _ _ => trivial, fun _ => dumpable_string, fun _ _ => trivial,
      fun _ _ => trivial,
    fun _ _ => trivial, fun _ => ViewerDecoderConfig.dumpable_value, ?_⟩
  exact fun _ hmem => by cases hmem

/-- Texts of a value that the library reads can be encoded. -/
theorem encodeUtf8_of_mem {json : Json} (h : Json.ofValue (.object members) = some json)
    (name text : Text)
    (hmem : (name, Value.string text) ∈ members) : ∃ bytes, encodeUtf8 text = some bytes := by
  obtain ⟨members', hmembers, -⟩ := Option.map_eq_some_iff.1 h
  obtain ⟨_, _, -, hvalue⟩ := Json.isSome_ofValue_of_mem hmembers hmem
  obtain ⟨bytes, hbytes, -⟩ := Option.map_eq_some_iff.1 hvalue
  exact ⟨bytes, hbytes⟩

/-- The text of the delimiter is one that `parse_delimiter_bytes` reads, or empty. -/
def ViewerDecoderConfig.DelimiterReadable (config : ViewerDecoderConfig) : Prop :=
  ∃ delimiterHex delimiter, encodeUtf8 config.delimiterHex = some delimiterHex ∧
    delimiterFromHex delimiterHex = .ok delimiter

theorem CaptureForm.decoder_means {form : CaptureForm} {json : Json}
    (h : Json.ofValue form.decoderConfig.value = some json)
    (hdelimiter : form.decoderConfig.DelimiterReadable) :
    ∃ options, form.decoderConfig.Means options := by
  obtain ⟨decoder, hdecoder⟩ :=
    encodeUtf8_of_mem h (codes "decoder") form.decoderText List.mem_cons_self
  obtain ⟨lengthEndian, hendian⟩ := encodeUtf8_of_mem h (codes "length_endian")
    form.decoderConfig.lengthEndian (by simp [ViewerDecoderConfig.members])
  obtain ⟨delimiterHex, delimiter, hhex, hdelimiter⟩ := hdelimiter
  have hsize : ∀ n : ℕ, n ≤ 1000000 → (n : ℤ) = (UInt64.ofNat n).toNat := by
    intro n hn
    rw [UInt64.toNat_ofNat_of_lt' (by change n < 18446744073709551616; omega)]
  have hlength : form.decLenSize.size ≤ 1000000 := by cases form.decLenSize <;> decide
  exact ⟨{
      decoder
      frameSize := UInt64.ofNat form.decFixedSize.1
      delimiter
      includeDelimiter := form.decDelimInc
      lengthSize := UInt64.ofNat form.decLenSize.size
      lengthEndian
      lengthIncludesHeader := form.decLenIncHdr },
    hdecoder, hsize _ form.decFixedSize.2.2, ⟨delimiterHex, hhex, hdelimiter⟩, rfl, hsize _ hlength,
      hendian, rfl⟩

theorem exists_port {n : ℤ} (h : 0 ≤ n ∧ n ≤ 65535) : ∃ port : UInt16, n = port.toNat := by
  refine ⟨UInt16.ofNat n.toNat, ?_⟩
  rw [UInt16.toNat_ofNat']
  omega

theorem CaptureForm.Gives.exists_means {form : CaptureForm} {mode : UiMode} {json : Json}
    (hgives : form.Gives mode config) (h : Json.ofValue config.value = some json)
    (hbaudrate : 1 ≤ config.baudrate ∧ config.baudrate ≤ 4000000)
    (hdelimiter : config.decoder.DelimiterReadable) :
    ∃ options, config.Means options := by
  have hencoded : ∀ name text, (codes name, Value.string text) ∈ config.members →
      ∃ bytes, encodeUtf8 text = some bytes := fun _ _ hmem => encodeUtf8_of_mem h _ _ hmem
  obtain ⟨modeText, hmode⟩ := hencoded "mode" config.mode (by simp [ViewerConfig.members])
  obtain ⟨host, hhost⟩ := hencoded "host" config.host (by simp [ViewerConfig.members])
  obtain ⟨serialPort, hserialPort⟩ :=
    hencoded "serial_port" config.serialPort (by simp [ViewerConfig.members])
  obtain ⟨listenHost, hlistenHost⟩ :=
    hencoded "listen_host" config.listenHost (by simp [ViewerConfig.members])
  obtain ⟨bindHost, hbindHost⟩ :=
    hencoded "bind_host" config.bindHost (by simp [ViewerConfig.members])
  obtain ⟨targetHost, htargetHost⟩ :=
    hencoded "target_host" config.targetHost (by simp [ViewerConfig.members])
  obtain ⟨logPath, hlogPath⟩ :=
    hencoded "log_path" config.common.logPath (by simp [ViewerConfig.members])
  obtain ⟨port, hport⟩ := exists_port hgives.port
  obtain ⟨listenPort, hlistenPort⟩ := exists_port hgives.listenPort
  obtain ⟨bindPort, hbindPort⟩ := exists_port hgives.bindPort
  obtain ⟨targetPort, htargetPort⟩ := exists_port hgives.targetPort
  obtain ⟨members', hmembers, -⟩ := Option.map_eq_some_iff.1 h
  have hmember : (codes "decoder", config.decoder.value) ∈ config.members := by
    simp [ViewerConfig.members]
  obtain ⟨_, decoderJson, -, hdecoderJson⟩ := Json.isSome_ofValue_of_mem hmembers hmember
  have hdecoder : ∃ decoderConfig, config.decoder.Means decoderConfig := by
    rw [hgives.decoder] at hdecoderJson hdelimiter ⊢
    exact form.decoder_means hdecoderJson hdelimiter
  obtain ⟨decoderConfig, hdecoder⟩ := hdecoder
  have hbaud : config.baudrate = (UInt32.ofNat config.baudrate.toNat).toNat := by
    rw [UInt32.toNat_ofNat_of_lt' (by change config.baudrate.toNat < 4294967296; omega)]
    omega
  exact ⟨{
      mode := modeText
      host
      port
      serialPort
      baudrate := UInt32.ofNat config.baudrate.toNat
      listenHost
      listenPort
      bindHost
      bindPort
      targetHost
      targetPort
      logPath
      hexRaw := config.common.hexRaw
      hexFrame := config.common.hexFrame
      latency := config.common.latency
      decoderConfig },
    hmode, hhost, hport, hserialPort, hbaud, hlistenHost, hlistenPort, hbindHost, hbindPort,
    htargetHost, htargetPort, hlogPath, rfl, rfl, rfl, hdecoder, rfl⟩

/-- The engine takes this configuration. -/
structure ViewerConfig.Acceptable (config : ViewerConfig) (mode : UiMode) : Prop where
  complete : config.Complete mode
  baudrate : 1 ≤ config.baudrate ∧ config.baudrate ≤ 4000000
  delimiter : config.decoder.DelimiterReadable

section Idle

variable {lib : JsonLibrary} {form : CaptureForm} {mode : UiMode} {json : Json}
  {c : EngineController}

/-- What the configure command with this value does to an idle engine. -/
theorem handleCommand_configure (hlib : lib.ReadsJson)
    (hjson : Json.ofValue config.value = some json)
    (hidle : c.capturing = false) (env : Environment) (client : IpcClientId) (n : ℕ) :
    (∃ options, engineConfigFromJson lib json = .ok options ∧ validateOptions options = .ok () ∧
      handleCommand lib env client ((ViewerCommand.configure config.value).line n) c =
        ⟨{ c with config := options, hasConfig := true },
          announcement client (commandIdOf n) { c with config := options, hasConfig := true },
          none⟩) ∨
    ∃ ex, (engineConfigFromJson lib json = .error ex ∨
        ∃ options, engineConfigFromJson lib json = .ok options ∧
          validateOptions options = .error ex) ∧
      handleCommand lib env client ((ViewerCommand.configure config.value).line n) c =
        replyResult lib client (commandIdOf n) false ex.what c := by
  have hobject : json.isObject = true := by
    obtain ⟨_, -, rfl⟩ := Option.map_eq_some_iff.1 hjson
    rfl
  have hmessage : (ViewerCommand.configure config.value).message n =
      some (commandMessage (ascii "configure") (commandIdOf n) (some json)) := by
    rw [ViewerCommand.message, hjson, Option.map_some]
  have hdump : (ViewerCommand.configure config.value).Dumpable := config.dumpable_value hjson
  have hname : ascii (ViewerCommand.configure config.value).name = ascii "configure" := rfl
  have hconfig :
    ((commandMessage (ascii "configure") (commandIdOf n) (some json)).find (ascii "config")).filter
      Json.isObject = some json := Option.filter_eq_some_iff.2 ⟨rfl, hobject⟩
  have hreply : ∀ ex : StdException, (⟨c, [], some ex⟩ : Handled).catching (fun ex =>
      replyResult lib client (commandIdOf n) false ex.what) =
        replyResult lib client (commandIdOf n) false ex.what c :=
    fun _ => rfl
  obtain ⟨hcommand, hcommandId⟩ := ViewerCommand.acceptedCommand_message hmessage
  rw [handleCommand_of_command (ViewerCommand.parse_line hlib hdump hmessage) hcommand, hcommandId,
    hname, dispatch, if_pos rfl, handleConfigure, if_neg (by rw [hidle]; decide), hconfig]
  cases hread : engineConfigFromJson lib json with
  | error ex =>
    simp only [hread, hreply]
    exact .inr ⟨ex, .inl rfl, rfl⟩
  | ok options =>
    cases hvalid : validateOptions options with
    | error ex =>
      simp only [hread, hvalid, hreply]
      exact .inr ⟨ex, .inr ⟨options, rfl, hvalid⟩, rfl⟩
    | ok =>
      have hreport := engineConfigFromJson_validText (Json.validText_ofValue _ _ hjson) hread
      simp only [hread, hvalid]
      rw [announce_eq (valid_of_encodeUtf8 (encodeUtf8_commandId n)) hreport]
      exact .inl ⟨options, rfl, hvalid, rfl⟩

/-- What the engine reads from the dict of a form. -/
theorem CaptureForm.Gives.read_iff (hgives : form.Gives mode config)
    (hjson : Json.ofValue config.value = some json)
    (options : CliOptions) : engineConfigFromJson lib json = .ok options ↔
      config.Means options ∧ 1 ≤ config.baudrate ∧ config.baudrate ≤ 4000000 := by
  have hsizes : 0 ≤ config.decoder.frameSize ∧ 0 ≤ config.decoder.lengthSize := by
    rw [hgives.decoder]
    exact ⟨Int.natCast_nonneg _, Int.natCast_nonneg _⟩
  exact config.read_iff hjson hsizes.1 hsizes.2

/-- A configuration that the engine takes is one that it reads, and that passes validation. -/
theorem CaptureForm.Gives.acceptable_iff (hgives : form.Gives mode config)
    (hjson : Json.ofValue config.value = some json) : config.Acceptable mode ↔
      ∃ options, engineConfigFromJson lib json = .ok options ∧
        validateOptions options = .ok () := by
  constructor
  · intro haccepted
    obtain ⟨options, hmeans⟩ := hgives.exists_means hjson haccepted.baudrate haccepted.delimiter
    refine ⟨options, (hgives.read_iff hjson options).2 ⟨hmeans, haccepted.baudrate⟩, ?_⟩
    exact (validateOptions_iff_complete hgives hmeans haccepted.baudrate.1).2 haccepted.complete
  · rintro ⟨options, hread, hvalid⟩
    obtain ⟨hmeans, hbaudrate⟩ := (hgives.read_iff hjson options).1 hread
    obtain ⟨delimiterHex, hhex, hdelimiter⟩ := hmeans.decoder.delimiter
    refine ⟨?_, hbaudrate, delimiterHex, _, hhex, hdelimiter⟩
    exact (validateOptions_iff_complete hgives hmeans hbaudrate.1).1 hvalid

theorem configured_of_acceptable (hlib : lib.ReadsJson) (hgives : form.Gives mode config)
    (hjson : Json.ofValue config.value = some json) (hidle : c.capturing = false)
    (haccepted : config.Acceptable mode) (env : Environment) (client : IpcClientId) (n : ℕ) :
    ∃ options, config.Means options ∧
      handleCommand lib env client ((ViewerCommand.configure config.value).line n) c =
        ⟨{ c with config := options, hasConfig := true },
          announcement client (commandIdOf n) { c with config := options, hasConfig := true },
          none⟩ := by
  obtain ⟨options, hread, hvalid⟩ := (hgives.acceptable_iff hjson).1 haccepted
  rcases handleCommand_configure hlib hjson hidle env client n with
    ⟨options, hread, -, h⟩ | ⟨ex, hread' | ⟨options', hread', hinvalid⟩, -⟩
  · exact ⟨options, ((hgives.read_iff hjson options).1 hread).1, h⟩
  · cases hread.symm.trans hread'
  · cases hread.symm.trans hread'
    cases hvalid.symm.trans hinvalid

/-- The exception that meets this configuration has a text that cannot be sent. -/
def ViewerConfig.Unanswered (config : ViewerConfig) : Prop :=
  (1 ≤ config.baudrate ∧ config.baudrate ≤ 4000000) ∧
    ∃ ex, config.decoder.DelimiterThrows ex ∧ ¬ Legible ex

theorem delimiterThrows_unique {decoder : ViewerDecoderConfig} {ex ex' : StdException}
    (h : decoder.DelimiterThrows ex) (h' : decoder.DelimiterThrows ex') : ex = ex' := by
  obtain ⟨delimiterHex, hhex, hthrows⟩ := h
  obtain ⟨delimiterHex', hhex', hthrows'⟩ := h'
  cases hhex.symm.trans hhex'
  exact Except.error.inj (hthrows.symm.trans hthrows')

/-- Only the exception of the delimiter can have such a text. -/
theorem CaptureForm.Gives.legible_iff (hgives : form.Gives mode config)
    (hjson : Json.ofValue config.value = some json) {ex : StdException}
    (hraised : engineConfigFromJson lib json = .error ex ∨
      ∃ options, engineConfigFromJson lib json = .ok options ∧
        validateOptions options = .error ex) :
    Legible ex ↔ ¬ config.Unanswered := by
  rcases hraised with hread | ⟨options, hread, hinvalid⟩
  · have hports : ∀ n ∈ [config.port, config.listenPort, config.bindPort, config.targetPort],
        ∃ port : UInt16, n = port.toNat := by
      simp only [List.forall_mem_cons]
      exact ⟨exists_port hgives.port, exists_port hgives.listenPort, exists_port hgives.bindPort,
        exists_port hgives.targetPort, fun _ hn => by cases hn⟩
    rcases (ViewerConfig.held hjson).raises_read hports ex hread with
      ⟨hrange, hlegible⟩ | ⟨hrange, hthrows⟩
    · exact iff_of_true hlegible fun h => hrange h.1
    · refine ⟨fun hlegible ⟨_, ex', hthrows', hillegible⟩ => ?_, fun hanswered => ?_⟩
      · exact hillegible (delimiterThrows_unique hthrows hthrows' ▸ hlegible)
      · by_contra hillegible
        exact hanswered ⟨hrange, ex, hthrows, hillegible⟩
  · obtain ⟨hmeans, -⟩ := (hgives.read_iff hjson options).1 hread
    refine iff_of_true (raises_validateOptions (valid_of_encodeUtf8 hmeans.mode) ex hinvalid) ?_
    rintro ⟨-, ex', ⟨delimiterHex', hhex', hthrows⟩, -⟩
    obtain ⟨delimiterHex, hhex, hdelimiter⟩ := hmeans.decoder.delimiter
    cases hhex.symm.trans hhex'
    cases hdelimiter.symm.trans hthrows

/-- An idle engine that gets the configure command of a form holds what the form says and
announces it, if it can take it. Otherwise it holds what it held, and replies with an error,
if the text of the error can be sent. -/
theorem form_configured (hlib : lib.ReadsJson) (hmode : form.mode = some mode)
    (hform : form.collectCaptureConfig = .ok config) (hjson : Json.ofValue config.value = some json)
    (hidle : c.capturing = false) (env : Environment) (client : IpcClientId) (n : ℕ) :
    let handled := handleCommand lib env client ((ViewerCommand.configure config.value).line n) c
    (config.Acceptable mode ∧ ∃ options, config.Means options ∧
      handled = ⟨{ c with config := options, hasConfig := true },
        announcement client (commandIdOf n) { c with config := options, hasConfig := true },
        none⟩) ∨
    (¬ config.Acceptable mode ∧ ¬ config.Unanswered ∧
      ∃ error,
        handled = ⟨c, [.toClient client (resultMessage (commandIdOf n) false error)], none⟩) ∨
    (¬ config.Acceptable mode ∧ config.Unanswered ∧
      ∃ what, handled = ⟨c, [], some ⟨.jsonTypeError, what⟩⟩) := by
  intro handled
  have hgives := form.gives_of_collect hmode hform
  have hid := valid_of_encodeUtf8 (encodeUtf8_commandId n)
  by_cases haccepted : config.Acceptable mode
  · exact .inl ⟨haccepted, configured_of_acceptable hlib hgives hjson hidle haccepted env client n⟩
  · rcases handleCommand_configure hlib hjson hidle env client n with
      ⟨options, hread, hvalid, -⟩ | ⟨ex, hraised, h⟩
    · exact absurd ((hgives.acceptable_iff hjson).2 ⟨options, hread, hvalid⟩) haccepted
    · have hlegible := hgives.legible_iff hjson hraised
      by_cases hunanswered : config.Unanswered
      · obtain ⟨what, -, hreply⟩ :=
          replyResult_of_invalid lib c client hid fun h => hlegible.1 h hunanswered
        exact .inr (.inr ⟨haccepted, hunanswered, what, h.trans hreply⟩)
      · exact .inr (.inl ⟨haccepted, hunanswered, ex.what,
          h.trans (replyResult_eq hid (.inr (hlegible.2 hunanswered)))⟩)

/-- The configuration of the form as a new window shows it. -/
def shownConfig : ViewerConfig where
  mode := codes "udp"
  bindPort := 19000
  targetHost := codes "127.0.0.1"
  targetPort := 19085
  common := {}
  decoder :=
    { decoder := codes "raw", frameSize := 16, delimiterHex := codes "0A"
      includeDelimiter := false }

theorem acceptable_shownConfig : shownConfig.Acceptable .udp :=
  ⟨⟨by decide, by decide⟩, by decide, ascii "0A", [0x0A], by decide, rfl⟩

theorem form_configured_shown : ∃ options, shownConfig.Means options ∧
    handleCommand .plain {} 1 ((ViewerCommand.configure shownConfig.value).line 1) {} =
      ⟨{ config := options, hasConfig := true },
        announcement 1 (commandIdOf 1) { config := options, hasConfig := true }, none⟩ := by
  have hform : ({} : CaptureForm).collectCaptureConfig = .ok shownConfig := rfl
  have hsome : (Json.ofValue shownConfig.value).isSome = true := rfl
  obtain ⟨json, hjson⟩ := Option.isSome_iff_exists.1 hsome
  rcases form_configured (c := {}) JsonLibrary.readsJson_plain rfl hform hjson rfl {} 1 1 with
    ⟨-, h⟩ | ⟨hrefused, -⟩ | ⟨hrefused, -⟩
  · exact h
  · exact absurd acceptable_shownConfig hrefused
  · exact absurd acceptable_shownConfig hrefused

/-- The delimiter text `1é2`: the two bytes of the second character are read in different pairs. -/
example : ({ shownConfig with decoder := { shownConfig.decoder with
    delimiterHex := [0x31, 0xE9, 0x32] } } : ViewerConfig).Unanswered :=
  ⟨by decide, _, ⟨[0x31, 0xC3, 0xA9, 0x32], by decide, rfl⟩, by decide⟩

/-! ### Started with it -/

end Idle

end Command

end PacketProbe
