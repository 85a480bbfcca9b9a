import PacketProbe.CaptureForm
import PacketProbe.NumericConfig

/-!
# The configuration of a viewer

What the dict of `build_capture_config` means as options of the engine, and that
`engine_config_from_json` reads exactly this from it.
-/

namespace PacketProbe
open JsonText

/-! ### Members as the engine finds them -/

theorem encodeUtf8_inj {text text' : Text} {bytes : Bytes} (h : encodeUtf8 text = some bytes)
    (h' : encodeUtf8 text' = some bytes) : text = text' :=
  Option.some.inj ((decode_of_encodeUtf8 h).symm.trans (decode_of_encodeUtf8 h'))

theorem eq_nil_iff_of_encodeUtf8 {text : Text} {bytes : Bytes} (h : encodeUtf8 text = some bytes) :
    bytes = [] ↔ text = [] := by
  have hnil : encodeUtf8 [] = some [] := rfl
  constructor
  · rintro rfl
    exact encodeUtf8_inj h hnil
  · rintro rfl
    exact Option.some.inj (h.symm.trans hnil)

namespace Json

variable {members : List (Text × Value)} {members' : List (ByteString × Json)} {key : Text}
  {key' : ByteString}

theorem ofMembers_cons_eq_some {name : Text} {value : Value}
    (h : ofMembers ((name, value) :: members) = some members') :
    ∃ name' value' rest, encodeUtf8 name = some name' ∧ ofValue value = some value' ∧
      ofMembers members = some rest ∧ members' = (name', value') :: rest := by
  obtain ⟨name', hname, hvalue⟩ := Option.bind_eq_some_iff.1 h
  obtain ⟨value', hvalue, hrest⟩ := Option.bind_eq_some_iff.1 hvalue
  obtain ⟨rest, hrest, hmembers⟩ := Option.bind_eq_some_iff.1 hrest
  exact ⟨name', value', rest, hname, hvalue, hrest, (Option.some.inj hmembers).symm⟩

theorem lookup_ofMembers (h : ofMembers members = some members')
    (hkey : encodeUtf8 key = some key') :
    members'.lookup key' = (members.lookup key).bind ofValue := by
  induction members generalizing members' with
  | nil =>
    cases h
    rfl
  | cons member members ih =>
    obtain ⟨name, value⟩ := member
    obtain ⟨name', value', rest, hname, hvalue, hrest, rfl⟩ := ofMembers_cons_eq_some h
    rw [List.lookup_cons, List.lookup_cons]
    by_cases heq : key = name
    · have heq' : key' = name' := Option.some.inj (hkey.symm.trans (heq ▸ hname))
      rw [beq_iff_eq.2 heq, beq_iff_eq.2 heq']
      exact hvalue.symm
    · have hne' : key' ≠ name' := fun heq' => heq (encodeUtf8_inj hkey (heq' ▸ hname))
      rw [beq_eq_false_iff_ne.2 heq, beq_eq_false_iff_ne.2 hne']
      exact ih hrest

theorem mem_names_of_ofMembers {name' : ByteString} (h : ofMembers members = some members')
    (hmem : name' ∈ members'.map Prod.fst) :
    ∃ name ∈ members.map Prod.fst, encodeUtf8 name = some name' := by
  induction members generalizing members' with
  | nil =>
    cases h
    cases hmem
  | cons member members ih =>
    obtain ⟨name, value⟩ := member
    obtain ⟨first, value', rest, hname, -, hrest, rfl⟩ := ofMembers_cons_eq_some h
    rcases List.mem_cons.1 hmem with rfl | hmem
    · exact ⟨name, List.mem_cons_self, hname⟩
    · obtain ⟨found, hfound, hencoded⟩ := ih hrest hmem
      exact ⟨found, List.mem_cons_of_mem _ hfound, hencoded⟩

theorem nodup_ofMembers (h : ofMembers members = some members')
    (hnodup : (members.map Prod.fst).Nodup) :
    (members'.map Prod.fst).Nodup := by
  induction members generalizing members' with
  | nil =>
    cases h
    exact List.nodup_nil
  | cons member members ih =>
    obtain ⟨name, value⟩ := member
    obtain ⟨name', value', rest, hname, -, hrest, rfl⟩ := ofMembers_cons_eq_some h
    rw [List.map_cons, List.nodup_cons] at hnodup ⊢
    refine ⟨fun hmem => ?_, ih hrest hnodup.2⟩
    obtain ⟨found, hfound, hencoded⟩ := mem_names_of_ofMembers hrest hmem
    exact hnodup.1 (encodeUtf8_inj hname hencoded ▸ hfound)

theorem find_ofValue {json : Json} (h : ofValue (.object members) = some json)
    (hnodup : (members.map Prod.fst).Nodup) (hkey : encodeUtf8 key = some key') :
    json.find key' = (members.lookup key).bind ofValue := by
  obtain ⟨members', hmembers, rfl⟩ := Option.map_eq_some_iff.1 h
  exact (lookup_sortByName (nodup_ofMembers hmembers hnodup) key').trans
    (lookup_ofMembers hmembers hkey)

theorem isSome_ofValue_of_mem (h : ofMembers members = some members') {member : Text × Value}
    (hmem : member ∈ members) :
    ∃ name' value', encodeUtf8 member.1 = some name' ∧ ofValue member.2 = some value' := by
  induction members generalizing members' with
  | nil => cases hmem
  | cons first members ih =>
    obtain ⟨name, value⟩ := first
    obtain ⟨name', value', rest, hname, hvalue, hrest, rfl⟩ := ofMembers_cons_eq_some h
    rcases List.mem_cons.1 hmem with rfl | hmem
    · exact ⟨name', value', hname, hvalue⟩
    · exact ih hrest hmem

theorem toInteger_ofValue {n : ℤ} {v : Json} (h : ofValue (.integer n) = some v) :
    v.toInteger = some n := by
  unfold ofValue at h
  split at h
  · rename_i hrange
    cases h
    refine congrArg some ?_
    rw [UInt64.toNat_ofNat_of_lt' (by change n.toNat < 18446744073709551616; omega)]
    omega
  · split at h
    · rename_i hrange
      cases h
      refine congrArg some (Int64.toInt_ofInt_of_le ?_ ?_)
      · exact hrange.1
      · omega
    · cases h

end Json

/-! ### Reading members -/

/-- The value stands under this name. -/
def Json.Holds (json : Json) (key : String) (value : Value) : Prop :=
  ∃ v, present json key = some v ∧ Json.ofValue value = some v

section Reading

variable {lib : JsonLibrary} {json : Json} {key : String} {members : List (Text × Value)}

theorem holds_of_lookup {value : Value} (h : Json.ofValue (.object members) = some json)
    (hnodup : (members.map Prod.fst).Nodup) (hkey : ((codes key).all fun c => c < 0x80) = true)
    (hvalue : members.lookup (codes key) = some value) (hnull : value ≠ .null) :
    json.Holds key value := by
  have hfind := Json.find_ofValue h hnodup (encodeUtf8_codes hkey)
  obtain ⟨members', hmembers, rfl⟩ := Option.map_eq_some_iff.1 h
  obtain ⟨before, after, hsplit, -⟩ := List.lookup_eq_some_iff.1 hvalue
  have hmem : (codes key, value) ∈ members := by
    rw [hsplit]
    simp
  obtain ⟨_, v, -, hv⟩ := Json.isSome_ofValue_of_mem hmembers hmem
  refine ⟨v, ?_, hv⟩
  rw [present, hfind, hvalue, Option.bind_some, hv]
  refine Option.filter_eq_some_iff.2 ⟨rfl, ?_⟩
  cases v with
  | null =>
    refine absurd ?_ hnull
    cases value with
    | null => rfl
    | integer n => exact absurd (Json.toInteger_ofValue hv) (by simp [Json.toInteger])
    | boolean b => cases hv
    | float numeral => cases hv
    | string text => obtain ⟨_, -, hcast⟩ := Option.map_eq_some_iff.1 hv; cases hcast
    | array items => obtain ⟨_, -, hcast⟩ := Option.map_eq_some_iff.1 hv; cases hcast
    | object members => obtain ⟨_, -, hcast⟩ := Option.map_eq_some_iff.1 hv; cases hcast
  | _ => rfl

theorem absent_of_lookup (h : Json.ofValue (.object members) = some json)
    (hnodup : (members.map Prod.fst).Nodup) (hkey : ((codes key).all fun c => c < 0x80) = true)
    (hvalue : members.lookup (codes key) = none) :
    present json key = none := by
  rw [present, Json.find_ofValue h hnodup (encodeUtf8_codes hkey), hvalue]
  rfl

theorem getWith_absent {α : Type} {fallback : α} {read : Json → Except StdException α}
    (h : present json key = none) :
    getWith json key fallback read = .ok fallback := by
  rw [getWith, h]

theorem getString_absent {fallback : ByteString} (h : present json key = none) :
    getString json key fallback = .ok fallback := by
  rw [getString, h]

theorem getString_holds {text : Text} {fallback bytes : ByteString}
    (h : json.Holds key (.string text)) :
    getString json key fallback = .ok bytes ↔ encodeUtf8 text = some bytes := by
  obtain ⟨v, hpresent, hv⟩ := h
  obtain ⟨found, hfound, rfl⟩ := Option.map_eq_some_iff.1 hv
  rw [getString_of_present hpresent, hfound, Except.ok.injEq, Option.some.injEq]

theorem getBool_holds {b fallback result : Bool} (h : json.Holds key (.boolean b)) :
    getBool json key fallback = .ok result ↔ b = result := by
  obtain ⟨v, hpresent, hv⟩ := h
  cases hv
  rw [getBool_of_present hpresent, Except.ok.injEq]

theorem getPort_holds {n : ℤ} {fallback port : UInt16} (h : json.Holds key (.integer n)) :
    getPort json key fallback = .ok port ↔ n = port.toNat := by
  obtain ⟨v, hpresent, hv⟩ := h
  rw [getPort_eq_ok_iff hpresent, Json.toInteger_ofValue hv, Option.some.injEq]

/-- A number from 0 on is read as it is. -/
theorem getUInt64_holds {n : ℤ} {x : UInt64} {v : Json} (hv : Json.ofValue (.integer n) = some v)
    (hn : 0 ≤ n) :
    lib.getUInt64 v = .ok x ↔ n = x.toNat := by
  have hinteger := Json.toInteger_ofValue hv
  unfold Json.ofValue at hv
  split at hv
  · cases hv
    have hread : ((UInt64.ofNat n.toNat).toNat : ℤ) = n := Option.some.inj hinteger
    rw [JsonLibrary.getUInt64, Except.ok.injEq, ← UInt64.toNat_inj]
    omega
  · split at hv
    · omega
    · cases hv

theorem getSize_holds {n : ℤ} {fallback x : UInt64} (h : json.Holds key (.integer n)) (hn : 0 ≤ n) :
    getWith json key fallback lib.getUInt64 = .ok x ↔ n = x.toNat := by
  obtain ⟨v, hpresent, hv⟩ := h
  rw [getWith_of_present hpresent, getUInt64_holds hv hn]

/-- The baud rate is a number of the range; a negative one is a large one. -/
theorem getBaudrate_holds {n : ℤ} {fallback baudrate : UInt32} (h : json.Holds key (.integer n)) :
    getWith json key fallback (fun value => do
      parseSerialBaudrate (decimal (← lib.getUInt64 value).toNat)) = .ok baudrate ↔
      n = baudrate.toNat ∧ 1 ≤ n ∧ n ≤ 4000000 := by
  obtain ⟨v, hpresent, hv⟩ := h
  have hinteger := Json.toInteger_ofValue hv
  have hnat : ∀ x : UInt64, x.toNat ≤ 4000000 → x.toUInt32.toNat = x.toNat := by
    intro x hx
    rw [UInt64.toNat_toUInt32]
    omega
  have hread : ∀ x : UInt64, x.toNat ≤ 4000000 → (lib.getUInt64 v = .ok x ↔ n = x.toNat) := by
    intro x hx
    by_cases hn : 0 ≤ n
    · exact getUInt64_holds hv hn
    · refine iff_of_false (fun hget => ?_) (by omega)
      unfold Json.ofValue at hv
      rw [if_neg (by omega)] at hv
      split at hv
      · cases hv
        cases hget
        have hbits := toInt_eq_bits (Int64.ofInt n)
        rw [Option.some.inj hinteger] at hbits
        split at hbits <;> omega
      · cases hv
  rw [getBaudrate_eq_ok_iff hpresent]
  constructor
  · rintro ⟨x, hget, hlow, hhigh, rfl⟩
    have hn := (hread x hhigh).1 hget
    rw [hnat x hhigh]
    omega
  · rintro ⟨rfl, hlow, hhigh⟩
    have hx : baudrate.toUInt64.toNat = baudrate.toNat := UInt32.toNat_toUInt64 baudrate
    refine ⟨baudrate.toUInt64, (hread _ (by omega)).2 (by omega), by omega, by omega, ?_⟩
    exact UInt32.toNat_inj.1 ((hnat _ (by omega)).trans hx)

end Reading

/-! ### What a configuration means -/

/-- The options with the defaults for what a viewer does not set. -/
def CliOptions.viewerPart (options : CliOptions) : CliOptions where
  mode := options.mode
  host := options.host
  port := options.port
  serialPort := options.serialPort
  baudrate := options.baudrate
  listenHost := options.listenHost
  listenPort := options.listenPort
  bindHost := options.bindHost
  bindPort := options.bindPort
  targetHost := options.targetHost
  targetPort := options.targetPort
  logPath := options.logPath
  hexRaw := options.hexRaw
  hexFrame := options.hexFrame
  latency := options.latency
  decoderConfig := options.decoderConfig

/-- The options of the decoder are those of the dict. -/
structure ViewerDecoderConfig.Means (config : ViewerDecoderConfig)
    (options : DecoderConfig) : Prop where
  decoder : encodeUtf8 config.decoder = some options.decoder
  frameSize : config.frameSize = options.frameSize.toNat
  delimiter : ∃ delimiterHex, encodeUtf8 config.delimiterHex = some delimiterHex ∧
    delimiterFromHex delimiterHex = .ok options.delimiter
  includeDelimiter : config.includeDelimiter = options.includeDelimiter
  lengthSize : config.lengthSize = options.lengthSize.toNat
  lengthEndian : encodeUtf8 config.lengthEndian = some options.lengthEndian
  lengthIncludesHeader : config.lengthIncludesHeader = options.lengthIncludesHeader

/-- The options are those of the dict, and the defaults where it has none. -/
structure ViewerConfig.Means (config : ViewerConfig) (options : CliOptions) : Prop where
  mode : encodeUtf8 config.mode = some options.mode
  host : encodeUtf8 config.host = some options.host
  port : config.port = options.port.toNat
  serialPort : encodeUtf8 config.serialPort = some options.serialPort
  baudrate : config.baudrate = options.baudrate.toNat
  listenHost : encodeUtf8 config.listenHost = some options.listenHost
  listenPort : config.listenPort = options.listenPort.toNat
  bindHost : encodeUtf8 config.bindHost = some options.bindHost
  bindPort : config.bindPort = options.bindPort.toNat
  targetHost : encodeUtf8 config.targetHost = some options.targetHost
  targetPort : config.targetPort = options.targetPort.toNat
  logPath : encodeUtf8 config.common.logPath = some options.logPath
  hexRaw : config.common.hexRaw = options.hexRaw
  hexFrame : config.common.hexFrame = options.hexFrame
  latency : config.common.latency = options.latency
  decoder : config.decoder.Means options.decoderConfig
  rest : options.viewerPart = options

variable {lib : JsonLibrary} {json : Json}

theorem CliOptions.viewerPart_eq_iff {options : CliOptions} :
    options.viewerPart = options ↔ options.carried = options ∧ 8 = options.dataBits ∧
      1 = options.stopBits ∧
      SerialParity.none = options.parity ∧ SerialFlowControl.none = options.flowControl := by
  cases options
  simp only [CliOptions.viewerPart, CliOptions.carried, CliOptions.mk.injEq, true_and]
  tauto

theorem ViewerDecoderConfig.nodup_members (config : ViewerDecoderConfig) :
    (config.members.map Prod.fst).Nodup := by
  have hnames :
    config.members.map Prod.fst = (["decoder", "frame_size", "delimiter_hex", "include_delimiter",
    "length_size", "length_endian", "length_includes_header"].map codes) := rfl
  rw [hnames]
  decide

theorem ViewerConfig.nodup_members (config : ViewerConfig) :
    (config.members.map Prod.fst).Nodup := by
  have hnames :
    config.members.map Prod.fst =
      (["mode", "host", "port", "serial_port", "baudrate", "listen_host",
    "listen_port", "bind_host", "bind_port", "target_host", "target_port", "log_path", "hex_raw",
    "hex_frame", "latency", "decoder"].map codes) := rfl
  rw [hnames]
  decide

/-! ### Reading a configuration -/

/-- The members of the dict as the engine finds them. -/
structure ViewerDecoderConfig.Held (config : ViewerDecoderConfig) (json : Json) : Prop where
  decoder : json.Holds "decoder" (.string config.decoder)
  frameSize : json.Holds "frame_size" (.integer config.frameSize)
  delimiterHex : json.Holds "delimiter_hex" (.string config.delimiterHex)
  includeDelimiter : json.Holds "include_delimiter" (.boolean config.includeDelimiter)
  lengthSize : json.Holds "length_size" (.integer config.lengthSize)
  lengthEndian : json.Holds "length_endian" (.string config.lengthEndian)
  lengthIncludesHeader : json.Holds "length_includes_header" (.boolean config.lengthIncludesHeader)

/-- The members of the dict as the engine finds them, and those that it does not find. -/
structure ViewerConfig.Held (config : ViewerConfig) (json : Json) : Prop where
  object : json.isObject = true
  mode : json.Holds "mode" (.string config.mode)
  host : json.Holds "host" (.string config.host)
  port : json.Holds "port" (.integer config.port)
  serialPort : json.Holds "serial_port" (.string config.serialPort)
  baudrate : json.Holds "baudrate" (.integer config.baudrate)
  listenHost : json.Holds "listen_host" (.string config.listenHost)
  listenPort : json.Holds "listen_port" (.integer config.listenPort)
  bindHost : json.Holds "bind_host" (.string config.bindHost)
  bindPort : json.Holds "bind_port" (.integer config.bindPort)
  targetHost : json.Holds "target_host" (.string config.targetHost)
  targetPort : json.Holds "target_port" (.integer config.targetPort)
  logPath : json.Holds "log_path" (.string config.common.logPath)
  hexRaw : json.Holds "hex_raw" (.boolean config.common.hexRaw)
  hexFrame : json.Holds "hex_frame" (.boolean config.common.hexFrame)
  latency : json.Holds "latency" (.boolean config.common.latency)
  decoder : ∃ decoder, present json "decoder" = some decoder ∧ decoder.isObject = true ∧
    config.decoder.Held decoder
  dataBits : present json "data_bits" = none
  stopBits : present json "stop_bits" = none
  parity : present json "parity" = none
  flowControl : present json "flow_control" = none

theorem ViewerDecoderConfig.held {config : ViewerDecoderConfig}
    (h : Json.ofValue config.value = some json) : config.Held json := by
  have hheld : ∀ (key : String) (value : Value), ((codes key).all fun c => c < 0x80) = true →
      config.members.lookup (codes key) = some value → value ≠ .null → json.Holds key value :=
    fun _ _ hkey hvalue hnull => holds_of_lookup h config.nodup_members hkey hvalue hnull
  exact {
    decoder := hheld "decoder" _ (by decide) rfl (by simp)
    frameSize := hheld "frame_size" _ (by decide) rfl (by simp)
    delimiterHex := hheld "delimiter_hex" _ (by decide) rfl (by simp)
    includeDelimiter := hheld "include_delimiter" _ (by decide) rfl (by simp)
    lengthSize := hheld "length_size" _ (by decide) rfl (by simp)
    lengthEndian := hheld "length_endian" _ (by decide) rfl (by simp)
    lengthIncludesHeader := hheld "length_includes_header" _ (by decide) rfl (by simp) }

theorem isObject_of_ofValue {members : List (Text × Value)}
    (h : Json.ofValue (.object members) = some json) : json.isObject = true := by
  obtain ⟨_, -, rfl⟩ := Option.map_eq_some_iff.1 h
  rfl

theorem ViewerConfig.held {config : ViewerConfig} (h : Json.ofValue config.value = some json) :
    config.Held json := by
  have hheld : ∀ (key : String) (value : Value), ((codes key).all fun c => c < 0x80) = true →
      config.members.lookup (codes key) = some value → value ≠ .null → json.Holds key value :=
    fun _ _ hkey hvalue hnull => holds_of_lookup h config.nodup_members hkey hvalue hnull
  have habsent : ∀ key : String, ((codes key).all fun c => c < 0x80) = true →
      config.members.lookup (codes key) = none → present json key = none :=
    fun _ hkey hvalue => absent_of_lookup h config.nodup_members hkey hvalue
  obtain ⟨decoder, hpresent, hdecoder⟩ := hheld "decoder" config.decoder.value (by decide) rfl
    (by simp [ViewerDecoderConfig.value])
  exact {
    object := isObject_of_ofValue h
    mode := hheld "mode" _ (by decide) rfl (by simp)
    host := hheld "host" _ (by decide) rfl (by simp)
    port := hheld "port" _ (by decide) rfl (by simp)
    serialPort := hheld "serial_port" _ (by decide) rfl (by simp)
    baudrate := hheld "baudrate" _ (by decide) rfl (by simp)
    listenHost := hheld "listen_host" _ (by decide) rfl (by simp)
    listenPort := hheld "listen_port" _ (by decide) rfl (by simp)
    bindHost := hheld "bind_host" _ (by decide) rfl (by simp)
    bindPort := hheld "bind_port" _ (by decide) rfl (by simp)
    targetHost := hheld "target_host" _ (by decide) rfl (by simp)
    targetPort := hheld "target_port" _ (by decide) rfl (by simp)
    logPath := hheld "log_path" _ (by decide) rfl (by simp)
    hexRaw := hheld "hex_raw" _ (by decide) rfl (by simp)
    hexFrame := hheld "hex_frame" _ (by decide) rfl (by simp)
    latency := hheld "latency" _ (by decide) rfl (by simp)
    decoder := ⟨decoder, hpresent, isObject_of_ofValue hdecoder, ViewerDecoderConfig.held hdecoder⟩
    dataBits := habsent "data_bits" (by decide) rfl
    stopBits := habsent "stop_bits" (by decide) rfl
    parity := habsent "parity" (by decide) rfl
    flowControl := habsent "flow_control" (by decide) rfl }

theorem ViewerDecoderConfig.Held.read_iff {config : ViewerDecoderConfig} {options : DecoderConfig}
    (h : config.Held json) (hframe : 0 ≤ config.frameSize) (hlength : 0 ≤ config.lengthSize) :
    decoderConfigFromJson lib json = .ok options ↔ config.Means options := by
  rw [decoderConfigFromJson_eq_ok_iff]
  constructor
  · intro hreads
    obtain ⟨delimiterHex, htext, hdelimiter⟩ := bind_eq_ok_iff.1 (hreads .delimiterHex)
    exact {
      decoder := (getString_holds h.decoder).1 (hreads .decoder)
      frameSize := (getSize_holds h.frameSize hframe).1 (hreads .frameSize)
      delimiter := ⟨delimiterHex, (getString_holds h.delimiterHex).1 htext, hdelimiter⟩
      includeDelimiter := (getBool_holds h.includeDelimiter).1 (hreads .includeDelimiter)
      lengthSize := (getSize_holds h.lengthSize hlength).1 (hreads .lengthSize)
      lengthEndian := (getString_holds h.lengthEndian).1 (hreads .lengthEndian)
      lengthIncludesHeader :=
        (getBool_holds h.lengthIncludesHeader).1 (hreads .lengthIncludesHeader) }
  · intro hmeans key
    cases key with
    | decoder => exact (getString_holds h.decoder).2 hmeans.decoder
    | frameSize => exact (getSize_holds h.frameSize hframe).2 hmeans.frameSize
    | delimiterHex =>
      obtain ⟨delimiterHex, htext, hdelimiter⟩ := hmeans.delimiter
      exact bind_eq_ok_iff.2 ⟨delimiterHex, (getString_holds h.delimiterHex).2 htext, hdelimiter⟩
    | includeDelimiter => exact (getBool_holds h.includeDelimiter).2 hmeans.includeDelimiter
    | lengthSize => exact (getSize_holds h.lengthSize hlength).2 hmeans.lengthSize
    | lengthEndian => exact (getString_holds h.lengthEndian).2 hmeans.lengthEndian
    | lengthIncludesHeader =>
      exact (getBool_holds h.lengthIncludesHeader).2 hmeans.lengthIncludesHeader

namespace ViewerConfig

variable {config : ViewerConfig} {options : CliOptions}

theorem Held.readDecoder_iff (h : config.Held json) (hframe : 0 ≤ config.decoder.frameSize)
    (hlength : 0 ≤ config.decoder.lengthSize) :
    ConfigKey.decoder.ReadAs lib json options ↔ config.decoder.Means options.decoderConfig := by
  obtain ⟨decoder, hpresent, hobject, hdecoder⟩ := h.decoder
  have hmember : decoderConfigFromJson lib decoder = .ok options.decoderConfig ↔
      config.decoder.Means options.decoderConfig := hdecoder.read_iff hframe hlength
  rw [ConfigKey.ReadAs, getWith_of_present hpresent, bind_eq_ok_iff, ← hmember]
  simp [throwIf_eq_ok_iff, hobject]

/-- What the dict does not set is read as the default. -/
theorem Held.readAbsent_iff (h : config.Held json) :
    (ConfigKey.dataBits.ReadAs lib json options ↔ 8 = options.dataBits) ∧
      (ConfigKey.stopBits.ReadAs lib json options ↔ 1 = options.stopBits) ∧
      (ConfigKey.parity.ReadAs lib json options ↔ SerialParity.none = options.parity) ∧
      (ConfigKey.flowControl.ReadAs lib json options ↔
        SerialFlowControl.none = options.flowControl) := by
  simp only [ConfigKey.ReadAs, getWith_absent h.dataBits, getWith_absent h.stopBits,
    getString_absent h.parity, getString_absent h.flowControl, Except.ok.injEq, true_and]
  have hbind : ∀ {α β : Type} (a : α) (f : α → Except StdException β), (Except.ok a >>= f) = f a :=
    fun _ _ => rfl
  have hparity : parseSerialParity (ascii "none") = .ok .none := rfl
  have hflowControl : parseSerialFlowControl (ascii "none") = .ok .none := rfl
  rw [hbind, hbind, hparity, hflowControl, Except.ok.injEq, Except.ok.injEq]
  exact ⟨Iff.rfl, Iff.rfl⟩

theorem Held.means_of_reads (h : config.Held json) (hframe : 0 ≤ config.decoder.frameSize)
    (hlength : 0 ≤ config.decoder.lengthSize) (hcarried : options.carried = options)
    (hreads : ∀ key : ConfigKey, key.ReadAs lib json options) :
    config.Means options ∧ 1 ≤ config.baudrate ∧ config.baudrate ≤ 4000000 := by
  obtain ⟨hbaud, hrange⟩ := (getBaudrate_holds h.baudrate).1 (hreads .baudrate)
  obtain ⟨hdataBits, hstopBits, hparity, hflowControl⟩ :=
    @Held.readAbsent_iff lib json config options h
  refine ⟨?_, hrange⟩
  exact {
    mode := (getString_holds h.mode).1 (hreads .mode)
    host := (getString_holds h.host).1 (hreads .host)
    port := (getPort_holds h.port).1 (hreads .port)
    serialPort := (getString_holds h.serialPort).1 (hreads .serialPort)
    baudrate := hbaud
    listenHost := (getString_holds h.listenHost).1 (hreads .listenHost)
    listenPort := (getPort_holds h.listenPort).1 (hreads .listenPort)
    bindHost := (getString_holds h.bindHost).1 (hreads .bindHost)
    bindPort := (getPort_holds h.bindPort).1 (hreads .bindPort)
    targetHost := (getString_holds h.targetHost).1 (hreads .targetHost)
    targetPort := (getPort_holds h.targetPort).1 (hreads .targetPort)
    logPath := (getString_holds h.logPath).1 (hreads .logPath)
    hexRaw := (getBool_holds h.hexRaw).1 (hreads .hexRaw)
    hexFrame := (getBool_holds h.hexFrame).1 (hreads .hexFrame)
    latency := (getBool_holds h.latency).1 (hreads .latency)
    decoder := (h.readDecoder_iff hframe hlength).1 (hreads .decoder)
    rest := CliOptions.viewerPart_eq_iff.2 ⟨hcarried, hdataBits.1 (hreads .dataBits),
      hstopBits.1 (hreads .stopBits), hparity.1 (hreads .parity),
      hflowControl.1 (hreads .flowControl)⟩ }

theorem Held.readAs_of_means (h : config.Held json) (hframe : 0 ≤ config.decoder.frameSize)
    (hlength : 0 ≤ config.decoder.lengthSize) (hmeans : config.Means options)
    (hrange : 1 ≤ config.baudrate ∧ config.baudrate ≤ 4000000) (key : ConfigKey) :
    key.ReadAs lib json options := by
  obtain ⟨-, hdata, hstop, hpar, hflow⟩ := CliOptions.viewerPart_eq_iff.1 hmeans.rest
  obtain ⟨hdataBits, hstopBits, hparity, hflowControl⟩ :=
    @Held.readAbsent_iff lib json config options h
  cases key with
  | mode => exact (getString_holds h.mode).2 hmeans.mode
  | host => exact (getString_holds h.host).2 hmeans.host
  | port => exact (getPort_holds h.port).2 hmeans.port
  | serialPort => exact (getString_holds h.serialPort).2 hmeans.serialPort
  | baudrate => exact (getBaudrate_holds h.baudrate).2 ⟨hmeans.baudrate, hrange⟩
  | dataBits => exact hdataBits.2 hdata
  | stopBits => exact hstopBits.2 hstop
  | parity => exact hparity.2 hpar
  | flowControl => exact hflowControl.2 hflow
  | listenHost => exact (getString_holds h.listenHost).2 hmeans.listenHost
  | listenPort => exact (getPort_holds h.listenPort).2 hmeans.listenPort
  | bindHost => exact (getString_holds h.bindHost).2 hmeans.bindHost
  | bindPort => exact (getPort_holds h.bindPort).2 hmeans.bindPort
  | targetHost => exact (getString_holds h.targetHost).2 hmeans.targetHost
  | targetPort => exact (getPort_holds h.targetPort).2 hmeans.targetPort
  | logPath => exact (getString_holds h.logPath).2 hmeans.logPath
  | hexRaw => exact (getBool_holds h.hexRaw).2 hmeans.hexRaw
  | hexFrame => exact (getBool_holds h.hexFrame).2 hmeans.hexFrame
  | latency => exact (getBool_holds h.latency).2 hmeans.latency
  | decoder => exact (h.readDecoder_iff hframe hlength).2 hmeans.decoder

/-- `engine_config_from_json` reads what the dict means, if the baud rate is in range. -/
theorem read_iff (h : Json.ofValue config.value = some json) (hframe : 0 ≤ config.decoder.frameSize)
    (hlength : 0 ≤ config.decoder.lengthSize) :
    engineConfigFromJson lib json = .ok options ↔
      config.Means options ∧ 1 ≤ config.baudrate ∧ config.baudrate ≤ 4000000 := by
  have hheld := config.held h
  rw [engineConfigFromJson_eq_ok_iff]
  constructor
  · rintro ⟨-, hcarried, hreads⟩
    exact hheld.means_of_reads hframe hlength hcarried hreads
  · rintro ⟨hmeans, hrange⟩
    exact ⟨hheld.object, (CliOptions.viewerPart_eq_iff.1 hmeans.rest).1,
      hheld.readAs_of_means hframe hlength hmeans hrange⟩

end ViewerConfig

end PacketProbe
