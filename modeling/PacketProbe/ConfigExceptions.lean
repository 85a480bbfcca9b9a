import PacketProbe.ViewerConfig

/-!
# Exceptions of a configuration

What is thrown when the configuration of a viewer is read and validated. The text of such an
exception can be sent, except where it quotes two bytes of the delimiter that are no characters.
-/

namespace PacketProbe
open JsonText

/-! ### What a computation raises -/

section Raises

variable {α β : Type} {P : StdException → Prop} {x : Except StdException α}
  {f : α → Except StdException β}

/-- Whatever the computation throws has this property. -/
def Raises (P : StdException → Prop) (x : Except StdException α) : Prop :=
  ∀ ex, x = .error ex → P ex

theorem raises_ok (a : α) : Raises P (.ok a) := fun _ h => by cases h

theorem raises_error {ex : StdException} (h : P ex) :
    Raises P (.error ex : Except StdException α) := by
  intro ex' heq
  cases heq
  exact h

theorem raises_of_eq_ok {a : α} (h : x = .ok a) : Raises P x := h ▸ raises_ok a

theorem Raises.bind (h : Raises P x) (hf : ∀ a, x = .ok a → Raises P (f a)) :
    Raises P (x >>= f) := by
  intro ex hex
  cases x with
  | error ex' =>
    cases hex
    exact h _ rfl
  | ok a => exact hf a rfl ex hex

theorem raises_ite {cond : Prop} [Decidable cond] {y : Except StdException α} (hx : Raises P x)
    (hy : Raises P y) : Raises P (if cond then x else y) := by
  split
  · exact hx
  · exact hy

theorem Raises.map (h : Raises P x) (g : α → β) : Raises P (x.map g) := by
  intro ex hex
  cases x with
  | error ex' =>
    cases hex
    exact h _ rfl
  | ok a => cases hex

end Raises

/-- The text of the exception can be sent. -/
def Legible (ex : StdException) : Prop := Utf8.Valid ex.what

instance (ex : StdException) : Decidable (Legible ex) := inferInstanceAs (Decidable (Utf8.Valid _))

/-! ### Validation -/

theorem raises_throwIf {cond : Prop} [Decidable cond] {text : String}
    (h : Utf8.Valid (ascii text)) :
    Raises Legible (throwIf cond text) := raises_ite (raises_error h) (raises_ok ())

theorem raises_throwIf_of_not {P : StdException → Prop} {cond : Prop} [Decidable cond]
    {text : String} (h : ¬ cond) : Raises P (throwIf cond text) := by
  rw [throwIf, if_neg h]
  exact raises_ok ()

theorem raises_validateOptions {options : CliOptions} (h : Utf8.Valid options.mode) :
    Raises Legible (validateOptions options) := by
  have htexts : ∀ text ∈ ["engine requires --ipc", "tcp-client requires --host",
      "tcp-client requires --port", "tcp-server requires --listen-host",
      "tcp-server requires --listen-port", "tcp-proxy requires --listen-host",
      "tcp-proxy requires --listen-port", "tcp-proxy requires --target-host",
      "tcp-proxy requires --target-port", "serial requires --port", "serial requires --baudrate",
      "udp requires --bind-host", "udp requires --bind-port",
      "udp target requires both --target-host and --target-port",
      "udp send input requires --target-host and --target-port"], Utf8.Valid (ascii text) := by
    decide +kernel
  have hunknown : Utf8.Valid (ascii "unknown or missing mode: ") := by decide
  simp only [List.forall_mem_cons] at htexts
  obtain ⟨hengine, hclientHost, hclientPort, hserverHost, hserverPort, hproxyHost, hproxyPort,
    htargetHost, htargetPort, hserialPort, hbaudrate, hbindHost, hbindPort, hboth, hsend, -⟩ :=
      htexts
  refine raises_ite (raises_throwIf hengine) (raises_ite ?_ (raises_ite ?_ (raises_ite ?_
    (raises_ite ?_ (raises_ite ?_ (raises_error (P := Legible) (hunknown.append h)))))))
  · exact .bind (raises_throwIf hclientHost) fun _ _ => raises_throwIf hclientPort
  · exact .bind (raises_throwIf hserverHost) fun _ _ => raises_throwIf hserverPort
  · exact .bind (raises_throwIf hproxyHost) fun _ _ => .bind (raises_throwIf hproxyPort) fun _ _ =>
      .bind (raises_throwIf htargetHost) fun _ _ => raises_throwIf htargetPort
  · exact .bind (raises_throwIf hserialPort) fun _ _ => raises_throwIf hbaudrate
  · exact .bind (raises_throwIf hbindHost) fun _ _ => .bind (raises_throwIf hbindPort) fun _ _ =>
      .bind (raises_throwIf hboth) fun _ _ => raises_throwIf hsend

/-! ### The baud rate -/

theorem raises_stoul (value : ByteString) (base : ℕ) : Raises Legible (stoul value base) := by
  have hstoul : Utf8.Valid (ascii "stoul") := by decide
  exact raises_ite (raises_error hstoul) (raises_ite (raises_error hstoul) (raises_ok _))

theorem raises_parseSerialBaudrate {value : ByteString} (h : Utf8.Valid value) :
    Raises Legible (parseSerialBaudrate value) := by
  have hinvalid : Legible (invalidValue "--baudrate" value) := by
    have hfront : Utf8.Valid (ascii "invalid " ++ ascii "--baudrate" ++ ascii " value: ") := by
      decide
    exact hfront.append h
  refine .bind (.bind (raises_stoul value 10) fun _ _ => ?_) fun _ _ => ?_
  · exact raises_ite (raises_error hinvalid) (raises_ok _)
  · exact raises_ite (raises_error hinvalid) (raises_ok _)

theorem valid_decimal (n : ℕ) : Utf8.Valid (decimal n) := by
  refine Utf8.valid_of_sevenBit fun b hb => ?_
  have hrange := decimalDigit hb
  rw [UInt8.le_iff_toNat_le, UInt8.le_iff_toNat_le] at hrange
  rw [UInt8.lt_iff_toNat_lt]
  simp only [UInt8.reduceToNat] at hrange ⊢
  omega

/-! ### The decoder -/

section Reading

variable {lib : JsonLibrary} {json : Json} {n : ℤ}

/-- An integer is always read. -/
theorem exists_getUInt64 {v : Json} (h : Json.ofValue (.integer n) = some v) :
    ∃ x, lib.getUInt64 v = .ok x := by
  unfold Json.ofValue at h
  split at h
  · cases h
    exact ⟨_, rfl⟩
  · split at h
    · cases h
      exact ⟨_, rfl⟩
    · cases h

theorem raises_baudrate {fallback : UInt32} (h : json.Holds "baudrate" (.integer n)) :
    Raises (fun ex => ¬ (1 ≤ n ∧ n ≤ 4000000) ∧ Legible ex)
      (getWith json "baudrate" fallback fun value => do
        parseSerialBaudrate (decimal (← lib.getUInt64 value).toNat)) := by
  intro ex hex
  constructor
  · rintro ⟨hlow, hhigh⟩
    have hnumber : n = (UInt32.ofNat n.toNat).toNat := by
      rw [UInt32.toNat_ofNat_of_lt' (by change n.toNat < 4294967296; omega)]
      omega
    rw [(getBaudrate_holds h).2 ⟨hnumber, hlow, hhigh⟩] at hex
    cases hex
  · obtain ⟨v, hpresent, hv⟩ := h
    obtain ⟨x, hx⟩ : ∃ x, lib.getUInt64 v = .ok x := exists_getUInt64 hv
    rw [getWith_of_present hpresent] at hex
    refine Raises.bind (raises_of_eq_ok hx) (fun _ _ => ?_) ex hex
    exact raises_parseSerialBaudrate (valid_decimal _)

/-! ### Members of the right kind -/

variable {P : StdException → Prop} {key : String}

theorem raises_getString {text : Text} {fallback : ByteString} (h : json.Holds key (.string text)) :
    Raises P (getString json key fallback) := by
  obtain ⟨v, hpresent, hv⟩ := h
  obtain ⟨bytes, hbytes, rfl⟩ := Option.map_eq_some_iff.1 hv
  exact raises_of_eq_ok ((getString_holds ⟨_, hpresent, hv⟩).2 hbytes)

theorem raises_getBool {b fallback : Bool} (h : json.Holds key (.boolean b)) :
    Raises P (getBool json key fallback) := raises_of_eq_ok ((getBool_holds h).2 rfl)

theorem raises_getPort {fallback : UInt16} (h : json.Holds key (.integer n))
    (hn : ∃ port : UInt16, n = port.toNat) : Raises P (getPort json key fallback) := by
  obtain ⟨port, hport⟩ := hn
  exact raises_of_eq_ok ((getPort_holds h).2 hport)

theorem raises_getSize {fallback : UInt64} (h : json.Holds key (.integer n)) :
    Raises P (getWith json key fallback lib.getUInt64) := by
  obtain ⟨v, hpresent, hv⟩ := h
  obtain ⟨x, hx⟩ : ∃ x, lib.getUInt64 v = .ok x := exists_getUInt64 hv
  exact raises_of_eq_ok ((getWith_of_present hpresent).trans hx)

/-! ### The configuration -/

/-- The exception of the parser of the delimiter. -/
def ViewerDecoderConfig.DelimiterThrows (config : ViewerDecoderConfig) (ex : StdException) : Prop :=
  ∃ delimiterHex, encodeUtf8 config.delimiterHex = some delimiterHex ∧
    delimiterFromHex delimiterHex = .error ex

theorem ViewerDecoderConfig.Held.raises_read {config : ViewerDecoderConfig} (h : config.Held json) :
    Raises config.DelimiterThrows (decoderConfigFromJson lib json) := by
  unfold decoderConfigFromJson
  refine .bind (raises_getString h.decoder) fun _ _ => ?_
  refine .bind (raises_getSize h.frameSize) fun _ _ => ?_
  refine .bind (raises_getString h.delimiterHex) fun delimiterHex hread => ?_
  refine .bind (fun ex hex => ⟨delimiterHex, (getString_holds h.delimiterHex).1 hread, hex⟩)
    fun _ _ => ?_
  refine .bind (raises_getBool h.includeDelimiter) fun _ _ => ?_
  refine .bind (raises_getSize h.lengthSize) fun _ _ => ?_
  refine .bind (raises_getString h.lengthEndian) fun _ _ => ?_
  exact .bind (raises_getBool h.lengthIncludesHeader) fun _ _ => raises_ok _

/-- Of a configuration with ports in range, only the baud rate and the delimiter can be refused,
the baud rate first. -/
theorem ViewerConfig.Held.raises_read {config : ViewerConfig} (h : config.Held json)
    (hports : ∀ n ∈ [config.port, config.listenPort, config.bindPort, config.targetPort],
      ∃ port : UInt16, n = port.toNat) :
    Raises (fun ex => ¬ (1 ≤ config.baudrate ∧ config.baudrate ≤ 4000000) ∧ Legible ex ∨
      (1 ≤ config.baudrate ∧ config.baudrate ≤ 4000000) ∧ config.decoder.DelimiterThrows ex)
      (engineConfigFromJson lib json) := by
  obtain ⟨decoder, hpresent, hobject, hdecoder⟩ := h.decoder
  simp only [List.forall_mem_cons] at hports
  obtain ⟨hport, hlistenPort, hbindPort, htargetPort, -⟩ := hports
  unfold engineConfigFromJson
  refine .bind (raises_throwIf_of_not (by simp [h.object])) fun _ _ => ?_
  refine .bind (raises_getString h.mode) fun _ _ => ?_
  refine .bind (raises_getString h.host) fun _ _ => ?_
  refine .bind (raises_getPort h.port hport) fun _ _ => ?_
  refine .bind (raises_getString h.serialPort) fun _ _ => ?_
  refine .bind (fun ex hex => .inl (raises_baudrate h.baudrate ex hex)) fun _ hbaudrate => ?_
  refine .bind (raises_of_eq_ok (getWith_absent h.dataBits)) fun _ _ => ?_
  refine .bind (raises_of_eq_ok (getWith_absent h.stopBits)) fun _ _ => ?_
  refine .bind (raises_of_eq_ok (getString_absent h.parity)) fun parity hparity => ?_
  rw [getString_absent h.parity] at hparity
  cases hparity
  refine .bind (raises_of_eq_ok rfl) fun _ _ => ?_
  refine .bind (raises_of_eq_ok (getString_absent h.flowControl)) fun flowControl hflowControl => ?_
  rw [getString_absent h.flowControl] at hflowControl
  cases hflowControl
  refine .bind (raises_of_eq_ok rfl) fun _ _ => ?_
  refine .bind (raises_getString h.listenHost) fun _ _ => ?_
  refine .bind (raises_getPort h.listenPort hlistenPort) fun _ _ => ?_
  refine .bind (raises_getString h.bindHost) fun _ _ => ?_
  refine .bind (raises_getPort h.bindPort hbindPort) fun _ _ => ?_
  refine .bind (raises_getString h.targetHost) fun _ _ => ?_
  refine .bind (raises_getPort h.targetPort htargetPort) fun _ _ => ?_
  refine .bind (raises_getString h.logPath) fun _ _ => ?_
  refine .bind (raises_getBool h.hexRaw) fun _ _ => ?_
  refine .bind (raises_getBool h.hexFrame) fun _ _ => ?_
  refine .bind (raises_getBool h.latency) fun _ _ => ?_
  refine .bind ?_ fun _ _ => raises_ok _
  rw [getWith_of_present hpresent]
  refine .bind (raises_throwIf_of_not (by simp [hobject])) fun _ _ => ?_
  have hrange := ((getBaudrate_holds h.baudrate).1 hbaudrate).2
  exact fun ex hex => .inr ⟨hrange, hdecoder.raises_read ex hex⟩

end Reading

end PacketProbe
